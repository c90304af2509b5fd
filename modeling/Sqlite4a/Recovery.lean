import Sqlite4a.IteratorErrors
import Sqlite4a.Select

/-!
# After a failed step

`sqlite3_reset` resets the statement whatever happened, and returns the error of the run it ends.  `clearBindings()`
and `select()` take that for a failure of their own: `clearBindings()` then leaves the parameters as they are, and
`select()`, which resets only a statement that is busy, throws after `SQLITE_BUSY` (`recovers_iff`).  The statement has
been reset all the same, so that a second call succeeds (`recovers_second`).
-/

namespace Sqlite4a

variable {Db : Type*} (c : Casts)

/-- `clearBindings()` returns with the statement reset and all parameters `NULL`. -/
structure ClearsBindings (v : Vdbe Db) : Prop where
  returns : (clearBindings v).1 = .ok ()
  reset : (clearBindings v).2.phase = .fresh
  null : ∀ m ∈ (clearBindings v).2.aVar, m = .null

/-- `select()` returns an iterator that reads the whole result for the parameters of the statement. -/
def SelectsAfresh (v : Vdbe Db) : Prop :=
  ∃ it w, select v = (.ok it, w) ∧ ∀ t ts, (∀ u ∈ t :: ts, u.fail = none) → (v.query v.aVar t.db).length ≤ ts.length →
    drive c (t :: ts) it w = ((v.query v.aVar t.db).map fun row => rowView c v (some row), true)

structure Recovers (v : Vdbe Db) : Prop where
  clears : ClearsBindings v
  selects : SelectsAfresh c v

/-- What a failed step leaves: its error, and a busy statement after `SQLITE_BUSY`. -/
theorem Vdbe.step_failed {v : Vdbe Db} {t : Tick Db} {f : Failure} (h : (v.step t).1 = .error f) :
    (v.step t).2.rc = some f ∧ ((v.step t).2.busy = true ↔ f.code = SQLITE_BUSY) := by
  unfold step exec at h ⊢
  cases hfail : t.fail with
  | none =>
    -- a row or the end is no error
    rw [hfail] at h
    dsimp only at h
    unfold rowOrDone at h
    split at h <;> cases h
  | some g =>
    rw [hfail] at h
    obtain rfl : g = f := by cases h; rfl
    dsimp only
    by_cases hbusy : g.code = SQLITE_BUSY
    · rw [if_pos hbusy]
      exact ⟨rfl, iff_of_true rfl hbusy⟩
    · rw [if_neg hbusy]
      exact ⟨rfl, iff_of_false Bool.false_ne_true hbusy⟩

theorem not_clearsBindings_of_rc {v : Vdbe Db} {f : Failure} (h : v.rc = some f) : ¬ ClearsBindings v := by
  intro hc
  have hreturns := hc.returns
  simp only [clearBindings, Vdbe.reset, h, throwUnlessOk] at hreturns
  cases hreturns

theorem clearsBindings_of_rc {v : Vdbe Db} (h : v.rc = none) : ClearsBindings v := by
  have hval : clearBindings v = (.ok (), { v.reset.2 with aVar := v.aVar.map fun _ => .null }) := by
    simp only [clearBindings, Vdbe.reset, h, Vdbe.clearBindings, throwUnlessOk]
  constructor
  · rw [hval]
  · rw [hval]; rfl
  · rw [hval]
    intro m hm
    obtain ⟨_, _, rfl⟩ := List.mem_map.1 hm
    rfl

/-- `select()` fails where it has a failed run to reset. -/
theorem selectsAfresh_iff (v : Vdbe Db) : SelectsAfresh c v ↔ ¬ (v.busy = true ∧ v.rc ≠ none) := by
  constructor
  · intro ⟨it, w, hsel, _⟩ ⟨hbusy, hrc⟩
    obtain ⟨f, hf⟩ := Option.ne_none_iff_exists'.1 hrc
    simp only [select, nativeBusy, hbusy, if_true, Int.zero_lt_one, nativeReset, Vdbe.reset, hf, throwUnlessOk] at hsel
    cases (Prod.mk.inj hsel).1
  · intro h
    have hok : ∃ w, select v = (.ok {}, w) := by
      unfold select nativeBusy
      by_cases hbusy : v.busy
      · have hrc : v.rc = none := by
          by_contra hrc
          exact h ⟨hbusy, hrc⟩
        have hreset : nativeReset v = (.ok (), v.reset.2) := by
          simp only [nativeReset, Vdbe.reset, hrc, throwUnlessOk]
        simp [hbusy, hreset]
      · simp [hbusy]
    obtain ⟨w, hsel⟩ := hok
    obtain ⟨-, hbusy, hq, hcol, hvar⟩ := select_ok hsel
    refine ⟨{}, w, hsel, fun t ts hts hlen => ?_⟩
    have hview : ∀ row, rowView c w row = rowView c v row := fun row => readRow_eq_rowView c hcol
    rw [drive_idle c hbusy t ts hts (by rw [hq, hvar]; exact hlen), hq, hvar]
    simp only [hview]

/-- After a run that ended in a step error, `clearBindings()` never does its work, and `select()` does exactly where the
error was not `SQLITE_BUSY`. -/
theorem recovers_iff (v : Vdbe Db) (asks : List (Ask Db)) (t : Tick Db) (f : Failure)
    (hopen : (Runs.run ask (Session.start v) asks).it.mDone = false)
    (hfail : ((Runs.run ask (Session.start v) asks).stmt.step t).1 = .error f) :
    ¬ Recovers c (Runs.run ask (Session.start v) (asks ++ [.hasNext t])).stmt ∧
      ¬ ClearsBindings (Runs.run ask (Session.start v) (asks ++ [.hasNext t])).stmt ∧
      (SelectsAfresh c (Runs.run ask (Session.start v) (asks ++ [.hasNext t])).stmt ↔ f.code ≠ SQLITE_BUSY) := by
  have hlast : (Runs.run ask (Session.start v) (asks ++ [.hasNext t])).stmt =
      ((Runs.run ask (Session.start v) asks).stmt.step t).2 := by
    rw [Runs.run, List.foldl_append, List.foldl_cons, List.foldl_nil]
    exact congrArg Session.stmt (ask_hasNext_step hopen)
  obtain ⟨hrc, hbusy⟩ := Vdbe.step_failed hfail
  rw [hlast]
  have hclear := not_clearsBindings_of_rc hrc
  refine ⟨fun h => hclear h.clears, hclear, ?_⟩
  rw [selectsAfresh_iff, hbusy]
  exact ⟨fun h hb => h ⟨hb, by rw [hrc]; simp⟩, fun h hb => h hb.1⟩

/-- `SELECT ?, a FROM t` over the rows of `t`, with its parameter bound to 1. -/
def selectTagged : Vdbe (List Row) :=
  { Vdbe.prepared (fun params t => t.map (params ++ ·)) [[63], [97]] 1 with aVar := [.integer 1] }

/-- It meets a locked database. -/
def busyRun : List (Ask (List Row)) := [.hasNext ⟨[[.integer 2]], some .busy, none, none⟩]

theorem not_recovers_busy : ¬ Recovers Casts.ofIntegers (Runs.run ask (Session.start selectTagged) busyRun).stmt := by
  intro h
  exact not_clearsBindings_of_rc (f := .busy) rfl h.clears

theorem recovers_iff_busy :
    ¬ Recovers Casts.ofIntegers (Runs.run ask (Session.start selectTagged) busyRun).stmt ∧
      ¬ ClearsBindings (Runs.run ask (Session.start selectTagged) busyRun).stmt ∧
      (SelectsAfresh Casts.ofIntegers (Runs.run ask (Session.start selectTagged) busyRun).stmt ↔
        Failure.busy.code ≠ SQLITE_BUSY) :=
  recovers_iff Casts.ofIntegers selectTagged [] ⟨[[.integer 2]], some .busy, none, none⟩ .busy rfl rfl

/-- The call that failed has reset the statement, so the next one succeeds. -/
theorem recovers_second (v : Vdbe Db) : Recovers c (clearBindings v).2 := by
  have hfresh : (clearBindings v).2.phase = .fresh := by
    rcases clearBindings_cases v with h | ⟨e, h⟩ <;> rw [h] <;> rfl
  have hrc : (clearBindings v).2.rc = none := by simp only [Vdbe.rc, hfresh]
  exact ⟨clearsBindings_of_rc hrc, (selectsAfresh_iff c _).2 fun h => h.2 hrc⟩

end Sqlite4a
