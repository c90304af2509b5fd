import Sqlite4a.Cursor

/-!
# `RowIterator` as a `java.util.Iterator`

`Obeys` is the law of an iterator over the rows `rs`: after `p` successful calls of `next()`, `hasNext()` answers
whether `p < rs.length` and leaves the row handed out last as it was, and `next()` hands out row `p` while there is
one.  `hasNext()` steps the statement on every call, so the iterator is at the row that the number of `hasNext()`
calls says, not at the one that the number of `next()` calls says; `InStep` tells from the calls alone when the two
agree, and `obeys_iff_inStep` that the law holds on exactly these calls.
-/

namespace Sqlite4a

inductive Call
  | hasNext
  | next
  deriving DecidableEq, Repr

variable {Db : Type*} (c : Casts) (t : Tick Db) (rs : List Row) (v₀ : Vdbe Db)

/-- The law of the iterator after `p` rows were handed out; `owed` is the row that the latest `next()` returned. -/
def Obeys : Nat → Option Row → RowIterator → Vdbe Db → List Call → Prop
  | _, _, _, _, [] => True
  | p, owed, it, v, .hasNext :: calls =>
    let (answer, it', v') := it.hasNext t v
    answer = .ok (decide (p < rs.length)) ∧
      (∀ row, owed = some row → readRow c v' = rowView c v₀ (some row)) ∧ Obeys p owed it' v' calls
  | p, _, it, v, .next :: calls =>
    match rs[p]? with
    | some row => it.next.1 = .ok () ∧ readRow c v = rowView c v₀ (some row) ∧
        Obeys (p + 1) (some row) it.next.2 v calls
    | none => it.next.1 = .error .noSuchElement ∧ Obeys p none it.next.2 v calls

/-- The calls keep in step, `h` calls of `hasNext()` and `p` of `next()` after the start; `fresh` says that the
latest call was a `hasNext()`.  A `hasNext()` finds both numbers below the number of rows or neither, and row `h`
reads as the row handed out last; a `next()` before the end of the rows comes right after a `hasNext()`, and the
row that the `hasNext()` calls have reached reads as the row that is due. -/
def InStep : Nat → Nat → Bool → List Call → Prop
  | _, _, _, [] => True
  | h, p, _, .hasNext :: calls =>
    (h < rs.length ↔ p < rs.length) ∧
      (∀ row, 0 < p → rs[p - 1]? = some row → rowView c v₀ rs[h]? = rowView c v₀ (some row)) ∧
      InStep (h + 1) p true calls
  | h, p, fresh, .next :: calls =>
    (p < rs.length → fresh = true ∧ rowView c v₀ rs[h - 1]? = rowView c v₀ rs[p]?) ∧ InStep h (p + 1) false calls

/-! ### The state of the iterator -/

/-- The flags after `h` calls of `hasNext()`. -/
structure FlagsAt (h : Nat) (fresh : Bool) (it : RowIterator) : Prop where
  done : it.mDone = decide (rs.length < h)
  pending : it.mHasNext = (fresh && decide (h ≤ rs.length))

variable {c t rs v₀}

/-- `hasNext()` answers whether fewer calls of it than rows were made before. -/
theorem hasNext_spec {h : Nat} {fresh : Bool} {it : RowIterator} {v : Vdbe Db} (hat : AtRow v₀ rs h v)
    (hfl : FlagsAt rs h fresh it) (ht : t.fail = none) (hrs : h = 0 → v₀.query v₀.aVar t.db = rs) :
    (it.hasNext t v).1 = .ok (decide (h < rs.length)) ∧ FlagsAt rs (h + 1) true (it.hasNext t v).2.1 ∧
      AtRow v₀ rs (h + 1) (it.hasNext t v).2.2 := by
  by_cases hlt : rs.length < h
  · -- `SQLITE_DONE` has been reached: the statement is not stepped again
    have hdone : it.mDone = true := by rw [hfl.done]; simp [hlt]
    have hpend : it.mHasNext = false := by rw [hfl.pending]; simp; omega
    have hval : it.hasNext t v = (.ok false, it, v) := by simp [RowIterator.hasNext, hdone]
    rw [hval]
    refine ⟨?_, ⟨?_, ?_⟩, hat.stay hlt⟩
    · simp; omega
    · rw [hdone]; simp; omega
    · rw [hpend]; simp; omega
  · -- the step returns row `h`, or `SQLITE_DONE` after the last one
    have hdone : it.mDone = false := by rw [hfl.done]; simpa using hlt
    obtain ⟨hres, hat'⟩ := hat.step (by omega) ht hrs
    have hval : it.hasNext t v = (.ok (decide (h < rs.length)),
        ⟨decide (h < rs.length), decide (¬ h < rs.length)⟩, (v.step t).2) := by
      simp only [RowIterator.hasNext, hdone, nativeStep, hres, Bool.false_eq_true, if_false]
      by_cases hh : h < rs.length <;> simp [hh, StepResult.code, SQLITE_ROW, SQLITE_DONE]
    rw [hval]
    refine ⟨rfl, ⟨?_, ?_⟩, hat'⟩
    · exact decide_eq_decide.2 (by omega)
    · rw [Bool.true_and]
      exact decide_eq_decide.2 (by omega)

/-- `next()` succeeds exactly right after a `hasNext()` that found a row. -/
theorem next_spec {h : Nat} {fresh : Bool} {it : RowIterator} (hfl : FlagsAt rs h fresh it) :
    it.next.1 = (if fresh = true ∧ h ≤ rs.length then .ok () else .error .noSuchElement) ∧
      FlagsAt rs h false it.next.2 := by
  unfold RowIterator.next
  rw [hfl.pending]
  by_cases hp : fresh = true ∧ h ≤ rs.length
  · simp only [hp, decide_true, Bool.and_self, if_true, and_self]
    exact ⟨trivial, hfl.done, by simp⟩
  · have hpend : (fresh && decide (h ≤ rs.length)) = false := by simpa using hp
    rw [hpend, if_neg hp]
    refine ⟨rfl, hfl.done, ?_⟩
    have := hfl.pending
    rw [hpend] at this
    simpa using this

/-! ### The law -/

/-- The iterator obeys the law from a state that `h` calls of `hasNext()` and `p` of `next()` lead to exactly when
the calls to come keep in step. -/
theorem obeys_iff_inStep_of_state (ht : t.fail = none) (hrs : v₀.query v₀.aVar t.db = rs) (calls : List Call) :
    ∀ {h p : Nat} {fresh : Bool} {it : RowIterator} {v : Vdbe Db}, AtRow v₀ rs h v → FlagsAt rs h fresh it →
      (fresh = true → 0 < h ∧ (h ≤ rs.length ↔ p < rs.length)) →
      (Obeys c t rs v₀ (min p rs.length) (if 0 < p then rs[p - 1]? else none) it v calls ↔
        InStep c rs v₀ h p fresh calls) := by
  -- on the calls; both numbers, the flags and the statement change from call to call
  induction calls with
  | nil => intros; exact Iff.rfl
  | cons call calls ih =>
    intro h p fresh it v hat hfl hinv
    cases call with
    | hasNext =>
      obtain ⟨hans, hfl', hat'⟩ := hasNext_spec hat hfl ht (fun _ => hrs)
      have hread : readRow c (it.hasNext t v).2.2 = rowView c v₀ rs[h]? := by
        rw [readRow_eq_rowView c hat'.colName, hat'.row (Nat.succ_pos h), Nat.add_sub_cancel]
      have hp : min p rs.length < rs.length ↔ p < rs.length := by omega
      simp only [Obeys, InStep, hans, hread, Except.ok.injEq, decide_eq_decide, hp]
      refine and_congr_right fun hstep => and_congr ?_ (ih hat' hfl' fun _ => ⟨Nat.succ_pos h, by omega⟩)
      by_cases hp0 : 0 < p
      · simp only [hp0, if_true, true_imp_iff]
      · simp [hp0]
    | next =>
      obtain ⟨hans, hfl'⟩ := next_spec hfl
      have hread : 0 < h → readRow c v = rowView c v₀ rs[h - 1]? := fun hpos => by
        rw [readRow_eq_rowView c hat.colName, hat.row hpos]
      have hih := ih (p := p + 1) hat hfl' (fun hf => absurd hf Bool.false_ne_true)
      by_cases hp : p < rs.length
      · -- row `p` is due, and the statement is at row `h - 1`
        have hmin : min p rs.length = p := by omega
        have hmin' : min (p + 1) rs.length = p + 1 := by omega
        have hget : rs[p]? = some rs[p] := List.getElem?_eq_getElem hp
        rw [hmin'] at hih
        simp only [Nat.add_sub_cancel, Nat.succ_pos, if_true, hget] at hih
        simp only [Obeys, InStep, hmin, hget, hans, hp, true_imp_iff, ← hih]
        constructor
        · intro ⟨hok, hview, hrest⟩
          by_cases hf : fresh = true ∧ h ≤ rs.length
          · exact ⟨⟨hf.1, by rw [← hview, hread (hinv hf.1).1]⟩, hrest⟩
          · rw [if_neg hf] at hok; cases hok
        · intro ⟨⟨hf, hview⟩, hrest⟩
          have hle : h ≤ rs.length := (hinv hf).2.2 hp
          exact ⟨if_pos ⟨hf, hle⟩, by rw [hread (hinv hf).1, hview], hrest⟩
      · -- all rows have been handed out, so `next()` has to throw
        have hmin : min p rs.length = rs.length := by omega
        have hmin' : min (p + 1) rs.length = rs.length := by omega
        have hend : rs[p]? = none := List.getElem?_eq_none (by omega)
        have hnot : ¬ (fresh = true ∧ h ≤ rs.length) := fun hf => hp ((hinv hf.1).2.1 hf.2)
        rw [hmin'] at hih
        simp only [Nat.add_sub_cancel, Nat.succ_pos, if_true, hend] at hih
        simp only [Obeys, InStep, hmin, List.getElem?_eq_none (Nat.le_refl _), hans, if_neg hnot, hp,
          false_imp_iff, true_and, hih]

/-- `RowIterator` obeys the law of an iterator over the rows of its statement exactly on the calls that keep in
step. -/
theorem obeys_iff_inStep {v v' : Vdbe Db} {it : RowIterator} (calls : List Call) (ht : t.fail = none)
    (hsel : select v = (.ok it, v')) :
    Obeys c t (v.query v.aVar t.db) v' 0 none it v' calls ↔
      InStep c (v.query v.aVar t.db) v' 0 0 false calls := by
  obtain ⟨rfl, hbusy, hquery, -, hvar⟩ := select_ok hsel
  have hrs : v'.query v'.aVar t.db = v.query v.aVar t.db := by rw [hquery, hvar]
  have hfl : FlagsAt (v.query v.aVar t.db) 0 false {} := ⟨by simp, by simp⟩
  have h := obeys_iff_inStep_of_state (c := c) ht hrs calls (p := 0) (AtRow.zero _ hbusy) hfl
    (fun hf => absurd hf Bool.false_ne_true)
  simpa only [Nat.zero_min, Nat.lt_irrefl, if_false] using h

/-! ### A query with two rows -/

/-- `SELECT 1 UNION ALL SELECT 2`. -/
def oneTwo : Vdbe Unit := Vdbe.prepared (fun _ _ => [[.integer 1], [.integer 2]]) [[49]] 0

theorem obeys_oneTwo :
    Obeys .ofIntegers ⟨(), none, none, none⟩ [[.integer 1], [.integer 2]] oneTwo 0 none {} oneTwo
      [.hasNext, .next] :=
  (obeys_iff_inStep (v := oneTwo) [.hasNext, .next] rfl rfl).2
    ⟨by decide, fun _ h => absurd h (by decide), fun _ => ⟨rfl, rfl⟩, trivial⟩

/-- Asked twice, `hasNext()` skips the first row. -/
theorem not_obeys_oneTwo :
    ¬ Obeys .ofIntegers ⟨(), none, none, none⟩ [[.integer 1], [.integer 2]] oneTwo 0 none {} oneTwo
      [.hasNext, .hasNext, .next] := by
  intro ⟨_, _, _, _, _, hview, _⟩
  have h : (2 : Int64) = 1 := congrArg (fun r => r.getColumnLong 0) hview
  exact absurd h (by decide)

end Sqlite4a
