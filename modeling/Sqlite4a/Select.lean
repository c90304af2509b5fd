import Sqlite4a.Runs
import Sqlite4a.Binding
import Sqlite4a.IteratorLaw

/-!
# What `select()` starts

A history is any sequence of calls on one statement and on the iterators it has given out.  `bound` keeps account of
the parameters from what the calls returned: a `bind` that returned sets its parameter, one that found its value too
big leaves `NULL`, and a `clearBindings()` that returned makes all of them `NULL`; a call that threw otherwise changes
nothing.  Whatever the history was, as long as `insert()` and `execute()` succeeded and no step returned
`SQLITE_BUSY`, the loop over the next `select()` reads the whole result for the parameters in that account
(`select_complete`).  The invariant is that a run in progress carries no error, so `sqlite3_reset` has none to report.
-/

namespace Sqlite4a

variable {Db : Type*} (c : Casts)

/-- One statement with the iterators that `select()` has returned, oldest first. -/
structure Hist (Db : Type*) where
  stmt : Vdbe Db
  iters : List RowIterator
  regs : Registers
  bound : List Value

inductive Use (Db : Type*)
  | bind (index : Int) (arg : BindArg)
  | clearBindings
  | insert (t : Tick Db)
  | execute (t : Tick Db)
  | select
  | hasNext (k : Nat) (t : Tick Db)
  | next (k : Nat)

/-- The account of the parameters after a `bind` call that gave this reply. -/
def boundAfter (index : Int) (arg : BindArg) (reply : Except JavaException Unit) (bound : List Value) : List Value :=
  match reply with
  | .ok _ =>
    match arg.outcome with
    | some (.ok m) => bound.set (index - 1).toNat m
    | _ => bound
  | .error e =>
    if e = throwSqliteException Failure.tooBig.msg none then bound.set (index - 1).toNat .null else bound

/-- An `insert()` or `execute()` that finalizes the statement has thrown; it ends the history. -/
def Hist.afterStep (s : Hist Db) (r : Except JavaException Int × Registers × Option (Vdbe Db)) : Hist Db :=
  { s with regs := r.2.1, stmt := r.2.2.getD s.stmt }

def use (s : Hist Db) : Use Db → Hist Db
  | .bind index arg =>
    let (reply, v) := bind index arg s.stmt
    { s with stmt := v, bound := boundAfter index arg reply s.bound }
  | .clearBindings =>
    let (reply, v) := clearBindings s.stmt
    { s with stmt := v, bound := if reply = .ok () then s.bound.map fun _ => .null else s.bound }
  | .insert t => s.afterStep (nativeInsert t s.regs s.stmt)
  | .execute t => s.afterStep (nativeExecute t s.regs s.stmt)
  | .select =>
    match select s.stmt with
    | (.ok it, v) => { s with stmt := v, iters := s.iters ++ [it] }
    | (.error _, v) => { s with stmt := v }
  | .hasNext k t =>
    match s.iters[k]? with
    | some it =>
      let (_, it, v) := it.hasNext t s.stmt
      { s with stmt := v, iters := s.iters.set k it }
    | none => s
  | .next k =>
    match s.iters[k]? with
    | some it => { s with iters := s.iters.set k it.next.2 }
    | none => s

def Hist.start (v : Vdbe Db) : Hist Db := ⟨v, [], {}, v.aVar⟩

/-- `insert()` and `execute()` succeed, and no step returns `SQLITE_BUSY`. -/
def Allowed (s : Hist Db) : Use Db → Prop
  | .insert t => ∃ rowid, (nativeInsert t s.regs s.stmt).1 = .ok rowid
  | .execute t => ∃ count, (nativeExecute t s.regs s.stmt).1 = .ok count
  | .hasNext _ t => (nativeStep t s.stmt).1 ≠ SQLITE_BUSY
  | _ => True

/-- `while (it.hasNext()) { row = it.next(); ... }` with one tick for each `hasNext()`: the rows as the body reads
them, and whether the loop has come to its end. -/
def drive : List (Tick Db) → RowIterator → Vdbe Db → List SQLiteRow × Bool
  | [], _, _ => ([], false)
  | t :: ts, it, v =>
    match it.hasNext t v with
    | (.ok true, it, v) =>
      match it.next with
      | (.ok _, it) => (readRow c v :: (drive ts it v).1, (drive ts it v).2)
      | (.error _, _) => ([], false)
    | (.ok false, _, _) => ([], true)
    | (.error _, _, _) => ([], false)

/-! ### The invariant -/

/-- The statement is the one prepared, its parameters are those of the account, and a run in progress has no error. -/
structure Hist.Good (v₀ : Vdbe Db) (s : Hist Db) : Prop where
  query : s.stmt.query = v₀.query
  colName : s.stmt.colName = v₀.colName
  aVar : s.stmt.aVar = s.bound
  running : s.stmt.busy = true → s.stmt.rc = none

theorem Hist.good_start {v : Vdbe Db} (hv : v.phase = .fresh) : (Hist.start v).Good v where
  query := rfl
  colName := rfl
  aVar := rfl
  running _ := by simp only [start, Vdbe.rc, hv]

theorem Vdbe.rowOrDone_rc (rows : List Row) (k : Nat) (v : Vdbe Db) : (v.rowOrDone rows k).2.rc = none := by
  unfold rowOrDone
  split <;> rfl

/-- Only `SQLITE_BUSY` leaves a statement running with an error. -/
theorem Vdbe.step_running {t : Tick Db} {v : Vdbe Db} (h : (nativeStep t v).1 ≠ SQLITE_BUSY)
    (hb : (v.step t).2.busy = true) : (v.step t).2.rc = none := by
  unfold nativeStep at h
  unfold step exec at h hb ⊢
  cases hf : t.fail with
  | none => exact rowOrDone_rc _ _ _
  | some f =>
    rw [hf] at h hb
    have hcode : f.code ≠ SQLITE_BUSY := h
    simp only [hcode, if_false] at hb
    cases hb

theorem Hist.Good.step {v₀ : Vdbe Db} {s : Hist Db} (hs : s.Good v₀) {t : Tick Db}
    (h : (nativeStep t s.stmt).1 ≠ SQLITE_BUSY) (iters : List RowIterator) (regs : Registers) :
    (Hist.mk (s.stmt.step t).2 iters regs s.bound).Good v₀ := by
  obtain ⟨hq, hcol, hvar⟩ := Vdbe.step_frame t s.stmt
  exact ⟨hq.trans hs.query, hcol.trans hs.colName, hvar.trans hs.aVar, Vdbe.step_running h⟩

/-- An `insert()` or `execute()` that succeeds has stepped the statement to `SQLITE_DONE`. -/
theorem stepToCompletion_ok {read : Registers → Int} {t : Tick Db} {regs : Registers} {v : Vdbe Db} {n : Int}
    (h : (stepToCompletion read t regs v).1 = .ok n) :
    (nativeStep t v).1 = SQLITE_DONE ∧ (stepToCompletion read t regs v).2.2 = some (v.step t).2 := by
  unfold stepToCompletion at h ⊢
  unfold nativeStep
  by_cases hd : (v.step t).1.code = SQLITE_DONE
  · exact ⟨hd, by simp [hd]⟩
  · simp [hd] at h

theorem Hist.Good.afterStep {v₀ : Vdbe Db} {s : Hist Db} (hs : s.Good v₀) {read : Registers → Int} {t : Tick Db}
    {n : Int}
    (h : (stepToCompletion read t s.regs s.stmt).1 = .ok n) :
    (s.afterStep (stepToCompletion read t s.regs s.stmt)).Good v₀ := by
  obtain ⟨hdone, hstmt⟩ := stepToCompletion_ok h
  have hnb : (nativeStep t s.stmt).1 ≠ SQLITE_BUSY := by rw [hdone]; decide
  unfold Hist.afterStep
  rw [hstmt]
  exact hs.step hnb s.iters _

theorem Hist.Good.bind {v₀ : Vdbe Db} {s : Hist Db} (hs : s.Good v₀) (index : Int) (arg : BindArg) :
    (use s (.bind index arg)).Good v₀ := by
  have hset : ∀ m, (s.stmt.setVar index m).aVar = s.bound.set (index - 1).toNat m := by
    intro m
    simp only [Vdbe.setVar, hs.aVar]
  rcases bind_cases index arg s.stmt with ⟨hv, hreply⟩ | ⟨m, hm, hb⟩ | ⟨-, hb⟩
  · -- the parameter has not been reached, and the account does not change either
    have hbound : boundAfter index arg (Sqlite4a.bind index arg s.stmt).1 s.bound = s.bound := by
      rcases hreply with ⟨hr, hnone⟩ | ⟨f, hf, hr⟩
      · simp only [boundAfter, hr, hnone]
      · rw [hr, boundAfter, if_neg]
        rcases List.mem_cons.1 hf with rfl | hf
        · decide
        · obtain rfl := List.mem_singleton.1 hf
          decide
    have huse : use s (.bind index arg) = s := by
      simp only [use, hv, hbound]
    rw [huse]
    exact hs
  · have huse : use s (.bind index arg) =
        { s with stmt := s.stmt.setVar index m, bound := s.bound.set (index - 1).toNat m } := by
      simp only [use, hb, boundAfter, hm]
    rw [huse]
    exact ⟨hs.query, hs.colName, hset m, hs.running⟩
  · have huse : use s (.bind index arg) =
        { s with stmt := s.stmt.setVar index .null, bound := s.bound.set (index - 1).toNat .null } := by
      simp only [use, hb, boundAfter, if_true]
    rw [huse]
    exact ⟨hs.query, hs.colName, hset .null, hs.running⟩

/-- `clearBindings()` resets the statement; the parameters are cleared unless the run it ended had failed. -/
theorem clearBindings_cases (v : Vdbe Db) :
    clearBindings v = (.ok (), { v.reset.2 with aVar := v.aVar.map fun _ => .null }) ∨
      ∃ e, clearBindings v = (.error e, v.reset.2) := by
  cases hrc : v.rc with
  | none => exact .inl (by simp [clearBindings, Vdbe.reset, hrc, Vdbe.clearBindings, throwUnlessOk])
  | some f => exact .inr ⟨throwSqliteException f.msg none, by simp [clearBindings, Vdbe.reset, hrc, throwUnlessOk]⟩

theorem Hist.Good.clearBindings {v₀ : Vdbe Db} {s : Hist Db} (hs : s.Good v₀) : (use s .clearBindings).Good v₀ := by
  rcases clearBindings_cases s.stmt with h | ⟨e, h⟩
  · simp only [use, h, if_true]
    refine ⟨hs.query, hs.colName, ?_, fun hb => nomatch hb⟩
    show s.stmt.aVar.map _ = _
    rw [hs.aVar]
  · have hne : ¬ (Except.error e : Except JavaException Unit) = .ok () := fun he => nomatch he
    simp only [use, h, hne, if_false]
    exact ⟨hs.query, hs.colName, hs.aVar, fun hb => nomatch hb⟩

/-- `select()` never throws in such a history. -/
theorem Hist.Good.select_ok {v₀ : Vdbe Db} {s : Hist Db} (hs : s.Good v₀) : ∃ v, select s.stmt = (.ok {}, v) := by
  unfold select nativeBusy
  by_cases hb : s.stmt.busy
  · have hreset : nativeReset s.stmt = (.ok (), s.stmt.reset.2) := by
      simp only [nativeReset, Vdbe.reset, hs.running hb, throwUnlessOk]
    simp [hb, hreset]
  · simp [hb]

theorem Hist.good_use {v₀ : Vdbe Db} (s : Hist Db) (u : Use Db) (hs : s.Good v₀) (hok : Allowed s u) :
    (use s u).Good v₀ := by
  cases u with
  | bind index arg => exact hs.bind index arg
  | clearBindings => exact hs.clearBindings
  | insert t =>
    obtain ⟨rowid, h⟩ := hok
    exact hs.afterStep h
  | execute t =>
    obtain ⟨count, h⟩ := hok
    exact hs.afterStep h
  | select =>
    obtain ⟨v, hsel⟩ := hs.select_ok
    obtain ⟨-, hbusy, hq, hcol, hvar⟩ := Sqlite4a.select_ok hsel
    simp only [use, hsel]
    refine ⟨hq.trans hs.query, hcol.trans hs.colName, hvar.trans hs.aVar, ?_⟩
    -- after `select()` no run is in progress
    intro hb
    rw [hbusy] at hb
    cases hb
  | hasNext k t =>
    cases hk : s.iters[k]? with
    | none =>
      simp only [use, hk]
      exact hs
    | some it =>
      cases hd : it.mDone with
      | true =>
        simp only [use, hk, RowIterator.hasNext, hd, if_true]
        exact ⟨hs.query, hs.colName, hs.aVar, hs.running⟩
      | false =>
        simp only [use, hk, RowIterator.hasNext, hd, Bool.false_eq_true, if_false]
        exact hs.step hok _ s.regs
  | next k =>
    cases hk : s.iters[k]? with
    | none =>
      simp only [use, hk]
      exact hs
    | some it =>
      simp only [use, hk]
      exact ⟨hs.query, hs.colName, hs.aVar, hs.running⟩

/-! ### The loop -/

variable {v₀ : Vdbe Db} {rs : List Row}

/-- From row `h` on, the loop reads the remaining rows in order and comes to its end. -/
theorem drive_atRow (ts : List (Tick Db)) :
    ∀ {h : Nat} {fresh : Bool} {it : RowIterator} {v : Vdbe Db}, AtRow v₀ rs h v → FlagsAt rs h fresh it →
      (∀ t ∈ ts, t.fail = none) → (h = 0 → ∀ t, ts.head? = some t → v₀.query v₀.aVar t.db = rs) →
      h ≤ rs.length → rs.length - h < ts.length →
      drive c ts it v = ((rs.drop h).map fun row => rowView c v₀ (some row), true) := by
  -- on the ticks, of which there are more than rows left
  induction ts with
  | nil => intro h fresh it v _ _ _ _ _ hlen; exact absurd hlen (Nat.not_lt_zero _)
  | cons t ts ih =>
    intro h fresh it v hat hfl hts hrs hle hlen
    have ht : t.fail = none := hts t List.mem_cons_self
    obtain ⟨hans, hfl', hat'⟩ := hasNext_spec hat hfl ht (fun h0 => hrs h0 t rfl)
    rcases hr : it.hasNext t v with ⟨answer, it', v'⟩
    rw [hr] at hans hfl' hat'
    by_cases hlt : h < rs.length
    · -- row `h` is there: the body reads it, and the loop goes on from row `h + 1`
      have hanswer : answer = .ok true := by simpa [hlt] using hans
      obtain ⟨hnext, hfl''⟩ := next_spec hfl'
      rw [if_pos ⟨rfl, by omega⟩] at hnext
      have hrest := ih hat' hfl'' (fun u hu => hts u (List.mem_cons_of_mem t hu))
          (fun h0 => absurd h0 (Nat.succ_ne_zero h))
        (by omega) (by simp only [List.length_cons] at hlen; omega)
      have hread : readRow c v' = rowView c v₀ (some rs[h]) := by
        rw [readRow_eq_rowView c hat'.colName, hat'.row (Nat.succ_pos h), Nat.add_sub_cancel,
          List.getElem?_eq_getElem hlt]
      have hval : it'.next = (.ok (), it'.next.2) := Prod.ext hnext rfl
      rw [drive, hr, hanswer]
      dsimp only
      rw [hval]
      dsimp only
      rw [hrest, hread, List.drop_eq_getElem_cons hlt, List.map_cons]
    · have hanswer : answer = .ok false := by simpa [hlt] using hans
      rw [drive, hr, hanswer, List.drop_eq_nil_of_le (by omega), List.map_nil]

/-- On a statement that is not running, the loop reads the whole result for its parameters. -/
theorem drive_idle {v : Vdbe Db} (hbusy : v.busy = false) (t : Tick Db) (ts : List (Tick Db))
    (hts : ∀ u ∈ t :: ts, u.fail = none) (hlen : (v.query v.aVar t.db).length ≤ ts.length) :
    drive c (t :: ts) {} v = ((v.query v.aVar t.db).map fun row => rowView c v (some row), true) := by
  have hfl : FlagsAt (v.query v.aVar t.db) 0 false {} := ⟨by simp, by simp⟩
  rw [drive_atRow c (t :: ts) (AtRow.zero _ hbusy) hfl hts (fun _ u hu => by cases hu; rfl) (Nat.zero_le _)
    (by simp only [List.length_cons]; omega)]
  rfl

/-- After any history the loop over the next `select()` reads all rows of the query for the parameters that are
bound, on the database as its first `hasNext()` finds it, each once and in order. -/
theorem select_complete (query : List Value → Db → List Row) (colName : List (List UInt8)) (nVar : Nat)
    (uses : List (Use Db)) (hallowed : Runs.Guarded use Allowed (Hist.start (.prepared query colName nVar)) uses)
    (t : Tick Db) (ts : List (Tick Db)) (hts : ∀ u ∈ t :: ts, u.fail = none)
    (hlen : (query (Runs.run use (Hist.start (.prepared query colName nVar)) uses).bound t.db).length ≤ ts.length) :
    ∃ it v, select (Runs.run use (Hist.start (.prepared query colName nVar)) uses).stmt = (.ok it, v) ∧
      drive c (t :: ts) it v =
        ((query (Runs.run use (Hist.start (.prepared query colName nVar)) uses).bound t.db).map
          fun row => rowView c (.prepared query colName nVar) (some row), true) := by
  have hgood := Runs.invariant_run Hist.good_use
    (Hist.good_start (v := Vdbe.prepared query colName nVar) rfl) hallowed
  generalize Runs.run use (Hist.start (.prepared query colName nVar)) uses = s at hgood hlen
  obtain ⟨v, hsel⟩ := hgood.select_ok
  obtain ⟨-, hbusy, hq, hcol, hvar⟩ := select_ok hsel
  refine ⟨{}, v, hsel, ?_⟩
  have hquery : v.query v.aVar t.db = query s.bound t.db := by
    rw [hq, hvar, hgood.query, hgood.aVar]
    rfl
  have hview : ∀ row, rowView c v row = rowView c (.prepared query colName nVar) row := fun row =>
    readRow_eq_rowView c (hcol.trans hgood.colName)
  rw [drive_idle c hbusy t ts hts (by rw [hquery]; exact hlen), hquery]
  simp only [hview]

/-- A query for the parameters that are not `NULL`. -/
def nonNull (params : List Value) (_ : Unit) : List Row := (params.filter (· ≠ .null)).map ([·])

/-- A write, an abandoned run, a failed one, and a `clearBindings()` that throws. -/
def pastUses : List (Use Unit) :=
  [.insert ⟨(), none, none, none⟩, .clearBindings, .bind 1 (.long 5), .select, .hasNext 0 ⟨(), none, none, none⟩,
    .select,
    .hasNext 1 ⟨(), some .range, none, none⟩, .clearBindings, .bind 1 (.long 7)]

theorem select_complete_sample :
    ∃ it v, select (Runs.run use (Hist.start (.prepared nonNull [[63]] 1)) pastUses).stmt = (.ok it, v) ∧
      drive Casts.ofIntegers [⟨(), none, none, none⟩, ⟨(), none, none, none⟩] it v =
        ((nonNull [.integer 7] ()).map fun row => rowView Casts.ofIntegers (.prepared nonNull [[63]] 1) (some row),
          true) :=
  have hallowed : Runs.Guarded use Allowed (Hist.start (.prepared nonNull [[63]] 1)) pastUses := by
    refine ⟨⟨0, by decide⟩, trivial, trivial, trivial, ?_, trivial, ?_, trivial, trivial, trivial⟩
    · show (nativeStep _ _).1 ≠ SQLITE_BUSY
      decide
    · show (nativeStep _ _).1 ≠ SQLITE_BUSY
      decide
  select_complete Casts.ofIntegers nonNull [[63]] 1 pastUses hallowed _ [⟨(), none, none, none⟩] (by decide) (by decide)

end Sqlite4a
