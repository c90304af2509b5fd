import Sqlite4a.Runs
import Sqlite4a.SQLiteStmt

/-!
# Concurrent inserts

With `OPEN_FULLMUTEX` each call of a `sqlite3_` function holds the mutex of the connection, so each is one step of
the schedule; `nativeInsert` is two of them (`insert_uninterrupted`), and the mutex is free in between.  Every client
has a statement of its own that inserts one row.  What its call returns is the rowid that was set last before it read
back, by whichever client, also by one whose step has failed after that (`ReadsLatest`); so the calls all return their
own rows exactly in the schedules where no read-back has been overtaken by another rowid
(`ownRowids_iff_notOvertaken`).
-/

namespace Sqlite4a

variable {κ Db : Type*}

/-- What the step of a single-row `INSERT` into a rowid table does.  A step may fail after `OP_Insert` has set
`db->lastRowid`, in a trigger or when it commits; the rollback does not restore it. -/
inductive InsertOutcome
  | inserted (rowid : Int64)
  | failed (rowid : Option Int64) (changes : Option Int) (f : Failure)

namespace InsertOutcome

/-- What is left in `db->lastRowid`. -/
def rowid : InsertOutcome → Option Int64
  | .inserted rowid => some rowid
  | .failed rowid _ _ => rowid

def tick (db : Db) : InsertOutcome → Tick Db
  | .inserted rowid => ⟨db, none, some rowid, some 1⟩
  | .failed rowid changes f => ⟨db, some f, rowid, changes⟩

end InsertOutcome

/-- Where a client is: outside `insert()`, between its two calls, or left with a finalized statement.  After its own
row, `since` are the rowids that the steps of other clients have set. -/
inductive Caller (Db : Type*)
  | ready (v : Vdbe Db)
  | stepped (v : Vdbe Db) (own : Int64) (since : List Int64)
  | finalized

namespace Caller

def afterStep (r : StepResult) (v : Vdbe Db) : InsertOutcome → Caller Db
  | .inserted own => if r.code ≠ SQLITE_DONE then .finalized else .stepped v own []
  | .failed _ _ _ => .finalized

/-- The account of a client while another one steps. -/
def observe (o : InsertOutcome) : Caller Db → Caller Db
  | .stepped v own since => .stepped v own (since ++ o.rowid.toList)
  | x => x

def ofStmt : Option (Vdbe Db) → Caller Db
  | some v => .ready v
  | none => .finalized

end Caller

/-- An `insert()` that has returned, with the rowid of the row its step inserted. -/
structure Reply (κ : Type*) where
  client : κ
  own : Int64
  returned : Int
  deriving DecidableEq

structure Serialized (κ Db : Type*) where
  regs : Registers := {}
  caller : κ → Caller Db
  replies : List (Reply κ) := []

def Serialized.opened (stmts : κ → Vdbe Db) : Serialized κ Db := { caller := fun k => .ready (stmts k) }

inductive SqliteCall (κ Db : Type*)
  | step (k : κ) (db : Db) (o : InsertOutcome)
  | lastInsertRowid (k : κ)

variable [DecidableEq κ]

/-- One call; a client that cannot make it does nothing. -/
def serve (s : Serialized κ Db) : SqliteCall κ Db → Serialized κ Db
  | .step k db o =>
    match s.caller k with
    | .ready v =>
      let (r, v) := v.step (o.tick db)
      { s with
        regs := s.regs.after (o.tick db)
        caller := Function.update (fun j => (s.caller j).observe o) k (.afterStep r v o) }
    | _ => s
  | .lastInsertRowid k =>
    match s.caller k with
    | .stepped v own _ =>
      { s with
        caller := Function.update s.caller k (.ready v)
        replies := s.replies ++ [⟨k, own, s.regs.lastInsertRowid.toInt⟩] }
    | _ => s

/-- Every `insert()` has returned the rowid of its own row, so no two with different rows returned the same. -/
structure OwnRowids (s : Serialized κ Db) : Prop where
  own : ∀ reply ∈ s.replies, reply.returned = reply.own.toInt
  distinct : ∀ reply ∈ s.replies, ∀ reply' ∈ s.replies, reply.own ≠ reply'.own → reply.returned ≠ reply'.returned

/-- Where other steps have set the rowid between the step and the read-back of a call, the last one has set it to that
of its own row. -/
def NotOvertaken (s : Serialized κ Db) : SqliteCall κ Db → Prop
  | .step _ _ _ => True
  | .lastInsertRowid k => ∀ v own since, s.caller k = .stepped v own since → ∀ r ∈ since.getLast?, r = own

/-- No client steps while another one is between its two calls. -/
def Exclusive (s : Serialized κ Db) : SqliteCall κ Db → Prop
  | .step k _ _ => ∀ j v own since, j ≠ k → s.caller j ≠ .stepped v own since
  | .lastInsertRowid _ => True

/-- What a call can do: nothing, where the client is not in the place to make it; the step; or the read-back. -/
theorem serve_cases (s : Serialized κ Db) (call : SqliteCall κ Db) :
    (serve s call = s ∧ NotOvertaken s call) ∨
      (∃ k db o v, call = .step k db o ∧ s.caller k = .ready v ∧
        serve s call =
          { s with
            regs := s.regs.after (o.tick db)
            caller := Function.update (fun j => (s.caller j).observe o) k
              (.afterStep (v.step (o.tick db)).1 (v.step (o.tick db)).2 o) }) ∨
      ∃ k v own since, call = .lastInsertRowid k ∧ s.caller k = .stepped v own since ∧
        serve s call =
          { s with
            caller := Function.update s.caller k (.ready v)
            replies := s.replies ++ [⟨k, own, s.regs.lastInsertRowid.toInt⟩] } := by
  cases call with
  | step k db o =>
    cases hk : s.caller k with
    | ready v => exact .inr (.inl ⟨k, db, o, v, rfl, hk, by simp only [serve, hk]⟩)
    | stepped v own since => exact .inl ⟨by simp only [serve, hk], trivial⟩
    | finalized => exact .inl ⟨by simp only [serve, hk], trivial⟩
  | lastInsertRowid k =>
    have hidle : (∀ v own since, s.caller k ≠ .stepped v own since) → NotOvertaken s (.lastInsertRowid k) :=
      fun hne v own since h => absurd h (hne v own since)
    cases hk : s.caller k with
    | ready v => exact .inl ⟨by simp only [serve, hk], hidle (by simp [hk])⟩
    | stepped v own since => exact .inr (.inr ⟨k, v, own, since, rfl, hk, by simp only [serve, hk]⟩)
    | finalized => exact .inl ⟨by simp only [serve, hk], hidle (by simp [hk])⟩

/-! ### One client alone -/

/-- The two calls without another in between are `nativeInsert`. -/
theorem insert_uninterrupted {s : Serialized κ Db} {k : κ} {v : Vdbe Db} (hk : s.caller k = .ready v) (db : Db)
    (o : InsertOutcome) :
    let call := nativeInsert (o.tick db) s.regs v
    let s' := Runs.run serve s [.step k db o, .lastInsertRowid k]
    s'.regs = call.2.1 ∧ s'.caller k = .ofStmt call.2.2 ∧
      s'.replies = s.replies ++
        match call.1, o with
        | .ok n, .inserted own => [⟨k, own, n⟩]
        | _, _ => [] := by
  simp only [Runs.run_cons, serve, hk, nativeInsert, stepToCompletion, Function.update_self]
  cases o with
  | failed rowid changes f =>
    have hcode : (v.step ((InsertOutcome.failed rowid changes f).tick db)).1.code ≠ SQLITE_DONE := f.isError.2.2
    simp [Runs.run, Caller.afterStep, hcode, Caller.ofStmt]
  | inserted own =>
    by_cases hd : (v.step ((InsertOutcome.inserted own).tick db)).1.code = SQLITE_DONE
    · simp [Runs.run, Caller.afterStep, hd, Caller.ofStmt]
    · simp [Runs.run, Caller.afterStep, hd, Caller.ofStmt]

/-! ### All interleavings -/

/-- The register holds the rowid set last since the step of any client that has not read back. -/
def ReadsLatest (s : Serialized κ Db) : Prop :=
  ∀ k v own since, s.caller k = .stepped v own since → s.regs.lastInsertRowid = since.getLast?.getD own

theorem Caller.observe_stepped {o : InsertOutcome} {x : Caller Db} {v : Vdbe Db} {own : Int64} {since : List Int64}
    (h : x.observe o = .stepped v own since) :
    ∃ before, x = .stepped v own before ∧ since = before ++ o.rowid.toList := by
  cases x with
  | stepped v' own' before =>
    cases h
    exact ⟨before, rfl, rfl⟩
  | _ => cases h

theorem Caller.afterStep_stepped {r : StepResult} {w v : Vdbe Db} {o : InsertOutcome} {own : Int64}
    {since : List Int64} (h : afterStep r w o = .stepped v own since) : o = .inserted own ∧ since = [] := by
  cases o with
  | failed rowid changes f => cases h
  | inserted own' =>
    by_cases hd : r.code = SQLITE_DONE
    · simp only [afterStep, hd, ne_eq, not_true_eq_false, if_false, stepped.injEq] at h
      exact ⟨by rw [h.2.1], h.2.2.symm⟩
    · simp [afterStep, hd] at h

theorem Registers.after_insert (db : Db) (o : InsertOutcome) (regs : Registers) :
    (regs.after (o.tick db)).lastInsertRowid = o.rowid.getD regs.lastInsertRowid := by
  cases o <;> rfl

/-- A client found between its two calls has just made the first, or was there before and has perhaps been told of new
rowids. -/
theorem serve_stepped {s : Serialized κ Db} {call : SqliteCall κ Db} {j : κ} {w : Vdbe Db} {own : Int64}
    {since : List Int64} (hj : (serve s call).caller j = .stepped w own since) :
    (since = [] ∧ (serve s call).regs.lastInsertRowid = own) ∨
      ∃ before rows, s.caller j = .stepped w own before ∧ since = before ++ rows ∧
        (serve s call).regs.lastInsertRowid = rows.getLast?.getD s.regs.lastInsertRowid ∧
        (Exclusive s call → rows = []) := by
  rcases serve_cases s call with ⟨he, -⟩ | ⟨k, db, o, v, rfl, hk, he⟩ | ⟨k, v, own', since', rfl, hk, he⟩
  · rw [he] at hj ⊢
    exact .inr ⟨since, [], hj, (List.append_nil _).symm, rfl, fun _ => rfl⟩
  · rw [he] at hj ⊢
    dsimp only at hj ⊢
    rw [Registers.after_insert]
    by_cases hjk : j = k
    · subst hjk
      rw [Function.update_self] at hj
      obtain ⟨rfl, rfl⟩ := Caller.afterStep_stepped hj
      exact .inl ⟨rfl, rfl⟩
    · rw [Function.update_of_ne hjk] at hj
      obtain ⟨before, hbefore, rfl⟩ := Caller.observe_stepped hj
      refine .inr ⟨before, o.rowid.toList, hbefore, rfl, ?_, fun hex => absurd hbefore (hex j w own before hjk)⟩
      cases o.rowid <;> rfl
  · rw [he] at hj ⊢
    dsimp only at hj ⊢
    by_cases hjk : j = k
    · subst hjk
      rw [Function.update_self] at hj
      cases hj
    · rw [Function.update_of_ne hjk] at hj
      exact .inr ⟨since, [], hj, (List.append_nil _).symm, rfl, fun _ => rfl⟩

theorem ReadsLatest.serve {s : Serialized κ Db} (hs : ReadsLatest s) (call : SqliteCall κ Db) :
    ReadsLatest (serve s call) := by
  intro j w own since hj
  rcases serve_stepped hj with ⟨rfl, he⟩ | ⟨before, rows, hbefore, rfl, he, -⟩
  · exact he
  · rw [he, hs j w own before hbefore, List.getLast?_append]
    cases rows.getLast? <;> rfl

omit [DecidableEq κ] in
theorem ownRowids_of_own {s : Serialized κ Db} (h : ∀ reply ∈ s.replies, reply.returned = reply.own.toInt) :
    OwnRowids s := by
  refine ⟨h, fun reply hm reply' hm' hne he => hne ?_⟩
  rw [h reply hm, h reply' hm'] at he
  exact Int64.toInt_inj.1 he

theorem getD_eq_iff_forall_mem {β : Type*} {o : Option β} {b : β} : o.getD b = b ↔ ∀ a ∈ o, a = b := by
  cases o <;> simp

/-- A call keeps the property exactly when it is not an overtaken read-back. -/
theorem ownRowids_serve {s : Serialized κ Db} (hs : ReadsLatest s) (hown : OwnRowids s) (call : SqliteCall κ Db) :
    OwnRowids (serve s call) ↔ NotOvertaken s call := by
  rcases serve_cases s call with ⟨he, hok⟩ | ⟨k, db, o, v, rfl, hk, he⟩ | ⟨k, v, own, since, rfl, hk, he⟩
  · rw [he]
    exact iff_of_true hown hok
  · rw [he]
    exact iff_of_true (ownRowids_of_own hown.own) trivial
  · have hlast : s.regs.lastInsertRowid = own ↔ NotOvertaken s (.lastInsertRowid k) := by
      rw [hs k v own since hk, getD_eq_iff_forall_mem]
      constructor
      · intro h v' own' since' hk'
        rw [hk] at hk'
        cases hk'
        exact h
      · exact fun h => h v own since hk
    rw [he, ← hlast]
    constructor
    · intro h
      exact Int64.toInt_inj.1 (h.own ⟨k, own, s.regs.lastInsertRowid.toInt⟩ (by simp))
    · intro h
      refine ownRowids_of_own (List.forall_mem_append.2 ⟨hown.own, fun reply hm => ?_⟩)
      obtain rfl := List.mem_singleton.1 hm
      exact congrArg Int64.toInt h

omit [DecidableEq κ] in
theorem opened_good (stmts : κ → Vdbe Db) :
    ReadsLatest (Serialized.opened stmts) ∧ OwnRowids (Serialized.opened stmts) :=
  ⟨fun _ _ _ _ h => (nomatch h), ownRowids_of_own fun _ hm => absurd hm List.not_mem_nil⟩

/-- The inserts of all clients return their own rows, in all states of the schedule, exactly when no read-back has been
overtaken. -/
theorem ownRowids_iff_notOvertaken (stmts : κ → Vdbe Db) (schedule : List (SqliteCall κ Db)) :
    Runs.Always serve OwnRowids (Serialized.opened stmts) schedule ↔
      Runs.Guarded serve NotOvertaken (Serialized.opened stmts) schedule := by
  refine Runs.always_iff_guarded (I := fun s => ReadsLatest s ∧ OwnRowids s) (D := fun _ _ => True) ?_
    (fun s hs => hs.2) ?_ (opened_good stmts) Runs.guarded_true
  · intro s call hs _ hok
    exact ⟨hs.1.serve call, (ownRowids_serve hs.1 hs.2 call).2 hok⟩
  · intro s call hs _ hbad hown
    exact hbad ((ownRowids_serve hs.1 hs.2 call).1 hown)

/-- Two clients step one after the other before they read back. -/
def swapped : List (SqliteCall Bool Unit) :=
  [.step false () (.inserted 1), .step true () (.inserted 2), .lastInsertRowid false, .lastInsertRowid true]

theorem not_ownRowids_swapped :
    ¬ Runs.Always serve OwnRowids (Serialized.opened fun _ => .prepared (fun _ _ => []) [] 0) swapped := by
  intro h
  have hown := h.last.own ⟨false, 1, 2⟩ (by decide)
  cases hown

/-! ### A lock around `insert()` -/

/-- Clients that take a lock of their own for the whole of `insert()` get their own rows. -/
theorem ownRowids_of_exclusive (stmts : κ → Vdbe Db) (schedule : List (SqliteCall κ Db))
    (h : Runs.Guarded serve Exclusive (Serialized.opened stmts) schedule) :
    Runs.Always serve OwnRowids (Serialized.opened stmts) schedule := by
  -- no account ever has a row in it
  have hstep : ∀ (s : Serialized κ Db) (call : SqliteCall κ Db),
      ((∀ k v own since, s.caller k = .stepped v own since → since = []) ∧ ReadsLatest s ∧ OwnRowids s) →
      Exclusive s call →
      (∀ k v own since, (serve s call).caller k = .stepped v own since → since = []) ∧
        ReadsLatest (serve s call) ∧ OwnRowids (serve s call) := by
    rintro s call ⟨hnil, hs, hown⟩ hok
    have hnot : NotOvertaken s call := by
      cases call with
      | step k db o => trivial
      | lastInsertRowid k =>
        intro v own since hk
        rw [hnil k v own since hk]
        simp
    refine ⟨fun j w own since hj => ?_, hs.serve call, (ownRowids_serve hs hown call).2 hnot⟩
    rcases serve_stepped hj with ⟨rfl, -⟩ | ⟨before, rows, hbefore, rfl, -, hrows⟩
    · rfl
    · rw [hnil j w own before hbefore, hrows hok]
      rfl
  exact Runs.always_of_guarded hstep (fun s hs => hs.2.2) ⟨fun _ _ _ _ h => (nomatch h), opened_good stmts⟩ h

end Sqlite4a
