import Sqlite4a.Runs
import Sqlite4a.SQLiteStmt

/-!
# What `insert()` and `execute()` report

`nativeInsert` and `nativeExecute` return what `sqlite3_last_insert_rowid` and `sqlite3_changes` say after the step.
Both are registers of the connection.  `OP_Insert` sets the first for each row that has `OPFLAG_LASTROWID`, and
`sqlite3VdbeHalt` the second for each `INSERT`, `UPDATE` or `DELETE`, whether it has succeeded or failed; a step that
sets neither leaves them as they were.  So after a history they hold what was written last, or zero (`regs_after`).  A
statement that writes both itself reports itself; any other reports the past (`reports_iff`).
-/

namespace Sqlite4a

variable {Db : Type*}

/-! ### Statements -/

/-- What a step does to `db->lastRowid`: a row that the statement inserts into a rowid table sets it if `OP_Insert` has
`OPFLAG_LASTROWID` (the rows of `CREATE TABLE AS SELECT` have not; `OP_VUpdate` always does so for virtual tables), and
a statement that is run inside of this one may leave another rowid there.  What triggers write is undone when they
end. -/
inductive RowEvent
  | insert (rowid : Int64) (lastRowid : Bool)
  | nested (rowid : Int64)
  deriving DecidableEq

namespace RowEvent

def inserted : RowEvent → Option Int64
  | .insert rowid _ => some rowid
  | .nested _ => none

/-- The value given to `db->lastRowid`. -/
def sets : RowEvent → Option Int64
  | .insert rowid true => some rowid
  | .insert _ false => none
  | .nested rowid => some rowid

end RowEvent

/-- What a step does.  `changed` is what `sqlite3VdbeHalt` gives to `db->nChange`, if the step halts an `INSERT`,
`UPDATE` or `DELETE`: the number of rows it has changed (as long as it fits in an `int`), or after a failure 0 or the
rows that stay changed.  `nested` is what statements run inside of this one have given to it before. -/
structure Effect (Db : Type*) where
  fail : Option Failure := none
  rows : List RowEvent := []
  changed : Option Nat := none
  nested : Option Nat := none
  leaves : Db

namespace Effect

/-- The rows that the statement itself has inserted into rowid tables. -/
def inserted (e : Effect Db) : List Int64 := e.rows.filterMap RowEvent.inserted

/-- The last event that sets `db->lastRowid`. -/
def lastWriter (e : Effect Db) : Option RowEvent := (e.rows.filter fun v => v.sets.isSome).getLast?

def rowid (e : Effect Db) : Option Int64 := e.lastWriter.bind RowEvent.sets

def count (e : Effect Db) : Option Nat := e.changed.or e.nested

/-- The rowid of one of its rows, or `-1` if there is none. -/
def Names (e : Effect Db) (rowid : Int64) : Prop := rowid ∈ e.inserted ∨ e.inserted = [] ∧ rowid = -1

/-- The statement sets the register itself in the end, or what it finds there, or is left there by a statement inside of
it, happens to be right. -/
def NamesOwn (e : Effect Db) (old : Int64) : Prop :=
  match e.lastWriter with
  | some (.insert _ _) => True
  | some (.nested rowid) => e.Names rowid
  | none => e.Names old

/-- The same for the number of rows. -/
def CountsOwn (e : Effect Db) (old : Nat) : Prop := e.changed.isSome ∨ e.nested.getD old = 0

end Effect

structure Connection (Db : Type*) where
  contents : Db
  regs : Registers := {}

/-- A statement as its next step finds it, and what that step does on a connection; it may read the registers as well as
the contents (`last_insert_rowid()`, `changes()`).  A reset that halts a statement left running counts as a step. -/
structure Command (Db : Type*) where
  stmt : Vdbe Db
  does : Connection Db → Effect Db

def Command.tick (s : Command Db) (x : Connection Db) : Tick Db where
  db := x.contents
  fail := (s.does x).fail
  rowid := (s.does x).rowid
  changes := (s.does x).count.map Int.ofNat

namespace Connection

/-- What `sqlite3_step` returns. -/
def result (x : Connection Db) (s : Command Db) : StepResult := (s.stmt.step (s.tick x)).1

def step (x : Connection Db) (s : Command Db) : Connection Db where
  contents := (s.does x).leaves
  regs := x.regs.after (s.tick x)

def insert (x : Connection Db) (s : Command Db) : Except JavaException Int :=
  (nativeInsert (s.tick x) x.regs s.stmt).1

def execute (x : Connection Db) (s : Command Db) : Except JavaException Int :=
  (nativeExecute (s.tick x) x.regs s.stmt).1

/-- A new connection after a history of steps. -/
def after (db : Db) (past : List (Command Db)) : Connection Db := Runs.run step ⟨db, {}⟩ past

end Connection

/-- `execute()` returns the number of rows `s` has changed, and `insert()` the rowid of a row `s` has inserted, or
`-1`. -/
structure Reports (s : Command Db) (x : Connection Db) : Prop where
  execute : x.execute s = .ok ((s.does x).changed.getD 0)
  insert : ∃ n : Int64, x.insert s = .ok n.toInt ∧ (s.does x).Names n

/-! ### The registers -/

/-- The numbers that the steps of a history leave in `db->nChange`, also those that fail. -/
def counts : Connection Db → List (Command Db) → List Nat
  | _, [] => []
  | x, s :: past => (s.does x).count.toList ++ counts (x.step s) past

/-- The rowids that they leave in `db->lastRowid`. -/
def rowids : Connection Db → List (Command Db) → List Int64
  | _, [] => []
  | x, s :: past => (s.does x).rowid.toList ++ rowids (x.step s) past

theorem getD_getLast?_append {β : Type*} (as bs : List β) (b : β) :
    (as ++ bs).getLast?.getD b = bs.getLast?.getD (as.getLast?.getD b) := by
  rw [List.getLast?_append]
  cases bs.getLast? <;> rfl

theorem Connection.step_regs (x : Connection Db) (s : Command Db) :
    (x.step s).regs =
      { lastInsertRowid := (s.does x).rowid.toList.getLast?.getD x.regs.lastInsertRowid
        changes := ((s.does x).count.toList.map Int.ofNat).getLast?.getD x.regs.changes } := by
  simp only [step, Registers.after, Command.tick]
  cases (s.does x).rowid <;> cases (s.does x).count <;> rfl

theorem regs_run (x : Connection Db) (past : List (Command Db)) :
    (Runs.run Connection.step x past).regs =
      { lastInsertRowid := (rowids x past).getLast?.getD x.regs.lastInsertRowid
        changes := ((counts x past).map Int.ofNat).getLast?.getD x.regs.changes } := by
  induction past generalizing x with
  | nil => rfl
  | cons s past ih =>
    rw [Runs.run_cons, ih, rowids, counts, List.map_append, getD_getLast?_append, getD_getLast?_append,
      Connection.step_regs]

/-- The rowid that a history leaves in `db->lastRowid`, and the number it leaves in `db->nChange`. -/
def lastRowid (db : Db) (past : List (Command Db)) : Int64 := (rowids ⟨db, {}⟩ past).getLast?.getD 0

def lastCount (db : Db) (past : List (Command Db)) : Nat := (counts ⟨db, {}⟩ past).getLast?.getD 0

theorem regs_after (db : Db) (past : List (Command Db)) :
    (Connection.after db past).regs = ⟨lastRowid db past, lastCount db past⟩ := by
  rw [Connection.after, regs_run, List.getLast?_map]
  cases h : (counts ⟨db, {}⟩ past).getLast? <;> simp [lastRowid, lastCount, h]

/-! ### One statement -/

namespace Effect

variable {e : Effect Db}

theorem sets_of_lastWriter {v : RowEvent} (h : e.lastWriter = some v) : v ∈ e.rows ∧ v.sets.isSome := by
  simpa using List.mem_of_getLast? h

/-- A row that sets the register is one of its own. -/
theorem names_insert {rowid : Int64} {b : Bool} (h : e.lastWriter = some (.insert rowid b)) :
    e.rowid = some rowid ∧ e.Names rowid := by
  obtain ⟨hmem, hsets⟩ := sets_of_lastWriter h
  cases b with
  | false => cases hsets
  | true =>
    have hrow : rowid ∈ e.inserted := List.mem_filterMap.2 ⟨_, hmem, rfl⟩
    exact ⟨by rw [Effect.rowid, h]; rfl, .inl hrow⟩

/-- Whether the register names a row of the statement after its step. -/
theorem names_iff (old : Int64) : e.Names (e.rowid.getD old) ↔ e.NamesOwn old := by
  rw [NamesOwn]
  cases h : e.lastWriter with
  | none =>
    rw [Effect.rowid, h]
    rfl
  | some v =>
    cases v with
    | insert rowid b =>
      obtain ⟨hrowid, hnames⟩ := names_insert h
      rw [hrowid]
      exact iff_of_true hnames trivial
    | nested rowid =>
      rw [Effect.rowid, h]
      rfl

theorem rowid_isSome : e.rowid.isSome ↔ e.lastWriter.isSome := by
  rw [Effect.rowid]
  cases h : e.lastWriter with
  | none => simp
  | some v => simpa using (sets_of_lastWriter h).2

theorem counts_iff (old : Nat) : e.count.getD old = e.changed.getD 0 ↔ e.CountsOwn old := by
  rw [count, CountsOwn]
  cases e.changed <;> simp

theorem count_isSome : e.count.isSome ↔ e.changed.isSome ∨ e.nested.isSome := by
  rw [count]
  cases e.changed <;> simp

end Effect

/-! ### The reports -/

variable {x : Connection Db} {s : Command Db}

theorem stepToCompletion_done {read : Registers → Int} (hd : x.result s = .done) :
    (stepToCompletion read (s.tick x) x.regs s.stmt).1 = .ok (read (x.step s).regs) := by
  have hcode : (s.stmt.step (s.tick x)).1.code = SQLITE_DONE := by
    rw [show (s.stmt.step (s.tick x)).1 = .done from hd]
    rfl
  simp only [stepToCompletion, hcode, ne_eq, not_true_eq_false, if_false]
  rfl

/-- What both calls return, over registers that hold `old` and `n`. -/
theorem reports_done (hd : x.result s = .done) {old : Int64} {n : Nat} (hregs : x.regs = ⟨old, n⟩) :
    x.execute s = .ok ((s.does x).count.getD n) ∧ x.insert s = .ok ((s.does x).rowid.getD old).toInt := by
  rw [Connection.execute, Connection.insert, nativeExecute, nativeInsert, stepToCompletion_done hd,
    stepToCompletion_done hd]
  simp only [Connection.step, Registers.after, Command.tick, hregs, and_true, Except.ok.injEq]
  cases (s.does x).count <;> rfl

theorem getD_eq_getD_iff {β : Type*} (o : Option β) (a b : β) : o.getD a = o.getD b ↔ o.isSome ∨ a = b := by
  cases o <;> simp

/-- After any history, a statement reports itself where it has the last word on the register that is read, or where the
register happens to hold the right number.  After another history that leaves the same contents, where it does the same,
it returns the same unless it leaves a register alone on which the two histories differ. -/
theorem reports_iff (db : Db) (past : List (Command Db)) (s : Command Db)
    (hdone : (Connection.after db past).result s = .done) :
    let e := s.does (Connection.after db past)
    (Reports s (Connection.after db past) ↔ e.CountsOwn (lastCount db past) ∧ e.NamesOwn (lastRowid db past)) ∧
      ∀ (db' : Db) (past' : List (Command Db)),
        (Connection.after db' past').contents = (Connection.after db past).contents →
        s.does (Connection.after db' past') = e →
        (((Connection.after db' past').execute s = (Connection.after db past).execute s ∧
            (Connection.after db' past').insert s = (Connection.after db past).insert s) ↔
          ((e.changed.isSome ∨ e.nested.isSome) ∨ lastCount db' past' = lastCount db past) ∧
            (e.lastWriter.isSome ∨ lastRowid db' past' = lastRowid db past)) := by
  intro e
  obtain ⟨hexec, hins⟩ := reports_done hdone (regs_after db past)
  constructor
  · rw [← e.counts_iff, ← e.names_iff]
    constructor
    · intro h
      obtain ⟨n, hn, hnames⟩ := h.insert
      have hcount := h.execute
      rw [hexec, Except.ok.injEq, Int.ofNat_inj] at hcount
      rw [hins, Except.ok.injEq, Int64.toInt_inj] at hn
      exact ⟨hcount, hn ▸ hnames⟩
    · rintro ⟨hc, hr⟩
      exact ⟨hexec.trans (congrArg (fun n : Nat => Except.ok (n : Int)) hc), _, hins, hr⟩
  · intro db' past' hsame hdoes
    have htick : s.tick (Connection.after db' past') = s.tick (Connection.after db past) := by
      simp only [Command.tick, hsame, hdoes, e]
    have hdone' : (Connection.after db' past').result s = .done := by
      rw [Connection.result, htick]
      exact hdone
    obtain ⟨hexec', hins'⟩ := reports_done hdone' (regs_after db' past')
    rw [hexec, hexec', hins, hins', hdoes, Except.ok.injEq, Except.ok.injEq, Int64.toInt_inj, Int.ofNat_inj,
      getD_eq_getD_iff, getD_eq_getD_iff, Effect.rowid_isSome, Effect.count_isSome]

/-- Statements on a table that has a column of rowids and nothing else. -/
def insertRow (rowid : Int64) : Command (List Int64) :=
  ⟨.prepared (fun _ _ => []) [] 0,
    fun x => { rows := [.insert rowid true], changed := some 1, leaves := x.contents ++ [rowid] }⟩

def deleteAll : Command (List Int64) :=
  ⟨.prepared (fun _ _ => []) [] 0, fun x => { changed := some x.contents.length, leaves := [] }⟩

def createTable : Command (List Int64) :=
  ⟨.prepared (fun _ _ => []) [] 0, fun x => { leaves := x.contents }⟩

theorem reports_iff_insertRow : Reports (insertRow 8) (Connection.after [] [insertRow 7, deleteAll]) :=
  (reports_iff [] [insertRow 7, deleteAll] (insertRow 8) rfl).1.2 ⟨.inl rfl, trivial⟩

/-- After a row has come and gone, `CREATE TABLE` reports the row that was deleted. -/
theorem not_reports_createTable :
    (Connection.after [] [insertRow 7, deleteAll]).contents = (Connection.after [] []).contents ∧
      (Connection.after [] [insertRow 7, deleteAll]).result createTable = .done ∧
      (Connection.after [] [insertRow 7, deleteAll]).execute createTable ≠
        (Connection.after [] []).execute createTable ∧
      (Connection.after [] [insertRow 7, deleteAll]).insert createTable ≠
        (Connection.after [] []).insert createTable ∧
      ¬ Reports createTable (Connection.after [] [insertRow 7, deleteAll]) := by
  refine ⟨by decide, by decide, by decide, by decide, fun h => ?_⟩
  have hone : (Connection.after [] [insertRow 7, deleteAll]).execute createTable = .ok 1 := by decide
  have hzero := h.execute
  rw [hone] at hzero
  cases hzero

end Sqlite4a
