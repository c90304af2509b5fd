import Sqlite4a.Value

/-!
# Prepared statements

The part of the VDBE that the wrapper can observe: the parameter cells, the cursor and the row it stands on.  What a
statement computes is its `query`, a function from the parameter values and the database to a list of rows; which
steps fail, and on which database a run starts, is told by the `Tick` of each step.

`Phase` is what `magic` and `pc` say: `fresh` is `VDBE_MAGIC_RUN` with `pc < 0`, `active` is `VDBE_MAGIC_RUN` with
`pc ≥ 0`, and `halted` is `VDBE_MAGIC_HALT`; the failure stored in the last two is `p->rc` with `p->zErrMsg`.
-/

namespace Sqlite4a

inductive Phase
  | fresh
  | active (snapshot : Option (List Row)) (pos : Nat) (rc : Option Failure)
  | halted (rc : Option Failure)
  deriving DecidableEq

structure Vdbe (Db : Type*) where
  query : List Value → Db → List Row
  colName : List (List UInt8)
  aVar : List Value
  phase : Phase
  pResultSet : Option Row

/-- What one `sqlite3_step` meets: the database, whether the step fails, and what it writes.  `rowid` and `changes` are
the last values that `db->lastRowid` and `db->nChange` are set to in this step, up to the halt that ends it and whatever
its result; `none` leaves them as they are. -/
structure Tick (Db : Type*) where
  db : Db
  fail : Option Failure := none
  rowid : Option Int64 := none
  changes : Option Int := none

inductive StepResult
  | row
  | done
  | error (f : Failure)
  deriving DecidableEq

/-- The `int` that `sqlite3_step` returns. -/
def StepResult.code : StepResult → Int
  | .row => SQLITE_ROW
  | .done => SQLITE_DONE
  | .error f => f.code

theorem StepResult.code_eq_row {r : StepResult} : r.code = SQLITE_ROW ↔ r = .row := by
  cases r with
  | row => simp [StepResult.code]
  | done => simp [StepResult.code, SQLITE_ROW, SQLITE_DONE]
  | error f => simp [StepResult.code, f.isError.2.1]

theorem StepResult.code_eq_done {r : StepResult} : r.code = SQLITE_DONE ↔ r = .done := by
  cases r with
  | row => simp [StepResult.code, SQLITE_ROW, SQLITE_DONE]
  | done => simp [StepResult.code]
  | error f => simp [StepResult.code, f.isError.2.2]

namespace Vdbe

variable {Db : Type*} (c : Casts)

/-- `sqlite3_prepare_v2`: all parameters are `NULL`. -/
def prepared (query : List Value → Db → List Row) (colName : List (List UInt8)) (nVar : Nat) : Vdbe Db where
  query := query
  colName := colName
  aVar := List.replicate nVar .null
  phase := .fresh
  pResultSet := none

/-- `p->rc`. -/
def rc (v : Vdbe Db) : Option Failure :=
  match v.phase with
  | .fresh => none
  | .active _ _ rc => rc
  | .halted rc => rc

/-- The rows this run is over, once it has got hold of the database. -/
def snapshot (v : Vdbe Db) : Option (List Row) :=
  match v.phase with
  | .active rows _ _ => rows
  | _ => none

/-- The number of rows this run has returned. -/
def pos (v : Vdbe Db) : Nat :=
  match v.phase with
  | .active _ pos _ => pos
  | _ => 0

/-! ### Running -/

/-- `sqlite3_stmt_busy`. -/
def busy (v : Vdbe Db) : Bool :=
  match v.phase with
  | .active _ _ _ => true
  | _ => false

/-- `sqlite3_reset`: returns the result of the run it ends. -/
def reset (v : Vdbe Db) : Option Failure × Vdbe Db :=
  (v.rc, { v with phase := .fresh, pResultSet := none })

/-- The automatic reset at the start of `sqlite3Step`. -/
def autoReset (v : Vdbe Db) : Vdbe Db :=
  match v.phase with
  | .halted _ => v.reset.2
  | _ => v

/-- Returns row `k` of the run, or ends the run when there is none. -/
def rowOrDone (rows : List Row) (k : Nat) (v : Vdbe Db) : StepResult × Vdbe Db :=
  match rows[k]? with
  | some row => (.row, { v with phase := .active (some rows) (k + 1) none, pResultSet := some row })
  | none => (.done, { v with phase := .halted none, pResultSet := none })

/-- `sqlite3VdbeExec` until a row, the end or an error; after `SQLITE_BUSY` the statement stays where it was. -/
def exec (t : Tick Db) (v : Vdbe Db) : StepResult × Vdbe Db :=
  match t.fail with
  | some f =>
    let phase := if f.code = SQLITE_BUSY then .active v.snapshot v.pos (some f) else .halted (some f)
    (.error f, { v with phase := phase, pResultSet := none })
  | none => v.rowOrDone (v.snapshot.getD (v.query v.aVar t.db)) v.pos

/-- `sqlite3_step`. -/
def step (t : Tick Db) (v : Vdbe Db) : StepResult × Vdbe Db := v.autoReset.exec t

/-! ### Binding -/

/-- `vdbeUnbind`: checks the statement and the index, and makes the parameter `NULL`. -/
def unbind (i : Int) (v : Vdbe Db) : Option Failure × Vdbe Db :=
  if v.phase ≠ .fresh then (some .misuse, v)
  else if i < 1 ∨ (v.aVar.length : Int) < i then (some .range, v)
  else (none, { v with aVar := v.aVar.set (i - 1).toNat .null })

/-- Stores a value in the cell of parameter `i` after `vdbeUnbind`. -/
def setVar (i : Int) (m : Value) (v : Vdbe Db) : Vdbe Db := { v with aVar := v.aVar.set (i - 1).toNat m }

def bindNull (i : Int) (v : Vdbe Db) : Option Failure × Vdbe Db := v.unbind i

def bindInt64 (i : Int) (value : Int64) (v : Vdbe Db) : Option Failure × Vdbe Db :=
  match v.unbind i with
  | (some f, v) => (some f, v)
  | (none, v) => (none, v.setVar i (.integer value))

/-- `sqlite3_bind_double`; `sqlite3VdbeMemSetDouble` turns a NaN into `NULL`. -/
def bindDouble (i : Int) (value : Double) (v : Vdbe Db) : Option Failure × Vdbe Db :=
  match v.unbind i with
  | (some f, v) => (some f, v)
  | (none, v) => (none, if sqlite3IsNaN value then v else v.setVar i (.real value))

/-- The number of bytes `sqlite3VdbeMemSetStr` takes: for a negative `n` it asks `sqlite3Strlen30`. -/
def memSetStrBytes (z : List UInt8) (n : Int) : Int :=
  if n < 0 then
    let nByte : Int := (strlen z % 0x40000000 : Nat)
    if SQLITE_MAX_LENGTH < nByte then SQLITE_MAX_LENGTH + 1 else nByte
  else n

/-- `bindText` with `SQLITE_TRANSIENT`: `cell` is `Value.text` or `Value.blob`. -/
def bindText (cell : List UInt8 → Value) (i : Int) (z : List UInt8) (n : Int) (v : Vdbe Db) :
    Option Failure × Vdbe Db :=
  match v.unbind i with
  | (some f, v) => (some f, v)
  | (none, v) =>
    if SQLITE_MAX_LENGTH < memSetStrBytes z n then (some .tooBig, v)
    else (none, v.setVar i (cell (z.take (memSetStrBytes z n).toNat)))

/-- `sqlite3_clear_bindings`. -/
def clearBindings (v : Vdbe Db) : Option Failure × Vdbe Db :=
  (none, { v with aVar := v.aVar.map fun _ => .null })

/-! ### Reading the row -/

/-- `columnMem`. -/
def columnMem (v : Vdbe Db) (i : Int) : Value :=
  match v.pResultSet with
  | some row => if i < v.colName.length ∧ 0 ≤ i then row.getD i.toNat .null else .null
  | none => .null

def columnText (v : Vdbe Db) (i : Int) : Option (List UInt8) := sqlite3ValueText c (v.columnMem i)

def columnBytes (v : Vdbe Db) (i : Int) : Nat := sqlite3ValueBytes c (v.columnMem i)

def columnBlob (v : Vdbe Db) (i : Int) : Option (List UInt8) := sqlite3ValueBlob c (v.columnMem i)

def columnInt64 (v : Vdbe Db) (i : Int) : Int64 := sqlite3VdbeIntValue c (v.columnMem i)

def columnDouble (v : Vdbe Db) (i : Int) : Double := sqlite3VdbeRealValue c (v.columnMem i)

def columnCount (v : Vdbe Db) : Nat := v.colName.length

/-- `sqlite3_column_name`: `NULL` out of range. -/
def columnName (v : Vdbe Db) (i : Int) : Option (List UInt8) := if 0 ≤ i then v.colName[i.toNat]? else none

end Vdbe

end Sqlite4a
