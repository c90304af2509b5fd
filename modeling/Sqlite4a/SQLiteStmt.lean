import Sqlite4a.RowIterator

/-!
# `SQLiteStmt`

The native methods of a statement and the Java methods over them, as functions on the state of the statement.
`nativeInsert` and `nativeExecute` return no state when they have finalized the statement.
-/

namespace Sqlite4a

variable {Db : Type*}

/-- A native method throws the connection's error message unless SQLite returned `SQLITE_OK`. -/
def throwUnlessOk (ret : Option Failure) : Except JavaException Unit :=
  match ret with
  | none => .ok ()
  | some f => .error (throwSqliteException f.msg none)

/-! ### Binding -/

def nativeBindNull (index : Int) (v : Vdbe Db) : Except JavaException Unit × Vdbe Db :=
  (throwUnlessOk (v.bindNull index).1, (v.bindNull index).2)

def nativeBindLong (index : Int) (value : Int64) (v : Vdbe Db) : Except JavaException Unit × Vdbe Db :=
  (throwUnlessOk (v.bindInt64 index value).1, (v.bindInt64 index value).2)

def nativeBindDouble (index : Int) (value : Double) (v : Vdbe Db) : Except JavaException Unit × Vdbe Db :=
  (throwUnlessOk (v.bindDouble index value).1, (v.bindDouble index value).2)

/-- The length is `static_cast<int>(strlen(value))`. -/
def nativeBindString (index : Int) (value : JString) (v : Vdbe Db) : Except JavaException Unit × Vdbe Db :=
  let z := getStringUTFChars value
  let ret := v.bindText .text index z (Int.bmod (strlen z) 0x100000000)
  (throwUnlessOk ret.1, ret.2)

def nativeBindBlob (index : Int) (value : List UInt8) (v : Vdbe Db) : Except JavaException Unit × Vdbe Db :=
  let ret := v.bindText .blob index value value.length
  (throwUnlessOk ret.1, ret.2)

/-- The arguments of the five `bind` methods after the index; `none` is Java `null`. -/
inductive BindArg
  | null
  | long (value : Int64)
  | double (value : Double)
  | string (value : Option JString)
  | blob (value : Option (List UInt8))
  deriving DecidableEq

/-- `bindNull`, `bindLong`, `bindDouble`, `bindString` and `bindBlob`. -/
def bind (index : Int) (arg : BindArg) (v : Vdbe Db) : Except JavaException Unit × Vdbe Db :=
  match arg with
  | .null => nativeBindNull index v
  | .long value => nativeBindLong index value v
  | .double value => nativeBindDouble index value v
  | .string (some value) => nativeBindString index value v
  | .string none => (.ok (), v)
  | .blob (some value) => nativeBindBlob index value v
  | .blob none => (.ok (), v)

/-- `nativeClearBindings`: the bindings are cleared only where `sqlite3_reset` returned `SQLITE_OK`. -/
def clearBindings (v : Vdbe Db) : Except JavaException Unit × Vdbe Db :=
  match v.reset with
  | (none, v) => (throwUnlessOk v.clearBindings.1, v.clearBindings.2)
  | (some f, v) => (throwUnlessOk (some f), v)

/-! ### Running -/

/-- The two numbers a connection keeps about its latest writes: `db->lastRowid` and `db->nChange`. -/
structure Registers where
  lastInsertRowid : Int64 := 0
  changes : Int := 0
  deriving DecidableEq

/-- What one step does to them; a step that fails has set them too, and nothing puts them back. -/
def Registers.after (t : Tick Db) (regs : Registers) : Registers where
  lastInsertRowid := t.rowid.getD regs.lastInsertRowid
  changes := t.changes.getD regs.changes

/-- The message `sqlite3_errmsg` gives after `sqlite3_finalize` of a statement whose step returned `r`. -/
def StepResult.errmsg : StepResult → String
  | .error f => f.msg
  | _ => sqlite3ErrStr SQLITE_OK

/-- The body that `nativeInsert` and `nativeExecute` share: every result but `SQLITE_DONE` finalizes the statement
and throws. -/
def stepToCompletion (read : Registers → Int) (t : Tick Db) (regs : Registers) (v : Vdbe Db) :
    Except JavaException Int × Registers × Option (Vdbe Db) :=
  let (r, v) := v.step t
  let regs := regs.after t
  if r.code ≠ SQLITE_DONE then (.error (throwSqliteException r.errmsg none), regs, none)
  else (.ok (read regs), regs, some v)

def nativeInsert (t : Tick Db) (regs : Registers) (v : Vdbe Db) :
    Except JavaException Int × Registers × Option (Vdbe Db) :=
  stepToCompletion (fun regs => regs.lastInsertRowid.toInt) t regs v

def nativeExecute (t : Tick Db) (regs : Registers) (v : Vdbe Db) :
    Except JavaException Int × Registers × Option (Vdbe Db) :=
  stepToCompletion (fun regs => regs.changes) t regs v

def nativeBusy (v : Vdbe Db) : Int := if v.busy then 1 else 0

def nativeReset (v : Vdbe Db) : Except JavaException Unit × Vdbe Db := (throwUnlessOk v.reset.1, v.reset.2)

def select (v : Vdbe Db) : Except JavaException RowIterator × Vdbe Db :=
  if 0 < nativeBusy v then
    match nativeReset v with
    | (.ok _, v) => (.ok {}, v)
    | (.error e, v) => (.error e, v)
  else (.ok {}, v)

end Sqlite4a
