import Sqlite4a.Vdbe

/-!
# `RowIterator`

The iterator of a query keeps two flags; the row it hands out is the iterator itself, which reads the columns of the
row the statement stands on.
-/

namespace Sqlite4a

/-- The fields of `RowIterator`, apart from the statement it steps. -/
structure RowIterator where
  mHasNext : Bool := false
  mDone : Bool := false
  deriving DecidableEq, Repr

variable {Db : Type*} (c : Casts)

/-! ### Native methods -/

def nativeStep (t : Tick Db) (v : Vdbe Db) : Int × Vdbe Db := ((v.step t).1.code, (v.step t).2)

def nativeGetColumnCount (v : Vdbe Db) : Nat := v.columnCount

def nativeGetColumnName (v : Vdbe Db) (index : Int) : Option JString := newStringUTF (v.columnName index)

def nativeGetColumnLong (v : Vdbe Db) (index : Int) : Int64 := v.columnInt64 c index

def nativeGetColumnDouble (v : Vdbe Db) (index : Int) : Double := v.columnDouble c index

def nativeGetColumnString (v : Vdbe Db) (index : Int) : Option JString := newStringUTF (v.columnText c index)

/-- The array is a new one of `sqlite3_column_bytes` bytes, so never Java `null`. -/
def nativeGetColumnBlob (v : Vdbe Db) (index : Int) : Option (List UInt8) :=
  some (newByteArray (v.columnBytes c index) (v.columnBlob c index))

/-! ### The iterator -/

namespace RowIterator

def hasNext (t : Tick Db) (it : RowIterator) (v : Vdbe Db) :
    Except JavaException Bool × RowIterator × Vdbe Db :=
  let (it, v) :=
    if it.mDone then (it, v)
    else
      let (step, v) := nativeStep t v
      ({ it with mDone := step == SQLITE_DONE, mHasNext := step == SQLITE_ROW }, v)
  (.ok (!it.mDone && it.mHasNext), it, v)

/-- The row that `next()` returns is the iterator itself. -/
def next (it : RowIterator) : Except JavaException Unit × RowIterator :=
  if it.mHasNext then (.ok (), { it with mHasNext := false })
  else (.error .noSuchElement, it)

def remove (it : RowIterator) : Except JavaException Unit × RowIterator := (.error .unsupportedOperation, it)

end RowIterator

/-! ### The row -/

/-- What the accessors of a `SQLiteRow` return. -/
structure SQLiteRow where
  getColumnCount : Nat
  getColumnName : Int → Option JString
  getColumnLong : Int → Int64
  getColumnDouble : Int → Double
  getColumnString : Int → Option JString
  getColumnBlob : Int → Option (List UInt8)

/-- What a `RowIterator` reads while its statement is in the given state. -/
def readRow (v : Vdbe Db) : SQLiteRow where
  getColumnCount := nativeGetColumnCount v
  getColumnName := nativeGetColumnName v
  getColumnLong := nativeGetColumnLong c v
  getColumnDouble := nativeGetColumnDouble c v
  getColumnString := nativeGetColumnString c v
  getColumnBlob := nativeGetColumnBlob c v

/-- What `row` reads as when the statement stands on it; `none` is a statement that stands on no row. -/
def rowView (v : Vdbe Db) (row : Option Row) : SQLiteRow := readRow c { v with pResultSet := row }

/-- Only the columns and the current row matter to a reader. -/
theorem readRow_eq_rowView {v w : Vdbe Db} (h : v.colName = w.colName) :
    readRow c v = rowView c w v.pResultSet := by
  cases v; cases w; cases h; rfl

end Sqlite4a
