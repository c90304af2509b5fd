import Mathlib.Data.List.TakeWhile
import Mathlib.Tactic.Common

/-!
# Values, strings and error codes

The SQL values a statement holds, and how the `sqlite3_value_*` and `sqlite3_column_*` readers convert them.  The
renderings and parsers they rest on (`sqlite3AtoF`, `sqlite3Atoi64`, `doubleToInt64`, the `%!.15g` format) are the
parameter `Casts`.  A Java `double` is the pattern of its 64 bits.
-/

namespace Sqlite4a

def SQLITE_OK : Int := 0
def SQLITE_BUSY : Int := 5
def SQLITE_TOOBIG : Int := 18
def SQLITE_MISUSE : Int := 21
def SQLITE_RANGE : Int := 25
def SQLITE_ROW : Int := 100
def SQLITE_DONE : Int := 101
def SQLITE_ABORT_ROLLBACK : Int := 516

def SQLITE_MAX_LENGTH : Int := 1000000000

/-! ### Errors -/

/-- `aMsg` of `sqlite3ErrStr`. -/
def aMsg : List (Option String) :=
  [some "not an error", some "SQL logic error or missing database", none, some "access permission denied",
    some "callback requested query abort", some "database is locked", some "database table is locked",
    some "out of memory", some "attempt to write a readonly database", some "interrupted", some "disk I/O error",
    some "database disk image is malformed", some "unknown operation", some "database or disk is full",
    some "unable to open database file", some "locking protocol", some "table contains no data",
    some "database schema has changed", some "string or blob too big", some "constraint failed",
    some "datatype mismatch", some "library routine called out of sequence", some "large file support is disabled",
    some "authorization denied", some "auxiliary database format error", some "bind or column index out of range",
    some "file is encrypted or is not a database"]

def sqlite3ErrStr (rc : Int) : String :=
  if rc = SQLITE_ABORT_ROLLBACK then "abort due to ROLLBACK"
  else (aMsg[(rc % 256).toNat]?.join).getD "unknown error"

/-- A result code that reports an error, with the message `sqlite3_errmsg` gives for it. -/
structure Failure where
  code : Int
  msg : String
  isError : code ≠ SQLITE_OK ∧ code ≠ SQLITE_ROW ∧ code ≠ SQLITE_DONE
  deriving DecidableEq

def Failure.misuse : Failure := ⟨SQLITE_MISUSE, sqlite3ErrStr SQLITE_MISUSE, by decide⟩
def Failure.range : Failure := ⟨SQLITE_RANGE, sqlite3ErrStr SQLITE_RANGE, by decide⟩
def Failure.tooBig : Failure := ⟨SQLITE_TOOBIG, sqlite3ErrStr SQLITE_TOOBIG, by decide⟩
def Failure.busy : Failure := ⟨SQLITE_BUSY, sqlite3ErrStr SQLITE_BUSY, by decide⟩

/-- The Java exceptions the wrapper throws. -/
inductive JavaException
  | sqlite (message : String)
  | noSuchElement
  | unsupportedOperation
  deriving DecidableEq

/-- `throw_sqlite_exception`: the message is the error, and the SQL text where one is given. -/
def throwSqliteException (error : String) (sql : Option String) : JavaException :=
  match sql with
  | none => .sqlite error
  | some sql => .sqlite (error ++ ", while executing: " ++ sql)

/-! ### Java strings -/

/-- The number of bytes before the first zero byte. -/
def strlen (z : List UInt8) : Nat := (z.takeWhile (· ≠ 0)).length

/-- A Java string, given by its modified UTF-8 form, which has no zero byte. -/
structure JString where
  utf : List UInt8
  nonzero : ∀ b ∈ utf, b ≠ 0
  deriving DecidableEq

/-- `GetStringUTFChars`. -/
def getStringUTFChars (s : JString) : List UInt8 := s.utf

/-- `NewStringUTF`: reads the C string up to its first zero byte; `NULL` gives Java `null`. -/
def newStringUTF : Option (List UInt8) → Option JString
  | none => none
  | some z => some ⟨z.takeWhile (· ≠ 0), fun _ hb => by simpa using List.mem_takeWhile_imp hb⟩

theorem takeWhile_nonzero {z : List UInt8} (h : ∀ b ∈ z, b ≠ 0) : z.takeWhile (· ≠ 0) = z := by
  rw [List.takeWhile_eq_self_iff]
  intro b hb
  simpa using h b hb

@[simp] theorem strlen_utf (s : JString) : strlen s.utf = s.utf.length := by
  rw [strlen, takeWhile_nonzero s.nonzero]

@[simp] theorem newStringUTF_utf (s : JString) : newStringUTF (some s.utf) = some s := by
  simp only [newStringUTF, takeWhile_nonzero s.nonzero]

/-! ### SQL values -/

abbrev Double := BitVec 64

/-- `sqlite3IsNaN`: all exponent bits set and a nonzero fraction. -/
def sqlite3IsNaN (r : Double) : Bool := r.extractLsb' 52 11 == 0x7ff#11 && r.extractLsb' 0 52 != 0#52

inductive Value
  | null
  | integer (i : Int64)
  | real (r : Double)
  | text (z : List UInt8)
  | blob (z : List UInt8)
  deriving DecidableEq

abbrev Row := List Value

/-- The conversions between storage classes. -/
structure Casts where
  intText : Int64 → List UInt8
  realText : Double → List UInt8
  realInt : Double → Int64
  intReal : Int64 → Double
  bytesInt : List UInt8 → Int64
  bytesReal : List UInt8 → Double

/-- The conversions of integers; a statement whose values are integers and `NULL`s needs no others. -/
def Casts.ofIntegers : Casts where
  intText i := (toString i.toInt).toUTF8.toList
  realText _ := []
  realInt _ := 0
  intReal i := (Float.ofInt i.toInt).toBits.toBitVec
  bytesInt _ := 0
  bytesReal _ := 0

variable (c : Casts)

/-- `sqlite3ValueText`; the bytes are followed by a zero byte in memory. -/
def sqlite3ValueText : Value → Option (List UInt8)
  | .null => none
  | .integer i => some (c.intText i)
  | .real r => some (c.realText r)
  | .text z => some z
  | .blob z => some z

def sqlite3ValueBytes (m : Value) : Nat :=
  match sqlite3ValueText c m with
  | none => 0
  | some z => z.length

def sqlite3ValueBlob : Value → Option (List UInt8)
  | .text z => if z.length = 0 then none else some z
  | .blob z => if z.length = 0 then none else some z
  | m => sqlite3ValueText c m

def sqlite3VdbeIntValue : Value → Int64
  | .null => 0
  | .integer i => i
  | .real r => c.realInt r
  | .text z => c.bytesInt z
  | .blob z => c.bytesInt z

def sqlite3VdbeRealValue : Value → Double
  | .null => 0
  | .integer i => c.intReal i
  | .real r => r
  | .text z => c.bytesReal z
  | .blob z => c.bytesReal z

/-- `NewByteArray(size)` followed by `SetByteArrayRegion(.., 0, size, value)`. -/
def newByteArray (size : Nat) (value : Option (List UInt8)) : List UInt8 := (value.getD []).take size

end Sqlite4a
