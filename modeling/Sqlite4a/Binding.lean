import Sqlite4a.Cursor
import Mathlib.Data.List.Induction

/-!
# Binding parameters

A `bind` call with a Java `null` reaches no native method; every other one is `Vdbe.store` with the `outcome` of its
argument (`bind_of_outcome`).  For the statement `SELECT ?1, ..., ?n` the cell of a parameter is what its last call
with an argument other than Java `null` left there (`bindAll_cell`), and the row reads each cell back.  Where the last
call of all was one with Java `null`, a longer text than `SQLITE_MAX_LENGTH` or a NaN, the cell does not hold its
argument (`bindLaw_iff_readable`).
-/

namespace Sqlite4a

variable {Db : Type*} (c : Casts)

/-! ### What one call stores -/

/-- What `bindText` makes of `n` bytes at `z`. -/
def textOutcome (cell : List UInt8 → Value) (z : List UInt8) (n : Int) : Except Failure Value :=
  if SQLITE_MAX_LENGTH < Vdbe.memSetStrBytes z n then .error .tooBig
  else .ok (cell (z.take (Vdbe.memSetStrBytes z n).toNat))

theorem textOutcome_stored (cell : List UInt8 → Value) (z : List UInt8) (n : Int) :
    (textOutcome cell z n).toOption.getD .null =
      if SQLITE_MAX_LENGTH < Vdbe.memSetStrBytes z n then .null
      else cell (z.take (Vdbe.memSetStrBytes z n).toNat) := by
  unfold textOutcome
  split <;> rfl

/-- What a call with this argument asks SQLite to store; nothing for a Java `null`. -/
def BindArg.outcome : BindArg → Option (Except Failure Value)
  | .null => some (.ok .null)
  | .long value => some (.ok (.integer value))
  | .double value => some (.ok (if sqlite3IsNaN value then .null else .real value))
  | .string value => value.map fun s => textOutcome .text s.utf (Int.bmod (strlen s.utf) 0x100000000)
  | .blob value => value.map fun z => textOutcome .blob z z.length

/-- `vdbeUnbind` and what follows it; a value that is too big leaves the `NULL` of `vdbeUnbind`. -/
def Vdbe.store (i : Int) (r : Except Failure Value) (v : Vdbe Db) : Option Failure × Vdbe Db :=
  match v.unbind i with
  | (some f, v) => (some f, v)
  | (none, v) =>
    match r with
    | .ok m => (none, v.setVar i m)
    | .error f => (some f, v)

theorem Vdbe.setVar_null_of_unbind {i : Int} {v v' : Vdbe Db} (h : v.unbind i = (none, v')) :
    v'.setVar i .null = v' := by
  unfold unbind at h
  split at h
  · cases h
  · split at h
    · cases h
    · cases h
      simp only [setVar, List.set_set]

private theorem bindText_eq_store (cell : List UInt8 → Value) (i : Int) (z : List UInt8) (n : Int) (v : Vdbe Db) :
    v.bindText cell i z n = v.store i (textOutcome cell z n) := by
  unfold Vdbe.bindText Vdbe.store textOutcome
  rcases v.unbind i with ⟨ret, v'⟩
  cases ret with
  | some f => rfl
  | none =>
    dsimp only
    split <;> rfl

private theorem bindDouble_eq_store (i : Int) (value : Double) (v : Vdbe Db) :
    v.bindDouble i value = v.store i (.ok (if sqlite3IsNaN value then .null else .real value)) := by
  unfold Vdbe.bindDouble Vdbe.store
  rcases hu : v.unbind i with ⟨ret, v'⟩
  cases ret with
  | some f => rfl
  | none =>
    by_cases hnan : sqlite3IsNaN value
    · -- a NaN is stored as the `NULL` that is there already
      simp only [hnan, if_true, Vdbe.setVar_null_of_unbind hu]
    · simp only [hnan, Bool.false_eq_true, if_false]

private theorem bindNull_eq_store (i : Int) (v : Vdbe Db) : v.bindNull i = v.store i (.ok .null) := by
  unfold Vdbe.bindNull Vdbe.store
  rcases hu : v.unbind i with ⟨ret, v'⟩
  cases ret with
  | some f => rfl
  | none => simp only [Vdbe.setVar_null_of_unbind hu]

theorem bind_of_outcome {arg : BindArg} {r : Except Failure Value} (h : arg.outcome = some r) (i : Int) (v : Vdbe Db) :
    bind i arg v = (throwUnlessOk (v.store i r).1, (v.store i r).2) := by
  cases arg with
  | null =>
    obtain rfl := Option.some.inj h
    simp only [bind, nativeBindNull, bindNull_eq_store]
  | long value =>
    obtain rfl := Option.some.inj h
    rfl
  | double value =>
    obtain rfl := Option.some.inj h
    simp only [bind, nativeBindDouble, bindDouble_eq_store]
  | string value =>
    cases value with
    | none => cases h
    | some s =>
      obtain rfl := Option.some.inj h
      simp only [bind, nativeBindString, getStringUTFChars, bindText_eq_store]
  | blob value =>
    cases value with
    | none => cases h
    | some z =>
      obtain rfl := Option.some.inj h
      simp only [bind, nativeBindBlob, bindText_eq_store]

theorem bind_of_outcome_none {arg : BindArg} (h : arg.outcome = none) (i : Int) (v : Vdbe Db) :
    bind i arg v = (.ok (), v) := by
  cases arg with
  | null => cases h
  | long value => cases h
  | double value => cases h
  | string value =>
    cases value with
    | none => rfl
    | some s => cases h
  | blob value =>
    cases value with
    | none => rfl
    | some z => cases h

theorem BindArg.outcome_error {arg : BindArg} {f : Failure} (h : arg.outcome = some (.error f)) : f = .tooBig := by
  have htext : ∀ cell z n, textOutcome cell z n = .error f → f = .tooBig := by
    intro cell z n hr
    unfold textOutcome at hr
    split at hr
    · exact (Except.error.inj hr).symm
    · cases hr
  cases arg with
  | null => cases h
  | long value => cases h
  | double value => cases h
  | string value =>
    cases value with
    | none => cases h
    | some s => exact htext _ _ _ (Option.some.inj h)
  | blob value =>
    cases value with
    | none => cases h
    | some z => exact htext _ _ _ (Option.some.inj h)

/-- The three ways a bind call ends: it leaves the statement alone, it stores the value, or the value is too big and
the parameter becomes `NULL`. -/
theorem bind_cases (i : Int) (arg : BindArg) (v : Vdbe Db) :
    ((bind i arg v).2 = v ∧ ((bind i arg v).1 = .ok () ∧ arg.outcome = none ∨
      ∃ f ∈ [Failure.misuse, Failure.range], (bind i arg v).1 = .error (throwSqliteException f.msg none))) ∨
    (∃ m, arg.outcome = some (.ok m) ∧ bind i arg v = (.ok (), v.setVar i m)) ∨
    (arg.outcome = some (.error .tooBig) ∧
      bind i arg v = (.error (throwSqliteException Failure.tooBig.msg none), v.setVar i .null)) := by
  cases h : arg.outcome with
  | none =>
    rw [bind_of_outcome_none h]
    exact .inl ⟨rfl, .inl ⟨rfl, rfl⟩⟩
  | some r =>
    rw [bind_of_outcome h]
    -- `vdbeUnbind` refuses a statement that is running and an index that is out of range
    by_cases hv : v.phase = .fresh
    · by_cases hi : i < 1 ∨ (v.aVar.length : Int) < i
      · have hs : v.store i r = (some .range, v) := by simp [Vdbe.store, Vdbe.unbind, hv, hi]
        rw [hs]
        exact .inl ⟨rfl, .inr ⟨.range, by simp, rfl⟩⟩
      · have hu : v.unbind i = (none, v.setVar i .null) := by simp [Vdbe.unbind, Vdbe.setVar, hv, hi]
        cases r with
        | ok m => exact .inr (.inl ⟨m, rfl, by simp [Vdbe.store, hu, Vdbe.setVar, throwUnlessOk]⟩)
        | error f =>
          obtain rfl := BindArg.outcome_error h
          exact .inr (.inr ⟨rfl, by simp [Vdbe.store, hu, throwUnlessOk]⟩)
    · have hs : v.store i r = (some .misuse, v) := by simp [Vdbe.store, Vdbe.unbind, hv]
      rw [hs]
      exact .inl ⟨rfl, .inr ⟨.misuse, by simp, rfl⟩⟩

/-- The value a call leaves in its parameter; a Java `null` leaves none. -/
def BindArg.stored (arg : BindArg) : Option Value := arg.outcome.map fun r => r.toOption.getD .null

theorem Vdbe.store_fresh {i : Int} {v : Vdbe Db} (r : Except Failure Value) (hv : v.phase = .fresh) (hlo : 1 ≤ i)
    (hhi : i ≤ v.aVar.length) : (v.store i r).2 = v.setVar i (r.toOption.getD .null) := by
  have hu : v.unbind i = (none, v.setVar i .null) := by
    simp only [unbind, hv, setVar]
    rw [if_neg (by simp), if_neg (by omega)]
  simp only [store, hu]
  cases r with
  | ok m => simp only [setVar, List.set_set, Except.toOption, Option.getD_some]
  | error f => rfl

theorem bind_fresh_of_ok {i : Int} {arg : BindArg} {m : Value} {v : Vdbe Db} (hout : arg.outcome = some (.ok m))
    (hv : v.phase = .fresh) (hlo : 1 ≤ i) (hhi : i ≤ v.aVar.length) : bind i arg v = (.ok (), v.setVar i m) := by
  have hu : v.unbind i = (none, v.setVar i .null) := by
    simp only [Vdbe.unbind, hv, Vdbe.setVar]
    rw [if_neg (by simp), if_neg (by omega)]
  rw [bind_of_outcome hout, Vdbe.store, hu]
  simp only [Vdbe.setVar, List.set_set, throwUnlessOk]

theorem bind_fresh {i : Int} {arg : BindArg} {v : Vdbe Db} (hv : v.phase = .fresh) (hlo : 1 ≤ i)
    (hhi : i ≤ v.aVar.length) : (bind i arg v).2 = arg.stored.elim v (v.setVar i) := by
  unfold BindArg.stored
  cases h : arg.outcome with
  | none => rw [bind_of_outcome_none h]; rfl
  | some r => rw [bind_of_outcome h]; exact Vdbe.store_fresh r hv hlo hhi

/-! ### `SELECT ?1, ..., ?n` -/

/-- The statement `SELECT ?1, ..., ?n`. -/
def selectParams (n : Nat) : Vdbe Db :=
  .prepared (fun params _ => [params]) ((List.range n).map fun i => ("?" ++ toString (i + 1)).toUTF8.toList) n

abbrev BindCall (n : Nat) := Fin n × BindArg

def bindOne {n : Nat} (v : Vdbe Db) (call : BindCall n) : Vdbe Db := (bind (call.1.val + 1) call.2 v).2

def bindAll {n : Nat} (calls : List (BindCall n)) : Vdbe Db := calls.foldl bindOne (selectParams n)

/-- `select()`, `hasNext()` and `next()`: the row they lead to. -/
def readFirst (t : Tick Db) (v : Vdbe Db) : Option SQLiteRow :=
  match select v with
  | (.error _, _) => none
  | (.ok it, v) =>
    match it.hasNext t v with
    | (.ok true, it, v) =>
      match it.next with
      | (.ok _, _) => some (readRow c v)
      | (.error _, _) => none
    | _ => none

/-- The argument of the last call for parameter `i`. -/
def lastArg {n : Nat} (i : Fin n) (calls : List (BindCall n)) : Option BindArg :=
  (calls.reverse.find? (·.1 = i)).map Prod.snd

/-- The argument of the last call for parameter `i` that was not a Java `null`. -/
def lastNative {n : Nat} (i : Fin n) (calls : List (BindCall n)) : Option BindArg :=
  lastArg i (calls.filter (·.2.outcome.isSome))

/-- Column `i` of the row gives the argument back through the accessor of its kind. -/
def ReadsAs (row : SQLiteRow) (i : Int) : Option BindArg → Prop
  | none => row.getColumnString i = none
  | some .null => row.getColumnString i = none
  | some (.long value) => row.getColumnLong i = value
  | some (.double value) => row.getColumnDouble i = value
  | some (.string value) => row.getColumnString i = value
  | some (.blob value) => row.getColumnBlob i = value

/-- The last call for each parameter is read back, and no call changes another parameter. -/
structure BindLaw {n : Nat} (db : Db) (calls : List (BindCall n)) : Prop where
  reads : ∃ row, readFirst c ⟨db, none, none, none⟩ (bindAll calls) = some row ∧
    ∀ i : Fin n, ReadsAs row i (lastArg i calls)
  frame : ∀ earlier i arg later, calls = earlier ++ (i, arg) :: later → ∀ j, j ≠ i →
    (bindAll (earlier ++ [(i, arg)]) : Vdbe Db).aVar[j.val]? = (bindAll earlier : Vdbe Db).aVar[j.val]?

/-- A parameter whose last native call had this argument is `NULL`. -/
def LeavesNull : Option BindArg → Prop
  | none => True
  | some .null => True
  | some (.long _) => False
  | some (.double value) => sqlite3IsNaN value
  | some (.string value) => ∀ s ∈ value, SQLITE_MAX_LENGTH <
      Vdbe.memSetStrBytes s.utf (Int.bmod s.utf.length 0x100000000)
  | some (.blob value) => ∀ z ∈ value, SQLITE_MAX_LENGTH < z.length

/-- When the last call for a parameter, `last`, reads back, given the last one that was not a Java `null`. -/
def Readable (native : Option BindArg) : (last : Option BindArg) → Prop
  | none => True
  | some .null => True
  | some (.long _) => True
  | some (.double value) => ¬ sqlite3IsNaN value
  | some (.string none) => LeavesNull native
  | some (.string (some s)) => s.utf.length ≤ SQLITE_MAX_LENGTH
  | some (.blob none) => False
  | some (.blob (some z)) => z.length ≤ SQLITE_MAX_LENGTH

/-! ### The cells after the calls -/

theorem lastArg_snoc {n : Nat} (i : Fin n) (calls : List (BindCall n)) (call : BindCall n) :
    lastArg i (calls ++ [call]) = if call.1 = i then some call.2 else lastArg i calls := by
  simp only [lastArg, List.reverse_append, List.reverse_singleton, List.singleton_append, List.find?_cons]
  by_cases h : call.1 = i
  · simp only [h, decide_true, if_true, Option.map_some]
  · simp only [h, decide_false, if_false]

theorem lastNative_snoc {n : Nat} (i : Fin n) (calls : List (BindCall n)) (call : BindCall n) :
    lastNative i (calls ++ [call]) =
      if call.1 = i ∧ call.2.outcome.isSome then some call.2 else lastNative i calls := by
  unfold lastNative
  rw [List.filter_append, List.filter_cons, List.filter_nil]
  by_cases h : call.2.outcome.isSome
  · rw [if_pos h, lastArg_snoc]
    simp only [h, and_true]
  · rw [if_neg h, List.append_nil, if_neg (fun hc => h hc.2)]

theorem bindAll_step {n : Nat} {calls : List (BindCall n)} (call : BindCall n)
    (hp : (bindAll calls : Vdbe Db).phase = .fresh) (hlen : (bindAll calls : Vdbe Db).aVar.length = n) :
    (bindAll (calls ++ [call]) : Vdbe Db) =
      call.2.stored.elim (bindAll calls) ((bindAll calls).setVar (call.1.val + 1)) := by
  have happ : (bindAll (calls ++ [call]) : Vdbe Db) = bindOne (bindAll calls) call := by
    simp only [bindAll, List.foldl_append, List.foldl_cons, List.foldl_nil]
  rw [happ, bindOne, bind_fresh hp (by omega) (by omega)]

/-- The statement stays fresh and keeps its query, its columns and the number of its parameters. -/
theorem bindAll_frame (Db : Type*) {n : Nat} (calls : List (BindCall n)) :
    (bindAll calls : Vdbe Db).phase = .fresh ∧ (bindAll calls : Vdbe Db).aVar.length = n ∧
      (bindAll calls : Vdbe Db).query = (selectParams n : Vdbe Db).query ∧
      (bindAll calls : Vdbe Db).colName = (selectParams n : Vdbe Db).colName := by
  induction calls using List.reverseRecOn with
  | nil => exact ⟨rfl, by simp [bindAll, selectParams, Vdbe.prepared], rfl, rfl⟩
  | append_singleton calls call ih =>
    obtain ⟨hp, hlen, hq, hcol⟩ := ih
    rw [bindAll_step call hp hlen]
    cases call.2.stored with
    | none => exact ⟨hp, hlen, hq, hcol⟩
    | some m => exact ⟨hp, by simpa [Vdbe.setVar] using hlen, hq, hcol⟩

/-- A call changes the cell of its own parameter only. -/
theorem bindAll_snoc_cell {n : Nat} (calls : List (BindCall n)) (call : BindCall n) (i : Fin n) :
    (bindAll (calls ++ [call]) : Vdbe Db).aVar[i.val]? =
      if call.1 = i then (call.2.stored.map some).getD (bindAll calls : Vdbe Db).aVar[i.val]?
      else (bindAll calls : Vdbe Db).aVar[i.val]? := by
  obtain ⟨hp, hlen, -, -⟩ := bindAll_frame Db calls
  rw [bindAll_step call hp hlen]
  cases call.2.stored with
  | none => simp
  | some m =>
    have hidx : ((call.1.val : Int) + 1 - 1).toNat = call.1.val := by omega
    simp only [Option.elim_some, Vdbe.setVar, hidx, Option.map_some, Option.getD_some]
    by_cases h : call.1 = i
    · subst h
      rw [if_pos rfl, List.getElem?_set_self (by omega)]
    · rw [if_neg h, List.getElem?_set_ne (fun he => h (Fin.ext he))]

/-- The cell of a parameter is what its last call other than with a Java `null` left there. -/
theorem bindAll_cell (Db : Type*) {n : Nat} (calls : List (BindCall n)) (i : Fin n) :
    (bindAll calls : Vdbe Db).aVar[i.val]? = some (((lastNative i calls).bind BindArg.stored).getD .null) := by
  induction calls using List.reverseRecOn with
  | nil =>
    simp [bindAll, selectParams, Vdbe.prepared, lastNative, lastArg]
  | append_singleton calls call ih =>
    rw [bindAll_snoc_cell, lastNative_snoc]
    cases hout : call.2.outcome with
    | none =>
      -- a Java `null`: neither the cell nor the last native call changes
      have hstored : call.2.stored = none := by simp only [BindArg.stored, hout, Option.map_none]
      simpa [hstored] using ih
    | some r =>
      have hstored : call.2.stored = some (r.toOption.getD .null) := by
        simp only [BindArg.stored, hout, Option.map_some]
      by_cases h : call.1 = i
      · simp [h, hstored]
      · simpa [h] using ih

/-! ### Reading the row -/

/-- The first row of `SELECT ?1, ..., ?n` reads the cells. -/
theorem readFirst_bindAll {n : Nat} (db : Db) (calls : List (BindCall n)) :
    ∃ w : Vdbe Db, readFirst c ⟨db, none, none, none⟩ (bindAll calls) = some (readRow c w) ∧
      ∀ i : Fin n, w.columnMem i = ((lastNative i calls).bind BindArg.stored).getD .null := by
  obtain ⟨hp, hlen, hq, hcol⟩ := bindAll_frame Db calls
  generalize hv : (bindAll calls : Vdbe Db) = v at *
  have hbusy : v.busy = false := by simp only [Vdbe.busy, hp]
  have hquery : v.query v.aVar db = [v.aVar] := by rw [hq]; rfl
  have hstep : v.step ⟨db, none, none, none⟩ =
      (.row, { v with phase := .active (some [v.aVar]) 1 none, pResultSet := some v.aVar }) := by
    rw [Vdbe.step_of_idle hbusy rfl, hquery]
    rfl
  refine ⟨{ v with phase := .active (some [v.aVar]) 1 none, pResultSet := some v.aVar }, ?_, ?_⟩
  · simp only [readFirst, select, nativeBusy, hbusy, Bool.false_eq_true, if_false, Int.lt_irrefl,
      RowIterator.hasNext, nativeStep, hstep]
    rfl
  · intro i
    have hcell := bindAll_cell Db calls i
    rw [hv] at hcell
    have hcols : v.colName.length = n := by rw [hcol]; simp [selectParams, Vdbe.prepared]
    simp only [Vdbe.columnMem]
    rw [if_pos ⟨by omega, by omega⟩, List.getD_eq_getElem?_getD, Int.toNat_natCast, hcell]
    rfl

/-! ### Lengths -/

theorem memSetStrBytes_of_le {z : List UInt8} (h : (z.length : Int) ≤ SQLITE_MAX_LENGTH) :
    Vdbe.memSetStrBytes z (Int.bmod z.length 0x100000000) = z.length := by
  have hmod : Int.bmod z.length 0x100000000 = z.length := by
    unfold SQLITE_MAX_LENGTH at h
    rw [Int.bmod_def]
    omega
  rw [hmod, Vdbe.memSetStrBytes, if_neg (by omega)]

theorem string_outcome_of_le {s : JString} (h : s.utf.length ≤ SQLITE_MAX_LENGTH) :
    (BindArg.string (some s)).outcome = some (.ok (.text s.utf)) := by
  have hfits : ¬ SQLITE_MAX_LENGTH < (s.utf.length : Int) := by omega
  simp only [BindArg.outcome, Option.map_some, strlen_utf, textOutcome, memSetStrBytes_of_le h, hfits, if_false,
    Int.toNat_natCast, List.take_length]

/-- A text that is too long is not stored whole, also where the cast of its length to `int` hides it. -/
private theorem take_ne_of_long {z : List UInt8} {n : Int} (h : SQLITE_MAX_LENGTH < z.length)
    (hn : ¬ SQLITE_MAX_LENGTH < Vdbe.memSetStrBytes z n) : z.take (Vdbe.memSetStrBytes z n).toNat ≠ z := by
  intro he
  have hlen : (z.take (Vdbe.memSetStrBytes z n).toNat).length = z.length := by rw [he]
  rw [List.length_take] at hlen
  have hmax : 0 ≤ SQLITE_MAX_LENGTH := by decide
  omega

theorem string_stored (s : JString) :
    (BindArg.string (some s)).stored = some
      (if SQLITE_MAX_LENGTH < Vdbe.memSetStrBytes s.utf (Int.bmod s.utf.length 0x100000000) then .null
      else .text (s.utf.take (Vdbe.memSetStrBytes s.utf (Int.bmod s.utf.length 0x100000000)).toNat)) := by
  simp only [BindArg.stored, BindArg.outcome, Option.map_some, strlen_utf, textOutcome_stored]

theorem blob_stored (z : List UInt8) :
    (BindArg.blob (some z)).stored = some (if SQLITE_MAX_LENGTH < (z.length : Int) then .null else .blob z) := by
  have hbytes : Vdbe.memSetStrBytes z z.length = z.length := if_neg (by omega)
  simp only [BindArg.stored, BindArg.outcome, Option.map_some, textOutcome_stored, hbytes, Int.toNat_natCast,
    List.take_length]

theorem string_reads (s : JString) :
    newStringUTF (sqlite3ValueText c ((BindArg.string (some s)).stored.getD .null)) = some s ↔
      s.utf.length ≤ SQLITE_MAX_LENGTH := by
  rw [string_stored, Option.getD_some]
  constructor
  · intro h
    by_contra hlong
    split at h
    · cases h
    · rename_i hn
      have htake := take_ne_of_long (by omega) hn
      -- the bytes that were taken have no zero byte either, so all of them are read
      generalize hk : (Vdbe.memSetStrBytes s.utf (Int.bmod s.utf.length 0x100000000)).toNat = k at h htake
      have hz : ∀ b ∈ s.utf.take k, b ≠ 0 := fun b hb => s.nonzero b (List.mem_of_mem_take hb)
      have hread : (s.utf.take k).takeWhile (· ≠ 0) = s.utf := congrArg JString.utf (Option.some.inj h)
      rw [takeWhile_nonzero hz] at hread
      exact htake hread
  · intro h
    have hfits : ¬ SQLITE_MAX_LENGTH < (s.utf.length : Int) := by omega
    rw [memSetStrBytes_of_le h, if_neg hfits, Int.toNat_natCast, List.take_length]
    exact newStringUTF_utf s

theorem blob_reads (z : List UInt8) :
    some (newByteArray (sqlite3ValueBytes c ((BindArg.blob (some z)).stored.getD .null))
      (sqlite3ValueBlob c ((BindArg.blob (some z)).stored.getD .null))) = some z ↔ z.length ≤ SQLITE_MAX_LENGTH := by
  rw [blob_stored, Option.getD_some]
  by_cases hlong : SQLITE_MAX_LENGTH < (z.length : Int)
  · rw [if_pos hlong]
    constructor
    · intro h
      have hnil : z = [] := (Option.some.inj h).symm
      rw [hnil] at hlong
      exact absurd hlong (by decide)
    · intro h; omega
  · rw [if_neg hlong]
    refine ⟨fun _ => by omega, fun _ => ?_⟩
    cases z with
    | nil => rfl
    | cons b z =>
      simp [newByteArray, sqlite3ValueBytes, sqlite3ValueText, sqlite3ValueBlob]

/-! ### The law -/

theorem lastNative_of_lastArg {n : Nat} (i : Fin n) (calls : List (BindCall n)) :
    (lastArg i calls = none → lastNative i calls = none) ∧
      ∀ arg, lastArg i calls = some arg → arg.outcome.isSome → lastNative i calls = some arg := by
  induction calls using List.reverseRecOn with
  | nil => exact ⟨fun _ => rfl, fun arg h => nomatch h⟩
  | append_singleton calls call ih =>
    rw [lastArg_snoc, lastNative_snoc]
    by_cases h : call.1 = i
    · simp only [h, if_true, true_and]
      refine ⟨fun hn => (nomatch hn), ?_⟩
      intro arg harg hsome
      obtain rfl := Option.some.inj harg
      rw [if_pos hsome]
    · simpa only [h, if_false, false_and] using ih

private theorem ite_null_iff {p : Prop} [Decidable p] {m : Value} (hm : m ≠ .null) :
    (if p then .null else m) = Value.null ↔ p := by
  by_cases hp : p
  · rw [if_pos hp]
    exact ⟨fun _ => hp, fun _ => rfl⟩
  · rw [if_neg hp]
    exact ⟨fun h => absurd h hm, fun h => absurd h hp⟩

theorem stored_null_iff_leavesNull (native : Option BindArg) :
    (native.bind BindArg.stored).getD .null = .null ↔ LeavesNull native := by
  cases native with
  | none => exact ⟨fun _ => trivial, fun _ => rfl⟩
  | some arg =>
    rw [Option.bind_some]
    cases arg with
    | null => exact ⟨fun _ => trivial, fun _ => rfl⟩
    | long value => exact ⟨(fun h => nomatch h), False.elim⟩
    | double value => exact ite_null_iff (by simp)
    | string value =>
      cases value with
      | none => exact ⟨fun _ s hs => (nomatch hs), fun _ => rfl⟩
      | some s =>
        rw [string_stored, Option.getD_some]
        simp only [LeavesNull, Option.mem_some_iff, forall_eq']
        exact ite_null_iff (by simp)
    | blob value =>
      cases value with
      | none => exact ⟨fun _ z hz => (nomatch hz), fun _ => rfl⟩
      | some z =>
        rw [blob_stored, Option.getD_some]
        simp only [LeavesNull, Option.mem_some_iff, forall_eq']
        exact ite_null_iff (by simp)

/-- A column whose cell is `m` reads as the last argument exactly where the condition holds. -/
theorem readsAs_iff_readable {n : Nat} {calls : List (BindCall n)} {i : Fin n} {w : Vdbe Db}
    (hcell : w.columnMem i = ((lastNative i calls).bind BindArg.stored).getD .null) :
    ReadsAs (readRow c w) i (lastArg i calls) ↔ Readable (lastNative i calls) (lastArg i calls) := by
  obtain ⟨hnone, hsome⟩ := lastNative_of_lastArg i calls
  cases hlast : lastArg i calls with
  | none =>
    rw [hnone hlast] at hcell
    simp [ReadsAs, Readable, readRow, nativeGetColumnString, Vdbe.columnText, hcell, sqlite3ValueText, newStringUTF]
  | some arg =>
    have hself : arg.outcome.isSome → w.columnMem i = arg.stored.getD .null := by
      intro h
      rw [hcell, hsome arg hlast h]
      rfl
    cases arg with
    | null =>
      have hm : w.columnMem i = .null := hself rfl
      simp [ReadsAs, Readable, readRow, nativeGetColumnString, Vdbe.columnText, hm, sqlite3ValueText, newStringUTF]
    | long value =>
      have hm : w.columnMem i = .integer value := hself rfl
      simp [ReadsAs, Readable, readRow, nativeGetColumnLong, Vdbe.columnInt64, hm, sqlite3VdbeIntValue]
    | double value =>
      have hm : w.columnMem i = if sqlite3IsNaN value then .null else .real value := hself rfl
      simp only [ReadsAs, Readable, readRow, nativeGetColumnDouble, Vdbe.columnDouble, hm]
      by_cases hnan : sqlite3IsNaN value
      · -- the cell is `NULL`, which reads as 0
        have hne : (0 : Double) ≠ value := fun h => by rw [← h] at hnan; exact absurd hnan (by decide)
        simpa [hnan, sqlite3VdbeRealValue] using hne
      · simp [hnan, sqlite3VdbeRealValue]
    | string value =>
      cases value with
      | none =>
        -- the cell is still what the last native call left
        simp only [ReadsAs, Readable, readRow, nativeGetColumnString, Vdbe.columnText]
        rw [← stored_null_iff_leavesNull, ← hcell]
        cases w.columnMem i <;> simp [sqlite3ValueText, newStringUTF]
      | some s =>
        have hm := hself rfl
        simp only [ReadsAs, Readable, readRow, nativeGetColumnString, Vdbe.columnText, hm]
        exact string_reads c s
    | blob value =>
      cases value with
      | none =>
        -- `getColumnBlob` never returns null
        simp [ReadsAs, Readable, readRow, nativeGetColumnBlob]
      | some z =>
        have hm := hself rfl
        simp only [ReadsAs, Readable, readRow, nativeGetColumnBlob, Vdbe.columnBytes, Vdbe.columnBlob, hm]
        exact blob_reads c z

/-- Binding is last write wins, with `null` read back as `null`, exactly where the last call for each parameter is
readable. -/
theorem bindLaw_iff_readable {n : Nat} (db : Db) (calls : List (BindCall n)) :
    BindLaw c db calls ↔ ∀ i, Readable (lastNative i calls) (lastArg i calls) := by
  obtain ⟨w, hread, hcell⟩ := readFirst_bindAll c db calls
  constructor
  · intro h i
    obtain ⟨row, hrow, hall⟩ := h.reads
    obtain rfl := Option.some.inj (hread.symm.trans hrow)
    exact (readsAs_iff_readable c (hcell i)).1 (hall i)
  · intro h
    refine ⟨⟨_, hread, fun i => (readsAs_iff_readable c (hcell i)).2 (h i)⟩, ?_⟩
    intro earlier i arg later _ j hj
    rw [bindAll_snoc_cell, if_neg (fun he => hj he.symm)]

def letterA : JString := ⟨[97], fun b hb => by rw [List.mem_singleton.1 hb]; decide⟩

/-- After `bindString(1, "a")` and `bindString(1, null)` the parameter still reads `"a"`. -/
theorem not_bindLaw_stringNull :
    ¬ BindLaw Casts.ofIntegers ()
      [((0 : Fin 1), .string (some letterA)), (0, .string none)] := by
  intro h
  obtain ⟨w, hread, hcell⟩ := readFirst_bindAll Casts.ofIntegers ()
    [((0 : Fin 1), BindArg.string (some letterA)), (0, .string none)]
  obtain ⟨row, hrow, hall⟩ := h.reads
  obtain rfl := Option.some.inj (hread.symm.trans hrow)
  have hlong := (readsAs_iff_readable Casts.ofIntegers (hcell 0)).1 (hall 0) _ rfl
  exact absurd hlong (by decide)

end Sqlite4a
