import Sqlite4a.Binding
import Sqlite4a.Callbacks

/-!
# Functions written in Java

`OP_Function` clears the result cell, calls `java_func`, and takes the cell as the value of the call unless an error was
set.  `java_func` and `JniFunc.call` copy the argument pointers in a loop each, and the Java function reads every
argument through them (`values_jniFunc`).  Its result calls replace one another in the cell, except that one with a Java
`null` does nothing, and that an error, once set, stays (`foldl_result`); so the value is the argument of the last call
exactly where `Delivers` says so (`funcLaw_iff_delivers`).
-/

namespace Sqlite4a

variable (c : Casts)

/-! ### Arguments -/

def nativeLongValue (m : Value) : Int64 := sqlite3VdbeIntValue c m

def nativeDoubleValue (m : Value) : Double := sqlite3VdbeRealValue c m

def nativeStringValue (m : Value) : Option JString := newStringUTF (sqlite3ValueText c m)

def nativeBlobValue (m : Value) : Option (List UInt8) :=
  some (newByteArray (sqlite3ValueBytes c m) (sqlite3ValueBlob c m))

/-- What the accessors of a `SQLiteValue` return. -/
structure SQLiteValue where
  longValue : Int64
  doubleValue : Double
  stringValue : Option JString
  blobValue : Option (List UInt8)

def readValue (m : Value) : SQLiteValue where
  longValue := nativeLongValue c m
  doubleValue := nativeDoubleValue c m
  stringValue := nativeStringValue c m
  blobValue := nativeBlobValue c m

/-! ### Results -/

/-- `sqlite3_context`: the result cell, and whether `sqlite3_result_error_toobig` has been called for it. -/
structure SQLiteContext where
  pOut : Value := .null
  isError : Bool := false
  deriving DecidableEq

namespace SQLiteContext

def resultErrorTooBig : SQLiteContext := ⟨.text (sqlite3ErrStr SQLITE_TOOBIG).toUTF8.toList, true⟩

def setResultStrOrError (cell : List UInt8 → Value) (z : List UInt8) (n : Int) (ctx : SQLiteContext) : SQLiteContext :=
  if SQLITE_MAX_LENGTH < Vdbe.memSetStrBytes z n then resultErrorTooBig
  else { ctx with pOut := cell (z.take (Vdbe.memSetStrBytes z n).toNat) }

def nativeResultNull (ctx : SQLiteContext) : SQLiteContext := { ctx with pOut := .null }

def nativeResultLong (result : Int64) (ctx : SQLiteContext) : SQLiteContext := { ctx with pOut := .integer result }

/-- The length is `static_cast<int>(strlen(result))`. -/
def nativeResultText (result : JString) (ctx : SQLiteContext) : SQLiteContext :=
  let z := getStringUTFChars result
  ctx.setResultStrOrError .text z (Int.bmod (strlen z) 0x100000000)

def nativeResultDouble (result : Double) (ctx : SQLiteContext) : SQLiteContext :=
  { ctx with pOut := if sqlite3IsNaN result then .null else .real result }

def nativeResultBlob (result : List UInt8) (ctx : SQLiteContext) : SQLiteContext :=
  ctx.setResultStrOrError .blob result result.length

/-- `resultNull`, `resultLong`, `resultDouble`, `resultString` and `resultBlob`, whose arguments are those of the five
`bind` methods. -/
def result (ctx : SQLiteContext) : BindArg → SQLiteContext
  | .null => ctx.nativeResultNull
  | .long value => ctx.nativeResultLong value
  | .double value => ctx.nativeResultDouble value
  | .string (some value) => ctx.nativeResultText value
  | .string none => ctx
  | .blob (some value) => ctx.nativeResultBlob value
  | .blob none => ctx

/-- The message of an error is the text in the result cell. -/
def errorMessage (ctx : SQLiteContext) : String :=
  match sqlite3ValueText c ctx.pOut with
  | some z => (String.fromUTF8? ⟨(z.takeWhile (· ≠ 0)).toArray⟩).getD ""
  | none => ""

/-- What `OP_Function` takes from the context when the function has returned. -/
def value (ctx : SQLiteContext) : Except Failure Value :=
  if ctx.isError then .error { Failure.tooBig with msg := ctx.errorMessage c } else .ok ctx.pOut

end SQLiteContext

/-! ### The call -/

/-- `for (i = 0; i < n; ++i) xs[i] = g(i);` -/
def fillLoop {β : Type*} (g : Nat → β) (n : Nat) (xs : List β) : List β :=
  (List.range n).foldl (fun xs i => xs.set i (g i)) xs

/-- A Java function: the result calls it makes for an array of values. -/
abbrev Func := List (Option SQLiteValue) → List BindArg

namespace JniFunc

/-- The array that `JniFunc.call` makes of the pointers; `mem` is what `sqlite3_value_*` find at a pointer. -/
def values (mem : Nat → Value) (valuePtrs : List Nat) : List (Option SQLiteValue) :=
  fillLoop (fun i => valuePtrs[i]?.map fun p => readValue c (mem p)) valuePtrs.length
    (List.replicate valuePtrs.length none)

def call (mFunc : Func) (mem : Nat → Value) (valuePtrs : List Nat) (ctx : SQLiteContext) : SQLiteContext :=
  (mFunc (values c mem valuePtrs)).foldl SQLiteContext.result ctx

end JniFunc

/-- The array of pointers that `java_func` fills; `stack` is what the memory of the array held before. -/
def funcPointers (argv : List Nat) (stack : Nat → Nat) : List Nat :=
  fillLoop (fun i => argv.getD i 0) argv.length ((List.range argv.length).map stack)

/-- `OP_Function` for a function registered with the global reference `data`. -/
def opFunction (f : Func) (data context : Nat) (mem : Nat → Value) (argv : List Nat) (stack : Nat → Nat)
    (env : JniEnv) :
    Except Failure Value × JniEnv :=
  let valuePtrs := funcPointers argv stack
  let ctx := JniFunc.call c f mem valuePtrs {}
  let result := match ctx.value c with
    | .ok m => FuncResult.value m
    | .error e => .error e
  (ctx.value c, (javaFunc { result := result } (some data) context valuePtrs env).2)

/-! ### The loops -/

/-- After the loop the first `n` places hold what was assigned to them. -/
theorem fillLoop_eq {β : Type*} (g : Nat → β) {n : Nat} {xs : List β} (h : xs.length = n) :
    fillLoop g n xs = (List.range n).map g := by
  have hfilled : ∀ k ≤ n, (fillLoop g k xs) = (List.range k).map g ++ xs.drop k := by
    intro k
    induction k with
    | zero => intro _; rfl
    | succ k ih =>
      intro hk
      have hlt : k < xs.length := by omega
      have hstep : fillLoop g (k + 1) xs = (fillLoop g k xs).set k (g k) := by
        simp only [fillLoop, List.range_succ, List.foldl_append, List.foldl_cons, List.foldl_nil]
      rw [hstep, ih (by omega), List.set_append_right _ _ (by simp), List.drop_eq_getElem_cons hlt]
      simp only [List.length_map, List.length_range, Nat.sub_self, List.set_cons_zero, List.range_succ, List.map_append,
        List.map_cons, List.map_nil, List.append_assoc, List.cons_append, List.nil_append]
  rw [hfilled n (Nat.le_refl n), List.drop_eq_nil_of_le (by omega), List.append_nil]

theorem funcPointers_eq (argv : List Nat) (stack : Nat → Nat) : funcPointers argv stack = argv := by
  rw [funcPointers, fillLoop_eq _ (by simp)]
  apply List.ext_getElem
  · simp
  · intro i h1 h2
    simp [List.getD_eq_getElem?_getD, List.getElem?_eq_getElem h2]

theorem values_jniFunc (mem : Nat → Value) (valuePtrs : List Nat) :
    JniFunc.values c mem valuePtrs = valuePtrs.map fun p => some (readValue c (mem p)) := by
  rw [JniFunc.values, fillLoop_eq _ List.length_replicate]
  apply List.ext_getElem
  · simp
  · intro i h1 h2
    have hi : i < valuePtrs.length := by simpa using h2
    simp [List.getElem?_eq_getElem hi]

/-! ### The result cell -/

theorem SQLiteContext.setResultStrOrError_eq (cell : List UInt8 → Value) (z : List UInt8) (n : Int)
    (ctx : SQLiteContext) :
    ctx.setResultStrOrError cell z n =
      match textOutcome cell z n with
      | .ok m => { ctx with pOut := m }
      | .error _ => resultErrorTooBig := by
  unfold setResultStrOrError textOutcome
  by_cases h : SQLITE_MAX_LENGTH < Vdbe.memSetStrBytes z n
  · simp only [h, if_true]
  · simp only [h, if_false]

/-- What one call does: nothing for a Java `null`, otherwise it sets the cell or the error. -/
theorem SQLiteContext.result_eq (ctx : SQLiteContext) (arg : BindArg) :
    ctx.result arg =
      match arg.outcome with
      | none => ctx
      | some (.ok m) => { ctx with pOut := m }
      | some (.error _) => resultErrorTooBig := by
  cases arg with
  | null => rfl
  | long value => rfl
  | double value => rfl
  | string value =>
    cases value with
    | none => rfl
    | some s =>
      have hval : ctx.result (.string (some s)) =
          ctx.setResultStrOrError .text s.utf (Int.bmod (strlen s.utf) 0x100000000) :=
        rfl
      have hout : (BindArg.string (some s)).outcome =
          some (textOutcome .text s.utf (Int.bmod (strlen s.utf) 0x100000000)) := rfl
      rw [hval, setResultStrOrError_eq, hout]
      generalize textOutcome .text s.utf (Int.bmod (strlen s.utf) 0x100000000) = r
      cases r with
      | ok m => rfl
      | error f => rfl
  | blob value =>
    cases value with
    | none => rfl
    | some z =>
      have hval : ctx.result (.blob (some z)) = ctx.setResultStrOrError .blob z z.length := rfl
      have hout : (BindArg.blob (some z)).outcome = some (textOutcome .blob z z.length) := rfl
      rw [hval, setResultStrOrError_eq, hout]
      generalize textOutcome .blob z z.length = r
      cases r with
      | ok m => rfl
      | error f => rfl

/-- The last call with an argument other than Java `null`. -/
def lastNotNull (calls : List BindArg) : Option BindArg := (calls.filter (·.outcome.isSome)).getLast?

/-- A text or blob longer than `SQLITE_MAX_LENGTH`, as its length reaches SQLite. -/
def BindArg.TooBig (arg : BindArg) : Prop := arg.outcome = some (.error .tooBig)

theorem foldl_result_isError {calls : List BindArg} (ctx : SQLiteContext)
    (h : ctx.isError = true ∨ ∃ arg ∈ calls, arg.TooBig) :
    (calls.foldl SQLiteContext.result ctx).isError = true := by
  induction calls generalizing ctx with
  | nil => exact h.resolve_right fun ⟨arg, hm, _⟩ => absurd hm List.not_mem_nil
  | cons arg calls ih =>
    rw [List.foldl_cons]
    apply ih
    rcases h with h | ⟨a, hm, hbig⟩
    · -- no call takes the error back
      left
      rw [SQLiteContext.result_eq]
      split
      · exact h
      · exact h
      · rfl
    · rcases List.mem_cons.1 hm with rfl | hm
      · left
        rw [SQLiteContext.result_eq, hbig]
        rfl
      · exact .inr ⟨a, hm, hbig⟩

/-- Where nothing is too big, the cell holds what the last call other than with a Java `null` put there. -/
theorem foldl_result {calls : List BindArg} (h : ∀ arg ∈ calls, ¬ arg.TooBig) :
    calls.foldl SQLiteContext.result {} = ⟨((lastNotNull calls).bind BindArg.stored).getD .null, false⟩ := by
  induction calls using List.reverseRecOn with
  | nil => rfl
  | append_singleton calls arg ih =>
    have hprev := ih fun a ha => h a (List.mem_append_left _ ha)
    have harg := h arg (List.mem_append_right _ List.mem_cons_self)
    rw [List.foldl_append, List.foldl_cons, List.foldl_nil, hprev, SQLiteContext.result_eq]
    unfold lastNotNull
    rw [List.filter_append, List.filter_cons, List.filter_nil]
    cases hout : arg.outcome with
    | none => simp
    | some r =>
      cases r with
      | ok m => simp [BindArg.stored, hout, Except.toOption]
      | error f =>
        obtain rfl := BindArg.outcome_error hout
        exact absurd hout harg

/-! ### The law -/

/-- The value of a call whose last result call had this argument. -/
def BindArg.value : Option BindArg → Value
  | none => .null
  | some .null => .null
  | some (.long value) => .integer value
  | some (.double value) => .real value
  | some (.string value) => value.elim .null fun s => .text s.utf
  | some (.blob value) => value.elim .null .blob

/-- The function is called once, on the values of all arguments in order, and the value of the SQL call is the
argument of its last result call. -/
structure FuncLaw (f : Func) (data context : Nat) (mem : Nat → Value) (argv : List Nat) (stack : Nat → Nat)
    (env : JniEnv) : Prop where
  calledOnce : (opFunction c f data context mem argv stack env).2.calls = env.calls ++ [.func data context argv]
  values : JniFunc.values c mem (funcPointers argv stack) = argv.map fun p => some (readValue c (mem p))
  result : (opFunction c f data context mem argv stack env).1 =
    .ok (BindArg.value (f (argv.map fun p => some (readValue c (mem p)))).getLast?)

/-- When the last result call decides the value: `notNull` is the last one with an argument other than Java `null`. -/
def SettlesResult (notNull : Option BindArg) : (last : Option BindArg) → Prop
  | some (.double value) => ¬ sqlite3IsNaN value
  | some (.string (some s)) => s.utf.length ≤ SQLITE_MAX_LENGTH
  | some (.string none) => LeavesNull notNull
  | some (.blob none) => LeavesNull notNull
  | _ => True

/-- No result call is too big, and the last one decides the value. -/
def Delivers (calls : List BindArg) : Prop :=
  (∀ arg ∈ calls, ¬ arg.TooBig) ∧ SettlesResult (lastNotNull calls) calls.getLast?

theorem lastNotNull_of_getLast? {calls : List BindArg} {arg : BindArg} (h : calls.getLast? = some arg)
    (hout : arg.outcome.isSome) : lastNotNull calls = some arg := by
  obtain ⟨init, rfl⟩ := List.getLast?_eq_some_iff.1 h
  simp [lastNotNull, List.filter_append, hout]

theorem string_stored_iff (s : JString) :
    (BindArg.string (some s)).stored = some (.text s.utf) ↔ s.utf.length ≤ SQLITE_MAX_LENGTH := by
  constructor
  · intro hst
    have hread := (string_reads Casts.ofIntegers s).1
    rw [hst] at hread
    exact hread (newStringUTF_utf s)
  · intro hle
    rw [BindArg.stored, string_outcome_of_le hle]
    rfl

private theorem getD_null_eq_iff {o : Option Value} {m : Value} (hm : m ≠ .null) : o.getD .null = m ↔ o = some m := by
  cases o with
  | none => exact iff_of_false (Ne.symm hm) (by simp)
  | some a => rw [Option.getD_some, Option.some_inj]

theorem settlesResult_iff {calls : List BindArg} (h : ∀ arg ∈ calls, ¬ arg.TooBig) :
    ((lastNotNull calls).bind BindArg.stored).getD .null = BindArg.value calls.getLast? ↔
      SettlesResult (lastNotNull calls) calls.getLast? := by
  cases hlast : calls.getLast? with
  | none =>
    obtain rfl := List.getLast?_eq_none_iff.1 hlast
    exact iff_of_true rfl trivial
  | some arg =>
    have hnot := h arg (List.mem_of_getLast? hlast)
    have hself : arg.outcome.isSome → ((lastNotNull calls).bind BindArg.stored).getD .null = arg.stored.getD .null := by
      intro hsome
      rw [lastNotNull_of_getLast? hlast hsome]
      rfl
    cases arg with
    | null => exact iff_of_true (hself rfl) trivial
    | long value => exact iff_of_true (hself rfl) trivial
    | double value =>
      rw [hself rfl]
      show (if sqlite3IsNaN value then Value.null else .real value) = .real value ↔ ¬ sqlite3IsNaN value
      by_cases hnan : sqlite3IsNaN value
      · rw [if_pos hnan]
        exact iff_of_false (by simp) (fun hn => hn hnan)
      · rw [if_neg hnan]
        exact iff_of_true rfl hnan
    | string value =>
      cases value with
      | none => exact stored_null_iff_leavesNull _
      | some s =>
        have hsome : (BindArg.string (some s)).outcome.isSome := by
          simp only [BindArg.outcome, Option.map_some, Option.isSome_some]
        rw [hself hsome]
        exact (getD_null_eq_iff (m := .text s.utf) (by simp)).trans (string_stored_iff s)
    | blob value =>
      cases value with
      | none => exact stored_null_iff_leavesNull _
      | some z =>
        rw [hself rfl]
        refine iff_of_true ?_ trivial
        rw [blob_stored, Option.getD_some, if_neg]
        · rfl
        · intro hlong
          apply hnot
          have hbytes : Vdbe.memSetStrBytes z z.length = z.length := if_neg (by omega)
          simp only [BindArg.TooBig, BindArg.outcome, Option.map_some, textOutcome, hbytes, hlong, if_true]

/-- A function computes what its last result call says exactly where that call decides the value and no call was too
big. -/
theorem funcLaw_iff_delivers (f : Func) (data context : Nat) (mem : Nat → Value) (argv : List Nat) (stack : Nat → Nat)
    (env : JniEnv) :
    FuncLaw c f data context mem argv stack env ↔ Delivers (f (argv.map fun p => some (readValue c (mem p)))) := by
  have hptrs := funcPointers_eq argv stack
  have hval : (opFunction c f data context mem argv stack env).1 =
      ((f (argv.map fun p => some (readValue c (mem p)))).foldl SQLiteContext.result {}).value c := by
    simp only [opFunction, hptrs, JniFunc.call, values_jniFunc]
  have honce : (opFunction c f data context mem argv stack env).2.calls = env.calls ++ [.func data context argv] := by
    simp only [opFunction, hptrs]
    rfl
  obtain ⟨calls, hf⟩ : ∃ calls, f (argv.map fun p => some (readValue c (mem p))) = calls := ⟨_, rfl⟩
  rw [hf] at hval ⊢
  constructor
  · intro h
    have hresult := h.result
    rw [hval, hf] at hresult
    have hfits : ∀ arg ∈ calls, ¬ arg.TooBig := by
      intro arg hm hbig
      rw [SQLiteContext.value, foldl_result_isError {} (.inr ⟨arg, hm, hbig⟩)] at hresult
      cases hresult
    refine ⟨hfits, (settlesResult_iff hfits).1 ?_⟩
    rw [foldl_result hfits] at hresult
    exact Except.ok.inj hresult
  · intro ⟨hfits, hlast⟩
    refine ⟨honce, by rw [hptrs, values_jniFunc], ?_⟩
    rw [hval, hf, foldl_result hfits, SQLiteContext.value, if_neg Bool.false_ne_true, (settlesResult_iff hfits).2 hlast]

/-- A function that sets 1 and then calls `resultString(null)`. -/
def oneThenNull : Func := fun _ => [.long 1, .string none]

/-- Its value is 1. -/
theorem not_funcLaw_oneThenNull :
    ¬ FuncLaw Casts.ofIntegers oneThenNull 0 0 (fun _ => .null) [] (fun _ => 0) JniEnv.empty := by
  intro h
  have hresult : (Except.ok (.integer 1) : Except Failure Value) = .ok .null := h.result
  cases hresult

end Sqlite4a
