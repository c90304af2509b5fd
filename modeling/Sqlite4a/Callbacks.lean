import Sqlite4a.Runs
import Sqlite4a.Value

/-!
# Callbacks into Java

`java_trace`, `java_compare` and `java_func`, which SQLite calls while a native method runs, as functions on what JNI
keeps for the thread: the table of local references, and whether an exception is pending.  A local reference lives until
`DeleteLocalRef` or until the native method returns to Java, so what a callback leaves in the table stays there for the
rest of the statement.  `java_func` leaves nothing, `java_trace` one string and `java_compare` two (`locals_run`).
-/

namespace Sqlite4a

def SQLITE_TRACE_STMT : Nat := 1

/-- A call of a Java method, with the object, given by its global reference, and the arguments. -/
inductive JavaCall
  | trace (func : Nat) (sql : Option JString)
  | compare (comparator : Nat) (lhs rhs : Option JString)
  | func (func : Nat) (context : Nat) (values : List Nat)
  deriving DecidableEq

/-- What a function has set as its result by the time it returns: nothing, a value, or an error, which
`sqlite3_result_text` and `sqlite3_result_blob` set for what is longer than `SQLITE_MAX_LENGTH`. -/
inductive FuncResult
  | unset
  | value (v : Value)
  | error (f : Failure)
  deriving DecidableEq

/-- How a Java method ends: whether it throws, what it returns, and what it has set as the result of a function. -/
structure JavaReturn where
  throws : Bool := false
  value : Int := 0
  result : FuncResult := .unset
  deriving DecidableEq

/-- `JNIEnv`.  `peak` is the greatest number of local references there has been, and `misused` says that a function was
called that JNI forbids to call while an exception is pending. -/
structure JniEnv where
  locals : List Nat := []
  next : Nat := 0
  peak : Nat := 0
  pending : Bool := false
  misused : Bool := false
  calls : List JavaCall := []
  known : ∀ r ∈ locals, r < next
  peak_le : locals.length ≤ peak

namespace JniEnv

def empty : JniEnv where
  known := fun _ hr => absurd hr List.not_mem_nil
  peak_le := Nat.le_refl 0

/-- The entry of a function that may not be called while an exception is pending. -/
def enter (env : JniEnv) : JniEnv := { env with misused := env.misused || env.pending }

/-- A new local reference. -/
def newLocal (env : JniEnv) : Nat × JniEnv :=
  (env.next,
    { env.enter with
      locals := env.next :: env.locals
      next := env.next + 1
      peak := max env.peak (env.locals.length + 1)
      known := fun r hr => by
        rcases List.mem_cons.1 hr with rfl | hr
        · exact Nat.lt_succ_self _
        · exact Nat.lt_succ_of_lt (env.known r hr)
      peak_le := Nat.le_max_right _ _ })

def newLocalRef (env : JniEnv) : Nat × JniEnv := env.newLocal
def newStringUTF (env : JniEnv) : Nat × JniEnv := env.newLocal
def newLongArray (env : JniEnv) : Nat × JniEnv := env.newLocal
def setLongArrayRegion (env : JniEnv) : JniEnv := env.enter

/-- `CallVoidMethod` and `CallIntMethod`. -/
def callMethod (call : JavaCall) (ret : JavaReturn) (env : JniEnv) : JniEnv :=
  { env.enter with calls := env.calls ++ [call], pending := env.pending || ret.throws }

/-- `DeleteLocalRef` may be called at any time. -/
def deleteLocalRef (r : Nat) (env : JniEnv) : JniEnv :=
  { env with
    locals := env.locals.filter (· ≠ r)
    known := fun q hq => env.known q (List.mem_filter.1 hq).1
    peak_le := (List.length_filter_le _ _).trans env.peak_le }

def throwNew (env : JniEnv) : JniEnv := { env.enter with pending := true }

/-! ### What each function does to the table -/

@[simp] theorem enter_locals (env : JniEnv) : env.enter.locals = env.locals := rfl
@[simp] theorem enter_peak (env : JniEnv) : env.enter.peak = env.peak := rfl

@[simp] theorem newLocal_fst (env : JniEnv) : env.newLocal.1 = env.next := rfl
@[simp] theorem newLocal_locals (env : JniEnv) : env.newLocal.2.locals = env.next :: env.locals := rfl
@[simp] theorem newLocal_next (env : JniEnv) : env.newLocal.2.next = env.next + 1 := rfl
@[simp] theorem newLocal_peak (env : JniEnv) : env.newLocal.2.peak = max env.peak (env.locals.length + 1) := rfl

@[simp] theorem callMethod_locals (call : JavaCall) (ret : JavaReturn) (env : JniEnv) :
    (env.callMethod call ret).locals = env.locals := rfl
@[simp] theorem callMethod_peak (call : JavaCall) (ret : JavaReturn) (env : JniEnv) :
    (env.callMethod call ret).peak = env.peak := rfl

@[simp] theorem deleteLocalRef_locals (r : Nat) (env : JniEnv) :
    (env.deleteLocalRef r).locals = env.locals.filter (· ≠ r) := rfl
@[simp] theorem deleteLocalRef_peak (r : Nat) (env : JniEnv) : (env.deleteLocalRef r).peak = env.peak := rfl

/-- A number that has not been given out is not in the table. -/
theorem filter_next (env : JniEnv) {r : Nat} (hr : env.next ≤ r) : env.locals.filter (· ≠ r) = env.locals := by
  rw [List.filter_eq_self]
  intro q hq
  have := env.known q hq
  simp only [ne_eq, decide_eq_true_eq]
  omega

end JniEnv

/-! ### The callbacks -/

/-- The SQL text of a trigger is a comment; of a statement it is what `sqlite3_expanded_sql` gives. -/
def tracedSql (expandedSql x : List UInt8) : List UInt8 := if x.take 2 = [45, 45] then x else expandedSql

def javaTrace (ret : JavaReturn) (mask : Nat) (jfunc : Option Nat) (expandedSql x : List UInt8) (env : JniEnv) :
    JniEnv :=
  match jfunc with
  | some jfunc =>
    if mask = SQLITE_TRACE_STMT then
      let (func, env) := env.newLocalRef
      let sql := tracedSql expandedSql x
      let (_, env) := env.newStringUTF
      let env := env.callMethod (.trace jfunc (newStringUTF (some sql))) ret
      env.deleteLocalRef func
    else env
  | none => env

def javaCompare (ret : JavaReturn) (data : Option Nat) (lhs rhs : List UInt8) (env : JniEnv) : Int × JniEnv :=
  match data with
  | some data =>
    let (comparator, env) := env.newLocalRef
    let (_, env) := env.newStringUTF
    let (_, env) := env.newStringUTF
    let env := env.callMethod (.compare data (newStringUTF (some lhs)) (newStringUTF (some rhs))) ret
    (ret.value, env.deleteLocalRef comparator)
  | none => (0, env)

/-- The values and the context are pointers that Java hands back. -/
def javaFunc (ret : JavaReturn) (data : Option Nat) (context : Nat) (argv : List Nat) (env : JniEnv) :
    FuncResult × JniEnv :=
  match data with
  | some data =>
    let (func, env) := env.newLocalRef
    let (jvalues, env) := env.newLongArray
    let env := env.setLongArrayRegion
    let env := env.callMethod (.func data context argv) ret
    (ret.result, (env.deleteLocalRef jvalues).deleteLocalRef func)
  | none => (.unset, env)

/-! ### Local references -/

/-- `java_func` deletes both of the references it makes, -/
theorem javaFunc_locals (ret : JavaReturn) (data : Option Nat) (context : Nat) (argv : List Nat) (env : JniEnv) :
    (javaFunc ret data context argv env).2.locals = env.locals := by
  cases data with
  | none => rfl
  | some data =>
    simp only [javaFunc, JniEnv.newLocalRef, JniEnv.newLongArray, JniEnv.setLongArrayRegion,
      JniEnv.deleteLocalRef_locals, JniEnv.callMethod_locals, JniEnv.enter_locals, JniEnv.newLocal_locals,
      JniEnv.newLocal_fst, JniEnv.newLocal_next]
    rw [List.filter_cons_of_neg (by simp), List.filter_cons_of_pos (by simp), env.filter_next (Nat.le_succ _),
      List.filter_cons_of_neg (by simp), env.filter_next (Nat.le_refl _)]

/-- `java_compare` keeps its two strings, -/
theorem javaCompare_locals (ret : JavaReturn) (data : Nat) (lhs rhs : List UInt8) (env : JniEnv) :
    (javaCompare ret (some data) lhs rhs env).2.locals = (env.next + 2) :: (env.next + 1) :: env.locals := by
  simp only [javaCompare, JniEnv.newLocalRef, JniEnv.newStringUTF, JniEnv.deleteLocalRef_locals,
    JniEnv.callMethod_locals, JniEnv.newLocal_locals, JniEnv.newLocal_fst, JniEnv.newLocal_next]
  rw [List.filter_cons_of_pos (by simp; omega), List.filter_cons_of_pos (by simp), List.filter_cons_of_neg (by simp),
    env.filter_next (Nat.le_refl _)]

/-- and `java_trace` keeps its one. -/
theorem javaTrace_locals (ret : JavaReturn) (jfunc : Nat) (expandedSql x : List UInt8) (env : JniEnv) :
    (javaTrace ret SQLITE_TRACE_STMT (some jfunc) expandedSql x env).locals = (env.next + 1) :: env.locals := by
  simp only [javaTrace, if_true, JniEnv.newLocalRef, JniEnv.newStringUTF, JniEnv.deleteLocalRef_locals,
    JniEnv.callMethod_locals, JniEnv.newLocal_locals, JniEnv.newLocal_fst, JniEnv.newLocal_next]
  rw [List.filter_cons_of_pos (by simp), List.filter_cons_of_neg (by simp), env.filter_next (Nat.le_refl _)]

/-- One call back, with how the Java method ends. -/
inductive Callback
  | trace (ret : JavaReturn) (mask : Nat) (jfunc : Option Nat) (expandedSql x : List UInt8)
  | compare (ret : JavaReturn) (data : Option Nat) (lhs rhs : List UInt8)
  | func (ret : JavaReturn) (data : Option Nat) (context : Nat) (argv : List Nat)

namespace Callback

/-- The calls that SQLite makes while one native method runs. -/
def invoke (env : JniEnv) : Callback → JniEnv
  | .trace ret mask jfunc expandedSql x => javaTrace ret mask jfunc expandedSql x env
  | .compare ret data lhs rhs => (javaCompare ret data lhs rhs env).2
  | .func ret data context argv => (javaFunc ret data context argv env).2

/-- The number of local references that a call leaves in the table. -/
def left : Callback → Nat
  | .trace _ mask jfunc _ _ => if jfunc.isSome ∧ mask = SQLITE_TRACE_STMT then 1 else 0
  | .compare _ data _ _ => if data.isSome then 2 else 0
  | .func _ _ _ _ => 0

/-- What a number of calls leave. -/
def leftAll : List Callback → Nat
  | [] => 0
  | c :: cs => c.left + leftAll cs

/-- A function, a comparator without its argument, or a trace without its argument or of another event. -/
def IsNeutral : Callback → Prop
  | .trace _ mask jfunc _ _ => jfunc = none ∨ mask ≠ SQLITE_TRACE_STMT
  | .compare _ data _ _ => data = none
  | .func _ _ _ _ => True

theorem invoke_locals_of_neutral {c : Callback} (hc : c.IsNeutral) (env : JniEnv) :
    (invoke env c).locals = env.locals := by
  cases c with
  | trace ret mask jfunc expandedSql x =>
    cases jfunc with
    | none => rfl
    | some jfunc =>
      have hmask : mask ≠ SQLITE_TRACE_STMT := hc.resolve_left (Option.some_ne_none jfunc)
      simp only [invoke, javaTrace, hmask, if_false]
  | compare ret data lhs rhs =>
    obtain rfl : data = none := hc
    rfl
  | func ret data context argv => exact javaFunc_locals ret data context argv env

/-- A call that is not neutral leaves at least the last of the strings it makes. -/
theorem invoke_locals_of_not_neutral {c : Callback} (hc : ¬ c.IsNeutral) (env : JniEnv) :
    ∃ r, env.next ≤ r ∧ r ∈ (invoke env c).locals := by
  cases c with
  | trace ret mask jfunc expandedSql x =>
    cases jfunc with
    | none => exact absurd (.inl rfl) hc
    | some jfunc =>
      obtain rfl : mask = SQLITE_TRACE_STMT := by
        by_contra hne
        exact hc (.inr hne)
      refine ⟨env.next + 1, Nat.le_succ _, ?_⟩
      show _ ∈ (javaTrace ret SQLITE_TRACE_STMT (some jfunc) expandedSql x env).locals
      rw [javaTrace_locals]
      exact List.mem_cons_self
  | compare ret data lhs rhs =>
    cases data with
    | none => exact absurd rfl hc
    | some data =>
      refine ⟨env.next + 2, by omega, ?_⟩
      show _ ∈ (javaCompare ret (some data) lhs rhs env).2.locals
      rw [javaCompare_locals]
      exact List.mem_cons_self
  | func ret data context argv => exact absurd trivial hc

theorem invoke_length (c : Callback) (env : JniEnv) : (invoke env c).locals.length = env.locals.length + c.left := by
  cases c with
  | trace ret mask jfunc expandedSql x =>
    cases jfunc with
    | none => rfl
    | some jfunc =>
      by_cases hmask : mask = SQLITE_TRACE_STMT
      · subst hmask
        show (javaTrace ret SQLITE_TRACE_STMT (some jfunc) expandedSql x env).locals.length = _
        rw [javaTrace_locals]
        rfl
      · have hlocals := invoke_locals_of_neutral (c := .trace ret mask (some jfunc) expandedSql x) (.inr hmask) env
        simp [hlocals, left, hmask]
  | compare ret data lhs rhs =>
    cases data with
    | none => rfl
    | some data =>
      show (javaCompare ret (some data) lhs rhs env).2.locals.length = _
      rw [javaCompare_locals]
      rfl
  | func ret data context argv => exact congrArg List.length (javaFunc_locals ret data context argv env)

/-- A neutral call never has more than two references at a time. -/
theorem invoke_peak_of_neutral {c : Callback} (hc : c.IsNeutral) (env : JniEnv) :
    (invoke env c).peak ≤ max env.peak (env.locals.length + 2) := by
  cases c with
  | trace ret mask jfunc expandedSql x =>
    cases jfunc with
    | none => exact Nat.le_max_left _ _
    | some jfunc =>
      have hmask : mask ≠ SQLITE_TRACE_STMT := hc.resolve_left (Option.some_ne_none jfunc)
      simp only [invoke, javaTrace, hmask, if_false]
      exact Nat.le_max_left _ _
  | compare ret data lhs rhs =>
    obtain rfl : data = none := hc
    exact Nat.le_max_left _ _
  | func ret data context argv =>
    cases data with
    | none => exact Nat.le_max_left _ _
    | some data =>
      simp only [invoke, javaFunc, JniEnv.newLocalRef, JniEnv.newLongArray, JniEnv.setLongArrayRegion,
        JniEnv.deleteLocalRef_peak, JniEnv.callMethod_peak, JniEnv.enter_peak, JniEnv.newLocal_peak,
        JniEnv.newLocal_locals, List.length_cons]
      omega

end Callback

/-- Over one native method the table grows by what each callback leaves. -/
theorem locals_run (env : JniEnv) (cs : List Callback) :
    (Runs.run Callback.invoke env cs).locals.length = env.locals.length + Callback.leftAll cs := by
  induction cs generalizing env with
  | nil => rfl
  | cons c cs ih =>
    rw [Runs.run_cons, ih, Callback.invoke_length, Callback.leftAll]
    omega

/-- The table is the one at the start of the native method, and there have been at most two references more. -/
structure TableKept (start env : JniEnv) : Prop where
  same : ∀ r, r ∈ env.locals ↔ r ∈ start.locals
  bounded : env.peak ≤ max start.peak (start.locals.length + 2)

/-- After every callback the table is as it was exactly when all callbacks are neutral. -/
theorem tableKept_iff_neutral (start : JniEnv) (cs : List Callback) :
    Runs.Always Callback.invoke (TableKept start) start cs ↔ ∀ c ∈ cs, c.IsNeutral := by
  rw [← Runs.guarded_iff_forall_mem Callback.invoke (s := start)]
  refine Runs.always_iff_guarded
    (I := fun env => env.locals = start.locals ∧ env.peak ≤ max start.peak (start.locals.length + 2)) ?_ ?_ ?_
    ⟨rfl, Nat.le_max_left _ _⟩ Runs.guarded_true
  · intro env c ⟨hlocals, hpeak⟩ _ hc
    refine ⟨(Callback.invoke_locals_of_neutral hc env).trans hlocals, ?_⟩
    have hle := Callback.invoke_peak_of_neutral hc env
    rw [hlocals] at hle
    omega
  · intro env ⟨hlocals, hpeak⟩
    exact ⟨fun r => by rw [hlocals], hpeak⟩
  · intro env c ⟨hlocals, _⟩ _ hc hkept
    obtain ⟨r, hr, hm⟩ := Callback.invoke_locals_of_not_neutral hc env
    have hold : r ∈ env.locals := by
      rw [hlocals]
      exact (hkept.same r).1 hm
    have := env.known r hold
    omega

/-- One comparison of a sort. -/
def oneCompare : List Callback := [.compare {} (some 3) [97] [98]]

/-- It leaves its two strings in the table. -/
theorem not_tableKept_oneCompare :
    ¬ Runs.Always Callback.invoke (TableKept .empty) .empty oneCompare := by
  intro h
  exact absurd ((h.last.same 2).1 (by decide)) (by decide)

end Sqlite4a
