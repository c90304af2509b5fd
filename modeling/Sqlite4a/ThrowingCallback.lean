import Sqlite4a.Callbacks
import Sqlite4a.Vdbe

/-!
# A callback that throws

The exception of a Java callback stays pending while SQLite goes on: the callbacks never call `sqlite3_result_error`
or `sqlite3_interrupt`, and never ask whether an exception is pending.  `abortsAt_iff` says how little it takes for the
statement to be aborted all the same: SQLite has to end it with an error of its own before the next callback, and the
native method must not throw an exception for that error, as all but `nativeStep` do.
-/

namespace Sqlite4a

/-- What SQLite does for a statement, up to the answers of the callbacks: it calls back, returns a row, or ends the
statement.  An error rolls the statement back. -/
inductive Evaluation (Db : Type*)
  | trace (jfunc : Nat) (expandedSql x : List UInt8) (k : Evaluation Db)
  | compare (data : Nat) (lhs rhs : List UInt8) (k : Int → Evaluation Db)
  | func (data : Nat) (context : Nat) (argv : List Nat) (k : Value → Evaluation Db)
  | row (k : Evaluation Db)
  | done (db : Db)
  | error (f : Failure)

/-- The native methods that run a statement; `hasNext()` runs it through `nativeStep`. -/
inductive RunMethod
  | exec
  | insert
  | execute
  | hasNext
  deriving DecidableEq

variable {Db : Type*}

namespace Evaluation

/-- `sqlite3_step`, or `sqlite3_exec`, which does not stop at a row, on the contents `db`.  The `n`-th call into Java
during the native method ends as `java n` says.  Returned are the result, the contents and the environment.  A function
that has set no result yields `NULL`, and one that has set an error ends the statement. -/
def run (exec : Bool) (java : Nat → JavaReturn) (db : Db) : Evaluation Db → JniEnv → StepResult × Db × JniEnv
  | .trace jfunc expandedSql x k, env =>
    run exec java db k (javaTrace (java env.calls.length) SQLITE_TRACE_STMT (some jfunc) expandedSql x env)
  | .compare data lhs rhs k, env =>
    let (ret, env) := javaCompare (java env.calls.length) (some data) lhs rhs env
    run exec java db (k ret) env
  | .func data context argv k, env =>
    match javaFunc (java env.calls.length) (some data) context argv env with
    | (.unset, env) => run exec java db (k .null) env
    | (.value v, env) => run exec java db (k v) env
    | (.error f, env) => (.error f, db, env)
  | .row k, env => if exec then run exec java db k env else (.row, db, env)
  | .done db', env => (.done, db', env)
  | .error f, env => (.error f, db, env)

/-- What is left of the evaluation after the `j`-th call into Java, when the first `n` are over. -/
def after (exec : Bool) (java : Nat → JavaReturn) (j : Nat) : Evaluation Db → Nat → Option (Evaluation Db)
  | .trace _ _ _ k, n => if n = j then some k else after exec java j k (n + 1)
  | .compare _ _ _ k, n => if n = j then some (k (java n).value) else after exec java j (k (java n).value) (n + 1)
  | .func _ _ _ k, n =>
    match (java n).result with
    | .unset => if n = j then some (k .null) else after exec java j (k .null) (n + 1)
    | .value v => if n = j then some (k v) else after exec java j (k v) (n + 1)
    | .error f => if n = j then some (.error f) else none
  | .row k, n => if exec then after exec java j k n else none
  | .done _, _ => none
  | .error _, _ => none

end Evaluation

/-- The environment of a native method at its start; Java calls none while an exception is pending. -/
def JniEnv.nativeEntry (env : JniEnv) : JniEnv := { env with pending := false, misused := false, calls := [] }

/-- `nativeExec`, `nativeInsert`, `nativeExecute` and `nativeStep`: all but the last throw an exception for every
result other than `SQLITE_DONE`, which for `sqlite3_exec` is `SQLITE_OK`. -/
def RunMethod.native (m : RunMethod) (java : Nat → JavaReturn) (db : Db) (e : Evaluation Db) (env : JniEnv) :
    StepResult × Db × JniEnv :=
  let (r, db, env) := e.run (m = .exec) java db env.nativeEntry
  match m with
  | .hasNext => (r, db, env)
  | _ => if r.code ≠ SQLITE_DONE then (r, db, env.throwNew) else (r, db, env)

/-- The `j`-th call into Java is the first that throws, and `rest` is left of the statement after it. -/
structure ThrowsFirst (m : RunMethod) (java : Nat → JavaReturn) (e : Evaluation Db) (j : Nat) (rest : Evaluation Db) :
    Prop where
  reached : e.after (m = .exec) java j 0 = some rest
  throws : (java j).throws = true
  before : ∀ i, i < j → (java i).throws = false

/-- After the `j`-th call into Java there is no other, JNI is not misused, SQLite returns an error and the contents
are those from before. -/
structure AbortsAt (m : RunMethod) (java : Nat → JavaReturn) (db : Db) (e : Evaluation Db) (env : JniEnv) (j : Nat) :
    Prop where
  last : (m.native java db e env).2.2.calls.length = j + 1
  noMisuse : (m.native java db e env).2.2.misused = false
  error : ∃ f, (m.native java db e env).1 = .error f
  contents : (m.native java db e env).2.1 = db

/-! ### One callback -/

/-- One call into Java, which has ended as `ret` says. -/
structure Called (ret : JavaReturn) (env env' : JniEnv) : Prop where
  calls : env'.calls.length = env.calls.length + 1
  pending : env'.pending = (env.pending || ret.throws)
  misused : env'.misused = (env.misused || env.pending)

theorem javaTrace_called (ret : JavaReturn) (jfunc : Nat) (expandedSql x : List UInt8) (env : JniEnv) :
    Called ret env (javaTrace ret SQLITE_TRACE_STMT (some jfunc) expandedSql x env) := by
  constructor
  · exact List.length_append
  · rfl
  · show (((env.misused || env.pending) || env.pending) || env.pending) = _
    simp only [Bool.or_assoc, Bool.or_self]

theorem javaCompare_called (ret : JavaReturn) (data : Nat) (lhs rhs : List UInt8) (env : JniEnv) :
    Called ret env (javaCompare ret (some data) lhs rhs env).2 := by
  constructor
  · exact List.length_append
  · rfl
  · show ((((env.misused || env.pending) || env.pending) || env.pending) || env.pending) = _
    simp only [Bool.or_assoc, Bool.or_self]

theorem javaFunc_called (ret : JavaReturn) (data context : Nat) (argv : List Nat) (env : JniEnv) :
    Called ret env (javaFunc ret (some data) context argv env).2 := by
  constructor
  · exact List.length_append
  · rfl
  · show ((((env.misused || env.pending) || env.pending) || env.pending) || env.pending) = _
    simp only [Bool.or_assoc, Bool.or_self]

/-- Nothing but a return to Java takes a pending exception away. -/
theorem Called.stays {ret : JavaReturn} {env env' : JniEnv} (h : Called ret env env') (hp : env.pending = true) :
    env'.pending = true := by
  rw [h.pending, hp, Bool.true_or]

/-! ### Runs -/

namespace Evaluation

variable {exec : Bool} {java : Nat → JavaReturn} {db : Db}

theorem run_trace (jfunc : Nat) (expandedSql x : List UInt8) (k : Evaluation Db) (env : JniEnv) :
    run exec java db (.trace jfunc expandedSql x k) env =
      run exec java db k (javaTrace (java env.calls.length) SQLITE_TRACE_STMT (some jfunc) expandedSql x env) := rfl

theorem run_compare (data : Nat) (lhs rhs : List UInt8) (k : Int → Evaluation Db) (env : JniEnv) :
    run exec java db (.compare data lhs rhs k) env =
      run exec java db (k (java env.calls.length).value)
        (javaCompare (java env.calls.length) (some data) lhs rhs env).2 := rfl

theorem run_func (data context : Nat) (argv : List Nat) (k : Value → Evaluation Db) (env : JniEnv) :
    run exec java db (.func data context argv k) env =
      match (java env.calls.length).result with
      | .unset => run exec java db (k .null) (javaFunc (java env.calls.length) (some data) context argv env).2
      | .value v => run exec java db (k v) (javaFunc (java env.calls.length) (some data) context argv env).2
      | .error f => (.error f, db, (javaFunc (java env.calls.length) (some data) context argv env).2) := by
  have hfst : (javaFunc (java env.calls.length) (some data) context argv env).1 = (java env.calls.length).result := rfl
  rw [run]
  generalize javaFunc (java env.calls.length) (some data) context argv env = r at *
  obtain ⟨res, env'⟩ := r
  dsimp only at hfst
  subst hfst
  cases (java env.calls.length).result <;> rfl

/-- No call into Java is taken back, and no exception. -/
theorem run_mono (exec : Bool) (java : Nat → JavaReturn) (db : Db) (e : Evaluation Db) (env : JniEnv) :
    env.calls.length ≤ (e.run exec java db env).2.2.calls.length ∧
      (env.pending = true → (e.run exec java db env).2.2.pending = true) := by
  have hcall : ∀ (e' : Evaluation Db) {env env' : JniEnv} {ret : JavaReturn}, Called ret env env' →
      (env'.calls.length ≤ (e'.run exec java db env').2.2.calls.length ∧
        (env'.pending = true → (e'.run exec java db env').2.2.pending = true)) →
      env.calls.length ≤ (e'.run exec java db env').2.2.calls.length ∧
        (env.pending = true → (e'.run exec java db env').2.2.pending = true) := by
    intro e' env env' ret hc ⟨hle, hpend⟩
    have := hc.calls
    exact ⟨by omega, fun hp => hpend (hc.stays hp)⟩
  induction e generalizing env with
  | trace jfunc expandedSql x k ih =>
    rw [run_trace]
    exact hcall _ (javaTrace_called _ jfunc expandedSql x env) (ih _)
  | compare data lhs rhs k ih =>
    rw [run_compare]
    exact hcall _ (javaCompare_called _ data lhs rhs env) (ih _ _)
  | func data context argv k ih =>
    have hc := javaFunc_called (java env.calls.length) data context argv env
    rw [run_func]
    cases (java env.calls.length).result with
    | unset => exact hcall _ hc (ih _ _)
    | value v => exact hcall _ hc (ih v _)
    | error f => exact hcall (.error f) hc ⟨Nat.le_refl _, id⟩
  | row k ih =>
    cases exec with
    | true => exact ih env
    | false => exact ⟨Nat.le_refl _, id⟩
  | done db' => exact ⟨Nat.le_refl _, id⟩
  | error f => exact ⟨Nat.le_refl _, id⟩

/-- The calls are counted upwards. -/
theorem le_of_after {e rest : Evaluation Db} {j n : Nat} (h : e.after exec java j n = some rest) : n ≤ j := by
  have hnext : ∀ {e' : Evaluation Db} {n : Nat}, (∀ n, e'.after exec java j n = some rest → n ≤ j) →
      (if n = j then some e' else e'.after exec java j (n + 1)) = some rest → n ≤ j := by
    intro e' n ih h
    split at h
    · omega
    · have := ih _ h
      omega
  induction e generalizing n with
  | trace jfunc expandedSql x k ih => exact hnext (fun _ => ih) h
  | compare data lhs rhs k ih => exact hnext (fun _ => ih _) h
  | func data context argv k ih =>
    unfold after at h
    cases hres : (java n).result with
    | unset =>
      simp only [hres] at h
      exact hnext (fun _ => ih _) h
    | value v =>
      simp only [hres] at h
      exact hnext (fun _ => ih v) h
    | error f =>
      simp only [hres] at h
      split at h
      · omega
      · cases h
  | row k ih =>
    cases exec with
    | true => exact ih h
    | false => cases h
  | done db' => cases h
  | error f => cases h

/-- Up to the first call that throws nothing is wrong; from there on an exception is pending. -/
theorem run_after (db : Db) {e rest : Evaluation Db} {j : Nat} (env : JniEnv)
    (h : e.after exec java j env.calls.length = some rest) (hthrows : (java j).throws = true)
    (hbefore : ∀ i, i < j → (java i).throws = false) (hp : env.pending = false) (hm : env.misused = false) :
    ∃ env', e.run exec java db env = rest.run exec java db env' ∧ env'.calls.length = j + 1 ∧ env'.pending = true ∧
      env'.misused = false := by
  -- one call: it is the `j`-th, or one before
  have hcall : ∀ (e' : Evaluation Db) {env env' : JniEnv}, Called (java env.calls.length) env env' →
      env.pending = false → env.misused = false →
      (if env.calls.length = j then some e' else e'.after exec java j (env.calls.length + 1)) = some rest →
      (∀ {env : JniEnv}, e'.after exec java j env.calls.length = some rest → env.pending = false →
        env.misused = false → ∃ env', e'.run exec java db env = rest.run exec java db env' ∧
          env'.calls.length = j + 1 ∧ env'.pending = true ∧ env'.misused = false) →
      ∃ env'', e'.run exec java db env' = rest.run exec java db env'' ∧ env''.calls.length = j + 1 ∧
        env''.pending = true ∧ env''.misused = false := by
    intro e' env env' hc hp hm h ih
    have hm' : env'.misused = false := by rw [hc.misused, hp, hm, Bool.or_self]
    split at h
    · rename_i hn
      cases h
      exact ⟨env', rfl, by rw [hc.calls, hn], by rw [hc.pending, hn, hthrows, Bool.or_true], hm'⟩
    · rw [← hc.calls] at h
      have hle := le_of_after h
      rw [hc.calls] at hle
      exact ih h (by rw [hc.pending, hp, hbefore _ (by omega), Bool.or_self]) hm'
  induction e generalizing env with
  | trace jfunc expandedSql x k ih =>
    rw [run_trace]
    rw [after] at h
    exact hcall _ (javaTrace_called _ jfunc expandedSql x env) hp hm h fun h hp hm => ih _ h hp hm
  | compare data lhs rhs k ih =>
    rw [run_compare]
    rw [after] at h
    exact hcall _ (javaCompare_called _ data lhs rhs env) hp hm h fun h hp hm => ih _ _ h hp hm
  | func data context argv k ih =>
    have hc := javaFunc_called (java env.calls.length) data context argv env
    rw [run_func]
    unfold after at h
    cases hres : (java env.calls.length).result with
    | unset =>
      simp only [hres] at h
      exact hcall _ hc hp hm h fun h hp hm => ih _ _ h hp hm
    | value v =>
      simp only [hres] at h
      exact hcall _ hc hp hm h fun h hp hm => ih v _ h hp hm
    | error f =>
      simp only [hres] at h
      exact hcall (.error f) hc hp hm h fun h _ _ => nomatch h
  | row k ih =>
    cases exec with
    | true => exact ih _ h hp hm
    | false => cases h
  | done db' => cases h
  | error f => cases h

/-- With an exception pending, a run makes no further call and ends with an error only where it does so at once. -/
theorem run_pending {rest : Evaluation Db} {env : JniEnv}
    (hcalls : (rest.run false java db env).2.2.calls.length = env.calls.length)
    (herror : ∃ f, (rest.run false java db env).1 = .error f) : ∃ f, rest = .error f := by
  -- a run that begins with a call makes at least one
  have hcall : ∀ (e' : Evaluation Db) {env' : JniEnv} {ret : JavaReturn}, Called ret env env' →
      (e'.run false java db env').2.2.calls.length ≠ env.calls.length := by
    intro e' env' ret hc he
    have hle := (run_mono false java db e' env').1
    rw [he, hc.calls] at hle
    omega
  cases rest with
  | trace jfunc expandedSql x k =>
    rw [run_trace] at hcalls
    exact absurd hcalls (hcall _ (javaTrace_called _ jfunc expandedSql x env))
  | compare data lhs rhs k =>
    rw [run_compare] at hcalls
    exact absurd hcalls (hcall _ (javaCompare_called _ data lhs rhs env))
  | func data context argv k =>
    have hc := javaFunc_called (java env.calls.length) data context argv env
    rw [run_func] at hcalls
    cases hres : (java env.calls.length).result with
    | unset =>
      simp only [hres] at hcalls
      exact absurd hcalls (hcall _ hc)
    | value v =>
      simp only [hres] at hcalls
      exact absurd hcalls (hcall _ hc)
    | error f =>
      simp only [hres] at hcalls
      exact absurd hcalls (hcall (.error f) hc)
  | row k =>
    obtain ⟨f, hf⟩ := herror
    cases hf
  | done db' =>
    obtain ⟨f, hf⟩ := herror
    cases hf
  | error f => exact ⟨f, rfl⟩

end Evaluation

theorem RunMethod.native_of_ne {m : RunMethod} (hm : m ≠ .hasNext) {java : Nat → JavaReturn} {db : Db}
    {e : Evaluation Db} {env : JniEnv} : m.native java db e env =
      if (e.run (m = .exec) java db env.nativeEntry).1.code ≠ SQLITE_DONE then
        ((e.run (m = .exec) java db env.nativeEntry).1, (e.run (m = .exec) java db env.nativeEntry).2.1,
          (e.run (m = .exec) java db env.nativeEntry).2.2.throwNew)
      else e.run (m = .exec) java db env.nativeEntry := by
  cases m with
  | hasNext => exact absurd rfl hm
  | _ => rfl

/-- A statement whose callback throws is aborted exactly when it is run by `hasNext()` and SQLite ends it with an
error of its own right after the callback. -/
theorem abortsAt_iff (m : RunMethod) (java : Nat → JavaReturn) (db : Db) (e rest : Evaluation Db) (env : JniEnv)
    (j : Nat)
    (h : ThrowsFirst m java e j rest) : AbortsAt m java db e env j ↔ m = .hasNext ∧ ∃ f, rest = .error f := by
  obtain ⟨env', hrun, hcalls, hpending, hmisused⟩ :=
    Evaluation.run_after db env.nativeEntry h.reached h.throws h.before rfl rfl
  have hpend := (Evaluation.run_mono (m = .exec) java db rest env').2 hpending
  constructor
  · intro ⟨hlast, hno, ⟨f, hf⟩, _⟩
    by_cases hm : m = .hasNext
    · subst hm
      refine ⟨rfl, ?_⟩
      simp only [RunMethod.native, hrun] at hlast hf
      exact Evaluation.run_pending (hlast.trans hcalls.symm) ⟨f, hf⟩
    · -- the error of the statement is thrown over the pending exception
      exfalso
      rw [RunMethod.native_of_ne hm, hrun] at hf hno
      generalize rest.run (m = .exec) java db env' = res at *
      split at hf
      · rename_i hcode
        rw [if_pos hcode] at hno
        have hmisuse : res.2.2.throwNew.misused = true := by
          show (res.2.2.misused || res.2.2.pending) = true
          rw [hpend, Bool.or_true]
        exact Bool.false_ne_true (hno.symm.trans hmisuse)
      · rename_i hcode
        have hdone := StepResult.code_eq_done.1 (not_not.1 hcode)
        rw [hdone] at hf
        cases hf
  · rintro ⟨rfl, f, rfl⟩
    have hval : RunMethod.native .hasNext java db e env = (.error f, db, env') := by
      simp only [RunMethod.native, hrun]
      rfl
    constructor
    · rw [hval]
      exact hcalls
    · rw [hval]
      exact hmisused
    · rw [hval]
      exact ⟨f, rfl⟩
    · rw [hval]

/-- A function over one row of an `INSERT`, which has added the row when SQLite is done. -/
def oneRow : Evaluation Nat := .func 3 0 [1] fun _ => .done 1

theorem abortsAt_failingRow : AbortsAt .hasNext (fun _ => { throws := true }) 0
    (.func 3 0 [1] fun _ => .error .tooBig) .empty 0 :=
  (abortsAt_iff .hasNext _ 0 _ (.error .tooBig) .empty 0 ⟨rfl, rfl, fun i hi => absurd hi (Nat.not_lt_zero i)⟩).2
    ⟨rfl, _, rfl⟩

/-- The function throws, and the row is inserted. -/
theorem not_abortsAt_oneRow : ThrowsFirst .execute (fun _ => { throws := true }) oneRow 0 (.done 1) ∧
    ¬ AbortsAt .execute (fun _ => { throws := true }) 0 oneRow .empty 0 := by
  refine ⟨⟨rfl, rfl, fun i hi => absurd hi (Nat.not_lt_zero i)⟩, fun h => ?_⟩
  exact absurd h.contents (by decide)

end Sqlite4a
