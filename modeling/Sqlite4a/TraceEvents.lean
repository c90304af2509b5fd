import Sqlite4a.ExpandSql
import Sqlite4a.SQLiteStmt
import Sqlite4a.ThrowingCallback

/-!
# What `trace()` is told

`OP_Init` reports the start of a program to `java_trace` with a text: that of the statement for its main program, and a
comment with the name of the trigger for a trigger program.  `java_trace` takes every text that begins with `--` for
such a comment and passes it on as it is; for any other it asks `sqlite3_expanded_sql` and does not check for `NULL`.

So a statement is reported with its values except where its text begins with a comment and has a parameter, or where
`sqlite3_expanded_sql` does not give that text (`reportsEvents_iff_reportable`).
-/

namespace Sqlite4a

variable {Db : Type*} (c : Casts)

/-! ### Statements and programs -/

/-- The text of one statement, which the parser has accepted. -/
structure PreparedSql where
  sql : JString
  parse : Parse
  numbered : assignVarNumbers .empty (tokenize sql.utf) = some parse

structure TracedStmt (Db : Type*) where
  prepared : PreparedSql
  explain : Bool
  vdbe : Vdbe Db

/-- `zSql` of the statement. -/
def TracedStmt.zSql (p : TracedStmt Db) : List UInt8 := p.prepared.sql.utf

/-- The programs in execution while a statement runs that was started outside callbacks. -/
def nVdbeExec : Nat := 1

/-- `sqlite3_expanded_sql`. -/
def TracedStmt.expandedSql (p : TracedStmt Db) : Option (List UInt8) :=
  sqlite3VdbeExpandSql c nVdbeExec p.prepared.parse p.vdbe.aVar p.zSql

/-- The text with every parameter replaced by its bound value. -/
def TracedStmt.boundSql (p : TracedStmt Db) : List UInt8 := boundText c p.vdbe.aVar .empty (tokenize p.zSql)

/-- `P4` of `OP_Init` in a trigger program; the actions of foreign keys have no name. -/
def triggerComment (zName : Option (List UInt8)) : List UInt8 := ascii "-- TRIGGER " ++ zName.getD []

/-- The text that `OP_Init` reports. -/
def opInit (nVdbeExec : Nat) (doingRerun : Bool) (p4 : Option (List UInt8)) (zSql : List UInt8) :
    Option (List UInt8) :=
  if doingRerun then none
  else
    let zTrace := p4.getD zSql
    if 1 < nVdbeExec then some (ascii "-- " ++ zTrace) else some zTrace

/-- `java_trace` on the events it is registered for; `none` where a null pointer is assigned to a string. -/
def javaTraceStmt (ret : JavaReturn) (jfunc : Nat) (p : TracedStmt Db) (x : List UInt8) (env : JniEnv) :
    Option JniEnv :=
  match p.expandedSql c with
  | some z => some (javaTrace ret SQLITE_TRACE_STMT (some jfunc) z x env)
  | none =>
    if x.take 2 = ascii "--" then some (javaTrace ret SQLITE_TRACE_STMT (some jfunc) [] x env) else none

/-! ### Runs of statements -/

/-- What happens while a statement runs: its program starts, a trigger program starts, and calls of comparators and
functions. -/
inductive TraceEvent (Db : Type*)
  | start (ret : JavaReturn) (p : TracedStmt Db)
  | trigger (ret : JavaReturn) (p : TracedStmt Db) (zName : Option (List UInt8)) (doingRerun : Bool)
  | compare (ret : JavaReturn) (data : Option Nat) (lhs rhs : List UInt8)
  | func (ret : JavaReturn) (data : Option Nat) (context : Nat) (argv : List Nat)

/-- A connection with `java_trace` set.  `told` are the texts of the programs that have been reported so far, as
`trace()` should get them. -/
structure TracedConn (Db : Type*) where
  pTraceArg : Nat
  stmts : List (TracedStmt Db)
  env : JniEnv
  aborted : Bool := false
  told : List (List UInt8) := []

namespace TracedConn

/-- `OP_Init` of a program of `p`, whose report should be `text`. -/
def start (ret : JavaReturn) (p : TracedStmt Db) (p4 : Option (List UInt8)) (doingRerun : Bool) (text : List UInt8)
    (s : TracedConn Db) : TracedConn Db :=
  match opInit nVdbeExec doingRerun p4 p.zSql with
  | none => s
  | some x =>
    match javaTraceStmt c ret s.pTraceArg p x s.env with
    | some env => { s with env := env, told := s.told ++ [text] }
    | none => { s with aborted := true, told := s.told ++ [text] }

def happen (s : TracedConn Db) : TraceEvent Db → TracedConn Db
  | .start ret p => s.start c ret p none false (p.boundSql c)
  | .trigger ret p zName doingRerun =>
    s.start c ret p (some (triggerComment zName)) doingRerun (triggerComment zName)
  | .compare ret data lhs rhs => { s with env := (javaCompare ret data lhs rhs s.env).2 }
  | .func ret data context argv => { s with env := (javaFunc ret data context argv s.env).2 }

end TracedConn

/-- What happens in one `sqlite3_step` after the start of the program, in order; nested triggers come where they
start. -/
inductive During
  | trigger (ret : JavaReturn) (zName : Option (List UInt8))
  | compare (ret : JavaReturn) (data : Option Nat) (lhs rhs : List UInt8)
  | func (ret : JavaReturn) (data : Option Nat) (context : Nat) (argv : List Nat)

def During.event (p : TracedStmt Db) (doingRerun : Bool) : During → TraceEvent Db
  | .trigger ret zName => .trigger ret p zName doingRerun
  | .compare ret data lhs rhs => .compare ret data lhs rhs
  | .func ret data context argv => .func ret data context argv

/-- The main program starts with the first step of a run; `EXPLAIN` lists the program and does not run it. -/
def TracedStmt.events (p : TracedStmt Db) (ret : JavaReturn) (doingRerun : Bool) (during : List During) :
    List (TraceEvent Db) :=
  if p.explain then []
  else
    (if p.vdbe.autoReset.phase = .fresh then [.start ret p] else []) ++ during.map (During.event p doingRerun)

/-- The calls on a connection; the native method returns with `leave`. -/
inductive TracedCall (Db : Type*)
  | prepare (prepared : PreparedSql) (explain : Bool) (query : List Value → Db → List Row)
      (colName : List (List UInt8))
  | bind (i : Nat) (index : Int) (arg : BindArg)
  | clearBindings (i : Nat)
  | reset (i : Nat)
  | step (i : Nat) (t : Tick Db) (ret : JavaReturn) (doingRerun : Bool) (during : List During)
  | leave

/-- On the return to Java the local references are deleted, and a pending exception is thrown. -/
def JniEnv.leave (env : JniEnv) : JniEnv :=
  { env with
    locals := []
    pending := false
    known := fun _ hr => absurd hr List.not_mem_nil
    peak_le := Nat.zero_le _ }

namespace TracedConn

def update (s : TracedConn Db) (i : Nat) (f : Vdbe Db → Vdbe Db) : TracedConn Db :=
  { s with stmts := s.stmts.modify i fun p => { p with vdbe := f p.vdbe } }

def call (s : TracedConn Db) : TracedCall Db → TracedConn Db
  | .prepare prepared explain query colName =>
    { s with stmts := s.stmts ++ [⟨prepared, explain, Vdbe.prepared query colName prepared.parse.nVar⟩] }
  | .bind i index arg => s.update i fun v => (bind index arg v).2
  | .clearBindings i => s.update i fun v => v.clearBindings.2
  | .reset i => s.update i fun v => v.reset.2
  | .step i t ret doingRerun during =>
    match s.stmts[i]? with
    | some p => ((p.events ret doingRerun during).foldl (happen c) s).update i fun v => (v.step t).2
    | none => s
  | .leave => { s with env := s.env.leave }

/-- `trace()` has just been called, on a connection that may have statements already. -/
def traced (pTraceArg : Nat) (stmts : List (TracedStmt Db)) : TracedConn Db := ⟨pTraceArg, stmts, .empty, false, []⟩

end TracedConn

/-! ### What is reported -/

/-- The object and the argument of a call of `trace()`. -/
def reported : JavaCall → Option (Nat × Option JString)
  | .trace func sql => some (func, sql)
  | _ => none

/-- The calls of `trace()` are the reports of the programs that have started, in order.  Of a process in which a null
pointer has been read, or JNI misused, nothing is known. -/
structure ReportsEvents (s : TracedConn Db) : Prop where
  defined : s.aborted = false
  noMisuse : s.env.misused = false
  calls : s.env.calls.filterMap reported = s.told.map fun text => (s.pTraceArg, newStringUTF (some text))

/-- The text begins with a comment and has no parameter, or it begins with no comment and `sqlite3_expanded_sql` gives
the text with the bound values. -/
def TracedStmt.Reportable (p : TracedStmt Db) : Prop :=
  if p.zSql.take 2 = ascii "--" then ∀ t ∈ tokenize p.zSql, t.kind.isVariable = false
  else p.expandedSql c = some (p.boundSql c)

/-- No exception is pending where Java is called, and a program that starts is reportable. -/
def EventReportable (s : TracedConn Db) : TraceEvent Db → Prop
  | .start _ p => s.env.pending = false ∧ p.Reportable c
  | .trigger _ _ _ doingRerun => doingRerun = false → s.env.pending = false
  | .compare _ data _ _ => data ≠ none → s.env.pending = false
  | .func _ data _ _ => data ≠ none → s.env.pending = false

def CallReportable (s : TracedConn Db) : TracedCall Db → Prop
  | .step i _ ret doingRerun during =>
    ∀ p, s.stmts[i]? = some p →
      Runs.Guarded (TracedConn.happen c) (EventReportable c) s (p.events ret doingRerun during)
  | _ => True

/-! ### One event -/

theorem newStringUTF_eq_iff {x y : List UInt8} (hx : ∀ b ∈ x, b ≠ 0) (hy : ∀ b ∈ y, b ≠ 0) :
    newStringUTF (some x) = newStringUTF (some y) ↔ x = y := by
  simp only [newStringUTF, Option.some.injEq, JString.mk.injEq, takeWhile_nonzero hx, takeWhile_nonzero hy]

/-- A call of `trace()` with `x` where it should get `text`. -/
theorem reportsEvents_tell {s : TracedConn Db} {env : JniEnv} {x text : List UInt8}
    (hcalls : env.calls = s.env.calls ++ [.trace s.pTraceArg (newStringUTF (some x))])
    (hmisused : env.misused = (s.env.misused || s.env.pending)) :
    ReportsEvents { s with env := env, told := s.told ++ [text] } ↔
      ReportsEvents s ∧ s.env.pending = false ∧ newStringUTF (some x) = newStringUTF (some text) := by
  constructor
  · intro h
    have hno := h.noMisuse
    rw [hmisused, Bool.or_eq_false_iff] at hno
    have hlog := h.calls
    rw [hcalls, List.filterMap_append, List.map_append] at hlog
    obtain ⟨hold, hnew⟩ := List.append_inj' hlog rfl
    exact ⟨⟨h.defined, hno.1, hold⟩, hno.2, (Prod.mk.inj (List.cons.inj hnew).1).2⟩
  · intro ⟨h, hpending, htext⟩
    refine ⟨h.defined, ?_, ?_⟩
    · show env.misused = false
      rw [hmisused, h.noMisuse, hpending]
      rfl
    · show env.calls.filterMap reported = (s.told ++ [text]).map fun text => (s.pTraceArg, newStringUTF (some text))
      rw [hcalls, List.filterMap_append, List.map_append, h.calls]
      exact congrArg _ (congrArg (fun r => [(s.pTraceArg, r)]) htext)

/-- A call of another method. -/
theorem reportsEvents_other {s : TracedConn Db} {env : JniEnv} {call : JavaCall} (hcall : reported call = none)
    (hcalls : env.calls = s.env.calls ++ [call]) (hmisused : env.misused = (s.env.misused || s.env.pending)) :
    ReportsEvents { s with env := env } ↔ ReportsEvents s ∧ s.env.pending = false := by
  have hlog : env.calls.filterMap reported = s.env.calls.filterMap reported := by
    rw [hcalls, List.filterMap_append, List.filterMap_cons_none hcall, List.filterMap_nil, List.append_nil]
  constructor
  · intro h
    have hno := h.noMisuse
    rw [hmisused, Bool.or_eq_false_iff] at hno
    exact ⟨⟨h.defined, hno.1, hlog.symm.trans h.calls⟩, hno.2⟩
  · intro ⟨h, hpending⟩
    refine ⟨h.defined, ?_, hlog.trans h.calls⟩
    show env.misused = false
    rw [hmisused, h.noMisuse, hpending]
    rfl

variable {c}

/-- The text of a trigger program is passed on as it is. -/
theorem reportsEvents_trigger (ret : JavaReturn) (p : TracedStmt Db) (zName : Option (List UInt8))
    (doingRerun : Bool) (s : TracedConn Db) :
    ReportsEvents (s.start c ret p (some (triggerComment zName)) doingRerun (triggerComment zName)) ↔
      ReportsEvents s ∧ (doingRerun = false → s.env.pending = false) := by
  cases doingRerun with
  | true => simp [TracedConn.start, opInit]
  | false =>
    have hcomment : (triggerComment zName).take 2 = ascii "--" := rfl
    have hinit : opInit nVdbeExec false (some (triggerComment zName)) p.zSql = some (triggerComment zName) := rfl
    have hcall : ∃ z, javaTraceStmt c ret s.pTraceArg p (triggerComment zName) s.env =
        some (javaTrace ret SQLITE_TRACE_STMT (some s.pTraceArg) z (triggerComment zName) s.env) := by
      unfold javaTraceStmt
      cases p.expandedSql c with
      | some z => exact ⟨z, rfl⟩
      | none => exact ⟨[], if_pos hcomment⟩
    obtain ⟨z, hcall⟩ := hcall
    have hsql : tracedSql z (triggerComment zName) = triggerComment zName := if_pos hcomment
    unfold TracedConn.start
    rw [hinit]
    dsimp only
    rw [hcall]
    refine (reportsEvents_tell (x := triggerComment zName) ?_ ?_).trans (by simp)
    · rw [← hsql]
      rfl
    · exact (javaTrace_called ret s.pTraceArg z (triggerComment zName) s.env).misused

theorem TracedStmt.reportable_of_comment {p : TracedStmt Db} (h : p.zSql.take 2 = ascii "--") :
    p.Reportable c ↔ ∀ t ∈ tokenize p.zSql, t.kind.isVariable = false := by
  rw [Reportable, if_pos h]

theorem TracedStmt.reportable_of_no_comment {p : TracedStmt Db} (h : p.zSql.take 2 ≠ ascii "--") :
    p.Reportable c ↔ p.expandedSql c = some (p.boundSql c) := by
  rw [Reportable, if_neg h]

/-- A text that begins with a comment is passed on as it is, and any other is replaced by what `sqlite3_expanded_sql`
gives. -/
theorem reportsEvents_start (hc : c.Prints) (ret : JavaReturn) (p : TracedStmt Db) (s : TracedConn Db) :
    ReportsEvents (s.start c ret p none false (p.boundSql c)) ↔
      ReportsEvents s ∧ s.env.pending = false ∧ p.Reportable c := by
  have hsql : ∀ b ∈ p.zSql, b ≠ 0 := p.prepared.sql.nonzero
  have hbound : ∀ b ∈ p.boundSql c, b ≠ 0 := boundText_nonzero hc p.vdbe.aVar hsql
  have hstart : s.start c ret p none false (p.boundSql c) =
      match javaTraceStmt c ret s.pTraceArg p p.zSql s.env with
      | some env => { s with env := env, told := s.told ++ [p.boundSql c] }
      | none => { s with aborted := true, told := s.told ++ [p.boundSql c] } := rfl
  have htell : ∀ z, ReportsEvents
      { s with
        env := javaTrace ret SQLITE_TRACE_STMT (some s.pTraceArg) z p.zSql s.env
        told := s.told ++ [p.boundSql c] } ↔
      ReportsEvents s ∧ s.env.pending = false ∧
        newStringUTF (some (tracedSql z p.zSql)) = newStringUTF (some (p.boundSql c)) :=
    fun z => reportsEvents_tell rfl (javaTrace_called ret s.pTraceArg z p.zSql s.env).misused
  rw [hstart]
  unfold javaTraceStmt
  by_cases hcomment : p.zSql.take 2 = ascii "--"
  · have hreport : ∀ z, newStringUTF (some (tracedSql z p.zSql)) = newStringUTF (some (p.boundSql c)) ↔
        ∀ t ∈ tokenize p.zSql, t.kind.isVariable = false := by
      intro z
      have hraw : tracedSql z p.zSql = p.zSql := if_pos hcomment
      rw [hraw, newStringUTF_eq_iff hsql hbound, eq_comm]
      exact boundText_eq_iff hc p.vdbe.aVar p.zSql
    rw [TracedStmt.reportable_of_comment hcomment]
    cases p.expandedSql c with
    | some z => exact (htell z).trans (by rw [hreport z])
    | none =>
      rw [if_pos hcomment]
      exact (htell []).trans (by rw [hreport []])
  · rw [TracedStmt.reportable_of_no_comment hcomment]
    cases hexpanded : p.expandedSql c with
    | some z =>
      have hz : ∀ b ∈ z, b ≠ 0 := sqlite3VdbeExpandSql_nonzero hc hsql hexpanded
      have hraw : tracedSql z p.zSql = z := if_neg hcomment
      refine (htell z).trans ?_
      rw [hraw, newStringUTF_eq_iff hz hbound, Option.some.injEq]
    | none =>
      rw [if_neg hcomment]
      refine iff_of_false (fun h => ?_) (fun h => ?_)
      · exact Bool.noConfusion h.defined
      · cases h.2.2

/-- After one event the reports are right exactly where they were before and the event is reportable. -/
theorem reportsEvents_happen (hc : c.Prints) (s : TracedConn Db) (e : TraceEvent Db) :
    ReportsEvents (s.happen c e) ↔ ReportsEvents s ∧ EventReportable c s e := by
  cases e with
  | start ret p => exact reportsEvents_start hc ret p s
  | trigger ret p zName doingRerun => exact reportsEvents_trigger ret p zName doingRerun s
  | compare ret data lhs rhs =>
    cases data with
    | none => exact (and_iff_left (fun h => absurd rfl h)).symm
    | some data =>
      have hother := reportsEvents_other (s := s) rfl rfl (javaCompare_called ret data lhs rhs s.env).misused
      exact hother.trans (by simp [EventReportable])
  | func ret data context argv =>
    cases data with
    | none => exact (and_iff_left (fun h => absurd rfl h)).symm
    | some data =>
      have hother := reportsEvents_other (s := s) rfl rfl (javaFunc_called ret data context argv s.env).misused
      exact hother.trans (by simp [EventReportable])

/-! ### Runs -/

theorem reportsEvents_foldl (hc : c.Prints) (s : TracedConn Db) (es : List (TraceEvent Db)) :
    ReportsEvents (es.foldl (TracedConn.happen c) s) ↔
      ReportsEvents s ∧ Runs.Guarded (TracedConn.happen c) (EventReportable c) s es := by
  induction es generalizing s with
  | nil => exact (and_iff_left trivial).symm
  | cons e es ih =>
    rw [List.foldl_cons, ih, reportsEvents_happen hc, Runs.guarded_cons, and_assoc]

/-- The statements do not matter. -/
theorem reportsEvents_congr {s s' : TracedConn Db} (harg : s'.pTraceArg = s.pTraceArg)
    (haborted : s'.aborted = s.aborted) (htold : s'.told = s.told) (hmisused : s'.env.misused = s.env.misused)
    (hcalls : s'.env.calls = s.env.calls) : ReportsEvents s' ↔ ReportsEvents s := by
  constructor
  · intro h
    exact ⟨haborted ▸ h.defined, hmisused ▸ h.noMisuse, by rw [← hcalls, h.calls, harg, htold]⟩
  · intro h
    exact ⟨haborted.trans h.defined, hmisused.trans h.noMisuse, by rw [hcalls, h.calls, harg, htold]⟩

theorem reportsEvents_update (s : TracedConn Db) (i : Nat) (f : Vdbe Db → Vdbe Db) :
    ReportsEvents (s.update i f) ↔ ReportsEvents s := reportsEvents_congr rfl rfl rfl rfl rfl

theorem reportsEvents_step (hc : c.Prints) (s : TracedConn Db) (i : Nat) (t : Tick Db) (ret : JavaReturn)
    (doingRerun : Bool) (during : List During) :
    ReportsEvents (s.call c (.step i t ret doingRerun during)) ↔
      ReportsEvents s ∧ CallReportable c s (.step i t ret doingRerun during) := by
  cases hp : s.stmts[i]? with
  | none =>
    have hcall : s.call c (.step i t ret doingRerun during) = s := by
      simp only [TracedConn.call, hp]
    have hok : CallReportable c s (.step i t ret doingRerun during) := by
      intro p hsome
      rw [hp] at hsome
      cases hsome
    rw [hcall]
    exact (and_iff_left hok).symm
  | some p =>
    have hcall : s.call c (.step i t ret doingRerun during) =
        ((p.events ret doingRerun during).foldl (TracedConn.happen c) s).update i fun v => (v.step t).2 := by
      simp only [TracedConn.call, hp]
    have hok : CallReportable c s (.step i t ret doingRerun during) ↔
        Runs.Guarded (TracedConn.happen c) (EventReportable c) s (p.events ret doingRerun during) := by
      constructor
      · exact fun h => h p hp
      · intro h q hq
        obtain rfl := Option.some.inj (hp.symm.trans hq)
        exact h
    rw [hcall, reportsEvents_update, hok, reportsEvents_foldl hc]

/-- After one call the reports are right exactly where they were before and everything in it is reportable. -/
theorem reportsEvents_call (hc : c.Prints) (s : TracedConn Db) (a : TracedCall Db) :
    ReportsEvents (s.call c a) ↔ ReportsEvents s ∧ CallReportable c s a := by
  cases a with
  | step i t ret doingRerun during => exact reportsEvents_step hc s i t ret doingRerun during
  | prepare prepared explain query colName =>
    rw [and_iff_left (show CallReportable c s (.prepare prepared explain query colName) from trivial)]
    exact reportsEvents_congr rfl rfl rfl rfl rfl
  | bind i index arg =>
    rw [and_iff_left (show CallReportable c s (.bind i index arg) from trivial)]
    exact reportsEvents_congr rfl rfl rfl rfl rfl
  | clearBindings i =>
    rw [and_iff_left (show CallReportable c s (.clearBindings i) from trivial)]
    exact reportsEvents_congr rfl rfl rfl rfl rfl
  | reset i =>
    rw [and_iff_left (show CallReportable c s (.reset i) from trivial)]
    exact reportsEvents_congr rfl rfl rfl rfl rfl
  | leave =>
    rw [and_iff_left (show CallReportable c s .leave from trivial)]
    exact reportsEvents_congr rfl rfl rfl rfl rfl

theorem reportsEvents_traced (pTraceArg : Nat) (stmts : List (TracedStmt Db)) :
    ReportsEvents (TracedConn.traced pTraceArg stmts) := ⟨rfl, rfl, rfl⟩

/-- In a run on a traced connection `trace()` is told all the time what it should be exactly when every call is
reportable. -/
theorem reportsEvents_iff_reportable (hc : c.Prints) (pTraceArg : Nat) (stmts : List (TracedStmt Db))
    (calls : List (TracedCall Db)) :
    Runs.Always (TracedConn.call c) ReportsEvents (TracedConn.traced pTraceArg stmts) calls ↔
      Runs.Guarded (TracedConn.call c) (CallReportable c) (TracedConn.traced pTraceArg stmts) calls := by
  refine Runs.always_iff_guarded (I := ReportsEvents) (D := fun _ _ => True) ?_ (fun s h => h) ?_
    (reportsEvents_traced pTraceArg stmts) Runs.guarded_true
  · intro s a hs _ hok
    exact (reportsEvents_call hc s a).2 ⟨hs, hok⟩
  · intro s a _ _ hbad h
    exact hbad ((reportsEvents_call hc s a).1 h).2

/-- A text that begins with no comment, has its parameters in order and does not become too long is reportable. -/
theorem reportable_of_inOrder {p : TracedStmt Db} (hcomment : p.zSql.take 2 ≠ ascii "--")
    (hord : InOrder 0 .empty (tokenize p.zSql)) (hlen : (p.boundSql c).length < SQLITE_MAX_LENGTH) :
    p.Reportable c := by
  rw [TracedStmt.reportable_of_no_comment hcomment]
  have hexpanded : p.expandedSql c = StrAccum.fit (p.boundSql c) :=
    sqlite3VdbeExpandSql_eq c p.vdbe.aVar p.prepared.numbered hord
  rw [hexpanded, StrAccum.fit, if_pos hlen]

/-- `SELECT ?` behind `comment`, its parameter bound to 7, and its first step. -/
def selectSeven (prepared : PreparedSql) : List (TracedCall Unit) :=
  [.prepare prepared false (fun params _ => [params]) [ascii "?"], .bind 0 1 (.long 7),
    .step 0 { db := () } {} false [], .leave]

def plainSelect : PreparedSql where
  sql := ⟨ascii "SELECT ?", nonzero_of_zero_notMem (by decide)⟩
  parse := ⟨1, [], fun _ he => absurd he List.not_mem_nil⟩
  numbered := by decide

def commentedSelect : PreparedSql where
  sql := ⟨ascii "--\nSELECT ?", nonzero_of_zero_notMem (by decide)⟩
  parse := ⟨1, [], fun _ he => absurd he List.not_mem_nil⟩
  numbered := by decide

/-- Behind a comment the parameter is not replaced. -/
theorem not_reportsEvents_comment :
    ¬ Runs.Always (TracedConn.call .ofDecimals) ReportsEvents (TracedConn.traced 3 [])
      (selectSeven commentedSelect) := by
  intro h
  exact absurd h.last.calls (by decide)

theorem reportsEvents_iff_reportable_plain :
    Runs.Always (TracedConn.call .ofDecimals) ReportsEvents (TracedConn.traced 3 []) (selectSeven plainSelect) := by
  refine (reportsEvents_iff_reportable prints_ofDecimals 3 [] (selectSeven plainSelect)).2 ?_
  refine ⟨trivial, trivial, ?_, trivial, trivial⟩
  intro p hp
  obtain rfl := Option.some.inj hp
  refine ⟨⟨rfl, ?_⟩, trivial⟩
  exact reportable_of_inOrder (by decide) (by decide) (by decide)

end Sqlite4a
