import Sqlite4a.SQLiteDb
import Sqlite4a.SQLiteStmt
import Sqlite4a.Runs

/-!
# The wrapper as a whole

The Java objects over the native heap.  `SQLiteStmt` and every `RowIterator` it gives out hold a copy of the same
native pointer, and closing one of them tells the others nothing.  A call first hands its pointers to native code
(`Op.needs`); when one of them has been released before, the behaviour is undefined and all that the model says of the
call is that use.  A `traceEvent` is SQLite starting a statement, in the course of a call that runs one, and so calling
`java_trace`; the calls that the Java callback makes in turn follow it as calls of their own.

`wf_call` is the step of all invariants: a call that is handed nothing released keeps the heap well-formed.
-/

namespace Sqlite4a

open Ledger (Event Sound)

/-- `closed` is set by `close()`; the class has no such field. -/
structure StmtObj where
  mStmtPtr : Option Nat
  closed : Bool := false
  deriving DecidableEq, Repr

structure IterObj where
  mStmtPtr : Option Nat
  it : RowIterator := {}
  closed : Bool := false
  deriving DecidableEq, Repr

/-- `SQLiteDb` objects are positions in `heap.dbs`.  `thrown` holds the exceptions of the latest call and `mark` is
the length of the ledger at its start. -/
structure World (Db : Type*) where
  casts : Casts
  heap : Heap := {}
  vdbes : List (Vdbe Db) := []
  regs : Nat → Registers := fun _ => {}
  stmtObjs : List StmtObj := []
  iterObjs : List IterObj := []
  thrown : List JavaException := []
  mark : Nat := 0

variable {Db : Type*}

/-! ### Calls -/

inductive DbCall (Db : Type*)
  | close
  | trace (func : Option Nat)
  | exec (sql : String) (ret : Option Failure)
  | execForNumber (sql : String) (o : PrepareOutcome Db) (t : Tick Db)
  | prepare (sql : String) (o : PrepareOutcome Db)
  | createCollation (name : String) (comparator : Nat) (ret : Option Failure)
  | createFunction (name : String) (numArgs : Int) (func : Nat) (ret : Option Failure)

inductive StmtCall (Db : Type*)
  | bind (index : Int) (arg : BindArg)
  | clearBindings
  | insert (t : Tick Db)
  | execute (t : Tick Db)
  | select
  | close

inductive IterCall (Db : Type*)
  | hasNext (t : Tick Db)
  | next
  | getColumn
  | close

inductive Op (Db : Type*)
  | open (flags : Nat) (o : OpenOutcome)
  | db (d : Nat) (call : DbCall Db)
  | stmt (k : Nat) (call : StmtCall Db)
  | iter (i : Nat) (call : IterCall Db)
  | traceEvent (c : Nat)

def BindArg.isJavaNull : BindArg → Bool
  | .string none => true
  | .blob none => true
  | _ => false

/-- Whether the Java method calls a native one. -/
def StmtCall.native : StmtCall Db → Bool
  | .bind _ arg => !arg.isJavaNull
  | _ => true

def IterCall.native (it : RowIterator) : IterCall Db → Bool
  | .hasNext _ => !it.mDone
  | .next => false
  | _ => true

def PrepareOutcome.vdbe : PrepareOutcome Db → Option (Vdbe Db)
  | .stmt v => some v
  | _ => none

namespace World

/-- A statement and, through `sqlite3_db_handle`, its connection. -/
def stmtNeeds (w : World Db) (ptr : Option Nat) : List Res :=
  match ptr with
  | some p =>
    match w.heap.stmts[p]? with
    | some c => [.stmt p, .conn c]
    | none => []
  | none => []

end World

/-- What a call hands to native code. -/
def Op.needs (w : World Db) : Op Db → List Res
  | .open _ _ => []
  | .db d _ =>
    match w.heap.dbs[d]? with
    | some x => [.db d, .handle x.handle]
    | none => []
  | .stmt k call =>
    match w.stmtObjs[k]? with
    | some o => if call.native then w.stmtNeeds o.mStmtPtr else []
    | none => []
  | .iter i call =>
    match w.iterObjs[i]? with
    | some o => if call.native o.it then w.stmtNeeds o.mStmtPtr else []
    | none => []
  | .traceEvent c =>
    match w.heap.conns[c]? with
    | some x =>
      if w.heap.Released (.conn c) then []
      else
        match x.pTraceArg with
        | some r => [.ref r]
        | none => []
    | none => []

def thrownBy {α : Type*} : Except JavaException α → List JavaException
  | .ok _ => []
  | .error e => [e]

namespace World

/-- The end of `nativeInsert` and `nativeExecute`; the message is read from the connection after the finalization. -/
def complete (p c : Nat) (r : Except JavaException Int × Registers × Option (Vdbe Db)) (w : World Db) : World Db :=
  let w := { w with regs := fun i => if i = c then r.2.1 else w.regs i, thrown := thrownBy r.1 }
  match r.2.2 with
  | some v => { w with vdbes := w.vdbes.set p v }
  | none => { w with heap := (w.heap.sqlite3Finalize p).emit [.use (.conn c)] }

def dbCall (d : Nat) (x : SQLiteDb) (w : World Db) : DbCall Db → World Db
  | .close => { w with heap := nativeClose d x w.heap }
  | .trace func => { w with heap := nativeTrace d x func w.heap }
  | .exec sql ret => { w with thrown := thrownBy (nativeExec sql ret) }
  | .execForNumber sql o t =>
    let (r, h) := nativeExecForDouble w.casts x.handle sql o t w.heap
    { w with heap := h, vdbes := w.vdbes ++ o.vdbe.toList, thrown := thrownBy r }
  | .prepare sql o =>
    match nativePrepare x.handle sql o w.heap with
    | (.ok ptr, h) =>
      { w with heap := h, vdbes := w.vdbes ++ o.vdbe.toList, stmtObjs := w.stmtObjs ++ [{ mStmtPtr := ptr }] }
    | (.error e, h) => { w with heap := h, thrown := [e] }
  | .createCollation name comparator ret =>
    let (r, h) := nativeCreateCollation x.handle name comparator ret w.heap
    { w with heap := h, thrown := thrownBy r }
  | .createFunction name numArgs func ret =>
    let (r, h) := nativeCreateFunction x.handle name numArgs func ret w.heap
    { w with heap := h, thrown := thrownBy r }

/-- A call on a statement whose pointer is `p`, of the connection `c`. -/
def stmtCall (k p c : Nat) (v : Vdbe Db) (w : World Db) : StmtCall Db → World Db
  | .bind index arg =>
    let (r, v) := bind index arg v
    { w with vdbes := w.vdbes.set p v, thrown := thrownBy r }
  | .clearBindings =>
    let (r, v) := clearBindings v
    { w with vdbes := w.vdbes.set p v, thrown := thrownBy r }
  | .insert t => w.complete p c (nativeInsert t (w.regs c) v)
  | .execute t => w.complete p c (nativeExecute t (w.regs c) v)
  | .select =>
    match select v with
    | (.ok it, v) => { w with vdbes := w.vdbes.set p v, iterObjs := w.iterObjs ++ [{ mStmtPtr := some p, it := it }] }
    | (.error e, v) => { w with vdbes := w.vdbes.set p v, thrown := [e] }
  | .close => { w with heap := w.heap.sqlite3Finalize p, stmtObjs := w.stmtObjs.set k ⟨some p, true⟩ }

/-- The null statement of an empty text: SQLite answers `SQLITE_MISUSE`, and `sqlite3_errmsg` of no connection is that
of `SQLITE_NOMEM`.  `sqlite3_clear_bindings` of it is undefined. -/
def nullStmtCall (k : Nat) (w : World Db) : StmtCall Db → World Db
  | .bind _ arg =>
    if arg.isJavaNull then w else { w with thrown := [throwSqliteException (sqlite3ErrStr SQLITE_NOMEM) none] }
  | .clearBindings => w
  | .insert _ => { w with thrown := [throwSqliteException (sqlite3ErrStr SQLITE_NOMEM) none] }
  | .execute _ => { w with thrown := [throwSqliteException (sqlite3ErrStr SQLITE_NOMEM) none] }
  | .select => { w with iterObjs := w.iterObjs ++ [{ mStmtPtr := none }] }
  | .close => { w with stmtObjs := w.stmtObjs.set k ⟨none, true⟩ }

def iterCall (i p : Nat) (o : IterObj) (v : Vdbe Db) (w : World Db) : IterCall Db → World Db
  | .hasNext t =>
    let (r, it, v) := o.it.hasNext t v
    { w with vdbes := w.vdbes.set p v, iterObjs := w.iterObjs.set i { o with it := it }, thrown := thrownBy r }
  | .next => { w with iterObjs := w.iterObjs.set i { o with it := o.it.next.2 }, thrown := thrownBy o.it.next.1 }
  | .getColumn => w
  | .close =>
    { w with heap := w.heap.sqlite3Finalize p, iterObjs := w.iterObjs.set i { o with closed := true } }

/-- A null statement is never at a row: a step of it returns `SQLITE_MISUSE`. -/
def nullIterCall (i : Nat) (o : IterObj) (w : World Db) : IterCall Db → World Db
  | .close => { w with iterObjs := w.iterObjs.set i { o with closed := true } }
  | .next => { w with thrown := thrownBy o.it.next.1 }
  | _ => w

def perform (w : World Db) : Op Db → World Db
  | .open flags o => { w with heap := (nativeOpen flags o w.heap).2, thrown := thrownBy (nativeOpen flags o w.heap).1 }
  | .db d call =>
    match w.heap.dbs[d]? with
    | some x => w.dbCall d x call
    | none => w
  | .stmt k call =>
    match w.stmtObjs[k]? with
    | some ⟨some p, _⟩ =>
      match w.heap.stmts[p]?, w.vdbes[p]? with
      | some c, some v => w.stmtCall k p c v call
      | _, _ => w
    | some ⟨none, _⟩ => w.nullStmtCall k call
    | none => w
  | .iter i call =>
    match w.iterObjs[i]? with
    | some o =>
      match o.mStmtPtr with
      | some p =>
        match w.vdbes[p]? with
        | some v => w.iterCall i p o v call
        | none => w
      | none => w.nullIterCall i o call
    | none => w
  | .traceEvent _ => w

/-- The world at the start of a call, with the ledger of what the call is handed. -/
def enter (w : World Db) (needs : List Res) : World Db :=
  { w with heap := w.heap.emit (needs.map .use), thrown := [], mark := w.heap.log.length }

end World

def call (w : World Db) (op : Op Db) : World Db :=
  if ∀ r ∈ op.needs w, ¬ w.heap.Released r then (w.enter (op.needs w)).perform op else w.enter (op.needs w)

/-- The call is handed nothing that has been released. -/
def Clean (w : World Db) (op : Op Db) : Prop := ∀ r ∈ op.needs w, ¬ w.heap.Released r

instance (w : World Db) (op : Op Db) : Decidable (Clean w op) :=
  inferInstanceAs (Decidable (∀ r ∈ op.needs w, ¬ w.heap.Released r))

/-- An `insert()` or `execute()` whose step does not return `SQLITE_DONE`, on the last statement of a closed
connection: finalizing the statement frees the connection that the message is then read from. -/
def FailsOnLast (w : World Db) (op : Op Db) : Prop :=
  ∃ k t o p c x v, (op = .stmt k (.insert t) ∨ op = .stmt k (.execute t)) ∧ w.stmtObjs[k]? = some o ∧
    o.mStmtPtr = some p ∧ w.heap.stmts[p]? = some c ∧ w.heap.conns[c]? = some x ∧ w.vdbes[p]? = some v ∧
    x.zombie = true ∧ x.pVdbe = [p] ∧ (v.step t).1 ≠ .done

/-! ### What a call does -/

theorem call_of_clean {w : World Db} {op : Op Db} (h : Clean w op) : call w op = (w.enter (op.needs w)).perform op :=
  if_pos h

theorem call_of_not_clean {w : World Db} {op : Op Db} (h : ¬ Clean w op) : call w op = w.enter (op.needs w) :=
  if_neg h

namespace World

theorem perform_db {w : World Db} {d : Nat} {x : SQLiteDb} (hx : w.heap.dbs[d]? = some x) (dc : DbCall Db) :
    w.perform (.db d dc) = w.dbCall d x dc := by
  unfold perform
  simp only [hx]

theorem perform_db_none {w : World Db} {d : Nat} (hx : w.heap.dbs[d]? = none) (dc : DbCall Db) :
    w.perform (.db d dc) = w := by
  unfold perform
  simp only [hx]

theorem perform_stmt {w : World Db} {k p c : Nat} {b : Bool} {v : Vdbe Db} (hobj : w.stmtObjs[k]? = some ⟨some p, b⟩)
    (hp : w.heap.stmts[p]? = some c) (hv : w.vdbes[p]? = some v) (sc : StmtCall Db) :
    w.perform (.stmt k sc) = w.stmtCall k p c v sc := by
  unfold perform
  simp only [hobj, hp, hv]

theorem perform_stmt_null {w : World Db} {k : Nat} {b : Bool} (hobj : w.stmtObjs[k]? = some ⟨none, b⟩)
    (sc : StmtCall Db) : w.perform (.stmt k sc) = w.nullStmtCall k sc := by
  unfold perform
  simp only [hobj]

theorem perform_stmt_none {w : World Db} {k : Nat} (hobj : w.stmtObjs[k]? = none) (sc : StmtCall Db) :
    w.perform (.stmt k sc) = w := by
  unfold perform
  simp only [hobj]

theorem perform_iter {w : World Db} {i p : Nat} {o : IterObj} {v : Vdbe Db} (hobj : w.iterObjs[i]? = some o)
    (hptr : o.mStmtPtr = some p) (hv : w.vdbes[p]? = some v) (ic : IterCall Db) :
    w.perform (.iter i ic) = w.iterCall i p o v ic := by
  unfold perform
  simp only [hobj, hptr, hv]

theorem perform_iter_null {w : World Db} {i : Nat} {o : IterObj} (hobj : w.iterObjs[i]? = some o)
    (hptr : o.mStmtPtr = none) (ic : IterCall Db) : w.perform (.iter i ic) = w.nullIterCall i o ic := by
  unfold perform
  simp only [hobj, hptr]

theorem perform_iter_none {w : World Db} {i : Nat} (hobj : w.iterObjs[i]? = none) (ic : IterCall Db) :
    w.perform (.iter i ic) = w := by
  unfold perform
  simp only [hobj]

/-- `prepare()` of a text with a statement makes an object for it. -/
theorem dbCall_prepare {w : World Db} (d : Nat) {x : SQLiteDb} {y : Conn} (hy : w.heap.conns[x.handle]? = some y)
    (sql : String) (v : Vdbe Db) : w.dbCall d x (.prepare sql (.stmt v)) =
      { w with
        heap := w.heap.newStmt x.handle y
        vdbes := w.vdbes ++ [v]
        stmtObjs := w.stmtObjs ++ [⟨some w.heap.stmts.length, false⟩] } := by
  have hprep : nativePrepare x.handle sql (.stmt v) w.heap =
      (.ok (some w.heap.stmts.length), w.heap.newStmt x.handle y) := by
    simp only [nativePrepare, hy]
  simp only [dbCall, hprep, PrepareOutcome.vdbe, Option.toList_some]

theorem dbCall_prepare_heap (w : World Db) (d : Nat) (x : SQLiteDb) (sql : String) (o : PrepareOutcome Db) :
    (w.dbCall d x (.prepare sql o)).heap = (nativePrepare x.handle sql o w.heap).2 := by
  unfold dbCall
  dsimp only
  split
  · rename_i heq
    rw [heq]
  · rename_i heq
    rw [heq]

/-- What a call may do to the heap: nothing, what one native method of a database does, or a finalization.  Only the
finalization of a failed `insert()` or `execute()` is followed by a use of the connection. -/
inductive HeapStep (w : World Db) (op : Op Db) : Heap → Prop
  | same : HeapStep w op w.heap
  | open (flags : Nat) (o : OpenOutcome) (hop : op = .open flags o) : HeapStep w op (nativeOpen flags o w.heap).2
  | db (d : Nat) (x : SQLiteDb) (dc : DbCall Db) (hop : op = .db d dc) (hx : w.heap.dbs[d]? = some x) :
    HeapStep w op (w.dbCall d x dc).heap
  | finalize (p c : Nat) (hp : w.heap.stmts[p]? = some c) (hneeds : .stmt p ∈ op.needs w) :
    HeapStep w op (w.heap.sqlite3Finalize p)
  | failed (k p c : Nat) (o : StmtObj) (v : Vdbe Db) (t : Tick Db)
    (hop : op = .stmt k (.insert t) ∨ op = .stmt k (.execute t)) (hobj : w.stmtObjs[k]? = some o)
    (hptr : o.mStmtPtr = some p) (hp : w.heap.stmts[p]? = some c) (hv : w.vdbes[p]? = some v)
    (hneeds : .stmt p ∈ op.needs w) (hne : (v.step t).1 ≠ .done) :
    HeapStep w op ((w.heap.sqlite3Finalize p).emit ([.conn c].map .use))

theorem complete_heap (w : World Db) (read : Registers → Int) (regs : Registers) (p c : Nat) (v : Vdbe Db)
    (t : Tick Db) :
    (w.complete p c (stepToCompletion read t regs v)).heap =
      if (v.step t).1.code ≠ SQLITE_DONE then (w.heap.sqlite3Finalize p).emit ([.conn c].map .use) else w.heap := by
  unfold complete stepToCompletion
  by_cases hcode : (v.step t).1.code = SQLITE_DONE
  · simp only [hcode, ne_eq, not_true_eq_false, if_false]
  · simp only [hcode, ne_eq, not_false_eq_true, if_true]
    rfl

theorem heapStep_complete {w : World Db} {op : Op Db} {k p c : Nat} {o : StmtObj} {v : Vdbe Db} {t : Tick Db}
    (read : Registers → Int) (regs : Registers) (hop : op = .stmt k (.insert t) ∨ op = .stmt k (.execute t))
    (hobj : w.stmtObjs[k]? = some o) (hptr : o.mStmtPtr = some p) (hp : w.heap.stmts[p]? = some c)
    (hv : w.vdbes[p]? = some v) (hneeds : .stmt p ∈ op.needs w) :
    HeapStep w op (w.complete p c (stepToCompletion read t regs v)).heap := by
  rw [complete_heap]
  split
  · rename_i hcode
    exact .failed k p c o v t hop hobj hptr hp hv hneeds fun he => hcode (StepResult.code_eq_done.2 he)
  · exact .same

theorem heapStep_stmt (w : World Db) (k : Nat) (sc : StmtCall Db) :
    HeapStep w (.stmt k sc) (w.perform (.stmt k sc)).heap := by
  cases hobj : w.stmtObjs[k]? with
  | none =>
    rw [perform_stmt_none hobj]
    exact .same
  | some o =>
    rcases o with ⟨ptr, closed⟩
    cases ptr with
    | none =>
      rw [perform_stmt_null hobj]
      cases sc with
      | bind index arg =>
        unfold nullStmtCall
        dsimp only
        split <;> exact .same
      | _ => exact .same
    | some p =>
      have hneeds : ∀ c, w.heap.stmts[p]? = some c → sc.native = true → .stmt p ∈ Op.needs w (.stmt k sc) := by
        intro c hp hn
        simp [Op.needs, hobj, hn, stmtNeeds, hp]
      cases hp : w.heap.stmts[p]? with
      | none =>
        unfold perform
        simp only [hobj, hp]
        exact .same
      | some c =>
        cases hv : w.vdbes[p]? with
        | none =>
          unfold perform
          simp only [hobj, hp, hv]
          exact .same
        | some v =>
          rw [perform_stmt hobj hp hv]
          cases sc with
          | insert t => exact heapStep_complete _ _ (.inl rfl) hobj rfl hp hv (hneeds c hp rfl)
          | execute t => exact heapStep_complete _ _ (.inr rfl) hobj rfl hp hv (hneeds c hp rfl)
          | select =>
            unfold stmtCall
            dsimp only
            split <;> exact .same
          | close => exact .finalize p c hp (hneeds c hp rfl)
          | _ => exact .same

theorem heapStep_iter (w : World Db) (i : Nat) (ic : IterCall Db) :
    HeapStep w (.iter i ic) (w.perform (.iter i ic)).heap := by
  cases hobj : w.iterObjs[i]? with
  | none =>
    rw [perform_iter_none hobj]
    exact .same
  | some o =>
    cases hptr : o.mStmtPtr with
    | none =>
      rw [perform_iter_null hobj hptr]
      cases ic <;> exact .same
    | some p =>
      cases hv : w.vdbes[p]? with
      | none =>
        unfold perform
        simp only [hobj, hptr, hv]
        exact .same
      | some v =>
        rw [perform_iter hobj hptr hv]
        cases ic with
        | close =>
          show HeapStep w _ (w.heap.sqlite3Finalize p)
          cases hp : w.heap.stmts[p]? with
          | none =>
            -- not a pointer that `prepare()` has given out
            have hval : w.heap.sqlite3Finalize p = w.heap := by
              unfold Heap.sqlite3Finalize
              rw [hp]
            rw [hval]
            exact .same
          | some c => exact .finalize p c hp (by simp [Op.needs, hobj, IterCall.native, hptr, stmtNeeds, hp])
        | _ => exact .same

theorem heapStep_perform (w : World Db) (op : Op Db) : HeapStep w op (w.perform op).heap := by
  cases op with
  | «open» flags o => exact .open flags o rfl
  | db d dc =>
    cases hx : w.heap.dbs[d]? with
    | none =>
      rw [perform_db_none hx]
      exact .same
    | some x =>
      rw [perform_db hx]
      exact .db d x dc rfl hx
  | stmt k sc => exact heapStep_stmt w k sc
  | iter i ic => exact heapStep_iter w i ic
  | traceEvent c => exact .same

end World

/-! ### What only grows -/

namespace Heap

/-- Nothing is taken back from the ledger, and statements and references keep their places. -/
structure Grows (h h' : Heap) : Prop where
  log : h.log <+: h'.log
  stmts : h.stmts <+: h'.stmts
  refs : h.refs <+: h'.refs

theorem Grows.refl (h : Heap) : Grows h h := ⟨List.prefix_refl _, List.prefix_refl _, List.prefix_refl _⟩

theorem Grows.trans {h₁ h₂ h₃ : Heap} (h₁₂ : Grows h₁ h₂) (h₂₃ : Grows h₂ h₃) : Grows h₁ h₃ :=
  ⟨h₁₂.log.trans h₂₃.log, h₁₂.stmts.trans h₂₃.stmts, h₁₂.refs.trans h₂₃.refs⟩

theorem Grows.released {h h' : Heap} (hg : Grows h h') {r : Res} (hr : h.Released r) : h'.Released r :=
  hg.log.subset hr

theorem Grows.stmt {h h' : Heap} (hg : Grows h h') {p c : Nat} (hp : h.stmts[p]? = some c) : h'.stmts[p]? = some c :=
  getElem?_of_prefix hg.stmts hp

/-- The ledger gets new entries, and nothing else that `Grows` speaks of changes. -/
theorem grows_of_log {h h' : Heap} (es : List (Event Res)) (hl : h'.log = h.log ++ es) (hs : h'.stmts = h.stmts)
    (hr : h'.refs = h.refs) : Grows h h' :=
  ⟨hl ▸ List.prefix_append _ _, hs ▸ List.prefix_refl _, hr ▸ List.prefix_refl _⟩

theorem grows_emit (es : List (Event Res)) (h : Heap) : Grows h (h.emit es) := grows_of_log es rfl rfl rfl

theorem grows_newGlobalRef (obj : Nat) (owner : Owner) (h : Heap) : Grows h (h.newGlobalRef obj owner) :=
  ⟨List.prefix_append _ _, List.prefix_refl _, List.prefix_append _ _⟩

theorem grows_hook (c : Nat) (arg : Conn → Option Nat) (last : Option Nat) (h : Heap) :
    Grows h (h.hook c arg last) := by
  obtain ⟨hlog, -, hstmts, hrefs⟩ := hook_frame c arg last h
  exact grows_of_log [] (by rw [hlog, List.append_nil]) hstmts hrefs

theorem grows_closeZombie (c : Nat) (h : Heap) : Grows h (h.closeZombie c) := by
  unfold closeZombie
  split
  · split
    · exact grows_emit _ h
    · exact Grows.refl h
  · exact Grows.refl h

theorem grows_sqlite3CloseV2 (c : Nat) (h : Heap) : Grows h (h.sqlite3CloseV2 c) := by
  unfold sqlite3CloseV2
  split
  · rename_i x _
    have hmark : Grows h (h.markZombie c x) := grows_of_log _ rfl rfl rfl
    exact hmark.trans (grows_closeZombie c _)
  · exact Grows.refl h

theorem grows_sqlite3Finalize (p : Nat) (h : Heap) : Grows h (h.sqlite3Finalize p) := by
  unfold sqlite3Finalize
  cases h.stmts[p]? with
  | none => exact Grows.refl h
  | some c =>
    cases hx : h.conns[c]? with
    | none =>
      simp only [hx]
      exact Grows.refl h
    | some x =>
      have hdrop : Grows h (h.dropStmt p c x) := grows_of_log _ rfl rfl rfl
      simp only [hx]
      exact hdrop.trans (grows_closeZombie c _)

theorem grows_deleteTrace (x : SQLiteDb) (h : Heap) : Grows h (h.deleteTrace x) := by
  unfold deleteTrace
  split
  · exact grows_emit _ h
  · exact Grows.refl h

theorem grows_registerAt (c : Nat) (slot : Slot) (r : Nat) (h : Heap) : Grows h (h.registerAt c slot r) := by
  unfold registerAt
  split
  · exact grows_of_log _ rfl rfl rfl
  · exact Grows.refl h

theorem grows_nativeOpen (flags : Nat) (o : OpenOutcome) (h : Heap) : Grows h (nativeOpen flags o h).2 := by
  have hnew : Grows h h.newConn := grows_of_log _ rfl rfl rfl
  rcases nativeOpen_cases flags o h with hval | ⟨-, hval⟩ | hval | hval <;> rw [hval]
  · exact Grows.refl h
  · exact hnew
  · exact hnew.trans (grows_sqlite3CloseV2 _ _)
  · exact hnew.trans (grows_of_log _ rfl rfl rfl)

theorem grows_nativeClose (d : Nat) (x : SQLiteDb) (h : Heap) : Grows h (nativeClose d x h) :=
  (grows_deleteTrace x h).trans <| (grows_hook _ _ _ _).trans <|
    (grows_sqlite3CloseV2 _ _).trans (grows_emit _ _)

theorem grows_nativeTrace (d : Nat) (x : SQLiteDb) (func : Option Nat) (h : Heap) :
    Grows h (nativeTrace d x func h) := by
  apply (grows_deleteTrace x h).trans
  have hclear : Grows (h.deleteTrace x) ((h.deleteTrace x).setDb d { x with trace := none }) :=
    grows_of_log [] (List.append_nil _).symm rfl rfl
  apply hclear.trans
  unfold nativeTrace
  cases func with
  | none => exact grows_hook _ _ _ _
  | some func =>
    have hset : ∀ (h : Heap) (y : SQLiteDb), Grows h (h.setDb d y) := fun h y =>
      grows_of_log [] (List.append_nil _).symm rfl rfl
    exact (grows_newGlobalRef func (.db d) _).trans ((hset _ _).trans (grows_hook _ _ _ _))

theorem grows_newStmt (c : Nat) (x : Conn) (h : Heap) : Grows h (h.newStmt c x) :=
  ⟨List.prefix_append _ _, List.prefix_append _ _, List.prefix_refl _⟩

theorem grows_nativePrepare (c : Nat) (sql : String) (o : PrepareOutcome Db) (h : Heap) :
    Grows h (nativePrepare c sql o h).2 := by
  rcases nativePrepare_cases c sql o h with he | ⟨x, -, he⟩
  · rw [he]
    exact Grows.refl h
  · rw [he]
    exact grows_newStmt c x h

theorem grows_nativeExecForDouble (casts : Casts) (c : Nat) (sql : String) (o : PrepareOutcome Db) (t : Tick Db)
    (h : Heap) : Grows h (nativeExecForDouble casts c sql o t h).2 := by
  rcases nativeExecForDouble_cases casts c sql o t h with he | ⟨x, -, he⟩
  · rw [he]
    exact Grows.refl h
  · rw [he]
    exact (grows_newStmt c x h).trans ((grows_emit _ _).trans (grows_sqlite3Finalize _ _))

theorem grows_nativeCreateCollation (c : Nat) (name : String) (comparator : Nat) (ret : Option Failure) (h : Heap) :
    Grows h (nativeCreateCollation c name comparator ret h).2 := by
  cases ret with
  | none => exact (grows_newGlobalRef _ _ _).trans (grows_registerAt _ _ _ _)
  | some f => exact grows_newGlobalRef _ _ _

theorem grows_nativeCreateFunction (c : Nat) (name : String) (numArgs : Int) (func : Nat) (ret : Option Failure)
    (h : Heap) : Grows h (nativeCreateFunction c name numArgs func ret h).2 := by
  cases ret with
  | none => exact (grows_newGlobalRef _ _ _).trans (grows_registerAt _ _ _ _)
  | some f => exact (grows_newGlobalRef _ _ _).trans (grows_emit _ _)

end Heap

open Heap (Grows)

namespace World

theorem grows_dbCall (d : Nat) (x : SQLiteDb) (w : World Db) (call : DbCall Db) :
    Grows w.heap (w.dbCall d x call).heap := by
  cases call with
  | close => exact Heap.grows_nativeClose d x w.heap
  | trace func => exact Heap.grows_nativeTrace d x func w.heap
  | exec sql ret => exact Grows.refl _
  | execForNumber sql o t => exact Heap.grows_nativeExecForDouble _ _ sql o t w.heap
  | prepare sql o =>
    rw [dbCall_prepare_heap]
    exact Heap.grows_nativePrepare x.handle sql o w.heap
  | createCollation name comparator ret => exact Heap.grows_nativeCreateCollation _ name comparator ret w.heap
  | createFunction name numArgs func ret => exact Heap.grows_nativeCreateFunction _ name numArgs func ret w.heap

theorem grows_perform (w : World Db) (op : Op Db) : Grows w.heap (w.perform op).heap := by
  have hstep := heapStep_perform w op
  generalize (w.perform op).heap = h at hstep ⊢
  cases hstep with
  | same => exact Grows.refl _
  | «open» flags o => exact Heap.grows_nativeOpen flags o w.heap
  | db d x dc => exact grows_dbCall d x w dc
  | finalize p => exact Heap.grows_sqlite3Finalize p w.heap
  | failed k p => exact (Heap.grows_sqlite3Finalize p w.heap).trans (Heap.grows_emit _ _)

end World

theorem grows_call (w : World Db) (op : Op Db) : Grows w.heap (call w op).heap := by
  have henter : Grows w.heap (w.enter (op.needs w)).heap := Heap.grows_emit _ _
  unfold call
  split
  · exact henter.trans (World.grows_perform _ op)
  · exact henter

/-! ### Objects keep their pointers -/

theorem World.stmtObj_perform {w : World Db} {k : Nat} {o : StmtObj} (op : Op Db) (ho : w.stmtObjs[k]? = some o) :
    ∃ o', (w.perform op).stmtObjs[k]? = some o' ∧ o'.mStmtPtr = o.mStmtPtr ∧ (o.closed = true → o'.closed = true) := by
  have hkeep : ∃ o', w.stmtObjs[k]? = some o' ∧ o'.mStmtPtr = o.mStmtPtr ∧ (o.closed = true → o'.closed = true) :=
    ⟨o, ho, rfl, id⟩
  have hset : ∀ k' ptr, w.stmtObjs[k']?.map StmtObj.mStmtPtr = some ptr →
      ∃ o', (w.stmtObjs.set k' ⟨ptr, true⟩)[k]? = some o' ∧ o'.mStmtPtr = o.mStmtPtr ∧
        (o.closed = true → o'.closed = true) := by
    intro k' ptr hptr
    by_cases he : k' = k
    · subst he
      rw [ho] at hptr
      exact ⟨⟨ptr, true⟩, List.getElem?_set_self (lt_of_getElem? ho), (Option.some.inj hptr).symm,
        fun _ => rfl⟩
    · exact ⟨o, by rw [List.getElem?_set_ne he, ho], rfl, id⟩
  cases op with
  | «open» flags oc => exact hkeep
  | db d call =>
    unfold perform
    dsimp only
    split
    · cases call with
      | prepare sql oc =>
        unfold dbCall
        dsimp only
        split
        · exact ⟨o, by rw [List.getElem?_append_left (lt_of_getElem? ho), ho], rfl, id⟩
        · exact hkeep
      | _ => exact hkeep
    · exact hkeep
  | stmt k' call =>
    unfold perform
    dsimp only
    split
    · rename_i p b hk'
      split
      · cases call with
        | insert t =>
          unfold stmtCall complete
          dsimp only
          split <;> exact hkeep
        | execute t =>
          unfold stmtCall complete
          dsimp only
          split <;> exact hkeep
        | select =>
          unfold stmtCall
          dsimp only
          split <;> exact hkeep
        | close => exact hset k' (some p) (by rw [hk']; rfl)
        | _ => exact hkeep
      · exact hkeep
    · rename_i b hk'
      cases call with
      | bind index arg =>
        unfold nullStmtCall
        dsimp only
        split <;> exact hkeep
      | close => exact hset k' none (by rw [hk']; rfl)
      | _ => exact hkeep
    · exact hkeep
  | iter i call =>
    unfold perform
    dsimp only
    split
    · split
      · split
        · cases call <;> exact hkeep
        · exact hkeep
      · cases call <;> exact hkeep
    · exact hkeep
  | traceEvent c => exact hkeep

/-- A `SQLiteStmt` keeps its pointer, and stays closed once it is. -/
theorem stmtObj_call {w : World Db} {k : Nat} {o : StmtObj} (op : Op Db) (ho : w.stmtObjs[k]? = some o) :
    ∃ o', (call w op).stmtObjs[k]? = some o' ∧ o'.mStmtPtr = o.mStmtPtr ∧ (o.closed = true → o'.closed = true) := by
  unfold call
  split
  · exact World.stmtObj_perform (w := w.enter (op.needs w)) op ho
  · exact ⟨o, ho, rfl, id⟩

/-- A call that is handed something released leaves a ledger that is not sound. -/
theorem not_sound_of_not_clean {w : World Db} {op : Op Db} (h : ¬ Clean w op) : ¬ Sound (call w op).heap.log := by
  rw [call_of_not_clean h]
  intro hs
  exact h ((Ledger.sound_append_uses _).1 hs).2

/-! ### One call -/

@[simp] theorem World.released_enter {w : World Db} {rs : List Res} {r : Res} :
    (w.enter rs).heap.Released r ↔ w.heap.Released r := Heap.released_uses

theorem needs_enter (w : World Db) (rs : List Res) (op : Op Db) : op.needs (w.enter rs) = op.needs w := by
  cases op with
  | traceEvent c =>
    unfold Op.needs
    dsimp only
    simp only [World.released_enter]
    rfl
  | _ => rfl

/-- A failed `insert()` or `execute()` finalizes its statement, which must not free the connection. -/
theorem World.wf_failed {w : World Db} (hw : w.heap.Wf) {p c : Nat} (hp : w.heap.stmts[p]? = some c)
    (hlive : ¬ w.heap.Released (.stmt p))
    (hlast : ∀ x, w.heap.conns[c]? = some x → ¬ (x.zombie = true ∧ x.pVdbe = [p])) :
    ((w.heap.sqlite3Finalize p).emit ([.conn c].map .use)).Wf := by
  obtain ⟨x, hx, -⟩ := hw.core.stmt p c hp
  have hconn := Heap.conn_live_after_finalize hw hp hx hlive (hlast x hx)
  refine (Heap.sqlite3Finalize_spec hw hp hlive).1.uses fun r hr => ?_
  obtain rfl := List.mem_singleton.1 hr
  refine ⟨?_, hconn⟩
  show c < (w.heap.sqlite3Finalize p).conns.length
  rw [Heap.sqlite3Finalize_conns hp hx, List.length_set]
  exact lt_of_getElem? hx

theorem World.wf_dbCall {w : World Db} (hw : w.heap.Wf) {d : Nat} {x : SQLiteDb} (hx : w.heap.dbs[d]? = some x)
    (hlive : ¬ w.heap.Released (.db d)) (dc : DbCall Db) : (w.dbCall d x dc).heap.Wf := by
  obtain ⟨y, hy, hz, hconn⟩ := hw.openConn hx hlive
  cases dc with
  | close => exact (Heap.nativeClose_spec hw hx hlive).1
  | trace func => exact hw.nativeTrace hx hlive func
  | exec sql ret => exact hw
  | execForNumber sql o t => exact hw.nativeExecForDouble hconn w.casts sql o t
  | prepare sql o =>
    rw [dbCall_prepare_heap]
    exact hw.nativePrepare hconn sql o
  | createCollation name comparator ret => exact hw.nativeCreateCollation hy hz name comparator ret
  | createFunction name numArgs func ret => exact hw.nativeCreateFunction hy hz name numArgs func ret

theorem World.wf_perform {w : World Db} {op : Op Db} (hw : w.heap.Wf) (hclean : Clean w op)
    (hlast : ¬ FailsOnLast w op) : (w.perform op).heap.Wf := by
  have hstep := heapStep_perform w op
  generalize (w.perform op).heap = h at hstep ⊢
  cases hstep with
  | same => exact hw
  | «open» flags o => exact hw.nativeOpen flags o
  | db d x dc hop hx =>
    subst hop
    exact wf_dbCall hw hx (hclean _ (by simp [Op.needs, hx])) dc
  | finalize p c hp hneeds => exact (Heap.sqlite3Finalize_spec hw hp (hclean _ hneeds)).1
  | failed k p c o v t hop hobj hptr hp hv hneeds hne =>
    refine wf_failed hw hp (hclean _ hneeds) fun x hx hz => hlast ?_
    exact ⟨k, t, o, p, c, x, v, hop, hobj, hptr, hp, hx, hv, hz.1, hz.2, hne⟩

/-- A call that is handed nothing released keeps the heap well-formed. -/
theorem wf_call {w : World Db} {op : Op Db} (hw : w.heap.Wf) (hhas : ∀ r ∈ op.needs w, w.heap.Has r)
    (hclean : Clean w op) (hlast : ¬ FailsOnLast w op) : (call w op).heap.Wf := by
  have hw' : (w.enter (op.needs w)).heap.Wf := hw.uses fun r hr => ⟨hhas r hr, hclean r hr⟩
  rw [call_of_clean hclean]
  refine World.wf_perform hw' ?_ hlast
  intro r hr hm
  rw [needs_enter] at hr
  exact hclean r hr (World.released_enter.1 hm)

/-- A call on a database is handed its struct and its handle. -/
theorem mem_needs_db {w : World Db} {d : Nat} {call : DbCall Db} {r : Res} (hr : r ∈ Op.needs w (.db d call)) :
    ∃ x, w.heap.dbs[d]? = some x ∧ (r = .db d ∨ r = .handle x.handle) := by
  unfold Op.needs at hr
  cases hx : w.heap.dbs[d]? with
  | none => simp [hx] at hr
  | some x =>
    simp only [hx, List.mem_cons, List.not_mem_nil, or_false] at hr
    exact ⟨x, rfl, hr⟩

theorem World.mem_stmtNeeds {w : World Db} {ptr : Option Nat} {r : Res} (hr : r ∈ w.stmtNeeds ptr) :
    ∃ p c, ptr = some p ∧ w.heap.stmts[p]? = some c ∧ (r = .stmt p ∨ r = .conn c) := by
  cases ptr with
  | none => cases hr
  | some p =>
    unfold World.stmtNeeds at hr
    cases hp : w.heap.stmts[p]? with
    | none => simp [hp] at hr
    | some c =>
      simp only [hp, List.mem_cons, List.not_mem_nil, or_false] at hr
      exact ⟨p, c, rfl, hp, hr⟩

/-- Only a native call is handed the statement of its object. -/
theorem mem_needs_stmt {w : World Db} {k : Nat} {call : StmtCall Db} {r : Res} (hr : r ∈ Op.needs w (.stmt k call)) :
    ∃ o p, w.stmtObjs[k]? = some o ∧ call.native = true ∧ o.mStmtPtr = some p ∧ r ∈ w.stmtNeeds (some p) := by
  unfold Op.needs at hr
  cases ho : w.stmtObjs[k]? with
  | none => simp [ho] at hr
  | some o =>
    simp only [ho] at hr
    split at hr
    · rename_i hn
      obtain ⟨p, c, hptr, -⟩ := World.mem_stmtNeeds hr
      exact ⟨o, p, rfl, hn, hptr, hptr ▸ hr⟩
    · cases hr

theorem mem_needs_iter {w : World Db} {i : Nat} {call : IterCall Db} {r : Res} (hr : r ∈ Op.needs w (.iter i call)) :
    ∃ o p, w.iterObjs[i]? = some o ∧ call.native o.it = true ∧ o.mStmtPtr = some p ∧ r ∈ w.stmtNeeds (some p) := by
  unfold Op.needs at hr
  cases ho : w.iterObjs[i]? with
  | none => simp [ho] at hr
  | some o =>
    simp only [ho] at hr
    split at hr
    · rename_i hn
      obtain ⟨p, c, hptr, -⟩ := World.mem_stmtNeeds hr
      exact ⟨o, p, rfl, hn, hptr, hptr ▸ hr⟩
    · cases hr

/-- What a call hands to native code has been allocated; of a trace argument the heap alone does not say so. -/
theorem needs_has {w : World Db} (hw : w.heap.Wf) {op : Op Db} (hop : ∀ c, op ≠ .traceEvent c) :
    ∀ r ∈ op.needs w, w.heap.Has r := by
  have hstmt : ∀ ptr, ∀ r ∈ w.stmtNeeds ptr, w.heap.Has r := by
    intro ptr r hr
    obtain ⟨p, c, -, hp, rfl | rfl⟩ := World.mem_stmtNeeds hr
    · exact lt_of_getElem? hp
    · obtain ⟨x, hx, _⟩ := hw.core.stmt p c hp
      exact lt_of_getElem? hx
  intro r hr
  cases op with
  | «open» flags o => cases hr
  | db d call =>
    obtain ⟨x, hx, rfl | rfl⟩ := mem_needs_db hr
    · exact lt_of_getElem? hx
    · exact (hw.core.db d x hx).1
  | stmt k call =>
    obtain ⟨o, p, -, -, -, hr⟩ := mem_needs_stmt hr
    exact hstmt _ r hr
  | iter i call =>
    obtain ⟨o, p, -, -, -, hr⟩ := mem_needs_iter hr
    exact hstmt _ r hr
  | traceEvent c => exact absurd rfl (hop c)

/-- A statement that has not been finalized keeps its connection. -/
theorem Heap.Wf.connLive {h : Heap} (hw : h.Wf) {p c : Nat} (hp : h.stmts[p]? = some c)
    (hlive : ¬ h.Released (.stmt p)) : ¬ h.Released (.conn c) := by
  intro hm
  obtain ⟨x, hx, hiff⟩ := hw.core.stmt p c hp
  have hmem := hiff.2 hlive
  rw [(hw.core.conn c x hx hm).2] at hmem
  cases hmem

theorem World.stmtNeeds_live {w : World Db} (hw : w.heap.Wf) {p : Nat} (hlive : ¬ w.heap.Released (.stmt p)) :
    ∀ r ∈ w.stmtNeeds (some p), ¬ w.heap.Released r := by
  intro r hr
  obtain ⟨q, c, he, hp, rfl | rfl⟩ := mem_stmtNeeds hr
  · cases he
    exact hlive
  · cases he
    exact hw.connLive hp hlive

/-- A database that has not been closed keeps its handle. -/
theorem World.needs_db_live {w : World Db} (hw : w.heap.Wf) {d : Nat} (hlive : ¬ w.heap.Released (.db d))
    (call : DbCall Db) : ∀ r ∈ Op.needs w (.db d call), ¬ w.heap.Released r := by
  intro r hr
  obtain ⟨x, hx, rfl | rfl⟩ := mem_needs_db hr
  · exact hlive
  · exact fun hm => hlive (hw.dbsClosed d x hx hm)

/-- The world before the first call. -/
def World.start (casts : Casts) : World Db := { casts := casts }

theorem Heap.wf_empty : ({} : Heap).Wf := by
  have hlogged : ({} : Heap).Logged := by
    refine ⟨List.Pairwise.nil, (fun e he => nomatch he), fun r hr => ?_⟩
    cases r <;> exact absurd hr (Nat.not_lt_zero _)
  refine ⟨⟨hlogged, ?_⟩, ?_, ?_, ?_⟩
  · constructor <;> simp
  all_goals simp [Reaped, DbsClosed, TraceRefs]

end Sqlite4a
