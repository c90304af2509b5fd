import Sqlite4a.Heap
import Sqlite4a.Vdbe

/-!
# `SQLiteDb`

The native methods of a database, as functions on the heap.  What SQLite answers is told by their arguments: the
outcome of `sqlite3_open_v2`, of `sqlite3_prepare_v2` and of a registration.  Each keeps the heap well-formed when the
struct it is given has not been deleted.
-/

namespace Sqlite4a

open Ledger (Event Sound)

def SQLITE_NOMEM : Int := 7

def SQLITE_OPEN_READWRITE : Nat := 2

/-- A failed `sqlite3_open_v2` may hand back a connection all the same.  A successful one is followed by
`sqlite3_db_readonly` and `sqlite3_busy_timeout`. -/
inductive OpenOutcome
  | failed (f : Failure) (handle : Bool)
  | opened (readonly : Bool) (timeout : Option Failure)
  deriving DecidableEq

/-- A text without a statement gives the null pointer and `SQLITE_OK`. -/
inductive PrepareOutcome (Db : Type*)
  | failed (f : Failure)
  | empty
  | stmt (v : Vdbe Db)

variable {Db : Type*}

def nativeOpen (flags : Nat) (o : OpenOutcome) (h : Heap) : Except JavaException Nat × Heap :=
  match o with
  | .failed f handle =>
    if handle then (.error (throwSqliteException f.msg none), h.newConn)
    else (.error (throwSqliteException (sqlite3ErrStr SQLITE_NOMEM) none), h)
  | .opened readonly timeout =>
    let c := h.conns.length
    if flags &&& SQLITE_OPEN_READWRITE ≠ 0 ∧ readonly = true then
      (.error (throwSqliteException "Could not open the database in read/write mode." none), h.newConn.sqlite3CloseV2 c)
    else if timeout.isSome then
      -- `sqlite3_close` of a connection that has no statements
      (.error (throwSqliteException "Could not set busy timeout" none), h.newConn.sqlite3CloseV2 c)
    else (.ok h.dbs.length, h.newConn.newDb c)

namespace Heap

/-- Sets the trace argument of a connection, and the record of the latest `trace()` call. -/
def hook (c : Nat) (arg : Conn → Option Nat) (last : Option Nat) (h : Heap) : Heap :=
  match h.conns[c]? with
  | some x => h.setConn c { x with pTraceArg := arg x, lastTrace := last }
  | none => h

/-- `DeleteGlobalRef(db->trace)` where there is one. -/
def deleteTrace (x : SQLiteDb) (h : Heap) : Heap :=
  match x.trace with
  | some r => h.deleteGlobalRef r
  | none => h

end Heap

def nativeClose (d : Nat) (x : SQLiteDb) (h : Heap) : Heap :=
  let h := h.deleteTrace x
  let h := h.hook x.handle Conn.pTraceArg none
  (h.sqlite3CloseV2 x.handle).emit [.release (.db d)]

/-- `sqlite3_trace_v2` always returns `SQLITE_OK`.  For a null `func` it is not called. -/
def nativeTrace (d : Nat) (x : SQLiteDb) (func : Option Nat) (h : Heap) : Heap :=
  let h := (h.deleteTrace x).setDb d { x with trace := none }
  match func with
  | none => h.hook x.handle Conn.pTraceArg none
  | some func =>
    let r := h.refs.length
    let h := (h.newGlobalRef func (.db d)).setDb d { x with trace := some r }
    h.hook x.handle (fun _ => some r) (some func)

def nativeExec (sql : String) (ret : Option Failure) : Except JavaException Unit :=
  match ret with
  | none => .ok ()
  | some f => .error (throwSqliteException f.msg (some sql))

def nativePrepare (c : Nat) (sql : String) (o : PrepareOutcome Db) (h : Heap) :
    Except JavaException (Option Nat) × Heap :=
  match o with
  | .failed f => (.error (throwSqliteException f.msg (some sql)), h)
  | .empty => (.ok none, h)
  | .stmt _ =>
    match h.conns[c]? with
    | some x => (.ok (some h.stmts.length), h.newStmt c x)
    | none => (.ok none, h)

/-- The first column of the first row; a null statement returns `SQLITE_MISUSE`, which is no row either. -/
def stepForDouble (casts : Casts) (o : PrepareOutcome Db) (t : Tick Db) : Double :=
  match o with
  | .stmt v =>
    let (r, v) := v.step t
    if r.code = SQLITE_ROW then v.columnDouble casts 0 else 0
  | _ => 0

/-- Where `sqlite3_prepare_v2` fails the exception is pending while the null statement is stepped and finalized. -/
def nativeExecForDouble (casts : Casts) (c : Nat) (sql : String) (o : PrepareOutcome Db) (t : Tick Db) (h : Heap) :
    Except JavaException Double × Heap :=
  match nativePrepare c sql o h with
  | (.ok (some p), h) => (.ok (stepForDouble casts o t), (h.emit [.use (.stmt p)]).sqlite3Finalize p)
  | (.ok none, h) => (.ok (stepForDouble casts o t), h)
  | (.error e, h) => (.error e, h)

/-- A successful `sqlite3_create_collation_v2` or `sqlite3_create_function_v2`. -/
def Heap.registerAt (c : Nat) (slot : Slot) (r : Nat) (h : Heap) : Heap :=
  match h.conns[c]? with
  | some x => h.register c x slot r
  | none => h

/-- A failed `sqlite3_create_collation_v2` leaves its argument to the caller. -/
def nativeCreateCollation (c : Nat) (name : String) (comparator : Nat) (ret : Option Failure) (h : Heap) :
    Except JavaException Unit × Heap :=
  let r := h.refs.length
  let h := h.newGlobalRef comparator (.conn c)
  match ret with
  | none => (.ok (), h.registerAt c (.collation name.toLower) r)
  | some f => (.error (throwSqliteException f.msg none), h)

/-- A failed `sqlite3_create_function_v2` calls the destructor of its argument. -/
def nativeCreateFunction (c : Nat) (name : String) (numArgs : Int) (func : Nat) (ret : Option Failure) (h : Heap) :
    Except JavaException Unit × Heap :=
  let r := h.refs.length
  let h := h.newGlobalRef func (.conn c)
  match ret with
  | none => (.ok (), h.registerAt c (.function name.toLower numArgs) r)
  | some f => (.error (throwSqliteException f.msg none), h.deleteGlobalRef r)

/-! ### Closing -/

namespace Heap

variable {h : Heap}

/-- From `h` to `h'` the resource `e` is released, and with it perhaps the connection `c` and references made for it. -/
structure Drops (e : Res) (c : Nat) (h h' : Heap) : Prop where
  dbs : h'.dbs = h.dbs
  stmts : h'.stmts = h.stmts
  refs : h'.refs = h.refs
  mono : ∀ r, h.Released r → h'.Released r
  only : ∀ r, h'.Released r → h.Released r ∨ r = e ∨ r = .conn c ∨ ∃ q o, r = .ref q ∧ h.refs[q]? = some ⟨o, .conn c⟩
  released : h'.Released e

theorem Drops.traceRefs {e : Res} {c : Nat} {h' : Heap} (hdr : Drops e c h h') (he : ∀ q, e ≠ .ref q)
    (ht : h.TraceRefs) : h'.TraceRefs := by
  intro d x r hx hr
  rw [hdr.dbs] at hx
  obtain ⟨⟨o, ho⟩, himp⟩ := ht d x r hx hr
  rw [hdr.refs]
  refine ⟨⟨o, ho⟩, fun hm => ?_⟩
  rcases hdr.only _ hm with hm | heq | heq | ⟨q, o', heq, hq⟩
  · exact hdr.mono _ (himp hm)
  · exact absurd heq.symm (he r)
  · cases heq
  · -- a trace reference was made for its struct
    cases heq
    rw [ho] at hq
    cases hq

theorem closeZombie_frame (c : Nat) (h : Heap) :
    (h.closeZombie c).conns = h.conns ∧ (h.closeZombie c).dbs = h.dbs ∧ (h.closeZombie c).stmts = h.stmts ∧
      (h.closeZombie c).refs = h.refs := by
  unfold closeZombie
  split
  · split <;> exact ⟨rfl, rfl, rfl, rfl⟩
  · exact ⟨rfl, rfl, rfl, rfl⟩

theorem released_closeZombie_of {r : Res} (c : Nat) (hr : h.Released r) : (h.closeZombie c).Released r := by
  unfold closeZombie
  split
  · split
    · exact released_emit.2 (.inl hr)
    · exact hr
  · exact hr

theorem released_of_closeZombie {r : Res} {c : Nat} (hc : h.Core) (hr : (h.closeZombie c).Released r) :
    h.Released r ∨ r = .conn c ∨ ∃ q o, r = .ref q ∧ h.refs[q]? = some ⟨o, .conn c⟩ := by
  unfold closeZombie at hr
  cases hx : h.conns[c]? with
  | none =>
    rw [hx] at hr
    exact .inl hr
  | some x =>
    rw [hx] at hr
    dsimp only at hr
    split at hr
    · rcases released_emit.1 hr with hr | hr
      · exact .inl hr
      · rcases List.mem_append.1 hr with hm | hm
        · obtain ⟨q, hq, he⟩ := List.mem_map.1 hm
          obtain ⟨o, ho⟩ := ((hc.registered c x hx).2 q hq).1
          exact .inr (.inr ⟨q, o, (Event.release.inj he).symm, ho⟩)
        · exact .inr (.inl (Event.release.inj (List.mem_singleton.1 hm)))
    · exact .inl hr

theorem closeZombie_reaped {c : Nat}
    (hr : ∀ (c' : Nat) (x : Conn), c' ≠ c → h.conns[c']? = some x → x.zombie = true → x.pVdbe = [] →
      h.Released (.conn c')) : (h.closeZombie c).Reaped := by
  intro c' x hx hz hnil
  rw [(closeZombie_frame c h).1] at hx
  by_cases hcc : c' = c
  · subst hcc
    unfold closeZombie
    rw [hx]
    dsimp only
    rw [if_pos ⟨hz, hnil⟩]
    exact released_emit.2 (.inr (by simp))
  · exact released_closeZombie_of c (hr c' x hcc hx hz hnil)

private theorem get_setConn_ne {c c' : Nat} (y : Conn) (hne : c' ≠ c) (es : List (Event Res)) :
    ((h.emit es).setConn c y).conns[c']? = h.conns[c']? := by
  simp [setConn, emit, Ne.symm hne]

/-- What the two functions that may free a connection have in common. -/
private theorem drops_closeZombie {e : Res} {c : Nat} {x : Conn} (hc : ((h.emit [.release e]).setConn c x).Core) :
    Drops e c h (((h.emit [.release e]).setConn c x).closeZombie c) := by
  obtain ⟨_, hdbs, hstmts, hrefs⟩ := closeZombie_frame c ((h.emit [.release e]).setConn c x)
  refine ⟨hdbs, hstmts, hrefs, fun r hr => released_closeZombie_of c (released_emit.2 (.inl hr)), fun r hr => ?_,
    released_closeZombie_of c (released_emit.2 (.inr (List.mem_singleton_self _)))⟩
  rcases released_of_closeZombie hc hr with hr | hr
  · rcases released_emit.1 hr with hr | hr
    · exact .inl hr
    · exact .inr (.inl (Event.release.inj (List.mem_singleton.1 hr)))
  · exact .inr (.inr hr)

private theorem reaped_closeZombie (hr : h.Reaped) (e : Res) (c : Nat) (x : Conn) :
    (((h.emit [.release e]).setConn c x).closeZombie c).Reaped := by
  refine closeZombie_reaped fun c' y hne hy hyz hnil => released_emit.2 (.inl ?_)
  rw [get_setConn_ne _ hne] at hy
  exact hr c' y hy hyz hnil

/-- `sqlite3_close_v2` of an open connection. -/
theorem sqlite3CloseV2_spec (hc : h.Core) (hreap : h.Reaped) {c : Nat} {x : Conn} (hx : h.conns[c]? = some x)
    (hz : x.zombie = false) :
    (h.sqlite3CloseV2 c).Core ∧ (h.sqlite3CloseV2 c).Reaped ∧ Drops (.handle c) c h (h.sqlite3CloseV2 c) ∧
      (h.sqlite3CloseV2 c).conns = h.conns.set c { x with zombie := true } := by
  have hval : h.sqlite3CloseV2 c = (h.markZombie c x).closeZombie c := by
    unfold sqlite3CloseV2
    rw [hx]
  have hmark := hc.markZombie hx hz
  have hlive : ¬ (h.markZombie c x).Released (.conn c) := by
    intro hm
    rcases released_emit.1 hm with hm | hm
    · have := (hc.conn c x hx hm).1
      rw [hz] at this
      cases this
    · cases List.mem_singleton.1 hm
  rw [hval]
  exact ⟨hmark.closeZombie hlive, reaped_closeZombie hreap _ c _, drops_closeZombie hmark,
    (closeZombie_frame c (h.markZombie c x)).1⟩

/-- `sqlite3_finalize` of a statement that has not been finalized. -/
theorem sqlite3Finalize_spec (hw : h.Wf) {p c : Nat} (hp : h.stmts[p]? = some c) (hlive : ¬ h.Released (.stmt p)) :
    (h.sqlite3Finalize p).Wf ∧ Drops (.stmt p) c h (h.sqlite3Finalize p) := by
  have hc := hw.core
  obtain ⟨x, hx, hiff⟩ := hc.stmt p c hp
  have hval : h.sqlite3Finalize p = (h.dropStmt p c x).closeZombie c := by
    unfold sqlite3Finalize
    rw [hp]
    dsimp only
    rw [hx]
  have hdrop := hc.dropStmt hp hx hlive
  have hconn : ¬ (h.dropStmt p c x).Released (.conn c) := by
    intro hm
    rcases released_emit.1 hm with hm | hm
    · have hmem := hiff.2 hlive
      rw [(hc.conn c x hx hm).2] at hmem
      cases hmem
    · cases List.mem_singleton.1 hm
  have hdr : Drops (.stmt p) c h ((h.dropStmt p c x).closeZombie c) := drops_closeZombie hdrop
  rw [hval]
  refine ⟨⟨hdrop.closeZombie hconn, reaped_closeZombie hw.reaped _ c _, ?_,
    hdr.traceRefs (fun q he => nomatch he) hw.traceRefs⟩, hdr⟩
  intro d y hy hm
  rw [hdr.dbs] at hy
  rcases hdr.only _ hm with hm | he | he | ⟨_, _, he, _⟩
  · exact hdr.mono _ (hw.dbsClosed d y hy hm)
  all_goals cases he

theorem sqlite3Finalize_conns {p c : Nat} {x : Conn} (hp : h.stmts[p]? = some c) (hx : h.conns[c]? = some x) :
    (h.sqlite3Finalize p).conns = h.conns.set c { x with pVdbe := x.pVdbe.erase p } := by
  unfold sqlite3Finalize
  simp only [hp, hx]
  exact (closeZombie_frame c _).1

/-- The finalization frees the connection only where it was closed and this was its last statement. -/
theorem conn_live_after_finalize (hw : h.Wf) {p c : Nat} {x : Conn} (hp : h.stmts[p]? = some c)
    (hx : h.conns[c]? = some x) (hlive : ¬ h.Released (.stmt p)) (hlast : ¬ (x.zombie = true ∧ x.pVdbe = [p])) :
    ¬ (h.sqlite3Finalize p).Released (.conn c) := by
  intro hm
  have hget : (h.sqlite3Finalize p).conns[c]? = some { x with pVdbe := x.pVdbe.erase p } := by
    rw [sqlite3Finalize_conns hp hx, List.getElem?_set_self (lt_of_getElem? hx)]
  obtain ⟨hz, hnil⟩ := (sqlite3Finalize_spec hw hp hlive).1.core.conn c _ hget hm
  have hmem : p ∈ x.pVdbe := by
    obtain ⟨x', hx', hiff⟩ := hw.core.stmt p c hp
    rw [hx] at hx'
    cases hx'
    exact hiff.2 hlive
  refine hlast ⟨hz, ?_⟩
  rcases List.erase_eq_nil_iff.1 hnil with hnil | hsingle
  · rw [hnil] at hmem
    cases hmem
  · exact hsingle

theorem Wf.uses (hw : h.Wf) {rs : List Res} (hnew : ∀ r ∈ rs, h.Has r ∧ ¬ h.Released r) :
    (h.emit (rs.map .use)).Wf := by
  refine ⟨hw.core.uses hnew, fun c x hx hz hnil => released_uses.2 (hw.reaped c x hx hz hnil),
    fun d x hx hm => released_uses.2 (hw.dbsClosed d x hx (released_uses.1 hm)), fun d x r hx hr => ?_⟩
  obtain ⟨ho, himp⟩ := hw.traceRefs d x r hx hr
  exact ⟨ho, fun hm => released_uses.2 (himp (released_uses.1 hm))⟩

theorem Core.hook (hc : h.Core) (c : Nat) (arg : Conn → Option Nat) (last : Option Nat) : (h.hook c arg last).Core := by
  unfold Heap.hook
  cases hx : h.conns[c]? with
  | none => exact hc
  | some x => exact hc.setHook hx (arg x) last

theorem hook_frame (c : Nat) (arg : Conn → Option Nat) (last : Option Nat) (h : Heap) :
    (h.hook c arg last).log = h.log ∧ (h.hook c arg last).dbs = h.dbs ∧ (h.hook c arg last).stmts = h.stmts ∧
      (h.hook c arg last).refs = h.refs := by
  unfold Heap.hook
  split <;> exact ⟨rfl, rfl, rfl, rfl⟩

@[simp] theorem released_hook {c : Nat} {arg : Conn → Option Nat} {last : Option Nat} {r : Res} :
    (h.hook c arg last).Released r ↔ h.Released r := by
  rw [Released, (hook_frame c arg last h).1]

/-- `hook` changes the hook only. -/
theorem get_hook {c c' : Nat} {arg : Conn → Option Nat} {last : Option Nat} {y : Conn}
    (hy : (h.hook c arg last).conns[c']? = some y) :
    ∃ x, h.conns[c']? = some x ∧ y.zombie = x.zombie ∧ y.pVdbe = x.pVdbe ∧ y.registered = x.registered ∧
      (c' = c → y = { x with pTraceArg := arg x, lastTrace := last }) ∧ (c' ≠ c → y = x) := by
  unfold Heap.hook at hy
  cases hx : h.conns[c]? with
  | none =>
    rw [hx] at hy
    have hne : c' ≠ c := by
      rintro rfl
      rw [hx] at hy
      cases hy
    exact ⟨y, hy, rfl, rfl, rfl, fun he => absurd he hne, fun _ => rfl⟩
  | some x =>
    rw [hx] at hy
    rcases getElem?_set_some hy with ⟨rfl, -, rfl⟩ | ⟨hne, hy⟩
    · exact ⟨x, hx, rfl, rfl, rfl, fun _ => rfl, fun hne => absurd rfl hne⟩
    · exact ⟨y, hy, rfl, rfl, rfl, fun he => absurd he.symm hne, fun _ => rfl⟩

theorem Reaped.hook (hr : h.Reaped) (c : Nat) (arg : Conn → Option Nat) (last : Option Nat) :
    (h.hook c arg last).Reaped := by
  intro c' y hy hz hnil
  obtain ⟨x, hx, hzx, hpx, _⟩ := get_hook hy
  rw [released_hook]
  exact hr c' x hx (hzx ▸ hz) (hpx ▸ hnil)

theorem hook_conns {c : Nat} {y : Conn} (hy : h.conns[c]? = some y) (arg : Conn → Option Nat)
    (last : Option Nat) : (h.hook c arg last).conns = h.conns.set c { y with pTraceArg := arg y, lastTrace :=
      last } := by
  unfold hook
  rw [hy]
  rfl

theorem deleteTrace_frame (x : SQLiteDb) (h : Heap) :
    (h.deleteTrace x).conns = h.conns ∧ (h.deleteTrace x).dbs = h.dbs ∧ (h.deleteTrace x).stmts = h.stmts ∧
      (h.deleteTrace x).refs = h.refs := by
  unfold deleteTrace
  split <;> exact ⟨rfl, rfl, rfl, rfl⟩

theorem released_deleteTrace {x : SQLiteDb} {r : Res} :
    (h.deleteTrace x).Released r ↔ h.Released r ∨ ∃ q, x.trace = some q ∧ r = .ref q := by
  unfold deleteTrace
  cases ht : x.trace with
  | none => simp
  | some q => simp [deleteGlobalRef]

/-- Deleting the trace reference of a struct that has not been deleted. -/
theorem deleteTrace_spec (hw : h.Wf) {d : Nat} {x : SQLiteDb} (hx : h.dbs[d]? = some x)
    (hlive : ¬ h.Released (.db d)) : (h.deleteTrace x).Core ∧ (h.deleteTrace x).Reaped := by
  unfold deleteTrace
  cases ht : x.trace with
  | none => exact ⟨hw.core, hw.reaped⟩
  | some r =>
    obtain ⟨⟨o, ho⟩, himp⟩ := hw.traceRefs d x r hx ht
    -- it was made for the struct, so no connection has it registered
    have hfree : ∀ (c : Nat) (y : Conn), h.conns[c]? = some y → r ∉ y.registered := by
      intro c y hy hm
      obtain ⟨o', ho'⟩ := ((hw.core.registered c y hy).2 r hm).1
      rw [ho] at ho'
      cases ho'
    refine ⟨hw.core.deleteGlobalRef (lt_of_getElem? ho) (fun hm => hlive (himp hm)) hfree, ?_⟩
    exact fun c y hy hz hnil => released_emit.2 (.inl (hw.reaped c y hy hz hnil))

theorem deleteTrace_only (hw : h.Wf) {d : Nat} {x : SQLiteDb} (hx : h.dbs[d]? = some x) {r : Res}
    (hr : (h.deleteTrace x).Released r) : h.Released r ∨ ∃ q o, r = .ref q ∧ h.refs[q]? = some ⟨o, .db d⟩ := by
  rcases released_deleteTrace.1 hr with hr | ⟨q, hq, rfl⟩
  · exact .inl hr
  · obtain ⟨⟨o, ho⟩, -⟩ := hw.traceRefs d x q hx hq
    exact .inr ⟨q, o, rfl, ho⟩

/-- The handle of a struct that has not been deleted is open. -/
theorem Wf.openConn (hw : h.Wf) {d : Nat} {x : SQLiteDb} (hx : h.dbs[d]? = some x) (hlive : ¬ h.Released (.db d)) :
    ∃ y, h.conns[x.handle]? = some y ∧ y.zombie = false ∧ ¬ h.Released (.conn x.handle) := by
  have hlt := (hw.core.db d x hx).1
  refine ⟨h.conns[x.handle], List.getElem?_eq_getElem hlt, ?_, ?_⟩
  · by_contra hz
    have hrel := (hw.core.handle _ _ (List.getElem?_eq_getElem hlt)).2 (by simpa using hz)
    exact hlive (hw.dbsClosed d x hx hrel)
  · intro hm
    have hz := (hw.core.conn _ _ (List.getElem?_eq_getElem hlt) hm).1
    have hrel := (hw.core.handle _ _ (List.getElem?_eq_getElem hlt)).2 hz
    exact hlive (hw.dbsClosed d x hx hrel)

/-- `close()` up to the deletion of the struct. -/
def closeHandle (x : SQLiteDb) (h : Heap) : Heap :=
  ((h.deleteTrace x).hook x.handle Conn.pTraceArg none).sqlite3CloseV2 x.handle

/-- From `h` to `h'` the handle of the struct `d` is closed.  What else is released belongs to the struct or to its
connection. -/
structure Closes (d : Nat) (x : SQLiteDb) (h h' : Heap) : Prop where
  core : h'.Core
  reaped : h'.Reaped
  dbs : h'.dbs = h.dbs
  stmts : h'.stmts = h.stmts
  refs : h'.refs = h.refs
  mono : ∀ r, h.Released r → h'.Released r
  handle : h'.Released (.handle x.handle)
  only : ∀ r, h'.Released r → h.Released r ∨ r = .handle x.handle ∨ r = .conn x.handle ∨
    ∃ q o owner, r = .ref q ∧ h.refs[q]? = some ⟨o, owner⟩ ∧ (owner = .db d ∨ owner = .conn x.handle)

theorem closeHandle_spec (hw : h.Wf) {d : Nat} {x : SQLiteDb} (hx : h.dbs[d]? = some x)
    (hlive : ¬ h.Released (.db d)) : Closes d x h (h.closeHandle x) := by
  obtain ⟨y, hy, hz, -⟩ := hw.openConn hx hlive
  obtain ⟨hc, hr⟩ := deleteTrace_spec hw hx hlive
  obtain ⟨hconns₁, hdbs₁, hstmts₁, hrefs₁⟩ := deleteTrace_frame x h
  obtain ⟨-, hdbs₂, hstmts₂, hrefs₂⟩ := hook_frame x.handle Conn.pTraceArg none (h.deleteTrace x)
  have hget : ((h.deleteTrace x).hook x.handle Conn.pTraceArg none).conns[x.handle]? =
      some { y with lastTrace := none } := by
    rw [hook_conns (hconns₁ ▸ hy), hconns₁, List.getElem?_set_self (lt_of_getElem? hy)]
  obtain ⟨hc', hr', hdr, -⟩ :=
    sqlite3CloseV2_spec (hc.hook x.handle Conn.pTraceArg none) (hr.hook x.handle _ _) hget hz
  refine ⟨hc', hr', hdr.dbs.trans (hdbs₂.trans hdbs₁), hdr.stmts.trans (hstmts₂.trans hstmts₁),
    hdr.refs.trans (hrefs₂.trans hrefs₁), fun r hm => ?_, hdr.released, fun r hm => ?_⟩
  · apply hdr.mono
    exact released_hook.2 (released_deleteTrace.2 (.inl hm))
  · rcases hdr.only r hm with hm | he | he | ⟨q, o, he, hq⟩
    · rcases deleteTrace_only hw hx (released_hook.1 hm) with hm | ⟨q, o, he, hq⟩
      · exact .inl hm
      · exact .inr (.inr (.inr ⟨q, o, _, he, hq, .inl rfl⟩))
    · exact .inr (.inl he)
    · exact .inr (.inr (.inl he))
    · rw [hrefs₂, hrefs₁] at hq
      exact .inr (.inr (.inr ⟨q, o, _, he, hq, .inr rfl⟩))

/-- No struct and no statement is released with the handle. -/
theorem Closes.frame {d : Nat} {x : SQLiteDb} {h' : Heap} (hcl : Closes d x h h') :
    (∀ d', h'.Released (.db d') → h.Released (.db d')) ∧ ∀ p, h'.Released (.stmt p) → h.Released (.stmt p) := by
  constructor
  · intro d' hm
    rcases hcl.only _ hm with hm | he | he | ⟨_, _, _, he, _⟩
    · exact hm
    all_goals cases he
  · intro p hm
    rcases hcl.only _ hm with hm | he | he | ⟨_, _, _, he, _⟩
    · exact hm
    all_goals cases he

/-- The struct is deleted after its handle has been closed. -/
theorem Closes.wf {d : Nat} {x : SQLiteDb} {h' : Heap} (hcl : Closes d x h h') (hw : h.Wf) (hx : h.dbs[d]? = some x)
    (hlive : ¬ h.Released (.db d)) : (h'.emit [.release (.db d)]).Wf := by
  have hx' : h'.dbs[d]? = some x := by rw [hcl.dbs, hx]
  refine ⟨hcl.core.deleteDb hx' (fun hm => hlive (hcl.frame.1 d hm)) hcl.handle, ?_, ?_, ?_⟩
  · exact fun c z hz hzz hnil => released_emit.2 (.inl (hcl.reaped c z hz hzz hnil))
  · -- only this struct goes with the handle
    intro d' x' hd' hm
    have hx'' : h.dbs[d']? = some x' := by rw [← hcl.dbs]; exact hd'
    rw [released_emit] at hm ⊢
    rcases hm with hm | hm
    · rcases hcl.only _ hm with hm | he | he | ⟨_, _, _, he, _⟩
      · exact .inl (hcl.mono _ (hw.dbsClosed d' x' hx'' hm))
      · obtain rfl := hw.core.dbInj d' d x' x hx'' hx (Res.handle.inj he)
        exact .inr (List.mem_singleton_self _)
      all_goals cases he
    · cases List.mem_singleton.1 hm
  · -- and of the trace references only that of this struct
    intro d' x' r hd' hr
    have hx'' : h.dbs[d']? = some x' := by rw [← hcl.dbs]; exact hd'
    obtain ⟨⟨o, ho⟩, himp⟩ := hw.traceRefs d' x' r hx'' hr
    refine ⟨⟨o, by rw [← hcl.refs] at ho; exact ho⟩, fun hm => ?_⟩
    rw [released_emit] at hm ⊢
    rcases hm with hm | hm
    · rcases hcl.only _ hm with hm | he | he | ⟨q, o', owner, he, hq, hown⟩
      · exact .inl (hcl.mono _ (himp hm))
      · cases he
      · cases he
      · cases he
        rw [ho] at hq
        cases hq
        rcases hown with he | he
        · cases he
          exact .inr (List.mem_singleton_self _)
        · cases he
    · cases List.mem_singleton.1 hm

/-- Everything that `close()` releases belongs to the struct or to its connection. -/
theorem nativeClose_spec (hw : h.Wf) {d : Nat} {x : SQLiteDb} (hx : h.dbs[d]? = some x)
    (hlive : ¬ h.Released (.db d)) :
    (nativeClose d x h).Wf ∧ (nativeClose d x h).dbs = h.dbs ∧ (nativeClose d x h).stmts = h.stmts ∧
      (nativeClose d x h).Released (.db d) ∧ (∀ r, h.Released r → (nativeClose d x h).Released r) ∧
      ∀ p, (nativeClose d x h).Released (.stmt p) → h.Released (.stmt p) := by
  have hcl := closeHandle_spec hw hx hlive
  have hval : nativeClose d x h = (h.closeHandle x).emit [.release (.db d)] := rfl
  rw [hval]
  refine ⟨hcl.wf hw hx hlive, hcl.dbs, hcl.stmts, released_emit.2 (.inr (List.mem_singleton_self _)),
    fun r hr => released_emit.2 (.inl (hcl.mono r hr)), fun p hm => ?_⟩
  rcases released_emit.1 hm with hm | hm
  · exact hcl.frame.2 p hm
  · cases List.mem_singleton.1 hm

/-- `nativeClose` on the connection, which keeps its hook. -/
theorem nativeClose_conns {d : Nat} {x : SQLiteDb} {y : Conn} (hy : h.conns[x.handle]? = some y) :
    (nativeClose d x h).conns = h.conns.set x.handle { y with lastTrace := none, zombie := true } ∧
      (nativeClose d x h).refs = h.refs ∧ (∀ r, x.trace = some r → (nativeClose d x h).Released (.ref r)) := by
  obtain ⟨hconns₁, -, -, hrefs₁⟩ := deleteTrace_frame x h
  have hconns₂ := hook_conns (hconns₁ ▸ hy) Conn.pTraceArg none
  obtain ⟨-, -, -, hrefs₂⟩ := hook_frame x.handle Conn.pTraceArg none (h.deleteTrace x)
  have hreleased : ∀ r, x.trace = some r →
      ((h.deleteTrace x).hook x.handle Conn.pTraceArg none).Released (.ref r) := fun r hr =>
    released_hook.2 (released_deleteTrace.2 (.inr ⟨r, hr, rfl⟩))
  have hval : nativeClose d x h =
      (((h.deleteTrace x).hook x.handle Conn.pTraceArg none).sqlite3CloseV2 x.handle).emit [.release (.db d)] := rfl
  rw [hval]
  generalize (h.deleteTrace x).hook x.handle Conn.pTraceArg none = h₂ at *
  have hget₂ : h₂.conns[x.handle]? = some { y with lastTrace := none } := by
    rw [hconns₂, hconns₁, List.getElem?_set_self (lt_of_getElem? hy)]
  obtain ⟨hconns₃, -, -, hrefs₃⟩ := closeZombie_frame x.handle (h₂.markZombie x.handle { y with lastTrace := none })
  have hclose : h₂.sqlite3CloseV2 x.handle =
      (h₂.markZombie x.handle { y with lastTrace := none }).closeZombie x.handle := by
    unfold sqlite3CloseV2
    rw [hget₂]
  rw [hclose]
  refine ⟨?_, hrefs₃.trans (hrefs₂.trans hrefs₁), fun r hr => ?_⟩
  · apply hconns₃.trans
    show h₂.conns.set _ _ = _
    rw [hconns₂, hconns₁, List.set_set]
  · refine released_emit.2 (.inl (released_closeZombie_of _ ?_))
    exact released_emit.2 (.inl (hreleased r hr))

/-! ### Tracing -/

theorem Wf.hook (hw : h.Wf) (c : Nat) (arg : Conn → Option Nat) (last : Option Nat) : (h.hook c arg last).Wf := by
  obtain ⟨-, hdbs, -, hrefs⟩ := hook_frame c arg last h
  refine ⟨hw.core.hook c arg last, hw.reaped.hook c arg last, ?_, ?_⟩
  · intro d x hx
    rw [hdbs] at hx
    rw [released_hook, released_hook]
    exact hw.dbsClosed d x hx
  · intro d x r hx hr
    rw [hdbs] at hx
    rw [hrefs, released_hook, released_hook]
    exact hw.traceRefs d x r hx hr

theorem Wf.newGlobalRef (hw : h.Wf) (obj : Nat) (owner : Owner) : (h.newGlobalRef obj owner).Wf := by
  refine ⟨hw.core.newGlobalRef obj owner, ?_, ?_, ?_⟩
  · intro c x hx hz hnil
    exact released_newGlobalRef.2 (hw.reaped c x hx hz hnil)
  · intro d x hx hm
    exact released_newGlobalRef.2 (hw.dbsClosed d x hx (released_newGlobalRef.1 hm))
  · intro d x r hx hr
    obtain ⟨⟨o, ho⟩, himp⟩ := hw.traceRefs d x r hx hr
    refine ⟨⟨o, ?_⟩, fun hm => released_newGlobalRef.2 (himp (released_newGlobalRef.1 hm))⟩
    exact getElem?_of_prefix (List.prefix_append _ _) ho

/-- The struct may be given a trace reference that was made for it. -/
theorem setTrace_wf (hc : h.Core) (hr : h.Reaped) (hd : h.DbsClosed) {d : Nat} {x : SQLiteDb} (hx : h.dbs[d]? = some x)
    {trace : Option Nat}
    (hown : ∀ r, trace = some r → (∃ o, h.refs[r]? = some ⟨o, .db d⟩) ∧ ¬ h.Released (.ref r))
    (hother : ∀ (d' : Nat) (y : SQLiteDb) (r : Nat), d' ≠ d → h.dbs[d']? = some y → y.trace = some r →
      (∃ o, h.refs[r]? = some ⟨o, .db d'⟩) ∧ (h.Released (.ref r) → h.Released (.db d'))) :
    (h.setDb d { x with trace := trace }).Wf := by
  have hget : ∀ (d' : Nat) (y : SQLiteDb), (h.setDb d { x with trace := trace }).dbs[d']? = some y →
      (d' = d ∧ y = { x with trace := trace }) ∨ (d' ≠ d ∧ h.dbs[d']? = some y) := by
    intro d' y hy
    rcases getElem?_set_some hy with ⟨rfl, -, rfl⟩ | ⟨hne, hy⟩
    · exact .inl ⟨rfl, rfl⟩
    · exact .inr ⟨Ne.symm hne, hy⟩
  refine ⟨hc.setTrace hx trace, hr, ?_, ?_⟩
  · intro d' y hy hm
    rcases hget d' y hy with ⟨rfl, rfl⟩ | ⟨_, hy⟩
    · exact hd d' x hx hm
    · exact hd d' y hy hm
  · intro d' y r hy ht
    rcases hget d' y hy with ⟨rfl, rfl⟩ | ⟨hne, hy⟩
    · obtain ⟨ho, hlive⟩ := hown r ht
      exact ⟨ho, fun hm => absurd hm hlive⟩
    · exact hother d' y r hne hy ht

/-- After its reference has been deleted, `db->trace` is set to null. -/
theorem clearTrace_wf (hw : h.Wf) {d : Nat} {x : SQLiteDb} (hx : h.dbs[d]? = some x) (hlive : ¬ h.Released (.db d)) :
    ((h.deleteTrace x).setDb d { x with trace := none }).Wf := by
  obtain ⟨hc, hr⟩ := deleteTrace_spec hw hx hlive
  obtain ⟨-, hdbs, -, hrefs⟩ := deleteTrace_frame x h
  have hmono : ∀ r, h.Released r → (h.deleteTrace x).Released r := fun r hm => released_deleteTrace.2 (.inl hm)
  have hx₁ : (h.deleteTrace x).dbs[d]? = some x := by rw [hdbs]; exact hx
  refine setTrace_wf hc hr ?_ hx₁ (fun r he => nomatch he) ?_
  · intro d' y hy hm
    rw [hdbs] at hy
    rcases deleteTrace_only hw hx hm with hm | ⟨_, _, he, _⟩
    · exact hmono _ (hw.dbsClosed d' y hy hm)
    · cases he
  · intro d' y r hne hy ht
    rw [hdbs] at hy
    obtain ⟨⟨o, ho⟩, himp⟩ := hw.traceRefs d' y r hy ht
    refine ⟨⟨o, by rw [hrefs]; exact ho⟩, fun hm => ?_⟩
    rcases deleteTrace_only hw hx hm with hm | ⟨q, o', he, hq⟩
    · exact hmono _ (himp hm)
    · cases he
      rw [ho] at hq
      cases hq
      exact absurd rfl hne

theorem Wf.nativeTrace (hw : h.Wf) {d : Nat} {x : SQLiteDb} (hx : h.dbs[d]? = some x) (hlive : ¬ h.Released (.db d))
    (func : Option Nat) : (nativeTrace d x func h).Wf := by
  have hw₁ := clearTrace_wf hw hx hlive
  have hx₁ : ((h.deleteTrace x).setDb d { x with trace := none }).dbs[d]? = some { x with trace := none } := by
    have hdbs := (deleteTrace_frame x h).2.1
    show ((h.deleteTrace x).dbs.set d _)[d]? = _
    rw [hdbs, List.getElem?_set_self (lt_of_getElem? hx)]
  unfold Sqlite4a.nativeTrace
  cases func with
  | none => exact hw₁.hook _ _ _
  | some func =>
    dsimp only
    generalize (h.deleteTrace x).setDb d { x with trace := none } = h₁ at *
    have hw₂ := hw₁.newGlobalRef func (.db d)
    refine Wf.hook (setTrace_wf (x := { x with trace := none }) hw₂.core hw₂.reaped hw₂.dbsClosed hx₁ ?_ ?_) _ _ _
    · intro r hr
      obtain rfl := Option.some.inj hr
      refine ⟨⟨func, List.getElem?_concat_length⟩, fun hm => ?_⟩
      exact hw₁.core.fresh (r := .ref _) (Nat.lt_irrefl _) (released_newGlobalRef.1 hm)
    · exact fun d' y r _ hy ht => hw₂.traceRefs d' y r hy ht

/-! ### Opening, preparing and registering -/

theorem Wf.newConn (hw : h.Wf) : h.newConn.Wf := by
  refine ⟨hw.core.newConn, ?_, ?_, ?_⟩
  · intro c x hx hz hnil
    rw [released_newConn]
    rcases getElem?_snoc_some hx with hx | ⟨-, rfl⟩
    · exact hw.reaped c x hx hz hnil
    · cases hz
  · intro d x hx hm
    rw [released_newConn] at hm ⊢
    exact hw.dbsClosed d x hx hm
  · intro d x r hx hr
    rw [released_newConn, released_newConn]
    exact hw.traceRefs d x r hx hr

theorem Wf.newDb (hw : h.Wf) {c : Nat} (hlt : c < h.conns.length) (hopen : ¬ h.Released (.handle c))
    (hfree : ∀ (d : Nat) (x : SQLiteDb), h.dbs[d]? = some x → x.handle ≠ c) : (h.newDb c).Wf := by
  refine ⟨hw.core.newDb hlt hfree, fun c' x hx hz hnil => released_newDb.2 (hw.reaped c' x hx hz hnil), ?_, ?_⟩
  · intro d x hx hm
    rw [released_newDb] at hm ⊢
    rcases getElem?_snoc_some hx with hx | ⟨-, rfl⟩
    · exact hw.dbsClosed d x hx hm
    · exact absurd hm hopen
  · intro d x r hx hr
    rw [released_newDb, released_newDb]
    rcases getElem?_snoc_some hx with hx | ⟨-, rfl⟩
    · exact hw.traceRefs d x r hx hr
    · cases hr

theorem Wf.newStmt (hw : h.Wf) {c : Nat} {x : Conn} (hx : h.conns[c]? = some x) (hlive : ¬ h.Released (.conn c)) :
    (h.newStmt c x).Wf := by
  refine ⟨hw.core.newStmt hx hlive, ?_, ?_, ?_⟩
  · intro c' y hy hz hnil
    rw [released_newStmt]
    rcases getElem?_set_some hy with ⟨-, -, rfl⟩ | ⟨-, hy⟩
    · -- the connection has its new statement
      cases hnil
    · exact hw.reaped c' y hy hz hnil
  · intro d y hy hm
    rw [released_newStmt] at hm ⊢
    exact hw.dbsClosed d y hy hm
  · intro d y r hy hr
    rw [released_newStmt, released_newStmt]
    exact hw.traceRefs d y r hy hr

/-- `sqlite3_open_v2` may leave a connection that it has failed to open; a new one is closed at once or gets a
struct. -/
theorem nativeOpen_cases (flags : Nat) (o : OpenOutcome) (h : Heap) :
    (Sqlite4a.nativeOpen flags o h).2 = h ∨
      ((∃ f, o = .failed f true) ∧ (Sqlite4a.nativeOpen flags o h).2 = h.newConn) ∨
      (Sqlite4a.nativeOpen flags o h).2 = h.newConn.sqlite3CloseV2 h.conns.length ∨
      (Sqlite4a.nativeOpen flags o h).2 = h.newConn.newDb h.conns.length := by
  cases o with
  | failed f handle =>
    cases handle with
    | true => exact .inr (.inl ⟨⟨f, rfl⟩, rfl⟩)
    | false => exact .inl rfl
  | opened readonly timeout =>
    unfold Sqlite4a.nativeOpen
    dsimp only
    split
    · exact .inr (.inr (.inl rfl))
    · split
      · exact .inr (.inr (.inl rfl))
      · exact .inr (.inr (.inr rfl))

/-- Every way `sqlite3_open_v2` may end leaves the heap well-formed. -/
theorem Wf.nativeOpen (hw : h.Wf) (flags : Nat) (o : OpenOutcome) : (nativeOpen flags o h).2.Wf := by
  have hget : h.newConn.conns[h.conns.length]? = some {} := List.getElem?_concat_length
  have hfree : ∀ (d : Nat) (x : SQLiteDb), h.newConn.dbs[d]? = some x → x.handle ≠ h.conns.length := by
    intro d x hx he
    have := (hw.core.db d x hx).1
    omega
  have hclose : (h.newConn.sqlite3CloseV2 h.conns.length).Wf := by
    obtain ⟨hc, hr, hdr, -⟩ := sqlite3CloseV2_spec hw.newConn.core hw.newConn.reaped hget rfl
    refine ⟨hc, hr, ?_, hdr.traceRefs (fun q he => nomatch he) hw.newConn.traceRefs⟩
    intro d x hx hm
    rw [hdr.dbs] at hx
    rcases hdr.only _ hm with hm | he | he | ⟨_, _, he, _⟩
    · exact hdr.mono _ (hw.newConn.dbsClosed d x hx hm)
    · exact absurd (Res.handle.inj he) (hfree d x hx)
    · cases he
    · cases he
  rcases nativeOpen_cases flags o h with hval | ⟨-, hval⟩ | hval | hval <;> rw [hval]
  · exact hw
  · -- the connection of a failed open stays as it is
    exact hw.newConn
  · exact hclose
  · refine hw.newConn.newDb (by simp [Heap.newConn]) ?_ hfree
    intro hm
    have := (hw.newConn.core.handle _ _ hget).1 hm
    cases this

/-- Opening touches no statement. -/
theorem nativeOpen_stmts (hw : h.Wf) (flags : Nat) (o : OpenOutcome) :
    (Sqlite4a.nativeOpen flags o h).2.stmts = h.stmts ∧
      ∀ p, (Sqlite4a.nativeOpen flags o h).2.Released (.stmt p) → h.Released (.stmt p) := by
  have hnew : ∀ p, h.newConn.Released (.stmt p) → h.Released (.stmt p) := fun p => released_newConn.1
  have hget : h.newConn.conns[h.conns.length]? = some {} := List.getElem?_concat_length
  obtain ⟨-, -, hdr, -⟩ := sqlite3CloseV2_spec hw.newConn.core hw.newConn.reaped hget rfl
  have hclose : ∀ p, (h.newConn.sqlite3CloseV2 h.conns.length).Released (.stmt p) → h.Released (.stmt p) := by
    intro p hm
    rcases hdr.only _ hm with hm | he | he | ⟨_, _, he, _⟩
    · exact hnew p hm
    all_goals cases he
  rcases nativeOpen_cases flags o h with hval | ⟨-, hval⟩ | hval | hval <;> rw [hval]
  · exact ⟨rfl, fun p hm => hm⟩
  · exact ⟨rfl, hnew⟩
  · exact ⟨hdr.stmts, hclose⟩
  · exact ⟨rfl, fun p hm => hnew p (released_newDb.1 hm)⟩

/-- `sqlite3_prepare_v2` leaves the heap alone or makes one statement. -/
theorem nativePrepare_cases (c : Nat) (sql : String) (o : PrepareOutcome Db) (h : Heap) :
    (Sqlite4a.nativePrepare c sql o h).2 = h ∨
      ∃ x, h.conns[c]? = some x ∧ (Sqlite4a.nativePrepare c sql o h).2 = h.newStmt c x := by
  cases o with
  | failed f => exact .inl rfl
  | empty => exact .inl rfl
  | stmt v =>
    unfold Sqlite4a.nativePrepare
    cases hx : h.conns[c]? with
    | none => exact .inl rfl
    | some x => exact .inr ⟨x, rfl, rfl⟩

/-- `execForNumber` leaves the heap alone or finalizes the statement it has made. -/
theorem nativeExecForDouble_cases (casts : Casts) (c : Nat) (sql : String) (o : PrepareOutcome Db) (t : Tick Db)
    (h : Heap) : (Sqlite4a.nativeExecForDouble casts c sql o t h).2 = h ∨
      ∃ x, h.conns[c]? = some x ∧ (Sqlite4a.nativeExecForDouble casts c sql o t h).2 =
        ((h.newStmt c x).emit ([.stmt h.stmts.length].map .use)).sqlite3Finalize h.stmts.length := by
  cases o with
  | failed f => exact .inl rfl
  | empty => exact .inl rfl
  | stmt v =>
    unfold Sqlite4a.nativeExecForDouble Sqlite4a.nativePrepare
    cases hx : h.conns[c]? with
    | none => exact .inl rfl
    | some x => exact .inr ⟨x, rfl, rfl⟩

theorem Wf.nativePrepare (hw : h.Wf) {c : Nat} (hlive : ¬ h.Released (.conn c)) (sql : String)
    (o : PrepareOutcome Db) : (nativePrepare c sql o h).2.Wf := by
  rcases nativePrepare_cases c sql o h with he | ⟨x, hx, he⟩
  · rw [he]
    exact hw
  · rw [he]
    exact hw.newStmt hx hlive

theorem Wf.nativeExecForDouble (hw : h.Wf) {c : Nat} (hlive : ¬ h.Released (.conn c)) (casts : Casts) (sql : String)
    (o : PrepareOutcome Db) (t : Tick Db) : (nativeExecForDouble casts c sql o t h).2.Wf := by
  rcases nativeExecForDouble_cases casts c sql o t h with he | ⟨x, hx, he⟩
  · rw [he]
    exact hw
  · rw [he]
    have hp : (h.newStmt c x).stmts[h.stmts.length]? = some c := List.getElem?_concat_length
    have hfresh : ¬ (h.newStmt c x).Released (.stmt h.stmts.length) := fun hm =>
      hw.core.fresh (r := .stmt h.stmts.length) (Nat.lt_irrefl _) (released_newStmt.1 hm)
    have huse : ∀ r ∈ [Res.stmt h.stmts.length], (h.newStmt c x).Has r ∧ ¬ (h.newStmt c x).Released r := by
      intro r hr
      obtain rfl := List.mem_singleton.1 hr
      exact ⟨lt_of_getElem? hp, hfresh⟩
    have hw₁ := (hw.newStmt hx hlive).uses huse
    exact (sqlite3Finalize_spec hw₁ hp fun hm => hfresh (released_uses.1 hm)).1

/-- A registration releases the references it replaces. -/
theorem released_register {c r : Nat} {x : Conn} {slot : Slot} {q : Res} :
    (h.register c x slot r).Released q ↔ h.Released q ∨ ∃ k, q = .ref k ∧ (slot, k) ∈ x.callbacks :=
  released_emit.trans (or_congr Iff.rfl mem_replaced)

theorem Wf.register (hw : h.Wf) {c r o : Nat} {x : Conn} {slot : Slot} (hx : h.conns[c]? = some x)
    (hopen : x.zombie = false) (ho : h.refs[r]? = some ⟨o, .conn c⟩) (hr : ¬ h.Released (.ref r))
    (hnew : r ∉ x.registered) : (h.register c x slot r).Wf := by
  refine ⟨hw.core.register hx hopen ho hr hnew, ?_, ?_, ?_⟩
  · intro c' y hy hz hnil
    refine released_register.2 (.inl ?_)
    rcases getElem?_set_some hy with ⟨-, -, rfl⟩ | ⟨-, hy⟩
    · exact absurd (hopen.symm.trans hz) Bool.false_ne_true
    · exact hw.reaped c' y hy hz hnil
  · intro d y hy hm
    rcases released_register.1 hm with hm | ⟨_, he, _⟩
    · exact released_register.2 (.inl (hw.dbsClosed d y hy hm))
    · cases he
  · intro d y q hy hq
    obtain ⟨⟨o', ho'⟩, himp⟩ := hw.traceRefs d y q hy hq
    refine ⟨⟨o', ho'⟩, fun hm => ?_⟩
    rcases released_register.1 hm with hm | ⟨k, he, hk⟩
    · exact released_register.2 (.inl (himp hm))
    · cases he
      obtain ⟨o'', ho''⟩ := ((hw.core.registered c x hx).2 q (List.mem_map.2 ⟨_, hk, rfl⟩)).1
      rw [ho'] at ho''
      cases ho''

/-- What the two registration methods do with the new reference. -/
theorem Wf.newCallback (hw : h.Wf) (obj : Nat) {c : Nat} {x : Conn} (hx : h.conns[c]? = some x)
    (hz : x.zombie = false) :
    (h.newGlobalRef obj (.conn c)).Wf ∧
      (∀ slot, ((h.newGlobalRef obj (.conn c)).registerAt c slot h.refs.length).Wf) ∧
      ((h.newGlobalRef obj (.conn c)).deleteGlobalRef h.refs.length).Wf := by
  have hw₁ := hw.newGlobalRef obj (.conn c)
  have ho : (h.newGlobalRef obj (.conn c)).refs[h.refs.length]? = some ⟨obj, .conn c⟩ := List.getElem?_concat_length
  have hfresh : ¬ (h.newGlobalRef obj (.conn c)).Released (.ref h.refs.length) := fun hm =>
    hw.core.fresh (r := .ref _) (Nat.lt_irrefl _) (released_newGlobalRef.1 hm)
  have hfree : ∀ (c' : Nat) (y : Conn), h.conns[c']? = some y → h.refs.length ∉ y.registered := by
    intro c' y hy hm
    obtain ⟨o, ho'⟩ := ((hw.core.registered c' y hy).2 _ hm).1
    exact absurd (lt_of_getElem? ho') (Nat.lt_irrefl _)
  refine ⟨hw₁, fun slot => ?_, ?_⟩
  · have hval : (h.newGlobalRef obj (.conn c)).registerAt c slot h.refs.length =
        (h.newGlobalRef obj (.conn c)).register c x slot h.refs.length := by
      unfold Heap.registerAt
      rw [show (h.newGlobalRef obj (.conn c)).conns[c]? = some x from hx]
    rw [hval]
    exact hw₁.register hx hz ho hfresh (hfree c x hx)
  · refine ⟨hw₁.core.deleteGlobalRef (lt_of_getElem? ho) hfresh hfree, ?_, ?_, ?_⟩
    · exact fun c' y hy hyz hnil => released_emit.2 (.inl (hw₁.reaped c' y hy hyz hnil))
    · intro d y hy hm
      rcases released_emit.1 hm with hm | hm
      · exact released_emit.2 (.inl (hw₁.dbsClosed d y hy hm))
      · cases List.mem_singleton.1 hm
    · intro d y q hy hq
      obtain ⟨⟨o', ho'⟩, himp⟩ := hw₁.traceRefs d y q hy hq
      refine ⟨⟨o', ho'⟩, fun hm => ?_⟩
      rcases released_emit.1 hm with hm | hm
      · exact released_emit.2 (.inl (himp hm))
      · obtain rfl := Res.ref.inj (Event.release.inj (List.mem_singleton.1 hm))
        rw [ho] at ho'
        cases ho'

theorem Wf.nativeCreateCollation (hw : h.Wf) {c : Nat} {x : Conn} (hx : h.conns[c]? = some x) (hz : x.zombie = false)
    (name : String) (comparator : Nat) (ret : Option Failure) :
    (nativeCreateCollation c name comparator ret h).2.Wf := by
  obtain ⟨hnew, hreg, -⟩ := hw.newCallback comparator hx hz
  cases ret with
  | none => exact hreg _
  | some f => exact hnew

theorem Wf.nativeCreateFunction (hw : h.Wf) {c : Nat} {x : Conn} (hx : h.conns[c]? = some x) (hz : x.zombie = false)
    (name : String) (numArgs : Int) (func : Nat) (ret : Option Failure) :
    (nativeCreateFunction c name numArgs func ret h).2.Wf := by
  obtain ⟨-, hreg, hdel⟩ := hw.newCallback func hx hz
  cases ret with
  | none => exact hreg _
  | some f => exact hdel

end Heap

end Sqlite4a
