import Sqlite4a.Ledger
import Sqlite4a.Value
import Mathlib.Data.List.Nodup

/-!
# The native heap

What the native side owns between two calls: connections, `SQLiteDb` structs, prepared statements and JNI global
references, with the ledger of everything that was done with them.  A connection is two resources: the `handle` that
`sqlite3_open_v2` hands out and `sqlite3_close_v2` takes back, and the memory `conn`, which is freed when the handle is
back and no statement is left.

`Heap.Core` is the invariant of the single operations.  It says who owns what: a statement belongs to the connection
whose `pVdbe` list it is in, a struct to its handle, and a global reference to the connection or the struct it was made
for, so that a release never reaches what another owner still holds.
-/

namespace Sqlite4a

open Ledger (Event Sound)

/-! ### Positions in lists -/

theorem lt_of_getElem? {α : Type*} {l : List α} {i : Nat} {a : α} (h : l[i]? = some a) : i < l.length :=
  (List.getElem?_eq_some_iff.1 h).1

/-- A longer list has the same elements in the same places. -/
theorem getElem?_of_prefix {α : Type*} {l l' : List α} (hl : l <+: l') {i : Nat} {a : α} (h : l[i]? = some a) :
    l'[i]? = some a := by
  obtain ⟨more, rfl⟩ := hl
  rw [List.getElem?_append_left (lt_of_getElem? h), h]

theorem set_self_of_getElem? {α : Type*} {l : List α} {i : Nat} {a : α} (h : l[i]? = some a) : l.set i a = l := by
  obtain ⟨hlt, rfl⟩ := List.getElem?_eq_some_iff.1 h
  exact List.set_getElem_self hlt

theorem getElem?_set_some {α : Type*} {l : List α} {i j : Nat} {a b : α} (h : (l.set i a)[j]? = some b) :
    (i = j ∧ i < l.length ∧ a = b) ∨ (i ≠ j ∧ l[j]? = some b) := by
  rw [List.getElem?_set] at h
  by_cases hij : i = j
  · rw [if_pos hij] at h
    split at h
    · exact .inl ⟨hij, ‹_›, Option.some.inj h⟩
    · cases h
  · rw [if_neg hij] at h
    exact .inr ⟨hij, h⟩

theorem getElem?_snoc_some {α : Type*} {l : List α} {j : Nat} {a b : α} (h : (l ++ [a])[j]? = some b) :
    l[j]? = some b ∨ (j = l.length ∧ a = b) := by
  rcases Nat.lt_trichotomy j l.length with hlt | rfl | hgt
  · rw [List.getElem?_append_left hlt] at h
    exact .inl h
  · rw [List.getElem?_concat_length] at h
    exact .inr ⟨rfl, Option.some.inj h⟩
  · have hlen := lt_of_getElem? h
    simp only [List.length_append, List.length_singleton] at hlen
    omega

inductive Res
  | handle (c : Nat)
  | conn (c : Nat)
  | db (d : Nat)
  | stmt (p : Nat)
  | ref (r : Nat)
  deriving DecidableEq, Repr

/-- What a comparator or a function is registered as. -/
inductive Slot
  | collation (name : String)
  | function (name : String) (nArg : Int)
  deriving DecidableEq, Repr

inductive Owner
  | conn (c : Nat)
  | db (d : Nat)
  deriving DecidableEq, Repr

/-- A JNI global reference: the object it denotes, and whom it was made for. -/
structure GlobalRef where
  obj : Nat
  owner : Owner
  deriving DecidableEq, Repr

/-- A `sqlite3`.  The trace argument is what `java_trace` is called with, and `callbacks` are the arguments of the
registered comparators and functions.  `lastTrace` is the object of the latest call of `trace()`, none after
`trace(null)` and after `close()`; the code has no such field. -/
structure Conn where
  zombie : Bool := false
  pVdbe : List Nat := []
  pTraceArg : Option Nat := none
  callbacks : List (Slot × Nat) := []
  lastTrace : Option Nat := none
  deriving DecidableEq, Repr

/-- The global references that the destructors of a connection delete. -/
def Conn.registered (x : Conn) : List Nat := x.callbacks.map Prod.snd

structure SQLiteDb where
  handle : Nat
  trace : Option Nat := none
  deriving DecidableEq, Repr

/-- Pointers are positions in the lists; `stmts` gives the connection of each statement. -/
structure Heap where
  conns : List Conn := []
  dbs : List SQLiteDb := []
  stmts : List Nat := []
  refs : List GlobalRef := []
  log : List (Event Res) := []
  deriving DecidableEq, Repr

namespace Heap

abbrev Released (h : Heap) (r : Res) : Prop := .release r ∈ h.log

/-- The resource has been allocated at some time. -/
def Has (h : Heap) : Res → Prop
  | .handle c => c < h.conns.length
  | .conn c => c < h.conns.length
  | .db d => d < h.dbs.length
  | .stmt p => p < h.stmts.length
  | .ref r => r < h.refs.length

/-! ### Operations -/

def emit (es : List (Event Res)) (h : Heap) : Heap := { h with log := h.log ++ es }

def setConn (c : Nat) (x : Conn) (h : Heap) : Heap := { h with conns := h.conns.set c x }

def setDb (d : Nat) (x : SQLiteDb) (h : Heap) : Heap := { h with dbs := h.dbs.set d x }

/-- The connection that a failed or successful `sqlite3_open_v2` hands back. -/
def newConn (h : Heap) : Heap :=
  { h with
    conns := h.conns ++ [{}]
    log := h.log ++ [.acquire (.handle h.conns.length), .acquire (.conn h.conns.length)] }

/-- `new SQLiteDb(handle)`. -/
def newDb (c : Nat) (h : Heap) : Heap :=
  { h with dbs := h.dbs ++ [{ handle := c }], log := h.log ++ [.acquire (.db h.dbs.length)] }

/-- A successful `sqlite3_prepare_v2` of a text that has a statement. -/
def newStmt (c : Nat) (x : Conn) (h : Heap) : Heap :=
  { h with
    stmts := h.stmts ++ [c]
    conns := h.conns.set c { x with pVdbe := h.stmts.length :: x.pVdbe }
    log := h.log ++ [.acquire (.stmt h.stmts.length)] }

def newGlobalRef (obj : Nat) (owner : Owner) (h : Heap) : Heap :=
  { h with refs := h.refs ++ [⟨obj, owner⟩], log := h.log ++ [.acquire (.ref h.refs.length)] }

def deleteGlobalRef (r : Nat) (h : Heap) : Heap := h.emit [.release (.ref r)]

/-- `sqlite3LeaveMutexAndCloseZombie`: frees a closed connection without statements, which runs the destructors. -/
def closeZombie (c : Nat) (h : Heap) : Heap :=
  match h.conns[c]? with
  | some x =>
    if x.zombie = true ∧ x.pVdbe = [] then
      h.emit (x.registered.map (fun r => .release (.ref r)) ++ [.release (.conn c)])
    else h
  | none => h

def markZombie (c : Nat) (x : Conn) (h : Heap) : Heap :=
  (h.emit [.release (.handle c)]).setConn c { x with zombie := true }

def sqlite3CloseV2 (c : Nat) (h : Heap) : Heap :=
  match h.conns[c]? with
  | some x => (h.markZombie c x).closeZombie c
  | none => h

/-- `sqlite3VdbeDelete`. -/
def dropStmt (p c : Nat) (x : Conn) (h : Heap) : Heap :=
  (h.emit [.release (.stmt p)]).setConn c { x with pVdbe := x.pVdbe.erase p }

def sqlite3Finalize (p : Nat) (h : Heap) : Heap :=
  match h.stmts[p]? with
  | some c =>
    match h.conns[c]? with
    | some x => (h.dropStmt p c x).closeZombie c
    | none => h
  | none => h

/-- A registration under `slot`: the destructors of the arguments it replaces are run. -/
def register (c : Nat) (x : Conn) (slot : Slot) (r : Nat) (h : Heap) : Heap :=
  (h.emit ((x.callbacks.filter (·.1 = slot)).map fun old => .release (.ref old.2))).setConn c
    { x with callbacks := x.callbacks.filter (·.1 ≠ slot) ++ [(slot, r)] }

/-! ### The invariant -/

/-- The ledger is sound and agrees with what has been allocated. -/
structure Logged (h : Heap) : Prop where
  sound : Sound h.log
  known : ∀ e ∈ h.log, h.Has e.resource
  acquired : ∀ r, h.Has r → .acquire r ∈ h.log

/-- Who owns what. -/
structure Owned (h : Heap) : Prop where
  handle : ∀ (c : Nat) (x : Conn), h.conns[c]? = some x → (h.Released (.handle c) ↔ x.zombie = true)
  conn : ∀ (c : Nat) (x : Conn), h.conns[c]? = some x → h.Released (.conn c) → x.zombie = true ∧ x.pVdbe = []
  stmt : ∀ p c : Nat, h.stmts[p]? = some c →
    ∃ x : Conn, h.conns[c]? = some x ∧ (p ∈ x.pVdbe ↔ ¬ h.Released (.stmt p))
  pVdbe : ∀ (c : Nat) (x : Conn), h.conns[c]? = some x → x.pVdbe.Nodup ∧ ∀ p ∈ x.pVdbe, h.stmts[p]? = some c
  db : ∀ (d : Nat) (x : SQLiteDb), h.dbs[d]? = some x →
    x.handle < h.conns.length ∧ (h.Released (.db d) → h.Released (.handle x.handle))
  dbInj : ∀ (d d' : Nat) (x x' : SQLiteDb), h.dbs[d]? = some x → h.dbs[d']? = some x' → x.handle = x'.handle → d = d'
  registered : ∀ (c : Nat) (x : Conn), h.conns[c]? = some x → x.registered.Nodup ∧
    ∀ r ∈ x.registered, (∃ o, h.refs[r]? = some ⟨o, .conn c⟩) ∧ (h.Released (.ref r) ↔ h.Released (.conn c))

structure Core (h : Heap) : Prop extends Logged h, Owned h

/-- Every closed connection that has no statement left has been freed. -/
def Reaped (h : Heap) : Prop :=
  ∀ (c : Nat) (x : Conn), h.conns[c]? = some x → x.zombie = true → x.pVdbe = [] → h.Released (.conn c)

/-- The structs of closed handles have been deleted. -/
def DbsClosed (h : Heap) : Prop :=
  ∀ (d : Nat) (x : SQLiteDb), h.dbs[d]? = some x → h.Released (.handle x.handle) → h.Released (.db d)

/-- The trace reference of a struct was made for it and lives as long. -/
def TraceRefs (h : Heap) : Prop :=
  ∀ (d : Nat) (x : SQLiteDb) (r : Nat), h.dbs[d]? = some x → x.trace = some r →
    (∃ o, h.refs[r]? = some ⟨o, .db d⟩) ∧ (h.Released (.ref r) → h.Released (.db d))

structure Wf (h : Heap) : Prop where
  core : h.Core
  reaped : h.Reaped
  dbsClosed : h.DbsClosed
  traceRefs : h.TraceRefs

/-! ### Single operations -/

variable {h : Heap}

/-- What has not been allocated has not been released. -/
theorem Logged.fresh (hl : h.Logged) {r : Res} (hr : ¬ h.Has r) : ¬ h.Released r := fun hm => hr (hl.known _ hm)

@[simp] theorem released_emit {es : List (Event Res)} {r : Res} :
    (h.emit es).Released r ↔ h.Released r ∨ .release r ∈ es := List.mem_append

@[simp] theorem released_newConn {r : Res} : h.newConn.Released r ↔ h.Released r := by
  simp [newConn, Released]

@[simp] theorem released_newDb {c : Nat} {r : Res} : (h.newDb c).Released r ↔ h.Released r := by
  simp [newDb, Released]

@[simp] theorem released_newStmt {c : Nat} {x : Conn} {r : Res} : (h.newStmt c x).Released r ↔ h.Released r := by
  simp [newStmt, Released]

@[simp] theorem released_newGlobalRef {obj : Nat} {owner : Owner} {r : Res} :
    (h.newGlobalRef obj owner).Released r ↔ h.Released r := by
  simp [newGlobalRef, Released]

/-- A use releases nothing. -/
theorem released_uses {rs : List Res} {r : Res} : (h.emit (rs.map .use)).Released r ↔ h.Released r := by
  refine released_emit.trans (or_iff_left fun hm => ?_)
  obtain ⟨_, _, he⟩ := List.mem_map.1 hm
  cases he

/-- The ledger stays sound when events are added that touch nothing released before. -/
theorem Logged.step (hl : h.Logged) {h' : Heap} (es : List (Event Res)) (hlog : h'.log = h.log ++ es) (hes : Sound es)
    (hhas : ∀ r, h.Has r → h'.Has r) (hacq : ∀ r, h'.Has r → h.Has r ∨ .acquire r ∈ es)
    (hnew : ∀ e ∈ es, h'.Has e.resource ∧ ¬ h.Released e.resource) : h'.Logged where
  sound := by
    rw [hlog]
    exact Ledger.sound_append.2 ⟨hl.sound, hes, fun e he => (hnew e he).2⟩
  known e he := by
    rw [hlog] at he
    rcases List.mem_append.1 he with he | he
    · exact hhas _ (hl.known e he)
    · exact (hnew e he).1
  acquired r hr := by
    rw [hlog]
    rcases hacq r hr with hr | he
    · exact List.mem_append_left _ (hl.acquired r hr)
    · exact List.mem_append_right _ he

/-- The same when nothing is allocated. -/
theorem Logged.events (hl : h.Logged) {h' : Heap} (es : List (Event Res)) (hlog : h'.log = h.log ++ es)
    (hes : Sound es) (hhas : ∀ r, h'.Has r ↔ h.Has r) (hnew : ∀ e ∈ es, h.Has e.resource ∧ ¬ h.Released e.resource) :
    h'.Logged := by
  refine hl.step es hlog hes (fun r => (hhas r).2) (fun r hr => .inl ((hhas r).1 hr)) ?_
  intro e he
  obtain ⟨hold, hlive⟩ := hnew e he
  exact ⟨(hhas _).2 hold, hlive⟩

@[simp] theorem has_setConn {c : Nat} {x : Conn} {r : Res} : (h.setConn c x).Has r ↔ h.Has r := by
  cases r <;> simp [Has, setConn]

@[simp] theorem has_setDb {d : Nat} {x : SQLiteDb} {r : Res} : (h.setDb d x).Has r ↔ h.Has r := by
  cases r <;> simp [Has, setDb]

/-- The arguments that a registration under `slot` replaces. -/
theorem mem_replaced {x : Conn} {slot : Slot} {q : Res} :
    .release q ∈ (x.callbacks.filter (·.1 = slot)).map (fun old => Event.release (Res.ref old.2)) ↔
      ∃ k, q = .ref k ∧ (slot, k) ∈ x.callbacks := by
  simp only [List.mem_map, List.mem_filter, decide_eq_true_eq, Event.release.injEq, Prod.exists]
  constructor
  · rintro ⟨s, k, ⟨hm, rfl⟩, rfl⟩
    exact ⟨k, rfl, hm⟩
  · rintro ⟨k, rfl, hm⟩
    exact ⟨slot, k, ⟨hm, rfl⟩, rfl⟩

/-- Events that release no handle and no statement, and of the rest only what the owners allow. -/
theorem Owned.emit (ho : h.Owned) {es : List (Event Res)} (hh : ∀ c, .release (.handle c) ∉ es)
    (hs : ∀ p, .release (.stmt p) ∉ es)
    (hcn : ∀ (c : Nat) (x : Conn), h.conns[c]? = some x → .release (.conn c) ∈ es → x.zombie = true ∧ x.pVdbe = [])
    (hd : ∀ (d : Nat) (x : SQLiteDb), h.dbs[d]? = some x → .release (.db d) ∈ es → h.Released (.handle x.handle))
    (hr : ∀ (c : Nat) (x : Conn), h.conns[c]? = some x → ∀ r ∈ x.registered,
      (.release (.ref r) ∈ es ↔ .release (.conn c) ∈ es)) : (h.emit es).Owned where
  handle c x hx := by
    rw [released_emit, ho.handle c x hx]
    exact or_iff_left (hh c)
  conn c x hx hrel := by
    rcases released_emit.1 hrel with hrel | hrel
    · exact ho.conn c x hx hrel
    · exact hcn c x hx hrel
  stmt p c hp := by
    obtain ⟨x, hx, hiff⟩ := ho.stmt p c hp
    refine ⟨x, hx, ?_⟩
    rw [released_emit, hiff, or_iff_left (hs p)]
  pVdbe := ho.pVdbe
  db d x hx := by
    refine ⟨(ho.db d x hx).1, fun hrel => released_emit.2 ?_⟩
    rcases released_emit.1 hrel with hrel | hrel
    · exact .inl ((ho.db d x hx).2 hrel)
    · exact .inl (hd d x hx hrel)
  dbInj := ho.dbInj
  registered c x hx := by
    refine ⟨(ho.registered c x hx).1, fun r hm => ?_⟩
    obtain ⟨hown, hiff⟩ := (ho.registered c x hx).2 r hm
    refine ⟨hown, ?_⟩
    rw [released_emit, released_emit, hiff, hr c x hx r hm]

/-- Events about one connection that go with a new state of it: its handle, statements of it and references that were
made for it may be released. -/
theorem Owned.update (ho : h.Owned) {c : Nat} {x : Conn} (x' : Conn) (es : List (Event Res)) (hx : h.conns[c]? = some x)
    (hother : ∀ r, .release r ∈ es → r = .handle c ∨ (∃ p, r = .stmt p ∧ h.stmts[p]? = some c) ∨
      ∃ q o, r = .ref q ∧ h.refs[q]? = some ⟨o, .conn c⟩)
    (hz : x'.zombie = true ↔ x.zombie = true ∨ .release (.handle c) ∈ es)
    (hempty : x.pVdbe = [] → x'.pVdbe = []) (hnodup : x'.pVdbe.Nodup)
    (hp : ∀ p, p ∈ x'.pVdbe ↔ p ∈ x.pVdbe ∧ .release (.stmt p) ∉ es) (hreg : x'.registered.Nodup)
    (hr : ∀ r ∈ x'.registered, .release (.ref r) ∉ es ∧ (∃ o, h.refs[r]? = some ⟨o, .conn c⟩) ∧
      (h.Released (.ref r) ↔ h.Released (.conn c))) : ((h.emit es).setConn c x').Owned := by
  have hrel : ∀ r, ((h.emit es).setConn c x').Released r ↔ h.Released r ∨ .release r ∈ es := fun r => released_emit
  have hconn : ∀ c', ((h.emit es).setConn c x').Released (.conn c') ↔ h.Released (.conn c') := by
    intro c'
    rw [hrel]
    apply or_iff_left
    intro hm
    rcases hother _ hm with he | ⟨_, he, _⟩ | ⟨_, _, he, _⟩ <;> cases he
  have hdb : ∀ d, ((h.emit es).setConn c x').Released (.db d) ↔ h.Released (.db d) := by
    intro d
    rw [hrel]
    apply or_iff_left
    intro hm
    rcases hother _ hm with he | ⟨_, he, _⟩ | ⟨_, _, he, _⟩ <;> cases he
  have hc : c < h.conns.length := lt_of_getElem? hx
  constructor
  · -- the handles: only that of `c` may be released
    intro c' y hy
    rw [hrel]
    rcases getElem?_set_some hy with ⟨rfl, _, rfl⟩ | ⟨hne, hy⟩
    · rw [hz, ho.handle _ x hx]
    · rw [ho.handle c' y hy]
      apply or_iff_left
      intro hm
      rcases hother _ hm with he | ⟨_, he, _⟩ | ⟨_, _, he, _⟩
      · exact hne (Res.handle.inj he).symm
      · cases he
      · cases he
  · -- the connections: none is freed here
    intro c' y hy hm
    rw [hconn] at hm
    rcases getElem?_set_some hy with ⟨rfl, _, rfl⟩ | ⟨hne, hy⟩
    · obtain ⟨hzomb, hnil⟩ := ho.conn _ x hx hm
      exact ⟨hz.2 (.inl hzomb), hempty hnil⟩
    · exact ho.conn c' y hy hm
  · -- the statements of `c` may be finalized, and then leave its list
    intro p c' hpc
    obtain ⟨y, hy, hiff⟩ := ho.stmt p c' hpc
    rw [hrel]
    by_cases hcc : c = c'
    · subst hcc
      rw [hx] at hy
      cases hy
      refine ⟨x', by simp [setConn, Heap.emit, hc], ?_⟩
      rw [hp, hiff, not_or]
    · refine ⟨y, by simpa [setConn, Heap.emit, List.getElem?_set, hcc] using hy, ?_⟩
      rw [hiff, not_or]
      refine (and_iff_left fun hm => ?_).symm
      rcases hother _ hm with he | ⟨_, he, hq⟩ | ⟨_, _, he, _⟩
      · cases he
      · cases he
        rw [show h.stmts[p]? = some c' from hpc] at hq
        exact hcc (Option.some.inj hq).symm
      · cases he
  · intro c' y hy
    rcases getElem?_set_some hy with ⟨rfl, _, rfl⟩ | ⟨hne, hy⟩
    · exact ⟨hnodup, fun p hm => (ho.pVdbe _ x hx).2 p ((hp p).1 hm).1⟩
    · exact ho.pVdbe c' y hy
  · intro d y hy
    obtain ⟨hlt, himp⟩ := ho.db d y hy
    refine ⟨by simpa [setConn, Heap.emit] using hlt, fun hm => (hrel _).2 (.inl (himp ((hdb d).1 hm)))⟩
  · exact ho.dbInj
  · intro c' y hy
    rw [hconn]
    rcases getElem?_set_some hy with ⟨rfl, _, rfl⟩ | ⟨hne, hy⟩
    · refine ⟨hreg, fun r hm => ?_⟩
      obtain ⟨hno, hown, hiff⟩ := hr r hm
      rw [hrel, or_iff_left hno]
      exact ⟨hown, hiff⟩
    · refine ⟨(ho.registered c' y hy).1, fun r hm => ?_⟩
      obtain ⟨⟨o, hown⟩, hiff⟩ := (ho.registered c' y hy).2 r hm
      refine ⟨⟨o, hown⟩, ?_⟩
      rw [hrel, ← hiff]
      apply or_iff_left
      intro he
      rcases hother _ he with he | ⟨_, he, _⟩ | ⟨q, o', he, hq⟩
      · cases he
      · cases he
      · -- the reference was made for the other connection
        cases he
        rw [show h.refs[r]? = some _ from hown] at hq
        cases hq
        exact hne rfl

/-! ### Uses and releases -/

theorem Core.uses (hc : h.Core) {rs : List Res} (hnew : ∀ r ∈ rs, h.Has r ∧ ¬ h.Released r) :
    (h.emit (rs.map .use)).Core := by
  have hno : ∀ r, .release r ∉ rs.map (Event.use : Res → _) := by
    intro r hm
    obtain ⟨_, _, he⟩ := List.mem_map.1 hm
    cases he
  have hes := (Ledger.sound_append.1 ((Ledger.sound_append_uses rs).2 ⟨hc.sound, fun r hr => (hnew r hr).2⟩)).2.1
  refine ⟨hc.toLogged.events _ rfl hes (fun _ => Iff.rfl) ?_,
    hc.toOwned.emit (fun _ => hno _) (fun _ => hno _) (fun _ _ _ hm => absurd hm (hno _))
      (fun _ _ _ hm => absurd hm (hno _)) (fun _ _ _ _ _ => iff_of_false (hno _) (hno _))⟩
  intro e he
  obtain ⟨r, hr, rfl⟩ := List.mem_map.1 he
  exact hnew r hr

/-- Freeing a closed connection that has no statement left runs the destructors of what is registered with it. -/
theorem Core.closeZombie (hc : h.Core) {c : Nat} (hlive : ¬ h.Released (.conn c)) : (h.closeZombie c).Core := by
  unfold Heap.closeZombie
  cases hx : h.conns[c]? with
  | none => exact hc
  | some x =>
    dsimp only
    split
    · rename_i hz
      obtain ⟨hnodup, hreg⟩ := hc.registered c x hx
      have hmem : ∀ r, .release r ∈ x.registered.map (fun r => Event.release (Res.ref r)) ++ [.release (.conn c)] ↔
          (∃ q ∈ x.registered, r = .ref q) ∨ r = .conn c := by
        intro r
        simp [eq_comm]
      have hes : Sound (x.registered.map (fun r => Event.release (Res.ref r)) ++ [.release (.conn c)]) := by
        have hmap : x.registered.map (fun r => Event.release (Res.ref r)) ++ [.release (.conn c)] =
            ((x.registered.map Res.ref) ++ [Res.conn c]).map Event.release := by simp
        rw [hmap, Ledger.sound_map_release, List.nodup_append]
        refine ⟨List.Nodup.map (fun a b hab => Res.ref.inj hab) hnodup, List.nodup_singleton _, ?_⟩
        intro a ha b hb hab
        obtain ⟨q, _, rfl⟩ := List.mem_map.1 ha
        rw [List.mem_singleton.1 hb] at hab
        cases hab
      refine ⟨hc.toLogged.events _ rfl hes (fun _ => Iff.rfl) ?_, hc.toOwned.emit ?_ ?_ ?_ ?_ ?_⟩
      · intro e he
        rcases List.mem_append.1 he with he | he
        · obtain ⟨q, hq, rfl⟩ := List.mem_map.1 he
          obtain ⟨⟨o, ho⟩, hiff⟩ := hreg q hq
          exact ⟨lt_of_getElem? ho, fun hrel => hlive (hiff.1 hrel)⟩
        · obtain rfl := List.mem_singleton.1 he
          exact ⟨lt_of_getElem? hx, hlive⟩
      · intro c' hm
        rcases (hmem _).1 hm with ⟨q, _, he⟩ | he <;> cases he
      · intro p hm
        rcases (hmem _).1 hm with ⟨q, _, he⟩ | he <;> cases he
      · intro c' x' hx' hm
        rcases (hmem _).1 hm with ⟨q, _, he⟩ | he
        · cases he
        · cases he
          rw [hx] at hx'
          cases hx'
          exact hz
      · intro d x' _ hm
        rcases (hmem _).1 hm with ⟨q, _, he⟩ | he <;> cases he
      · -- a registered reference is released with its connection, and with no other
        intro c' x' hx' r hr
        rw [hmem, hmem]
        constructor
        · rintro (⟨q, hq, he⟩ | he)
          · -- a reference is registered with one connection only
            cases he
            obtain ⟨⟨o, ho⟩, _⟩ := hreg r hq
            obtain ⟨⟨o', ho'⟩, _⟩ := (hc.registered c' x' hx').2 r hr
            rw [ho] at ho'
            cases ho'
            exact .inr rfl
          · cases he
        · rintro (⟨q, _, he⟩ | he)
          · cases he
          · cases he
            rw [hx] at hx'
            cases hx'
            exact .inl ⟨r, hr, rfl⟩
    · exact hc

theorem Core.deleteGlobalRef (hc : h.Core) {r : Nat} (hhas : h.Has (.ref r)) (hlive : ¬ h.Released (.ref r))
    (hfree : ∀ (c : Nat) (x : Conn), h.conns[c]? = some x → r ∉ x.registered) : (h.deleteGlobalRef r).Core := by
  refine ⟨hc.toLogged.events _ rfl (by simp [Sound]) (fun _ => Iff.rfl) ?_,
    hc.toOwned.emit (by simp) (by simp) (by simp) (by simp) ?_⟩
  · intro e he
    obtain rfl := List.mem_singleton.1 he
    exact ⟨hhas, hlive⟩
  · intro c x hx q hq
    have hne : q ≠ r := fun he => hfree c x hx (he ▸ hq)
    simp [hne]

theorem Core.deleteDb (hc : h.Core) {d : Nat} {x : SQLiteDb} (hx : h.dbs[d]? = some x) (hlive : ¬ h.Released (.db d))
    (hclosed : h.Released (.handle x.handle)) : (h.emit [.release (.db d)]).Core := by
  refine ⟨hc.toLogged.events _ rfl (by simp [Sound]) (fun _ => Iff.rfl) ?_,
    hc.toOwned.emit (by simp) (by simp) (by simp) ?_ (by simp)⟩
  · intro e he
    obtain rfl := List.mem_singleton.1 he
    exact ⟨lt_of_getElem? hx, hlive⟩
  · intro d' y hy hm
    obtain rfl : d' = d := by simpa using hm
    rw [hx] at hy
    cases hy
    exact hclosed

theorem Core.markZombie (hc : h.Core) {c : Nat} {x : Conn} (hx : h.conns[c]? = some x) (hz : x.zombie = false) :
    (h.markZombie c x).Core := by
  have hlive : ¬ h.Released (.handle c) := by
    rw [hc.handle c x hx, hz]
    exact Bool.false_ne_true
  obtain ⟨hnodup, _⟩ := hc.pVdbe c x hx
  obtain ⟨hreg, hown⟩ := hc.registered c x hx
  refine ⟨hc.toLogged.events [.release (.handle c)] rfl (by simp [Sound]) (fun _ => has_setConn) ?_,
    hc.toOwned.update _ _ hx ?_ (by simp) (fun hnil => hnil) hnodup (by simp) hreg ?_⟩
  · intro e he
    obtain rfl := List.mem_singleton.1 he
    exact ⟨lt_of_getElem? hx, hlive⟩
  · intro r hm
    exact .inl (by simpa using hm)
  · intro r hr
    exact ⟨by simp, hown r hr⟩

theorem Core.dropStmt (hc : h.Core) {p c : Nat} {x : Conn} (hp : h.stmts[p]? = some c) (hx : h.conns[c]? = some x)
    (hlive : ¬ h.Released (.stmt p)) : (h.dropStmt p c x).Core := by
  obtain ⟨hnodup, _⟩ := hc.pVdbe c x hx
  obtain ⟨hreg, hown⟩ := hc.registered c x hx
  refine ⟨hc.toLogged.events [.release (.stmt p)] rfl (by simp [Sound]) (fun _ => has_setConn) ?_,
    hc.toOwned.update _ _ hx ?_ (by simp) (fun hnil => by simp [hnil]) (hnodup.erase p) ?_ hreg ?_⟩
  · intro e he
    obtain rfl := List.mem_singleton.1 he
    exact ⟨lt_of_getElem? hp, hlive⟩
  · intro r hm
    exact .inr (.inl ⟨p, by simpa using hm, hp⟩)
  · intro q
    rw [hnodup.mem_erase_iff]
    simp [and_comm]
  · intro r hr
    exact ⟨by simp, hown r hr⟩

/-- Registering a reference that was made for the connection; the ones it replaces are deleted. -/
theorem Core.register (hc : h.Core) {c r o : Nat} {x : Conn} {slot : Slot} (hx : h.conns[c]? = some x)
    (hopen : x.zombie = false) (ho : h.refs[r]? = some ⟨o, .conn c⟩) (hlive : ¬ h.Released (.ref r))
    (hnew : r ∉ x.registered) : (h.register c x slot r).Core := by
  obtain ⟨hnodup, _⟩ := hc.pVdbe c x hx
  obtain ⟨hreg, hown⟩ := hc.registered c x hx
  have hconn : ¬ h.Released (.conn c) := by
    intro hm
    have := (hc.conn c x hx hm).1
    rw [hopen] at this
    cases this
  have hmem : ∀ k, (slot, k) ∈ x.callbacks → k ∈ x.registered := fun k hm => List.mem_map.2 ⟨_, hm, rfl⟩
  have hinj : ∀ s s' k, (s, k) ∈ x.callbacks → (s', k) ∈ x.callbacks → s = s' := by
    intro s s' k hs hs'
    have := List.inj_on_of_nodup_map hreg hs hs' rfl
    exact congrArg Prod.fst this
  refine ⟨hc.toLogged.events _ rfl ?_ (fun _ => has_setConn) ?_,
    hc.toOwned.update _ _ hx ?_ ?_ (fun hnil => hnil) hnodup ?_ ?_ ?_⟩
  · have hmap : (x.callbacks.filter (·.1 = slot)).map (fun old => Event.release (Res.ref old.2)) =
        (((x.callbacks.filter (·.1 = slot)).map Prod.snd).map Res.ref).map Event.release := by simp
    rw [hmap, Ledger.sound_map_release]
    exact List.Nodup.map (fun a b hab => Res.ref.inj hab) (hreg.sublist (List.filter_sublist.map Prod.snd))
  · intro e he
    obtain ⟨old, hm, rfl⟩ := List.mem_map.1 he
    obtain ⟨⟨o', ho'⟩, hiff⟩ := hown old.2 (List.mem_map_of_mem (List.mem_filter.1 hm).1)
    exact ⟨lt_of_getElem? ho', fun hrel => hconn (hiff.1 hrel)⟩
  · intro q hq
    obtain ⟨k, rfl, hm⟩ := mem_replaced.1 hq
    obtain ⟨⟨o', ho'⟩, _⟩ := hown k (hmem k hm)
    exact .inr (.inr ⟨k, o', rfl, ho'⟩)
  · rw [mem_replaced]
    simp
  · intro p
    rw [mem_replaced]
    simp
  · show ((x.callbacks.filter (·.1 ≠ slot) ++ [(slot, r)]).map Prod.snd).Nodup
    rw [List.map_append, List.nodup_append]
    refine ⟨hreg.sublist (List.filter_sublist.map Prod.snd), List.nodup_singleton _, ?_⟩
    intro a ha b hb hab
    obtain ⟨old, hm, rfl⟩ := List.mem_map.1 ha
    have hr : old.2 = r := hab.trans (List.mem_singleton.1 hb)
    apply hnew
    rw [← hr]
    exact List.mem_map_of_mem (List.mem_filter.1 hm).1
  · -- what stays registered is not among what is deleted
    intro q hq
    obtain ⟨new, hm, rfl⟩ := List.mem_map.1 hq
    rw [mem_replaced]
    rcases List.mem_append.1 hm with hm | hm
    · obtain ⟨hcb, hne⟩ := List.mem_filter.1 hm
      refine ⟨?_, hown new.2 (List.mem_map_of_mem hcb)⟩
      rintro ⟨k, he, hk⟩
      obtain rfl := Res.ref.inj he
      have hne' : new.1 ≠ slot := by simpa using hne
      exact hne' (hinj _ _ _ hcb hk)
    · obtain rfl := List.mem_singleton.1 hm
      refine ⟨?_, ⟨o, ho⟩, iff_of_false hlive hconn⟩
      rintro ⟨k, he, hk⟩
      obtain rfl := Res.ref.inj he
      exact hnew (hmem _ hk)

/-- What the trace hook of a connection is, is nobody's property. -/
theorem Core.setHook (hc : h.Core) {c : Nat} {x : Conn} (hx : h.conns[c]? = some x) (arg obj : Option Nat) :
    (h.setConn c { x with pTraceArg := arg, lastTrace := obj }).Core := by
  have hself : h.emit [] = h := by simp [Heap.emit]
  have hstep := hc.toOwned.update { x with pTraceArg := arg, lastTrace := obj } [] hx (by simp) (by simp)
    (fun hnil => hnil) (hc.pVdbe c x hx).1 (by simp) (hc.registered c x hx).1
    (fun r hr => ⟨by simp, (hc.registered c x hx).2 r hr⟩)
  rw [hself] at hstep
  exact ⟨hc.toLogged.events [] (List.append_nil _).symm Ledger.sound_nil (fun _ => has_setConn) (by simp), hstep⟩

theorem Core.setTrace (hc : h.Core) {d : Nat} {x : SQLiteDb} (hx : h.dbs[d]? = some x) (trace : Option Nat) :
    (h.setDb d { x with trace := trace }).Core := by
  have hget : ∀ (d' : Nat) (y : SQLiteDb), (h.setDb d { x with trace := trace }).dbs[d']? = some y →
      ∃ z : SQLiteDb, h.dbs[d']? = some z ∧ z.handle = y.handle := by
    intro d' y hy
    rcases getElem?_set_some hy with ⟨rfl, _, rfl⟩ | ⟨_, hy⟩
    · exact ⟨x, hx, rfl⟩
    · exact ⟨y, hy, rfl⟩
  refine ⟨hc.toLogged.events [] (List.append_nil _).symm Ledger.sound_nil (fun _ => has_setDb) (by simp),
    hc.handle, hc.conn, hc.stmt, hc.pVdbe, ?_, ?_, hc.registered⟩
  · intro d' y hy
    obtain ⟨z, hz, he⟩ := hget d' y hy
    rw [← he]
    exact hc.db d' z hz
  · intro d' d'' y y' hy hy' he
    obtain ⟨z, hz, hez⟩ := hget d' y hy
    obtain ⟨z', hz', hez'⟩ := hget d'' y' hy'
    exact hc.dbInj d' d'' z z' hz hz' (hez.trans (he.trans hez'.symm))

/-! ### Allocations -/

private theorem sound_acquire (r : Res) : Sound [Event.acquire r] := List.pairwise_singleton _ _

theorem Core.newGlobalRef (hc : h.Core) (obj : Nat) (owner : Owner) : (h.newGlobalRef obj owner).Core := by
  refine ⟨hc.toLogged.step [.acquire (.ref h.refs.length)] rfl (sound_acquire _) ?_ ?_ ?_, ?_⟩
  · intro r hr
    cases r <;> simp only [Has, Heap.newGlobalRef, List.length_append, List.length_singleton] at hr ⊢ <;> omega
  · intro r hr
    cases r with
    | ref r =>
      by_cases he : r = h.refs.length
      · exact .inr (by simp [he])
      · simp only [Has, Heap.newGlobalRef, List.length_append, List.length_singleton] at hr ⊢
        exact .inl (by omega)
    | _ => exact .inl hr
  · intro e he
    obtain rfl := List.mem_singleton.1 he
    exact ⟨by simp [Has, Heap.newGlobalRef], hc.fresh (Nat.lt_irrefl _)⟩
  · constructor <;> try simp only [released_newGlobalRef]
    · exact hc.handle
    · exact hc.conn
    · exact hc.stmt
    · exact hc.pVdbe
    · exact hc.db
    · exact hc.dbInj
    · intro c x hx
      refine ⟨(hc.registered c x hx).1, fun r hr => ?_⟩
      obtain ⟨⟨o, ho⟩, hiff⟩ := (hc.registered c x hx).2 r hr
      exact ⟨⟨o, getElem?_of_prefix (List.prefix_append _ _) ho⟩, hiff⟩

theorem Core.newConn (hc : h.Core) : h.newConn.Core := by
  have hcases : ∀ (c : Nat) (x : Conn), h.newConn.conns[c]? = some x →
      h.conns[c]? = some x ∨ c = h.conns.length ∧ x = {} := by
    intro c x hx
    rcases getElem?_snoc_some hx with hx | ⟨hcl, hx⟩
    · exact .inl hx
    · exact .inr ⟨hcl, hx.symm⟩
  refine ⟨hc.toLogged.step [.acquire (.handle h.conns.length), .acquire (.conn h.conns.length)] rfl
    (by simp [Sound]) ?_ ?_ ?_, ?_⟩
  · intro r hr
    cases r <;> simp only [Has, Heap.newConn, List.length_append, List.length_singleton] at hr ⊢ <;> omega
  · intro r hr
    have hlast : ∀ c, c < (h.conns ++ [({} : Conn)]).length → c < h.conns.length ∨ c = h.conns.length := by
      intro c hlt
      simp only [List.length_append, List.length_singleton] at hlt
      omega
    cases r with
    | handle c =>
      rcases hlast c hr with hlt | rfl
      · exact .inl hlt
      · exact .inr (by simp)
    | conn c =>
      rcases hlast c hr with hlt | rfl
      · exact .inl hlt
      · exact .inr (by simp)
    | _ => exact .inl hr
  · intro e he
    rcases List.mem_cons.1 he with rfl | he
    · exact ⟨by simp [Has, Heap.newConn], hc.fresh (Nat.lt_irrefl _)⟩
    · obtain rfl := List.mem_singleton.1 he
      exact ⟨by simp [Has, Heap.newConn], hc.fresh (Nat.lt_irrefl _)⟩
  · constructor <;> try simp only [released_newConn]
    · intro c x hx
      rcases hcases c x hx with hx | ⟨rfl, rfl⟩
      · exact hc.handle c x hx
      · exact iff_of_false (hc.fresh (Nat.lt_irrefl _)) Bool.false_ne_true
    · intro c x hx hm
      rcases hcases c x hx with hx | ⟨rfl, rfl⟩
      · exact hc.conn c x hx hm
      · exact absurd hm (hc.fresh (Nat.lt_irrefl _))
    · intro p c hp
      obtain ⟨x, hx, hiff⟩ := hc.stmt p c hp
      exact ⟨x, getElem?_of_prefix (List.prefix_append _ _) hx, hiff⟩
    · intro c x hx
      rcases hcases c x hx with hx | ⟨rfl, rfl⟩
      · exact hc.pVdbe c x hx
      · exact ⟨List.nodup_nil, fun p hp => nomatch hp⟩
    · intro d x hx
      obtain ⟨hlt, himp⟩ := hc.db d x hx
      refine ⟨?_, himp⟩
      simp only [Heap.newConn, List.length_append, List.length_singleton]
      omega
    · exact hc.dbInj
    · intro c x hx
      rcases hcases c x hx with hx | ⟨rfl, rfl⟩
      · exact hc.registered c x hx
      · exact ⟨List.nodup_nil, fun r hr => nomatch hr⟩

theorem Core.newDb (hc : h.Core) {c : Nat} (hlt : c < h.conns.length)
    (hfree : ∀ (d : Nat) (x : SQLiteDb), h.dbs[d]? = some x → x.handle ≠ c) : (h.newDb c).Core := by
  have hcases : ∀ (d : Nat) (x : SQLiteDb), (h.newDb c).dbs[d]? = some x →
      h.dbs[d]? = some x ∨ d = h.dbs.length ∧ x.handle = c := by
    intro d x hx
    rcases getElem?_snoc_some hx with hx | ⟨hd, hx⟩
    · exact .inl hx
    · exact .inr ⟨hd, by rw [← hx]⟩
  refine ⟨hc.toLogged.step [.acquire (.db h.dbs.length)] rfl (sound_acquire _) ?_ ?_ ?_, ?_⟩
  · intro r hr
    cases r <;> simp only [Has, Heap.newDb, List.length_append, List.length_singleton] at hr ⊢ <;> omega
  · intro r hr
    cases r with
    | db d =>
      by_cases he : d = h.dbs.length
      · exact .inr (by simp [he])
      · simp only [Has, Heap.newDb, List.length_append, List.length_singleton] at hr ⊢
        exact .inl (by omega)
    | _ => exact .inl hr
  · intro e he
    obtain rfl := List.mem_singleton.1 he
    exact ⟨by simp [Has, Heap.newDb], hc.fresh (Nat.lt_irrefl _)⟩
  · constructor <;> try simp only [released_newDb]
    · exact hc.handle
    · exact hc.conn
    · exact hc.stmt
    · exact hc.pVdbe
    · intro d x hx
      rcases hcases d x hx with hx | ⟨rfl, he⟩
      · exact hc.db d x hx
      · rw [he]
        exact ⟨hlt, fun hm => absurd hm (hc.fresh (Nat.lt_irrefl _))⟩
    · intro d d' x x' hx hx' he
      rcases hcases d x hx with hx | ⟨rfl, hh⟩ <;> rcases hcases d' x' hx' with hx' | ⟨rfl, hh'⟩
      · exact hc.dbInj d d' x x' hx hx' he
      · exact absurd (he.trans hh') (hfree d x hx)
      · exact absurd (he.symm.trans hh) (hfree d' x' hx')
      · rfl
    · exact hc.registered

/-- A new statement goes into the list of its connection. -/
theorem Core.newStmt (hc : h.Core) {c : Nat} {x : Conn} (hx : h.conns[c]? = some x)
    (hlive : ¬ h.Released (.conn c)) : (h.newStmt c x).Core := by
  have hlt : c < h.conns.length := lt_of_getElem? hx
  have hnew : h.stmts.length ∉ x.pVdbe := fun hm =>
    absurd (lt_of_getElem? ((hc.pVdbe c x hx).2 _ hm)) (Nat.lt_irrefl _)
  refine ⟨hc.toLogged.step [.acquire (.stmt h.stmts.length)] rfl (sound_acquire _) ?_ ?_ ?_, ?_⟩
  · intro r hr
    cases r <;> simp only [Has, Heap.newStmt, List.length_append, List.length_singleton, List.length_set] at hr ⊢ <;>
      omega
  · intro r hr
    cases r with
    | stmt p =>
      by_cases he : p = h.stmts.length
      · exact .inr (by simp [he])
      · simp only [Has, Heap.newStmt, List.length_append, List.length_singleton] at hr ⊢
        exact .inl (by omega)
    | _ => exact .inl (by simpa [Has, Heap.newStmt] using hr)
  · intro e he
    obtain rfl := List.mem_singleton.1 he
    exact ⟨by simp [Has, Heap.newStmt], hc.fresh (Nat.lt_irrefl _)⟩
  · constructor <;> try simp only [released_newStmt]
    · intro c' y hy
      rcases getElem?_set_some hy with ⟨rfl, _, rfl⟩ | ⟨_, hy⟩
      · exact hc.handle _ x hx
      · exact hc.handle c' y hy
    · intro c' y hy hm
      rcases getElem?_set_some hy with ⟨rfl, _, rfl⟩ | ⟨_, hy⟩
      · exact absurd hm hlive
      · exact hc.conn c' y hy hm
    · -- the new statement is in the list of `c`, which keeps its old ones
      intro p c' hp
      have hget : (h.newStmt c x).conns[c]? = some { x with pVdbe := h.stmts.length :: x.pVdbe } := by
        simp [Heap.newStmt, hlt]
      rcases getElem?_snoc_some hp with hp | ⟨rfl, rfl⟩
      · obtain ⟨y, hy, hiff⟩ := hc.stmt p c' hp
        by_cases hcc : c = c'
        · subst hcc
          rw [hx] at hy
          cases hy
          have hne : p ≠ h.stmts.length := fun he => absurd (lt_of_getElem? hp) (by omega)
          refine ⟨_, hget, ?_⟩
          rw [List.mem_cons, or_iff_right hne, hiff]
        · exact ⟨y, by simpa [Heap.newStmt, List.getElem?_set, hcc] using hy, hiff⟩
      · exact ⟨_, hget, iff_of_true List.mem_cons_self (hc.fresh (Nat.lt_irrefl _))⟩
    · intro c' y hy
      rcases getElem?_set_some hy with ⟨rfl, _, rfl⟩ | ⟨_, hy⟩
      · refine ⟨List.nodup_cons.2 ⟨hnew, (hc.pVdbe _ x hx).1⟩, fun p hp => ?_⟩
        rcases List.mem_cons.1 hp with rfl | hp
        · exact List.getElem?_concat_length
        · exact getElem?_of_prefix (List.prefix_append _ _) ((hc.pVdbe _ x hx).2 p hp)
      · exact ⟨(hc.pVdbe c' y hy).1, fun p hp => getElem?_of_prefix (List.prefix_append _ _)
          ((hc.pVdbe c' y hy).2 p hp)⟩
    · intro d y hy
      simpa [Heap.newStmt] using hc.db d y hy
    · exact hc.dbInj
    · intro c' y hy
      rcases getElem?_set_some hy with ⟨rfl, _, rfl⟩ | ⟨_, hy⟩
      · exact hc.registered _ x hx
      · exact hc.registered c' y hy

end Heap

end Sqlite4a
