import Sqlite4a.World

/-!
# The trace argument

`trace(f)` makes a global reference, kept in the struct and handed to `sqlite3_trace_v2` as the argument of
`java_trace`.  `trace(null)` and `close()` delete the reference and say nothing to SQLite, which keeps its copy for as
long as the connection lives: for good after a `trace(null)`, and until the last statement is finalized after a
`close()`.  `traced_iff_kept` tells the runs in which this never shows.
-/

namespace Sqlite4a

open Ledger (Event Sound)
open Heap (Grows)

variable {Db : Type*}

/-- What a connection that has not been freed calls `java_trace` with is a live reference to the object of the latest
`trace()` call. -/
def Heap.TraceLive (h : Heap) : Prop :=
  ∀ (c : Nat) (y : Conn) (r : Nat), h.conns[c]? = some y → ¬ h.Released (.conn c) → y.pTraceArg = some r →
    ¬ h.Released (.ref r) ∧ ∃ g : GlobalRef, h.refs[r]? = some g ∧ y.lastTrace = some g.obj

/-- Of a run that has been handed something released nothing is known. -/
structure Traced (h : Heap) : Prop where
  arg : h.TraceLive
  sound : Sound h.log

/-- The call is handed nothing released, and no failed call has its message read from a freed connection.  When a
statement starts is up to SQLite. -/
def Defined (w : World Db) (op : Op Db) : Prop :=
  (∀ c, op ≠ .traceEvent c) → Clean w op ∧ ¬ FailsOnLast w op

/-- `trace(null)` comes when no trace is set, and `close()` when no trace is set or no statement is left. -/
def TraceKept (w : World Db) : Op Db → Prop
  | .db d (.trace none) => ∀ x, w.heap.dbs[d]? = some x → x.trace = none
  | .db d .close => ∀ x y, w.heap.dbs[d]? = some x → w.heap.conns[x.handle]? = some y → x.trace = none ∨ y.pVdbe = []
  | _ => True

/-- The struct and the connection hold the same reference. -/
structure Hooked (h : Heap) : Prop where
  arg : ∀ (c : Nat) (y : Conn) (r : Nat), h.conns[c]? = some y → ¬ h.Released (.conn c) → y.pTraceArg = some r →
    y.zombie = false ∧ ∃ (d : Nat) (x : SQLiteDb) (o : Nat), h.dbs[d]? = some x ∧ x.handle = c ∧ x.trace = some r ∧
      h.refs[r]? = some ⟨o, .db d⟩ ∧ y.lastTrace = some o
  kept : ∀ (d : Nat) (x : SQLiteDb) (r : Nat), h.dbs[d]? = some x → ¬ h.Released (.db d) → x.trace = some r →
    ∃ y : Conn, h.conns[x.handle]? = some y ∧ y.pTraceArg = some r

/-- The struct of a hook has not been deleted, and so its reference has not been either. -/
theorem Hooked.traceLive {h : Heap} (hh : Hooked h) (hw : h.Wf) : h.TraceLive := by
  intro c y r hy hlive hr
  obtain ⟨hz, d, x, o, hx, hxc, ht, ho, hlast⟩ := hh.arg c y r hy hlive hr
  refine ⟨fun hm => ?_, ⟨o, .db d⟩, ho, hlast⟩
  have hdb := (hw.traceRefs d x r hx ht).2 hm
  have hhandle := (hw.core.db d x hx).2 hdb
  rw [hxc, hw.core.handle c y hy, hz] at hhandle
  cases hhandle

/-! ### Calls that leave the hooks alone -/

/-- From `h` to `h'` no hook is set or cleared; new structs and connections have none. -/
structure KeepsHooks (h h' : Heap) : Prop where
  dbs : ∀ (d : Nat) (x : SQLiteDb), h.dbs[d]? = some x → h'.dbs[d]? = some x
  newDbs : ∀ (d : Nat) (x : SQLiteDb), h'.dbs[d]? = some x → h.dbs[d]? = some x ∨ x.trace = none
  conns : ∀ (c : Nat) (y : Conn), h.conns[c]? = some y → ∃ y', h'.conns[c]? = some y' ∧ y'.pTraceArg = y.pTraceArg
  newConns : ∀ (c : Nat) (y' : Conn), h'.conns[c]? = some y' → y'.pTraceArg = none ∨
    ∃ y, h.conns[c]? = some y ∧ y'.zombie = y.zombie ∧ y'.pTraceArg = y.pTraceArg ∧ y'.lastTrace = y.lastTrace

theorem Hooked.keep {h h' : Heap} (hh : Hooked h) (hg : Grows h h') (hk : KeepsHooks h h') : Hooked h' where
  arg c y' r hy' hlive hr := by
    rcases hk.newConns c y' hy' with hnone | ⟨y, hy, hz, harg, hlast⟩
    · rw [hnone] at hr
      cases hr
    · obtain ⟨hzy, d, x, o, hx, hxc, ht, ho, hly⟩ := hh.arg c y r hy (fun hm => hlive (hg.released hm)) (harg ▸ hr)
      exact ⟨hz.trans hzy, d, x, o, hk.dbs d x hx, hxc, ht, getElem?_of_prefix hg.refs ho, hlast.trans hly⟩
  kept d x r hx hlive hr := by
    rcases hk.newDbs d x hx with hx | hnone
    · obtain ⟨y, hy, harg⟩ := hh.kept d x r hx (fun hm => hlive (hg.released hm)) hr
      obtain ⟨y', hy', harg'⟩ := hk.conns _ y hy
      exact ⟨y', hy', harg'.trans harg⟩
    · rw [hnone] at hr
      cases hr

namespace KeepsHooks

theorem refl (h : Heap) : KeepsHooks h h :=
  ⟨fun _ _ hx => hx, fun _ _ hx => .inl hx, fun _ y hy => ⟨y, hy, rfl⟩, fun _ y hy => .inr ⟨y, hy, rfl, rfl, rfl⟩⟩

theorem trans {h₁ h₂ h₃ : Heap} (h₁₂ : KeepsHooks h₁ h₂) (h₂₃ : KeepsHooks h₂ h₃) : KeepsHooks h₁ h₃ where
  dbs d x hx := h₂₃.dbs d x (h₁₂.dbs d x hx)
  newDbs d x hx := by
    rcases h₂₃.newDbs d x hx with hx | hnone
    · exact h₁₂.newDbs d x hx
    · exact .inr hnone
  conns c y hy := by
    obtain ⟨y₂, hy₂, harg₂⟩ := h₁₂.conns c y hy
    obtain ⟨y₃, hy₃, harg₃⟩ := h₂₃.conns c y₂ hy₂
    exact ⟨y₃, hy₃, harg₃.trans harg₂⟩
  newConns c y₃ hy₃ := by
    rcases h₂₃.newConns c y₃ hy₃ with hnone | ⟨y₂, hy₂, hz₂, harg₂, hlast₂⟩
    · exact .inl hnone
    · rcases h₁₂.newConns c y₂ hy₂ with hnone | ⟨y, hy, hz, harg, hlast⟩
      · exact .inl (harg₂.trans hnone)
      · exact .inr ⟨y, hy, hz₂.trans hz, harg₂.trans harg, hlast₂.trans hlast⟩

/-- Neither the structs nor the connections have changed. -/
theorem of_eq {h h' : Heap} (hdbs : h'.dbs = h.dbs) (hconns : h'.conns = h.conns) : KeepsHooks h h' where
  dbs d x hx := by rw [hdbs, hx]
  newDbs d x hx := .inl (by rw [← hdbs, hx])
  conns c y hy := ⟨y, by rw [hconns, hy], rfl⟩
  newConns c y hy := .inr ⟨y, by rw [← hconns, hy], rfl, rfl, rfl⟩

/-- One connection has changed, but for its hook. -/
theorem of_set {h h' : Heap} {c : Nat} {x x' : Conn} (hx : h.conns[c]? = some x) (hdbs : h'.dbs = h.dbs)
    (hconns : h'.conns = h.conns.set c x') (harg : x'.pTraceArg = x.pTraceArg)
    (hsame : x'.pTraceArg = none ∨ x'.zombie = x.zombie ∧ x'.lastTrace = x.lastTrace) : KeepsHooks h h' := by
  have hself : h'.conns[c]? = some x' := by
    rw [hconns, List.getElem?_set_self (lt_of_getElem? hx)]
  refine ⟨fun d y hy => by rw [hdbs, hy], fun d y hy => .inl (by rw [← hdbs, hy]), fun c' y hy => ?_, fun c' y hy => ?_⟩
  · by_cases hcc : c = c'
    · subst hcc
      rw [hx] at hy
      cases hy
      exact ⟨x', hself, harg⟩
    · exact ⟨y, by rw [hconns, List.getElem?_set_ne hcc, hy], rfl⟩
  · by_cases hcc : c = c'
    · subst hcc
      rw [hself] at hy
      cases hy
      exact hsame.imp_right fun ⟨hz, hlast⟩ => ⟨x, hx, hz, harg, hlast⟩
    · rw [hconns, List.getElem?_set_ne hcc] at hy
      exact .inr ⟨y, hy, rfl, rfl, rfl⟩

theorem newConn (h : Heap) : KeepsHooks h h.newConn where
  dbs _ _ hx := hx
  newDbs _ _ hx := .inl hx
  conns _ y hy := ⟨y, getElem?_of_prefix (List.prefix_append _ _) hy, rfl⟩
  newConns c y hy := by
    rcases getElem?_snoc_some hy with hy | ⟨-, rfl⟩
    · exact .inr ⟨y, hy, rfl, rfl, rfl⟩
    · exact .inl rfl

theorem newDb (c : Nat) (h : Heap) : KeepsHooks h (h.newDb c) where
  dbs _ _ hx := getElem?_of_prefix (List.prefix_append _ _) hx
  newDbs d x hx := by
    rcases getElem?_snoc_some hx with hx | ⟨-, rfl⟩
    · exact .inl hx
    · exact .inr rfl
  conns _ y hy := ⟨y, hy, rfl⟩
  newConns _ y hy := .inr ⟨y, hy, rfl, rfl, rfl⟩

theorem newStmt {h : Heap} {c : Nat} {x : Conn} (hx : h.conns[c]? = some x) : KeepsHooks h (h.newStmt c x) :=
  of_set hx rfl rfl rfl (.inr ⟨rfl, rfl⟩)

theorem registerAt (c : Nat) (slot : Slot) (r : Nat) (h : Heap) : KeepsHooks h (h.registerAt c slot r) := by
  unfold Heap.registerAt
  split
  · rename_i x hx
    exact of_set hx rfl rfl rfl (.inr ⟨rfl, rfl⟩)
  · exact refl h

theorem sqlite3Finalize (p : Nat) (h : Heap) : KeepsHooks h (h.sqlite3Finalize p) := by
  unfold Heap.sqlite3Finalize
  cases h.stmts[p]? with
  | none => exact refl h
  | some c =>
    cases hx : h.conns[c]? with
    | none =>
      simp only [hx]
      exact refl h
    | some x =>
      simp only [hx]
      obtain ⟨hconns, hdbs, -, -⟩ := Heap.closeZombie_frame c (h.dropStmt p c x)
      exact of_set hx hdbs hconns rfl (.inr ⟨rfl, rfl⟩)

theorem nativeOpen (flags : Nat) (o : OpenOutcome) (h : Heap) : KeepsHooks h (nativeOpen flags o h).2 := by
  have hclose : KeepsHooks h (h.newConn.sqlite3CloseV2 h.conns.length) := by
    have hget : h.newConn.conns[h.conns.length]? = some {} := List.getElem?_concat_length
    apply (newConn h).trans
    unfold Heap.sqlite3CloseV2
    rw [hget]
    obtain ⟨hconns, hdbs, -, -⟩ := Heap.closeZombie_frame h.conns.length (h.newConn.markZombie h.conns.length {})
    exact of_set hget hdbs hconns rfl (.inl rfl)
  rcases Heap.nativeOpen_cases flags o h with hval | ⟨-, hval⟩ | hval | hval <;> rw [hval]
  · exact refl h
  · exact newConn h
  · exact hclose
  · exact (newConn h).trans (newDb _ _)

theorem nativePrepare (c : Nat) (sql : String) (o : PrepareOutcome Db) (h : Heap) :
    KeepsHooks h (nativePrepare c sql o h).2 := by
  rcases Heap.nativePrepare_cases c sql o h with he | ⟨x, hx, he⟩
  · rw [he]
    exact refl h
  · rw [he]
    exact newStmt hx

theorem nativeExecForDouble (casts : Casts) (c : Nat) (sql : String) (o : PrepareOutcome Db) (t : Tick Db)
    (h : Heap) : KeepsHooks h (nativeExecForDouble casts c sql o t h).2 := by
  rcases Heap.nativeExecForDouble_cases casts c sql o t h with he | ⟨x, hx, he⟩
  · rw [he]
    exact refl h
  · rw [he]
    have huse : KeepsHooks (h.newStmt c x) ((h.newStmt c x).emit ([.stmt h.stmts.length].map .use)) := of_eq rfl rfl
    exact (newStmt hx).trans (huse.trans (sqlite3Finalize _ _))

theorem nativeCreateCollation (c : Nat) (name : String) (comparator : Nat) (ret : Option Failure) (h : Heap) :
    KeepsHooks h (nativeCreateCollation c name comparator ret h).2 := by
  have hnew : KeepsHooks h (h.newGlobalRef comparator (.conn c)) := of_eq rfl rfl
  cases ret with
  | none => exact hnew.trans (registerAt _ _ _ _)
  | some f => exact hnew

theorem nativeCreateFunction (c : Nat) (name : String) (numArgs : Int) (func : Nat) (ret : Option Failure)
    (h : Heap) : KeepsHooks h (nativeCreateFunction c name numArgs func ret h).2 := by
  have hnew : KeepsHooks h (h.newGlobalRef func (.conn c)) := of_eq rfl rfl
  cases ret with
  | none => exact hnew.trans (registerAt _ _ _ _)
  | some f => exact of_eq rfl rfl

theorem dbCall {d : Nat} {x : SQLiteDb} {w : World Db} {call : DbCall Db} (hclose : call ≠ .close)
    (htrace : ∀ func, call ≠ .trace func) : KeepsHooks w.heap (w.dbCall d x call).heap := by
  cases call with
  | close => exact absurd rfl hclose
  | trace func => exact absurd rfl (htrace func)
  | exec sql ret => exact refl _
  | execForNumber sql o t => exact nativeExecForDouble _ _ sql o t w.heap
  | prepare sql o =>
    rw [World.dbCall_prepare_heap]
    exact nativePrepare x.handle sql o w.heap
  | createCollation name comparator ret => exact nativeCreateCollation _ name comparator ret w.heap
  | createFunction name numArgs func ret => exact nativeCreateFunction _ name numArgs func ret w.heap

/-- Only `close()` and `trace()` touch a hook. -/
theorem perform {w : World Db} {op : Op Db} (hclose : ∀ d, op ≠ .db d .close)
    (htrace : ∀ d func, op ≠ .db d (.trace func)) : KeepsHooks w.heap (w.perform op).heap := by
  have hstep := World.heapStep_perform w op
  generalize (w.perform op).heap = h at hstep ⊢
  cases hstep with
  | same => exact refl _
  | «open» flags o => exact nativeOpen flags o w.heap
  | db d x dc hop => exact dbCall (fun he => hclose d (he ▸ hop)) fun func he => htrace d func (he ▸ hop)
  | finalize p => exact sqlite3Finalize p w.heap
  | failed k p => exact (sqlite3Finalize p w.heap).trans (of_eq rfl rfl)

end KeepsHooks

/-! ### `trace()` and `close()` -/

theorem nativeTrace_none {d : Nat} {x : SQLiteDb} {h : Heap} {y : Conn} (hy : h.conns[x.handle]? = some y) :
    (nativeTrace d x none h).dbs = h.dbs.set d { x with trace := none } ∧
      (nativeTrace d x none h).conns = h.conns.set x.handle { y with lastTrace := none } ∧
      ∀ r, (nativeTrace d x none h).Released r ↔ h.Released r ∨ ∃ q, x.trace = some q ∧ r = .ref q := by
  obtain ⟨hconns, hdbs, -, -⟩ := Heap.deleteTrace_frame x h
  have hget : ((h.deleteTrace x).setDb d { x with trace := none }).conns[x.handle]? = some y := by
    show (h.deleteTrace x).conns[x.handle]? = some y
    rw [hconns, hy]
  obtain ⟨-, hdbs', -, -⟩ :=
    Heap.hook_frame x.handle Conn.pTraceArg none ((h.deleteTrace x).setDb d { x with trace := none })
  refine ⟨hdbs'.trans ?_, (Heap.hook_conns hget _ _).trans ?_, fun r => ?_⟩
  · show (h.deleteTrace x).dbs.set d _ = _
    rw [hdbs]
  · show (h.deleteTrace x).conns.set _ _ = _
    rw [hconns]
  · exact Heap.released_hook.trans Heap.released_deleteTrace

theorem nativeTrace_some (func : Nat) {d : Nat} {x : SQLiteDb} {h : Heap} {y : Conn}
    (hy : h.conns[x.handle]? = some y) :
    (nativeTrace d x (some func) h).dbs = h.dbs.set d { x with trace := some h.refs.length } ∧
      (nativeTrace d x (some func) h).conns =
        h.conns.set x.handle { y with pTraceArg := some h.refs.length, lastTrace := some func } ∧
      (nativeTrace d x (some func) h).refs = h.refs ++ [⟨func, .db d⟩] := by
  obtain ⟨hconns, hdbs, -, hrefs⟩ := Heap.deleteTrace_frame x h
  unfold nativeTrace
  dsimp only
  have hrefs₁ : ((h.deleteTrace x).setDb d { x with trace := none }).refs = h.refs := hrefs
  have hconns₁ : ((h.deleteTrace x).setDb d { x with trace := none }).conns = h.conns := hconns
  have hdbs₁ : ((h.deleteTrace x).setDb d { x with trace := none }).dbs = h.dbs.set d { x with trace := none } := by
    show (h.deleteTrace x).dbs.set d _ = _
    rw [hdbs]
  generalize (h.deleteTrace x).setDb d { x with trace := none } = h₁ at *
  rw [hrefs₁]
  have hget : ((h₁.newGlobalRef func (.db d)).setDb d { x with trace := some h.refs.length }).conns[x.handle]? =
      some y := by
    show h₁.conns[x.handle]? = some y
    rw [hconns₁, hy]
  obtain ⟨-, hdbs₂, -, hrefs₂⟩ := Heap.hook_frame x.handle (fun _ => some h.refs.length) (some func)
    ((h₁.newGlobalRef func (.db d)).setDb d { x with trace := some h.refs.length })
  refine ⟨hdbs₂.trans ?_, (Heap.hook_conns hget _ _).trans ?_, hrefs₂.trans ?_⟩
  · show h₁.dbs.set d _ = _
    rw [hdbs₁, List.set_set]
  · show h₁.conns.set _ _ = _
    rw [hconns₁]
  · show h₁.refs ++ _ = _
    rw [hrefs₁]

/-- The call is on the struct `d` and on its connection. -/
theorem Hooked.change {h h' : Heap} (hw : h.Wf) (hh : Hooked h) (hg : Grows h h') {d : Nat} {x x' : SQLiteDb}
    {y y' : Conn} (hx : h.dbs[d]? = some x) (hy : h.conns[x.handle]? = some y) (hdbs : h'.dbs = h.dbs.set d x')
    (hhandle : x'.handle = x.handle) (hconns : h'.conns = h.conns.set x.handle y')
    (harg : ∀ r, ¬ h'.Released (.conn x.handle) → y'.pTraceArg = some r →
      y'.zombie = false ∧ x'.trace = some r ∧ ∃ o, h'.refs[r]? = some ⟨o, .db d⟩ ∧ y'.lastTrace = some o)
    (hkept : ∀ r, ¬ h'.Released (.db d) → x'.trace = some r → y'.pTraceArg = some r) : Hooked h' := by
  have hself : h'.dbs[d]? = some x' := by
    rw [hdbs, List.getElem?_set_self (lt_of_getElem? hx)]
  have hconn : h'.conns[x.handle]? = some y' := by
    rw [hconns, List.getElem?_set_self (lt_of_getElem? hy)]
  constructor
  · -- the hook of another connection is that of another struct
    intro c z r hz hlive hr
    by_cases hc : x.handle = c
    · subst hc
      rw [hconn] at hz
      cases hz
      obtain ⟨hzomb, ht, o, ho, hlast⟩ := harg r hlive hr
      exact ⟨hzomb, d, x', o, hself, hhandle, ht, ho, hlast⟩
    · rw [hconns, List.getElem?_set_ne hc] at hz
      obtain ⟨hzomb, d', x'', o, hx'', hc'', ht, ho, hlast⟩ := hh.arg c z r hz (fun hm => hlive (hg.released hm)) hr
      have hne : d ≠ d' := by
        rintro rfl
        rw [hx] at hx''
        cases hx''
        exact hc hc''
      exact ⟨hzomb, d', x'', o, by rw [hdbs, List.getElem?_set_ne hne, hx''], hc'', ht, getElem?_of_prefix hg.refs ho,
          hlast⟩
  · -- and no two structs share a connection
    intro d' z r hz hlive hr
    by_cases hd : d = d'
    · subst hd
      rw [hself] at hz
      cases hz
      exact ⟨y', by rw [hhandle, hconn], hkept r hlive hr⟩
    · rw [hdbs, List.getElem?_set_ne hd] at hz
      obtain ⟨z', hz', harg'⟩ := hh.kept d' z r hz (fun hm => hlive (hg.released hm)) hr
      have hne : x.handle ≠ z.handle := fun he => hd (hw.core.dbInj d d' x z hx hz he)
      exact ⟨z', by rw [hconns, List.getElem?_set_ne hne, hz'], harg'⟩

/-- The hook of a connection is that of its struct. -/
theorem Hooked.trace_of_arg {h : Heap} (hw : h.Wf) (hh : Hooked h) {d r : Nat} {x : SQLiteDb} {y : Conn}
    (hx : h.dbs[d]? = some x) (hy : h.conns[x.handle]? = some y) (hlive : ¬ h.Released (.conn x.handle))
    (hr : y.pTraceArg = some r) : x.trace = some r := by
  obtain ⟨-, d', x', -, hx', hc, ht, -⟩ := hh.arg _ y r hy hlive hr
  obtain rfl := hw.core.dbInj d' d x' x hx' hx hc
  rw [hx] at hx'
  cases hx'
  exact ht

theorem Hooked.nativeClose {h : Heap} (hw : h.Wf) (hh : Hooked h) {d : Nat} {x : SQLiteDb} (hx : h.dbs[d]? = some x)
    (hlive : ¬ h.Released (.db d)) (hok : ∀ y, h.conns[x.handle]? = some y → x.trace = none ∨ y.pVdbe = []) :
    Hooked (nativeClose d x h) := by
  obtain ⟨y, hy, -, hconn⟩ := hw.openConn hx hlive
  obtain ⟨hwf, hdbs, -, hdb, -⟩ := Heap.nativeClose_spec hw hx hlive
  obtain ⟨hconns, -⟩ := Heap.nativeClose_conns (d := d) hy
  have hget : (Sqlite4a.nativeClose d x h).conns[x.handle]? = some { y with lastTrace := none, zombie := true } := by
    rw [hconns, List.getElem?_set_self (lt_of_getElem? hy)]
  refine hh.change hw (Heap.grows_nativeClose d x h) hx hy (hdbs.trans (set_self_of_getElem? hx).symm) rfl hconns ?_
    (fun r hn => absurd hdb hn)
  intro r hnot hr
  rcases hok y hy with hnone | hnil
  · have ht := hh.trace_of_arg hw hx hy hconn hr
    rw [hnone] at ht
    cases ht
  · -- the connection has gone with its handle
    exact absurd (hwf.reaped _ _ hget rfl hnil) hnot

theorem Hooked.nativeTrace {h : Heap} (hw : h.Wf) (hh : Hooked h) {d : Nat} {x : SQLiteDb} (hx : h.dbs[d]? = some x)
    (hlive : ¬ h.Released (.db d)) (func : Option Nat) (hok : func = none → x.trace = none) :
    Hooked (nativeTrace d x func h) := by
  obtain ⟨y, hy, hz, hconn⟩ := hw.openConn hx hlive
  have hg := Heap.grows_nativeTrace d x func h
  cases func with
  | none =>
    obtain ⟨hdbs, hconns, -⟩ := nativeTrace_none (d := d) hy
    refine hh.change hw hg hx hy hdbs rfl hconns (fun r _ hr => ?_) (fun r _ hr => nomatch hr)
    have ht := hh.trace_of_arg hw hx hy hconn hr
    rw [hok rfl] at ht
    cases ht
  | some func =>
    obtain ⟨hdbs, hconns, hrefs⟩ := nativeTrace_some func (d := d) hy
    refine hh.change hw hg hx hy hdbs rfl hconns (fun r _ hr => ?_) (fun r _ hr => hr)
    cases hr
    exact ⟨hz, rfl, func, by rw [hrefs]; exact List.getElem?_concat_length, rfl⟩

/-! ### One call -/

/-- Under the invariant SQLite always calls `java_trace` with something live. -/
theorem clean_of_defined {w : World Db} {op : Op Db} (hw : w.heap.Wf) (hh : Hooked w.heap) (hd : Defined w op) :
    Clean w op ∧ (∀ r ∈ op.needs w, w.heap.Has r) ∧ ¬ FailsOnLast w op := by
  by_cases hop : ∃ c, op = .traceEvent c
  · obtain ⟨c, rfl⟩ := hop
    have hneeds : ∀ r ∈ Op.needs w (.traceEvent c), ¬ w.heap.Released r ∧ w.heap.Has r := by
      intro r hr
      unfold Op.needs at hr
      cases hy : w.heap.conns[c]? with
      | none => simp [hy] at hr
      | some y =>
        simp only [hy] at hr
        split at hr
        · cases hr
        · rename_i hlive
          cases harg : y.pTraceArg with
          | none => simp [harg] at hr
          | some q =>
            rw [harg] at hr
            obtain rfl := List.mem_singleton.1 hr
            obtain ⟨hq, g, hg, -⟩ := hh.traceLive hw c y q hy hlive harg
            exact ⟨hq, lt_of_getElem? hg⟩
    refine ⟨fun r hr => (hneeds r hr).1, fun r hr => (hneeds r hr).2, ?_⟩
    rintro ⟨_, _, _, _, _, _, _, he | he, -⟩ <;> cases he
  · have hop' : ∀ c, op ≠ .traceEvent c := fun c he => hop ⟨c, he⟩
    exact ⟨(hd hop').1, needs_has hw hop', (hd hop').2⟩

theorem hooked_call {w : World Db} {op : Op Db} (hw : w.heap.Wf) (hh : Hooked w.heap) (hd : Defined w op)
    (hok : TraceKept w op) : (call w op).heap.Wf ∧ Hooked (call w op).heap := by
  obtain ⟨hclean, hhas, hlast⟩ := clean_of_defined hw hh hd
  refine ⟨wf_call hw hhas hclean hlast, ?_⟩
  have hw₁ : (w.enter (op.needs w)).heap.Wf := hw.uses fun r hr => ⟨hhas r hr, hclean r hr⟩
  have hh₁ : Hooked (w.enter (op.needs w)).heap := hh.keep (Heap.grows_emit _ _) (KeepsHooks.of_eq rfl rfl)
  have hdb : ∀ d dc x, op = .db d dc → w.heap.dbs[d]? = some x → ¬ (w.enter (op.needs w)).heap.Released (.db d) := by
    rintro d dc x rfl hx hm
    exact hclean (.db d) (by simp [Op.needs, hx]) (World.released_enter.1 hm)
  rw [call_of_clean hclean]
  by_cases hop : ∃ d dc, op = .db d dc ∧ (dc = .close ∨ ∃ func, dc = .trace func)
  · obtain ⟨d, dc, rfl, hdc⟩ := hop
    cases hx : w.heap.dbs[d]? with
    | none =>
      rw [World.perform_db_none (w := w.enter _) hx]
      exact hh₁
    | some x =>
      have hlive := hdb d dc x rfl hx
      rw [World.perform_db (w := w.enter _) hx]
      rcases hdc with rfl | ⟨func, rfl⟩
      · exact hh₁.nativeClose hw₁ hx hlive fun y hy => hok x y hx hy
      · refine hh₁.nativeTrace hw₁ hx hlive func fun hnone => ?_
        subst hnone
        exact hok x hx
  · refine hh₁.keep (World.grows_perform _ op) (KeepsHooks.perform (fun d he => ?_) (fun d func he => ?_))
    · exact hop ⟨d, _, he, .inl rfl⟩
    · exact hop ⟨d, _, he, .inr ⟨func, rfl⟩⟩

/-- The finalization frees the connection, and the message is read from it all the same. -/
theorem not_sound_of_failsOnLast {w : World Db} {op : Op Db} (hw : w.heap.Wf) (hclean : Clean w op)
    (h : FailsOnLast w op) : ¬ Sound (call w op).heap.log := by
  obtain ⟨k, t, o, p, c, x, v, hop, hobj, hptr, hp, hx, hv, hz, hnil, hne⟩ := h
  have hop' : ∀ c', op ≠ .traceEvent c' := by
    rintro c' rfl
    rcases hop with he | he <;> cases he
  have hw₁ : (w.enter (op.needs w)).heap.Wf := hw.uses fun r hr => ⟨needs_has hw hop' r hr, hclean r hr⟩
  have hlive : ¬ (w.enter (op.needs w)).heap.Released (.stmt p) := by
    intro hm
    refine hclean (.stmt p) ?_ (World.released_enter.1 hm)
    rcases hop with rfl | rfl <;> simp [Op.needs, hobj, StmtCall.native, World.stmtNeeds, hptr, hp]
  have hcode : (v.step t).1.code ≠ SQLITE_DONE := fun he => hne (StepResult.code_eq_done.1 he)
  rcases o with ⟨ptr, closed⟩
  cases hptr
  rw [call_of_clean hclean]
  have hfreed : ((w.enter (op.needs w)).heap.sqlite3Finalize p).Released (.conn c) := by
    refine (Heap.sqlite3Finalize_spec hw₁ hp hlive).1.reaped c { x with pVdbe := x.pVdbe.erase p } ?_ hz ?_
    · rw [Heap.sqlite3Finalize_conns (h := (w.enter (op.needs w)).heap) hp hx]
      exact List.getElem?_set_self (lt_of_getElem? hx)
    · show x.pVdbe.erase p = []
      rw [hnil, List.erase_cons_head]
  have hheap : ((w.enter (op.needs w)).perform op).heap =
      ((w.enter (op.needs w)).heap.sqlite3Finalize p).emit ([.conn c].map .use) := by
    rcases hop with rfl | rfl <;>
    · rw [World.perform_stmt (w := w.enter _) hobj hp hv]
      exact (World.complete_heap ..).trans (if_pos hcode)
  rw [hheap]
  intro hs
  exact ((Ledger.sound_append_uses _).1 hs).2 _ (List.mem_singleton_self _) hfreed

/-- After a `trace(null)` SQLite holds the deleted reference. -/
theorem not_traceLive_nativeTrace {h : Heap} (hw : h.Wf) (hh : Hooked h) {d r : Nat} {x : SQLiteDb}
    (hx : h.dbs[d]? = some x) (hlive : ¬ h.Released (.db d)) (hr : x.trace = some r) :
    ¬ (nativeTrace d x none h).TraceLive := by
  intro hlv
  obtain ⟨y, hy, harg⟩ := hh.kept d x r hx hlive hr
  obtain ⟨y', hy', -, hconn⟩ := hw.openConn hx hlive
  rw [hy] at hy'
  cases hy'
  obtain ⟨-, hconns, hrel⟩ := nativeTrace_none (d := d) hy
  have hget : (nativeTrace d x none h).conns[x.handle]? = some { y with lastTrace := none } := by
    rw [hconns, List.getElem?_set_self (lt_of_getElem? hy)]
  have hconn' : ¬ (nativeTrace d x none h).Released (.conn x.handle) := by
    rw [hrel]
    rintro (hm | ⟨_, _, he⟩)
    · exact hconn hm
    · cases he
  exact (hlv _ _ r hget hconn' harg).1 ((hrel _).2 (.inr ⟨r, hr, rfl⟩))

/-- After a `close()` the connection lives on with its statements, and holds the deleted reference. -/
theorem not_traceLive_nativeClose {h : Heap} (hw : h.Wf) (hh : Hooked h) {d r : Nat} {x : SQLiteDb} {y : Conn}
    (hx : h.dbs[d]? = some x) (hlive : ¬ h.Released (.db d)) (hy : h.conns[x.handle]? = some y)
    (hr : x.trace = some r) (hne : y.pVdbe ≠ []) : ¬ (nativeClose d x h).TraceLive := by
  intro hlv
  obtain ⟨y', hy', harg⟩ := hh.kept d x r hx hlive hr
  rw [hy] at hy'
  cases hy'
  obtain ⟨hwf, -⟩ := Heap.nativeClose_spec hw hx hlive
  obtain ⟨hconns, -, hrel⟩ := Heap.nativeClose_conns (d := d) hy
  have hget : (nativeClose d x h).conns[x.handle]? = some { y with lastTrace := none, zombie := true } := by
    rw [hconns, List.getElem?_set_self (lt_of_getElem? hy)]
  have hconn : ¬ (nativeClose d x h).Released (.conn x.handle) := fun hm => hne (hwf.core.conn _ _ hget hm).2
  exact (hlv _ _ r hget hconn harg).1 (hrel r hr)

theorem not_traced_of_not_kept {w : World Db} {op : Op Db} (hw : w.heap.Wf) (hh : Hooked w.heap)
    (hok : ¬ (Defined w op ∧ TraceKept w op)) : ¬ Traced (call w op).heap := by
  intro htr
  by_cases hd : Defined w op
  · obtain ⟨hclean, hhas, -⟩ := clean_of_defined hw hh hd
    have hkept : ¬ TraceKept w op := fun h => hok ⟨hd, h⟩
    have hw₁ : (w.enter (op.needs w)).heap.Wf := hw.uses fun r hr => ⟨hhas r hr, hclean r hr⟩
    have hh₁ : Hooked (w.enter (op.needs w)).heap := hh.keep (Heap.grows_emit _ _) (KeepsHooks.of_eq rfl rfl)
    have hlive₁ : ∀ d dc x, op = .db d dc → w.heap.dbs[d]? = some x →
        ¬ (w.enter (op.needs w)).heap.Released (.db d) := by
      rintro d dc x rfl hx hm
      exact hclean (.db d) (by simp [Op.needs, hx]) (World.released_enter.1 hm)
    have harg := htr.arg
    rw [call_of_clean hclean] at harg
    cases op with
    | db d dc =>
      cases dc with
      | close =>
        simp only [TraceKept, not_forall, not_or] at hkept
        obtain ⟨x, y, hx, hy, ht, hne⟩ := hkept
        obtain ⟨r, hr⟩ := Option.ne_none_iff_exists'.1 ht
        rw [World.perform_db (w := w.enter _) hx] at harg
        exact not_traceLive_nativeClose hw₁ hh₁ hx (hlive₁ d _ x rfl hx) hy hr hne harg
      | trace func =>
        cases func with
        | none =>
          simp only [TraceKept, not_forall] at hkept
          obtain ⟨x, hx, ht⟩ := hkept
          obtain ⟨r, hr⟩ := Option.ne_none_iff_exists'.1 ht
          rw [World.perform_db (w := w.enter _) hx] at harg
          exact not_traceLive_nativeTrace hw₁ hh₁ hx (hlive₁ d _ x rfl hx) hr harg
        | some func => exact hkept trivial
      | _ => exact hkept trivial
    | _ => exact hkept trivial
  · have hop : ∀ c, op ≠ .traceEvent c := by
      rintro c rfl
      exact hd fun hc => absurd rfl (hc c)
    by_cases hclean : Clean w op
    · refine not_sound_of_failsOnLast hw hclean ?_ htr.sound
      by_contra hlast
      exact hd fun _ => ⟨hclean, hlast⟩
    · exact not_sound_of_not_clean hclean htr.sound

theorem hooked_empty : Hooked {} := by
  constructor <;> simp

/-- In a run all trace arguments stay live exactly when nothing released is handed to native code, `trace(null)` is
only called when no trace is set, and a database with a trace is only closed when it has no statement left. -/
theorem traced_iff_kept (casts : Casts) (ops : List (Op Db)) :
    Runs.Always call (fun w => Traced w.heap) (World.start casts) ops ↔
      Runs.Guarded call (fun w op => Defined w op ∧ TraceKept w op) (World.start casts) ops := by
  refine Runs.always_iff_guarded (I := fun w => w.heap.Wf ∧ Hooked w.heap) ?_ ?_ ?_ ⟨Heap.wf_empty, hooked_empty⟩
    Runs.guarded_true
  · exact fun w op h _ hok => hooked_call h.1 h.2 hok.1 hok.2
  · exact fun w h => ⟨h.2.traceLive h.1, h.1.core.sound⟩
  · exact fun w op h _ hok => not_traced_of_not_kept h.1 h.2 hok

/-- `trace(f)` and then `trace(null)`. -/
def traceOff : List (Op Unit) := [.open 6 (.opened false none), .db 0 (.trace (some 7)), .db 0 (.trace none)]

/-- SQLite still calls `java_trace` with the deleted reference. -/
theorem not_traced_traceOff :
    ¬ Runs.Always call (fun w => Traced w.heap) (World.start .ofIntegers) traceOff := by
  intro h
  exact (h.last.arg 0 _ 0 rfl (by decide) rfl).1 (by decide)

end Sqlite4a
