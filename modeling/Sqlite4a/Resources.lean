import Sqlite4a.World

/-!
# Who releases what was acquired

Of opening, preparing, registering and closing, every path gives back what it took, except two: a connection that a
failed `sqlite3_open_v2` hands out, and the reference made for a comparator that `sqlite3_create_collation_v2` refuses.
`balanced_iff_frugal` says that these are all.
-/

namespace Sqlite4a

open Ledger (Event Live Sound)
open Heap (Grows)

variable {Db : Type*}

/-- The state after a call as the contract wants it: nothing released twice, nothing kept by a call that has thrown,
comparators and functions referenced while registered, and nothing left when everything has been closed. -/
structure Balanced (w : World Db) : Prop where
  sound : Sound w.heap.log
  thrown : w.thrown ≠ [] → ∀ r, .acquire r ∈ w.heap.log.drop w.mark → ¬ Live w.heap.log r
  registered : ∀ r, Live w.heap.log (.ref r) ↔
    ∃ (c : Nat) (x : Conn), w.heap.conns[c]? = some x ∧ ¬ w.heap.Released (.conn c) ∧ r ∈ x.registered
  closed : (∀ d, d < w.heap.dbs.length → w.heap.Released (.db d)) → (∀ o ∈ w.stmtObjs, o.closed = true) →
    ∀ r, ¬ Live w.heap.log r

/-- Opening, preparing, registering and closing; each statement and each database is closed once. -/
def InLedger (w : World Db) : Op Db → Prop
  | .open _ _ => True
  | .db _ (.prepare _ _) => True
  | .db _ (.execForNumber _ _ _) => True
  | .db _ (.createCollation _ _ _) => True
  | .db _ (.createFunction _ _ _ _) => True
  | .db d .close => ¬ w.heap.Released (.db d)
  | .stmt k .close => ∀ o, w.stmtObjs[k]? = some o → o.closed = false
  | _ => False

/-- No failed open hands out a connection, no comparator is refused, and no closed database is used. -/
def Frugal (w : World Db) : Op Db → Prop
  | .open _ (.failed _ handle) => handle = false
  | .db d (.createCollation _ _ ret) => ¬ w.heap.Released (.db d) ∧ (d < w.heap.dbs.length → ret = none)
  | .db d _ => ¬ w.heap.Released (.db d)
  | _ => True

namespace Heap

/-- Every connection is closed or has a struct, and every reference is released or registered. -/
structure Tidy (h : Heap) : Prop where
  conns : ∀ (c : Nat) (x : Conn), h.conns[c]? = some x → x.zombie = true ∨
    ∃ (d : Nat) (y : SQLiteDb), h.dbs[d]? = some y ∧ y.handle = c
  refs : ∀ r, r < h.refs.length → ¬ h.Released (.ref r) →
    ∃ (c : Nat) (x : Conn), h.conns[c]? = some x ∧ r ∈ x.registered

end Heap

/-- A statement has not been finalized exactly when its object has not been closed. -/
structure Held (w : World Db) : Prop where
  known : ∀ (k p : Nat) (b : Bool), w.stmtObjs[k]? = some ⟨some p, b⟩ → p < w.heap.stmts.length
  inj : ∀ (k k' p : Nat) (b b' : Bool), w.stmtObjs[k]? = some ⟨some p, b⟩ → w.stmtObjs[k']? = some ⟨some p, b'⟩ → k = k'
  live : ∀ p, p < w.heap.stmts.length →
    (¬ w.heap.Released (.stmt p) ↔ ∃ k : Nat, w.stmtObjs[k]? = some ⟨some p, false⟩)

/-- The invariant. -/
structure Kept (w : World Db) : Prop where
  wf : w.heap.Wf
  tidy : w.heap.Tidy
  held : Held w

theorem kept_start (casts : Casts) : Kept (World.start casts : World Db) where
  wf := Heap.wf_empty
  tidy := ⟨(fun _ _ h => nomatch h), fun _ h => absurd h (Nat.not_lt_zero _)⟩
  held := ⟨(fun _ _ _ h => nomatch h), (fun _ _ _ _ _ h => nomatch h), fun _ h => absurd h (Nat.not_lt_zero _)⟩

/-! ### What the invariant gives -/

theorem Heap.live_iff {h : Heap} (hc : h.Core) {r : Res} : Live h.log r ↔ h.Has r ∧ ¬ h.Released r := by
  refine and_congr_left fun _ => ⟨fun hm => ?_, hc.acquired r⟩
  exact hc.known _ hm

theorem Kept.registered {w : World Db} (hk : Kept w) (r : Nat) : Live w.heap.log (.ref r) ↔
    ∃ (c : Nat) (x : Conn), w.heap.conns[c]? = some x ∧ ¬ w.heap.Released (.conn c) ∧ r ∈ x.registered := by
  have hc := hk.wf.core
  rw [Heap.live_iff hc]
  constructor
  · intro ⟨hlt, hlive⟩
    obtain ⟨c, x, hx, hr⟩ := hk.tidy.refs r hlt hlive
    exact ⟨c, x, hx, fun hm => hlive (((hc.registered c x hx).2 r hr).2.2 hm), hr⟩
  · intro ⟨c, x, hx, hconn, hr⟩
    obtain ⟨⟨o, ho⟩, hiff⟩ := (hc.registered c x hx).2 r hr
    exact ⟨lt_of_getElem? ho, fun hm => hconn (hiff.1 hm)⟩

/-- When all structs have been deleted and all statement objects closed, nothing is left. -/
theorem Kept.closed {w : World Db} (hk : Kept w) (hdbs : ∀ d, d < w.heap.dbs.length → w.heap.Released (.db d))
    (hstmts : ∀ o ∈ w.stmtObjs, o.closed = true) (r : Res) : ¬ Live w.heap.log r := by
  have hc := hk.wf.core
  rw [Heap.live_iff hc]
  rintro ⟨hhas, hlive⟩
  have hfinalized : ∀ p, p < w.heap.stmts.length → w.heap.Released (.stmt p) := by
    intro p hp
    by_contra hn
    obtain ⟨k, hobj⟩ := (hk.held.live p hp).1 hn
    exact Bool.false_ne_true (hstmts _ (List.mem_of_getElem? hobj))
  have hzombie : ∀ (c : Nat) (x : Conn), w.heap.conns[c]? = some x → x.zombie = true := by
    intro c x hx
    rcases hk.tidy.conns c x hx with hz | ⟨d, y, hy, rfl⟩
    · exact hz
    · have hd := hdbs d (lt_of_getElem? hy)
      exact (hc.handle _ x hx).1 ((hc.db d y hy).2 hd)
  have hfreed : ∀ (c : Nat) (x : Conn), w.heap.conns[c]? = some x → w.heap.Released (.conn c) := by
    intro c x hx
    refine hk.wf.reaped c x hx (hzombie c x hx) (List.eq_nil_iff_forall_not_mem.2 fun p hp => ?_)
    -- a statement in the list of the connection has not been finalized
    have hpc := (hc.pVdbe c x hx).2 p hp
    obtain ⟨x', hx', hiff⟩ := hc.stmt p c hpc
    rw [hx] at hx'
    cases hx'
    exact hiff.1 hp (hfinalized p (lt_of_getElem? hpc))
  cases r with
  | handle c =>
    have hx := List.getElem?_eq_getElem (show c < w.heap.conns.length from hhas)
    exact hlive ((hc.handle c _ hx).2 (hzombie c _ hx))
  | conn c => exact hlive (hfreed c _ (List.getElem?_eq_getElem (show c < w.heap.conns.length from hhas)))
  | db d => exact hlive (hdbs d hhas)
  | stmt p => exact hlive (hfinalized p hhas)
  | ref r =>
    obtain ⟨c, x, hx, hr⟩ := hk.tidy.refs r hhas hlive
    exact hlive (((hc.registered c x hx).2 r hr).2.2 (hfreed c x hx))

/-! ### Steps of the two invariants -/

namespace Heap

/-- No connection is reopened, forgets its struct, or drops a reference that is not released. -/
theorem Tidy.step {h h' : Heap} (ht : h.Tidy) (hdbs : h.dbs <+: h'.dbs)
    (hconns : ∀ (c : Nat) (x' : Conn), h'.conns[c]? = some x' → x'.zombie = true ∨
      (∃ (d : Nat) (y : SQLiteDb), h'.dbs[d]? = some y ∧ y.handle = c) ∨
      ∃ x : Conn, h.conns[c]? = some x ∧ x'.zombie = x.zombie)
    (hrefs : ∀ r, r < h'.refs.length → ¬ h'.Released (.ref r) → (r < h.refs.length ∧ ¬ h.Released (.ref r)) ∨
      ∃ (c : Nat) (x : Conn), h'.conns[c]? = some x ∧ r ∈ x.registered)
    (hreg : ∀ (c : Nat) (x : Conn), h.conns[c]? = some x → ∀ r ∈ x.registered, ¬ h'.Released (.ref r) →
      ∃ x' : Conn, h'.conns[c]? = some x' ∧ r ∈ x'.registered) : h'.Tidy where
  conns c x' hx' := by
    rcases hconns c x' hx' with hz | hd | ⟨x, hx, hz⟩
    · exact .inl hz
    · exact .inr hd
    · rcases ht.conns c x hx with hzx | ⟨d, y, hy, hyc⟩
      · exact .inl (hz.trans hzx)
      · exact .inr ⟨d, y, getElem?_of_prefix hdbs hy, hyc⟩
  refs r hlt hlive := by
    rcases hrefs r hlt hlive with ⟨hlt, hold⟩ | hnew
    · obtain ⟨c, x, hx, hr⟩ := ht.refs r hlt hold
      obtain ⟨x', hx', hr'⟩ := hreg c x hx r hr hlive
      exact ⟨c, x', hx', hr'⟩
    · exact hnew

/-- One connection has changed, and it keeps what is registered with it. -/
theorem Tidy.set {h h' : Heap} (ht : h.Tidy) {c : Nat} {x x' : Conn} (hx : h.conns[c]? = some x) (hdbs : h'.dbs = h.dbs)
    (hrefs : h'.refs = h.refs) (hconns : h'.conns = h.conns.set c x') (hz : x'.zombie = true ∨ x'.zombie = x.zombie)
    (hreg : x'.registered = x.registered) (hmono : ∀ r, h.Released r → h'.Released r) : h'.Tidy := by
  have hself : h'.conns[c]? = some x' := by
    rw [hconns, List.getElem?_set_self (lt_of_getElem? hx)]
  refine ht.step (hdbs ▸ List.prefix_refl _) ?_ (fun r hlt hlive => .inl ⟨hrefs ▸ hlt, fun hm => hlive (hmono _ hm)⟩) ?_
  · intro c' y hy
    by_cases hcc : c = c'
    · subst hcc
      rw [hself] at hy
      cases hy
      exact hz.imp_right fun hz => .inr ⟨x, hx, hz⟩
    · rw [hconns, List.getElem?_set_ne hcc] at hy
      exact .inr (.inr ⟨y, hy, rfl⟩)
  · intro c' y hy r hr _
    by_cases hcc : c = c'
    · subst hcc
      rw [hx] at hy
      cases hy
      exact ⟨x', hself, by rw [hreg]; exact hr⟩
    · exact ⟨y, by rw [hconns, List.getElem?_set_ne hcc, hy], hr⟩

end Heap

/-- The objects are the same, and every new statement is already finalized. -/
theorem Held.keep {w w' : World Db} (hh : Held w) (hobjs : w'.stmtObjs = w.stmtObjs)
    (hle : w.heap.stmts.length ≤ w'.heap.stmts.length)
    (hold : ∀ p, p < w.heap.stmts.length → (w'.heap.Released (.stmt p) ↔ w.heap.Released (.stmt p)))
    (hnew : ∀ p, w.heap.stmts.length ≤ p → p < w'.heap.stmts.length → w'.heap.Released (.stmt p)) : Held w' where
  known k p b h := by
    rw [hobjs] at h
    exact Nat.lt_of_lt_of_le (hh.known k p b h) hle
  inj := by
    rw [hobjs]
    exact hh.inj
  live p hp := by
    rw [hobjs]
    rcases Nat.lt_or_ge p w.heap.stmts.length with hlt | hge
    · rw [hold p hlt]
      exact hh.live p hlt
    · refine iff_of_false (fun hn => hn (hnew p hge hp)) fun ⟨k, hk⟩ => ?_
      exact absurd (hh.known k p false hk) (by omega)

/-- No statement is made, finalized or closed. -/
theorem Held.same {w w' : World Db} (hh : Held w) (hobjs : w'.stmtObjs = w.stmtObjs)
    (hstmts : w'.heap.stmts = w.heap.stmts) (hrel : ∀ p, w'.heap.Released (.stmt p) ↔ w.heap.Released (.stmt p)) :
    Held w' :=
  hh.keep hobjs (by rw [hstmts]) (fun p _ => hrel p) fun p hge hlt => absurd (hstmts ▸ hlt) (by omega)

/-! ### Opening and preparing -/

namespace Heap

/-- Opening and closing at once leaves a closed connection and nothing live. -/
theorem newConn_close (h : Heap) : h.newConn.sqlite3CloseV2 h.conns.length =
    { h with
      conns := h.conns ++ [{ zombie := true }]
      log := h.log ++ [.acquire (.handle h.conns.length), .acquire (.conn h.conns.length),
        .release (.handle h.conns.length), .release (.conn h.conns.length)] } := by
  simp [sqlite3CloseV2, newConn, markZombie, closeZombie, setConn, emit, Conn.registered]

/-- A new connection that is closed or has a struct. -/
theorem Tidy.snoc {h h' : Heap} (ht : h.Tidy) {x : Conn} (hconns : h'.conns = h.conns ++ [x])
    (hnew : x.zombie = true ∨ ∃ (d : Nat) (y : SQLiteDb), h'.dbs[d]? = some y ∧ y.handle = h.conns.length)
    (hdbs : h.dbs <+: h'.dbs) (hrefs : h'.refs = h.refs) (hmono : ∀ r, h.Released r → h'.Released r) : h'.Tidy := by
  refine ht.step hdbs ?_ (fun r hlt hlive => .inl ⟨hrefs ▸ hlt, fun hm => hlive (hmono _ hm)⟩) ?_
  · intro c y hy
    rw [hconns] at hy
    rcases getElem?_snoc_some hy with hy | ⟨rfl, rfl⟩
    · exact .inr (.inr ⟨y, hy, rfl⟩)
    · exact hnew.imp_right .inl
  · intro c y hy r hr _
    exact ⟨y, getElem?_of_prefix (hconns ▸ List.prefix_append _ _) hy, hr⟩

theorem Tidy.nativeOpen {h : Heap} (ht : h.Tidy) (flags : Nat) {o : OpenOutcome}
    (hok : ∀ f handle, o = .failed f handle → handle = false) : (nativeOpen flags o h).2.Tidy := by
  have hclose : (h.newConn.sqlite3CloseV2 h.conns.length).Tidy := by
    rw [newConn_close]
    exact ht.snoc rfl (.inl rfl) (List.prefix_refl _) rfl fun r hr => List.mem_append_left _ hr
  rcases nativeOpen_cases flags o h with hval | ⟨⟨f, hf⟩, -⟩ | hval | hval
  · rw [hval]
    exact ht
  · cases hok f true hf
  · rw [hval]
    exact hclose
  · rw [hval]
    refine ht.snoc (x := {}) rfl (.inr ⟨h.dbs.length, _, List.getElem?_concat_length, rfl⟩) (List.prefix_append _ _)
      rfl fun r hr => ?_
    exact List.mem_append_left _ (List.mem_append_left _ hr)

/-- The statement of `execForNumber` is gone when the call returns. -/
theorem nativeExecForDouble_stmt {h : Heap} {c : Nat} {x : Conn} (hx : h.conns[c]? = some x) (hz : x.zombie = false)
    (casts : Casts) (sql : String) (v : Vdbe Db) (t : Tick Db) : (nativeExecForDouble casts c sql (.stmt v) t h).2 =
    { h with
      stmts := h.stmts ++ [c]
      log := h.log ++
        [.acquire (.stmt h.stmts.length), .use (.stmt h.stmts.length), .release (.stmt h.stmts.length)] } := by
  have hlt := lt_of_getElem? hx
  have hself := set_self_of_getElem? hx
  rcases x with ⟨zombie, pVdbe, pTraceArg, callbacks, lastTrace⟩
  obtain rfl : zombie = false := hz
  unfold nativeExecForDouble nativePrepare
  simp only [hx]
  simpa [sqlite3Finalize, newStmt, emit, dropStmt, setConn, closeZombie, hlt] using hself

/-! ### Registering and closing -/

/-- A new reference is registered, or deleted again; the references that it replaces are deleted. -/
theorem Tidy.newCallback {h : Heap} (ht : h.Tidy) {c obj : Nat} {x : Conn} (hx : h.conns[c]? = some x) :
    (∀ slot, ((h.newGlobalRef obj (.conn c)).registerAt c slot h.refs.length).Tidy) ∧
      ((h.newGlobalRef obj (.conn c)).deleteGlobalRef h.refs.length).Tidy := by
  have hlt : ∀ r, r < (h.newGlobalRef obj (.conn c)).refs.length → r < h.refs.length ∨ r = h.refs.length := by
    intro r hr
    simp only [newGlobalRef, List.length_append, List.length_singleton] at hr
    omega
  constructor
  · intro slot
    have hval : (h.newGlobalRef obj (.conn c)).registerAt c slot h.refs.length =
        (h.newGlobalRef obj (.conn c)).register c x slot h.refs.length := by
      unfold registerAt
      rw [show (h.newGlobalRef obj (.conn c)).conns[c]? = some x from hx]
    rw [hval]
    have hrel : ∀ q, ((h.newGlobalRef obj (.conn c)).register c x slot h.refs.length).Released q ↔
        h.Released q ∨ ∃ k, q = .ref k ∧ (slot, k) ∈ x.callbacks := fun q =>
      released_register.trans (or_congr released_newGlobalRef Iff.rfl)
    generalize hx' : ({ x with callbacks := x.callbacks.filter (·.1 ≠ slot) ++ [(slot, h.refs.length)] } : Conn) = x'
    have hconns : ((h.newGlobalRef obj (.conn c)).register c x slot h.refs.length).conns = h.conns.set c x' := by
      rw [← hx']
      rfl
    have hself : (h.conns.set c x')[c]? = some x' := List.getElem?_set_self (lt_of_getElem? hx)
    refine ht.step (List.prefix_refl _) ?_ ?_ ?_
    · intro c' y hy
      rw [hconns] at hy
      by_cases hcc : c = c'
      · subst hcc
        rw [hself] at hy
        cases hy
        exact .inr (.inr ⟨x, hx, by rw [← hx']⟩)
      · rw [List.getElem?_set_ne hcc] at hy
        exact .inr (.inr ⟨y, hy, rfl⟩)
    · intro r hr hlive
      rcases hlt r hr with hr | rfl
      · exact .inl ⟨hr, fun hm => hlive ((hrel _).2 (.inl hm))⟩
      · refine .inr ⟨c, x', by rw [hconns, hself], ?_⟩
        rw [← hx']
        simp [Conn.registered]
    · intro c' y hy r hr hlive
      rw [hconns]
      by_cases hcc : c = c'
      · subst hcc
        rw [hx] at hy
        cases hy
        obtain ⟨⟨s, k⟩, hm, rfl⟩ := List.mem_map.1 hr
        -- what is not released was registered under another name
        have hne : s ≠ slot := by
          rintro rfl
          exact hlive ((hrel _).2 (.inr ⟨k, rfl, hm⟩))
        refine ⟨x', hself, ?_⟩
        rw [← hx']
        exact List.mem_map.2 ⟨(s, k), List.mem_append_left _ (List.mem_filter.2 ⟨hm, by simpa using hne⟩), rfl⟩
      · exact ⟨y, by rw [List.getElem?_set_ne hcc, hy], hr⟩
  · refine ht.step (List.prefix_refl _) (fun c' y hy => .inr (.inr ⟨y, hy, rfl⟩)) ?_ (fun c' y hy r hr _ => ⟨y, hy, hr⟩)
    intro r hr hlive
    rcases hlt r hr with hr | rfl
    · exact .inl ⟨hr, fun hm => hlive (released_emit.2 (.inl (released_newGlobalRef.2 hm)))⟩
    · exact absurd (released_emit.2 (.inr (List.mem_singleton_self _))) hlive

/-- A registration touches no statement. -/
theorem newCallback_stmts (c obj : Nat) (slot : Slot) (h : Heap) :
    ((h.newGlobalRef obj (.conn c)).registerAt c slot h.refs.length).stmts = h.stmts ∧
      ∀ p, ((h.newGlobalRef obj (.conn c)).registerAt c slot h.refs.length).Released (.stmt p) ↔
          h.Released (.stmt p) := by
  unfold registerAt
  split
  · refine ⟨rfl, fun p => released_register.trans ?_⟩
    rw [released_newGlobalRef]
    apply or_iff_left
    rintro ⟨_, he, _⟩
    cases he
  · exact ⟨rfl, fun p => released_newGlobalRef⟩

theorem Tidy.nativeClose {h : Heap} (ht : h.Tidy) (hw : h.Wf) {d : Nat} {x : SQLiteDb} (hx : h.dbs[d]? = some x)
    (hlive : ¬ h.Released (.db d)) : (nativeClose d x h).Tidy := by
  obtain ⟨y, hy, -, -⟩ := hw.openConn hx hlive
  obtain ⟨hconns, hrefs, -⟩ := nativeClose_conns (d := d) hy
  obtain ⟨-, hdbs, -, -, hmono, -⟩ := nativeClose_spec hw hx hlive
  exact ht.set hy hdbs hrefs hconns (.inl rfl) rfl hmono

theorem Tidy.sqlite3Finalize {h : Heap} (ht : h.Tidy) (hw : h.Wf) {p c : Nat} (hp : h.stmts[p]? = some c)
    (hlive : ¬ h.Released (.stmt p)) : (h.sqlite3Finalize p).Tidy := by
  obtain ⟨x, hx, -⟩ := hw.core.stmt p c hp
  obtain ⟨-, hdr⟩ := sqlite3Finalize_spec hw hp hlive
  exact ht.set hx hdr.dbs hdr.refs (sqlite3Finalize_conns hp hx) (.inr rfl) rfl hdr.mono

end Heap

/-- `prepare()` makes an object for the new statement. -/
theorem Held.newStmt {w w' : World Db} (hh : Held w) {c : Nat}
    (hobjs : w'.stmtObjs = w.stmtObjs ++ [⟨some w.heap.stmts.length, false⟩])
    (hstmts : w'.heap.stmts = w.heap.stmts ++ [c])
    (hrel : ∀ p, w'.heap.Released (.stmt p) ↔ w.heap.Released (.stmt p))
    (hfresh : ¬ w.heap.Released (.stmt w.heap.stmts.length)) : Held w' := by
  have hget : ∀ (k p : Nat) (b : Bool), w'.stmtObjs[k]? = some ⟨some p, b⟩ →
      w.stmtObjs[k]? = some ⟨some p, b⟩ ∨ k = w.stmtObjs.length ∧ p = w.heap.stmts.length ∧ b = false := by
    intro k p b hk
    rw [hobjs] at hk
    rcases getElem?_snoc_some hk with hk | ⟨rfl, he⟩
    · exact .inl hk
    · cases he
      exact .inr ⟨rfl, rfl, rfl⟩
  have hlen : w'.heap.stmts.length = w.heap.stmts.length + 1 := by
    rw [hstmts, List.length_append, List.length_singleton]
  constructor
  · intro k p b hk
    rcases hget k p b hk with hk | ⟨-, rfl, -⟩
    · have := hh.known k p b hk
      omega
    · omega
  · -- the new object is the only one with the new pointer
    intro k k' p b b' hk hk'
    rcases hget k p b hk with hk | ⟨rfl, hp, -⟩ <;> rcases hget k' p b' hk' with hk' | ⟨rfl, hp', -⟩
    · exact hh.inj k k' p b b' hk hk'
    · have := hh.known k p b hk
      omega
    · have := hh.known k' p b' hk'
      omega
    · rfl
  · intro p hp
    rw [hrel]
    rcases Nat.lt_or_ge p w.heap.stmts.length with hlt | hge
    · rw [hh.live p hlt]
      constructor
      · intro ⟨k, hk⟩
        exact ⟨k, getElem?_of_prefix (hobjs ▸ List.prefix_append _ _) hk⟩
      · intro ⟨k, hk⟩
        rcases hget k p false hk with hk | ⟨-, rfl, -⟩
        · exact ⟨k, hk⟩
        · omega
    · obtain rfl : p = w.heap.stmts.length := by omega
      exact iff_of_true hfresh ⟨w.stmtObjs.length, by rw [hobjs, List.getElem?_concat_length]⟩

/-- The object of an empty text has no statement. -/
theorem Held.newNull {w w' : World Db} (hh : Held w) (hobjs : w'.stmtObjs = w.stmtObjs ++ [⟨none, false⟩])
    (hstmts : w'.heap.stmts = w.heap.stmts) (hrel : ∀ p, w'.heap.Released (.stmt p) ↔ w.heap.Released (.stmt p)) :
    Held w' := by
  have hget : ∀ (k p : Nat) (b : Bool), w'.stmtObjs[k]? = some ⟨some p, b⟩ ↔ w.stmtObjs[k]? = some ⟨some p, b⟩ := by
    intro k p b
    rw [hobjs]
    constructor
    · intro hk
      rcases getElem?_snoc_some hk with hk | ⟨-, he⟩
      · exact hk
      · cases he
    · exact getElem?_of_prefix (List.prefix_append _ _)
  refine ⟨fun k p b hk => ?_, fun k k' p b b' hk hk' => ?_, fun p hp => ?_⟩
  · rw [hstmts]
    exact hh.known k p b ((hget k p b).1 hk)
  · exact hh.inj k k' p b b' ((hget k p b).1 hk) ((hget k' p b').1 hk')
  · simp only [hrel, hget]
    exact hh.live p (hstmts ▸ hp)

/-- The `close()` of an object that has not been closed finalizes its statement, if it has one. -/
theorem Held.close {w w' : World Db} (hh : Held w) {k : Nat} {ptr : Option Nat}
    (hobj : w.stmtObjs[k]? = some ⟨ptr, false⟩) (hobjs : w'.stmtObjs = w.stmtObjs.set k ⟨ptr, true⟩)
    (hstmts : w'.heap.stmts = w.heap.stmts)
    (hrel : ∀ p, w'.heap.Released (.stmt p) ↔ w.heap.Released (.stmt p) ∨ ptr = some p) : Held w' := by
  have hself : w'.stmtObjs[k]? = some ⟨ptr, true⟩ := by
    rw [hobjs, List.getElem?_set_self (lt_of_getElem? hobj)]
  have hget : ∀ (k' p : Nat) (b : Bool), w'.stmtObjs[k']? = some ⟨some p, b⟩ →
      ∃ b', w.stmtObjs[k']? = some ⟨some p, b'⟩ := by
    intro k' p b hk'
    by_cases hkk : k = k'
    · subst hkk
      rw [hself] at hk'
      cases hk'
      exact ⟨false, hobj⟩
    · rw [hobjs, List.getElem?_set_ne hkk] at hk'
      exact ⟨b, hk'⟩
  refine ⟨fun k' p b hk' => ?_, fun k' k'' p b b' hk' hk'' => ?_, fun p hp => ?_⟩
  · obtain ⟨b', hk'⟩ := hget k' p b hk'
    rw [hstmts]
    exact hh.known k' p b' hk'
  · obtain ⟨c, hk'⟩ := hget k' p b hk'
    obtain ⟨c', hk''⟩ := hget k'' p b' hk''
    exact hh.inj k' k'' p c c' hk' hk''
  · rw [hrel, not_or, hh.live p (hstmts ▸ hp)]
    constructor
    · intro ⟨⟨k', hk'⟩, hne⟩
      have hkk : k ≠ k' := by
        rintro rfl
        rw [hobj] at hk'
        cases hk'
        exact hne rfl
      exact ⟨k', by rw [hobjs, List.getElem?_set_ne hkk, hk']⟩
    · intro ⟨k', hk'⟩
      have hkk : k ≠ k' := by
        rintro rfl
        rw [hself] at hk'
        cases hk'
      rw [hobjs, List.getElem?_set_ne hkk] at hk'
      refine ⟨⟨k', hk'⟩, ?_⟩
      rintro rfl
      exact hkk (hh.inj k k' p false false hobj hk')

/-! ### One call -/

theorem frugal_live {w : World Db} {d : Nat} {dc : DbCall Db} (hok : Frugal w (.db d dc)) :
    ¬ w.heap.Released (.db d) := by
  cases dc with
  | createCollation name comparator ret => exact hok.1
  | _ => exact hok

theorem clean_of_frugal {w : World Db} {op : Op Db} (hk : Kept w) (hd : InLedger w op) (hok : Frugal w op) :
    Clean w op := by
  intro r hr
  cases op with
  | «open» flags o => cases hr
  | db d dc =>
    exact World.needs_db_live hk.wf (frugal_live hok) dc r hr
  | stmt k sc =>
    cases sc with
    | close =>
      obtain ⟨⟨ptr, closed⟩, p, hobj, -, hptr, hr⟩ := mem_needs_stmt hr
      obtain rfl : closed = false := hd _ hobj
      obtain rfl : ptr = some p := hptr
      exact World.stmtNeeds_live hk.wf ((hk.held.live p (hk.held.known k p _ hobj)).2 ⟨k, hobj⟩) r hr
    | _ => exact hd.elim
  | _ => exact hd.elim

theorem not_failsOnLast_of_inLedger {w : World Db} {op : Op Db} (hd : InLedger w op) : ¬ FailsOnLast w op := by
  rintro ⟨k, t, _, _, _, _, _, rfl | rfl, -⟩ <;> exact hd

theorem inLedger_enter {w : World Db} {rs : List Res} {op : Op Db} : InLedger (w.enter rs) op ↔ InLedger w op := by
  cases op with
  | db d dc =>
    cases dc with
    | close => exact not_congr World.released_enter
    | _ => exact Iff.rfl
  | stmt k sc => cases sc <;> exact Iff.rfl
  | _ => exact Iff.rfl

theorem frugal_enter {w : World Db} {rs : List Res} {op : Op Db} : Frugal (w.enter rs) op ↔ Frugal w op := by
  cases op with
  | «open» flags o => cases o <;> exact Iff.rfl
  | db d dc =>
    cases dc with
    | createCollation name comparator ret => exact and_congr (not_congr World.released_enter) Iff.rfl
    | _ => exact not_congr World.released_enter
  | _ => exact Iff.rfl

theorem Kept.enter {w : World Db} (hk : Kept w) {rs : List Res} (hrs : ∀ r ∈ rs, w.heap.Has r ∧ ¬ w.heap.Released r) :
    Kept (w.enter rs) where
  wf := hk.wf.uses hrs
  tidy := hk.tidy.step (List.prefix_refl _) (fun _ x hx => .inr (.inr ⟨x, hx, rfl⟩))
    (fun _ hlt hlive => .inl ⟨hlt, fun hm => hlive (World.released_enter.2 hm)⟩) (fun _ x hx _ hr _ => ⟨x, hx, hr⟩)
  held := hk.held.same rfl rfl fun _ => World.released_enter

/-- Opening finalizes no statement. -/
theorem Held.nativeOpen {w : World Db} (hk : Kept w) (flags : Nat) (o : OpenOutcome) :
    Held (w.perform (.open flags o)) := by
  obtain ⟨hstmts, hrel⟩ := Heap.nativeOpen_stmts hk.wf flags o
  refine hk.held.same rfl hstmts fun p => ⟨hrel p, ?_⟩
  exact (World.grows_perform w (.open flags o)).released

theorem kept_dbCall {w : World Db} (hk : Kept w) {d : Nat} {x : SQLiteDb} {dc : DbCall Db} (hd : InLedger w (.db d dc))
    (hx : w.heap.dbs[d]? = some x) (hlive : ¬ w.heap.Released (.db d))
    (hok : ∀ name comparator ret, dc = .createCollation name comparator ret → ret = none)
    (hwf : (w.dbCall d x dc).heap.Wf) : Kept (w.dbCall d x dc) := by
  obtain ⟨y, hy, hz, -⟩ := hk.wf.openConn hx hlive
  cases dc with
  | close =>
    obtain ⟨-, -, hstmts, -, hmono, hrel⟩ := Heap.nativeClose_spec hk.wf hx hlive
    exact ⟨hwf, hk.tidy.nativeClose hk.wf hx hlive, hk.held.same rfl hstmts fun p => ⟨hrel p, hmono _⟩⟩
  | execForNumber sql o t =>
    cases o with
    | failed f => exact ⟨hwf, hk.tidy, hk.held.same rfl rfl fun _ => Iff.rfl⟩
    | empty => exact ⟨hwf, hk.tidy, hk.held.same rfl rfl fun _ => Iff.rfl⟩
    | stmt v =>
      -- the statement is made and finalized in one call
      have hval := Heap.nativeExecForDouble_stmt hy hz w.casts sql v t
      have hheap : (w.dbCall d x (.execForNumber sql (.stmt v) t)).heap =
          (nativeExecForDouble w.casts x.handle sql (.stmt v) t w.heap).2 := rfl
      rw [hval] at hheap
      have hrel : ∀ r, (w.dbCall d x (.execForNumber sql (.stmt v) t)).heap.Released r ↔
          w.heap.Released r ∨ r = .stmt w.heap.stmts.length := by
        intro r
        rw [hheap]
        simp [Heap.Released]
      refine ⟨hwf, hk.tidy.step ?_ ?_ ?_ ?_, hk.held.keep rfl ?_ ?_ ?_⟩
      · have hdbs : (w.dbCall d x (.execForNumber sql (.stmt v) t)).heap.dbs = w.heap.dbs := by rw [hheap]
        exact hdbs ▸ List.prefix_refl _
      · intro c z hz
        rw [hheap] at hz
        exact .inr (.inr ⟨z, hz, rfl⟩)
      · intro r hlt hn
        refine .inl ⟨?_, fun hm => hn ((hrel _).2 (.inl hm))⟩
        rw [hheap] at hlt
        exact hlt
      · intro c z hz r hr _
        rw [hheap]
        exact ⟨z, hz, hr⟩
      · rw [hheap]
        simp
      · intro p hp
        rw [hrel]
        apply or_iff_left
        intro he
        have hp' := Res.stmt.inj he
        omega
      · intro p hge hlt
        rw [hheap] at hlt
        simp only [List.length_append, List.length_singleton] at hlt
        obtain rfl : p = w.heap.stmts.length := by omega
        exact (hrel _).2 (.inr rfl)
  | prepare sql o =>
    cases o with
    | failed f => exact ⟨hwf, hk.tidy, hk.held.same rfl rfl fun _ => Iff.rfl⟩
    | empty => exact ⟨hwf, hk.tidy, hk.held.newNull rfl rfl fun _ => Iff.rfl⟩
    | stmt v =>
      rw [World.dbCall_prepare d hy] at hwf ⊢
      refine ⟨hwf, ?_, hk.held.newStmt rfl rfl (fun _ => Heap.released_newStmt) (hk.wf.core.fresh (Nat.lt_irrefl _))⟩
      exact hk.tidy.set hy rfl rfl rfl (.inr rfl) rfl fun _ => Heap.released_newStmt.2
  | createCollation name comparator ret =>
    obtain rfl := hok name comparator ret rfl
    obtain ⟨hstmts, hrel⟩ := Heap.newCallback_stmts x.handle comparator (.collation name.toLower) w.heap
    exact ⟨hwf, (hk.tidy.newCallback hy).1 _, hk.held.same rfl hstmts hrel⟩
  | createFunction name numArgs func ret =>
    cases ret with
    | none =>
      obtain ⟨hstmts, hrel⟩ := Heap.newCallback_stmts x.handle func (.function name.toLower numArgs) w.heap
      exact ⟨hwf, (hk.tidy.newCallback hy).1 _, hk.held.same rfl hstmts hrel⟩
    | some f =>
      -- the failed registration deletes the reference it has made
      refine ⟨hwf, (hk.tidy.newCallback hy).2, hk.held.same rfl rfl fun p => Heap.released_emit.trans ?_⟩
      rw [Heap.released_newGlobalRef]
      apply or_iff_left
      intro hm
      cases List.mem_singleton.1 hm
  | _ => exact hd.elim

theorem kept_call {w : World Db} {op : Op Db} (hk : Kept w) (hd : InLedger w op) (hok : Frugal w op) :
    Kept (call w op) := by
  have hclean := clean_of_frugal hk hd hok
  have hop : ∀ c, op ≠ .traceEvent c := by
    rintro c rfl
    exact hd
  have hhas := needs_has hk.wf hop
  have hwf := wf_call hk.wf hhas hclean (not_failsOnLast_of_inLedger hd)
  have hk₁ : Kept (w.enter (op.needs w)) := hk.enter fun r hr => ⟨hhas r hr, hclean r hr⟩
  have hd₁ : InLedger (w.enter (op.needs w)) op := inLedger_enter.2 hd
  have hok₁ : Frugal (w.enter (op.needs w)) op := frugal_enter.2 hok
  have hclean₁ := clean_of_frugal hk₁ hd₁ hok₁
  rw [call_of_clean hclean] at hwf ⊢
  clear hclean
  generalize w.enter (op.needs w) = w₁ at *
  cases op with
  | «open» flags o =>
    refine ⟨hwf, hk₁.tidy.nativeOpen flags ?_, Held.nativeOpen hk₁ flags o⟩
    rintro f handle rfl
    exact hok₁
  | db d dc =>
    cases hx : w₁.heap.dbs[d]? with
    | none =>
      rw [World.perform_db_none hx]
      exact hk₁
    | some x =>
      rw [World.perform_db hx] at hwf ⊢
      refine kept_dbCall hk₁ hd₁ hx (frugal_live hok₁) ?_ hwf
      rintro name comparator ret rfl
      exact hok₁.2 (lt_of_getElem? hx)
  | stmt k sc =>
    cases sc with
    | close =>
      cases hobj : w₁.stmtObjs[k]? with
      | none =>
        rw [World.perform_stmt_none hobj]
        exact hk₁
      | some o =>
        rcases o with ⟨ptr, closed⟩
        obtain rfl : closed = false := hd₁ _ hobj
        cases ptr with
        | none =>
          rw [World.perform_stmt_null hobj] at hwf ⊢
          exact ⟨hwf, hk₁.tidy, hk₁.held.close hobj rfl rfl fun p => (or_iff_left (Option.some_ne_none p).symm).symm⟩
        | some p =>
          cases hp : w₁.heap.stmts[p]? with
          | none =>
            unfold World.perform
            simp only [hobj, hp]
            exact hk₁
          | some c =>
            cases hv : w₁.vdbes[p]? with
            | none =>
              unfold World.perform
              simp only [hobj, hp, hv]
              exact hk₁
            | some v =>
              rw [World.perform_stmt hobj hp hv] at hwf ⊢
              have hlive : ¬ w₁.heap.Released (.stmt p) :=
                hclean₁ _ (by simp [Op.needs, hobj, StmtCall.native, World.stmtNeeds, hp])
              obtain ⟨-, hdr⟩ := Heap.sqlite3Finalize_spec hk₁.wf hp hlive
              refine ⟨hwf, hk₁.tidy.sqlite3Finalize hk₁.wf hp hlive, hk₁.held.close hobj rfl hdr.stmts fun q => ?_⟩
              constructor
              · intro hm
                rcases hdr.only _ hm with hm | he | he | ⟨_, _, he, _⟩
                · exact .inl hm
                · exact .inr (congrArg some (Res.stmt.inj he).symm)
                all_goals cases he
              · rintro (hm | he)
                · exact hdr.mono _ hm
                · cases he
                  exact hdr.released
    | _ => exact hd.elim
  | _ => exact hd.elim

/-- What a call that has thrown has acquired it has released again. -/
theorem thrown_perform {w w₀ : World Db} {op : Op Db} (hd : InLedger w₀ op) (hok : Frugal w op) (hw : w.thrown = []) :
    (w.perform op).mark = w.mark ∧ ((w.perform op).thrown ≠ [] →
      ∃ es, (w.perform op).heap.log = w.heap.log ++ es ∧ ∀ r, .acquire r ∈ es → .release r ∈ es) := by
  have hsame : w.thrown ≠ [] → ∃ es, w.heap.log = w.heap.log ++ es ∧ ∀ r, .acquire r ∈ es → .release r ∈ es :=
    fun hne => absurd hw hne
  cases op with
  | «open» flags o =>
    refine ⟨rfl, fun hne => ?_⟩
    cases o with
    | failed f handle =>
      obtain rfl : handle = false := hok
      exact ⟨[], (List.append_nil _).symm, fun r hr => nomatch hr⟩
    | opened readonly timeout =>
      have hclose : ∃ es, (w.heap.newConn.sqlite3CloseV2 w.heap.conns.length).log = w.heap.log ++ es ∧
          ∀ r, .acquire r ∈ es → .release r ∈ es := by
        rw [Heap.newConn_close]
        exact ⟨_, rfl, fun r hr => by simpa using hr⟩
      revert hne
      show thrownBy (nativeOpen flags (.opened readonly timeout) w.heap).1 ≠ [] →
        ∃ es, (nativeOpen flags (.opened readonly timeout) w.heap).2.log = w.heap.log ++ es ∧ _
      unfold nativeOpen
      dsimp only
      split
      · exact fun _ => hclose
      · split
        · exact fun _ => hclose
        · exact fun hne => absurd rfl hne
  | db d dc =>
    cases hx : w.heap.dbs[d]? with
    | none =>
      rw [World.perform_db_none hx]
      exact ⟨rfl, hsame⟩
    | some x =>
      rw [World.perform_db hx]
      cases dc with
      | close => exact ⟨rfl, fun hne => absurd hw hne⟩
      | execForNumber sql o t =>
        refine ⟨rfl, fun hne => ?_⟩
        cases o with
        | failed f => exact ⟨[], (List.append_nil _).symm, fun r hr => nomatch hr⟩
        | empty => exact absurd rfl hne
        | stmt v =>
          refine absurd ?_ hne
          show thrownBy (nativeExecForDouble w.casts x.handle sql (.stmt v) t w.heap).1 = []
          unfold nativeExecForDouble nativePrepare
          dsimp only
          cases w.heap.conns[x.handle]? <;> rfl
      | prepare sql o =>
        cases o with
        | failed f => exact ⟨rfl, fun _ => ⟨[], (List.append_nil _).symm, fun r hr => nomatch hr⟩⟩
        | empty => exact ⟨rfl, hsame⟩
        | stmt v =>
          unfold World.dbCall nativePrepare
          dsimp only
          cases hy : w.heap.conns[x.handle]? with
          | none => exact ⟨rfl, hsame⟩
          | some y => exact ⟨rfl, fun hne => absurd hw hne⟩
      | createCollation name comparator ret =>
        obtain rfl := hok.2 (lt_of_getElem? hx)
        exact ⟨rfl, fun hne => absurd rfl hne⟩
      | createFunction name numArgs func ret =>
        cases ret with
        | none => exact ⟨rfl, fun hne => absurd rfl hne⟩
        | some f =>
          refine ⟨rfl, fun _ => ⟨[.acquire (.ref w.heap.refs.length), .release (.ref w.heap.refs.length)], ?_, ?_⟩⟩
          · exact List.append_assoc _ _ _
          · exact fun r hr => by simpa using hr
      | _ => exact hd.elim
  | stmt k sc =>
    cases sc with
    | close =>
      unfold World.perform
      dsimp only
      split
      · split
        · exact ⟨rfl, fun hne => absurd hw hne⟩
        · exact ⟨rfl, hsame⟩
      · exact ⟨rfl, hsame⟩
      · exact ⟨rfl, hsame⟩
    | _ => exact hd.elim
  | _ => exact hd.elim

theorem thrown_call {w : World Db} {op : Op Db} (hk : Kept w) (hd : InLedger w op) (hok : Frugal w op)
    (hne : (call w op).thrown ≠ []) (r : Res) (hr : .acquire r ∈ (call w op).heap.log.drop (call w op).mark) :
    ¬ Live (call w op).heap.log r := by
  rw [call_of_clean (clean_of_frugal hk hd hok)] at hne hr ⊢
  obtain ⟨hmark, hes⟩ := thrown_perform (w := w.enter (op.needs w)) hd (frugal_enter.2 hok) rfl
  obtain ⟨es, hlog, hrel⟩ := hes hne
  have henter : (w.enter (op.needs w)).heap.log = w.heap.log ++ (op.needs w).map .use := rfl
  rw [hmark, hlog, henter, List.append_assoc] at hr
  rw [show (w.enter (op.needs w)).mark = w.heap.log.length from rfl, List.drop_left] at hr
  have hmem : .acquire r ∈ es := by
    rcases List.mem_append.1 hr with hr | hr
    · obtain ⟨_, _, he⟩ := List.mem_map.1 hr
      cases he
    · exact hr
  intro hlive
  apply hlive.2
  rw [hlog]
  exact List.mem_append_right _ (hrel r hmem)

/-- A call that throws and keeps something it has acquired. -/
theorem not_balanced_of_kept {w w' : World Db} (es : List (Event Res)) {r : Res} (hne : w'.thrown ≠ [])
    (hmark : w'.mark = w.heap.log.length) (hlog : w'.heap.log = w.heap.log ++ es) (hr : .acquire r ∈ es)
    (hlive : ¬ w'.heap.Released r) : ¬ Balanced w' := by
  intro hb
  have hmem : .acquire r ∈ w'.heap.log := by
    rw [hlog]
    exact List.mem_append_right _ hr
  refine hb.thrown hne r ?_ ⟨hmem, hlive⟩
  rw [hmark, hlog, List.drop_left]
  exact hr

theorem not_balanced_of_not_frugal {w : World Db} {op : Op Db} (hk : Kept w) (hd : InLedger w op)
    (hok : ¬ Frugal w op) : ¬ Balanced (call w op) := by
  have hfresh : ∀ {r : Res}, ¬ w.heap.Has r → ¬ w.heap.Released r := hk.wf.core.fresh
  cases op with
  | «open» flags o =>
    cases o with
    | opened readonly timeout => exact absurd trivial hok
    | failed f handle =>
      obtain rfl : handle = true := by
        cases handle with
        | true => rfl
        | false => exact absurd rfl hok
      have hclean : Clean w (.open flags (.failed f true)) := fun _ hr => absurd hr List.not_mem_nil
      rw [call_of_clean hclean]
      refine not_balanced_of_kept (w := w) (r := .handle w.heap.conns.length)
        [.acquire (.handle w.heap.conns.length), .acquire (.conn w.heap.conns.length)]
        (List.cons_ne_nil _ _) rfl ?_ List.mem_cons_self ?_
      · show (w.heap.log ++ [].map Event.use) ++ _ = _
        rw [List.map_nil, List.append_nil]
        rfl
      · have hnot := hfresh (r := .handle w.heap.conns.length) (Nat.lt_irrefl _)
        simpa [World.perform, World.enter, nativeOpen, Heap.newConn, Heap.emit, Heap.Released] using hnot
  | db d dc =>
    by_cases hrel : w.heap.Released (.db d)
    · have hlt : d < w.heap.dbs.length := hk.wf.core.known _ hrel
      have hdirty : ¬ Clean w (.db d dc) := fun hclean =>
        hclean (.db d) (by simp [Op.needs, List.getElem?_eq_getElem hlt]) hrel
      exact fun hb => not_sound_of_not_clean hdirty hb.sound
    · cases dc with
      | createCollation name comparator ret =>
        have hkept : ¬ (d < w.heap.dbs.length → ret = none) := fun h => hok ⟨hrel, h⟩
        rw [Classical.not_imp] at hkept
        obtain ⟨hlt, hret⟩ := hkept
        obtain ⟨f, rfl⟩ := Option.ne_none_iff_exists'.1 hret
        have hx := List.getElem?_eq_getElem hlt
        have hclean : Clean w (.db d (.createCollation name comparator (some f))) :=
          World.needs_db_live hk.wf hrel _
        rw [call_of_clean hclean, World.perform_db (w := w.enter _) hx]
        refine not_balanced_of_kept (w := w) (r := .ref w.heap.refs.length)
          ((Op.needs w (.db d (.createCollation name comparator (some f)))).map .use ++
            [.acquire (.ref w.heap.refs.length)])
          (List.cons_ne_nil _ _) rfl ?_ (List.mem_append_right _ (List.mem_singleton_self _)) ?_
        · rw [← List.append_assoc]
          rfl
        · show ¬ ((w.enter _).heap.newGlobalRef comparator _).Released (.ref w.heap.refs.length)
          rw [Heap.released_newGlobalRef, World.released_enter]
          exact hfresh (Nat.lt_irrefl _)
      | _ => exact absurd hrel hok
  | _ => exact absurd trivial hok

/-- Over such calls the ledger stays balanced exactly when no failed open hands out a connection, no comparator is
refused, and no closed database is used. -/
theorem balanced_iff_frugal (casts : Casts) (ops : List (Op Db))
    (hdom : Runs.Guarded call InLedger (World.start casts) ops) :
    Runs.Always call Balanced (World.start casts) ops ↔ Runs.Guarded call Frugal (World.start casts) ops := by
  refine Runs.always_iff_guarded (I := fun w => Kept w ∧ (w.thrown ≠ [] →
    ∀ r, .acquire r ∈ w.heap.log.drop w.mark → ¬ Live w.heap.log r)) ?_ ?_ ?_ ⟨kept_start casts, ?_⟩ hdom
  · exact fun w op h hd hok => ⟨kept_call h.1 hd hok, thrown_call h.1 hd hok⟩
  · exact fun w h => ⟨h.1.wf.core.sound, h.2, h.1.registered, h.1.closed⟩
  · exact fun w op h hd hok => not_balanced_of_not_frugal h.1 hd hok
  · exact fun hne => absurd rfl hne

/-- A database with a comparator and a statement, everything closed in the end, the statement last. -/
def openAndClose : List (Op Unit) :=
  [.open 6 (.opened false none), .db 0 (.createCollation "NOCASE" 1 none),
    .db 0 (.prepare "SELECT 1" (.stmt (.prepared (fun _ _ => [[.integer 1]]) [[49]] 0))), .db 0 .close, .stmt 0 .close]

theorem balanced_openAndClose :
    Runs.Guarded call InLedger (World.start .ofIntegers) openAndClose ∧
      Runs.Always call Balanced (World.start .ofIntegers) openAndClose := by
  have hdom : Runs.Guarded call InLedger (World.start .ofIntegers) openAndClose := by
    refine ⟨trivial, trivial, trivial, ?_, fun o ho => ?_, trivial⟩
    · show ¬ Heap.Released _ _
      decide
    · cases ho
      rfl
  refine ⟨hdom, (balanced_iff_frugal .ofIntegers _ hdom).2 ⟨trivial, ⟨?_, fun _ => rfl⟩, ?_, ?_, trivial, trivial⟩⟩
  all_goals
    show ¬ Heap.Released _ _
    decide

/-- A file that cannot be opened. -/
def failedOpen : List (Op Unit) := [.open 6 (.failed ⟨14, "unable to open database file", by decide⟩ true)]

/-- The connection that `sqlite3_open_v2` has handed out is lost. -/
theorem not_balanced_failedOpen : ¬ Runs.Always call Balanced (World.start .ofIntegers) failedOpen := by
  intro h
  exact h.last.thrown (List.cons_ne_nil _ _) (.handle 0) (by decide) (by decide)

end Sqlite4a
