import Sqlite4a.PagerCommit
import Sqlite4a.Runs

/-!
# The pager as a store

What the pager is for: a database of pages with one write transaction at a time, savepoints inside of it, and commit and
rollback.  The pager does what the store does in every run, and the content that was committed last is found again after
every power failure.  A commit may give page 1 another change counter; the store with the change counter is a relation.
-/

namespace Sqlite4a

/-! ### The store -/

section

variable {α : Type}

/-- The committed database, the database as the open transaction sees it, and its savepoints. -/
structure Store (α : Type) where
  committed : Image α
  work : Image α
  saves : List (Image α)

def Image.write (im : Image α) (pgno : Nat) (data : α) : Image α :=
  ⟨max im.size pgno, Function.update im.page pgno data⟩

def Store.step (t : Store α) : PagerAction α → Store α
  | .write pgno data => { t with work := t.work.write pgno data }
  | .openSavepoint nSavepoint => { t with saves := t.saves ++ List.replicate (nSavepoint - t.saves.length) t.work }
  | .release iSavepoint => { t with saves := t.saves.take iSavepoint }
  | .rollbackTo nNew =>
    if nNew ≤ t.saves.length then
      { t with saves := t.saves.take nNew, work := (t.saves.take nNew).getLast?.getD t.committed }
    else t
  | .commitPhaseOne nPage => { t with work := { t.work with size := nPage } }
  | .commitPhaseTwo => ⟨t.work, t.work, []⟩
  | .rollback => ⟨t.committed, t.committed, []⟩
  | _ => t

/-- The image with another change counter in page 1. -/
def Image.recount [PageContent α] (im : Image α) (c : UInt32) : Image α :=
  { im with page := Function.update im.page 1 (PageContent.putChangeCounter c (im.page 1)) }

/-- An action of the store, where a commit may set the change counter. -/
inductive Store.Step [PageContent α] (t : Store α) : PagerAction α → Store α → Prop
  | plain (a : PagerAction α) : Step t a (t.step a)
  | counter (nPage : Nat) (c : UInt32) :
    Step t (.commitPhaseOne nPage) { t with work := Image.recount { t.work with size := nPage } c }

inductive Store.Run [PageContent α] : Store α → List (PagerAction α) → Store α → Prop
  | nil {t} : Run t [] t
  | cons {t t₁ t₂ a as} (h : t.Step a t₁) (hrest : Run t₁ as t₂) : Run t (a :: as) t₂

/-- The same content, apart from the change counter of page 1. -/
def SamePage [PageContent α] (p : Nat) (x y : α) : Prop :=
  x = y ∨ p = 1 ∧ ∀ c, PageContent.putChangeCounter c x = PageContent.putChangeCounter c y

structure Image.Same [PageContent α] (im im' : Image α) : Prop where
  size : im.size = im'.size
  page : ∀ p, SamePage p (im.page p) (im'.page p)

structure Store.Same [PageContent α] (t t' : Store α) : Prop where
  committed : t.committed.Same t'.committed
  work : t.work.Same t'.work
  saves : List.Forall₂ Image.Same t.saves t'.saves

/-- What is seen through the pager. -/
structure View (im : Image α) (s : PagerSys α) : Prop where
  size : s.pager.dbSize = im.size
  page : ∀ p, 1 ≤ p → p ≤ im.size → s.content p = im.page p

/-- The states of the pager and the states of the store. -/
inductive Corresponds (t : Store α) (s : PagerSys α) : Prop
  | reader (h : Idle t.committed s) (hstate : s.pager.eState = .reader) (hsp : s.pager.aSavepoint = [])
      (hwork : t.work = t.committed) (hsaves : t.saves = [])
  | locked (h : Locked t.committed s) (hsaves : Saves t.committed.size [] [] s t.saves) (hview : View t.work s)
  | writing {segs tail} (h : Writing t.committed segs tail s t.saves) (hview : View t.work s)
  | finished {segs} (h : Finished t.committed segs s) (hview : View t.work s)

variable {t : Store α} {s s' : PagerSys α} {im base : Image α}

/-- A database file that has been closed. -/
structure Image.Stored (im : Image α) (d : Disk α) : Prop where
  journal : d.journal = []
  file : ∀ p, 1 ≤ p → p ≤ im.size → d.db p = im.page p ∧ d.dbSynced p = true
  sizeMin : im.size ≤ d.dbPagesMin
  dbPages : im.size ≤ d.dbPages

/-- A pager that has just been opened, in `PAGER_READER`. -/
def openPager (d : Disk α) (dbSize : Nat) : PagerSys α where
  pager := {
    eState := .reader
    changeCountDone := false
    dbFileVers := 0
    dbSize := dbSize
    dbOrigSize := dbSize
    dbFileSize := dbSize
    cache := fun _ => none
    isOpenJfd := false
    nRec := 0
    journalHdr := 0
    journalOff := 0
    pInJournal := fun _ => false
    aSavepoint := []
    sjfd := [] }
  disk := d
  trace := []

theorem Idle.content (h : Idle im s) {p : Nat} (hp : p ≤ im.size) : s.content p = s.disk.db p := by
  cases hc : s.pager.cache p with
  | none => exact content_none hc
  | some pPg => exact (content_some hc).trans (h.data p pPg hc hp)

theorem Idle.view (h : Idle im s) : View im s :=
  ⟨h.dbSize, fun p h1 hp => (h.content hp).trans (h.file p h1 hp).1⟩

theorem Corresponds.view (h : Corresponds t s) : View t.work s := by
  cases h with
  | reader h _ _ hwork _ => exact hwork ▸ h.view
  | locked _ _ hview => exact hview
  | writing _ hview => exact hview
  | finished _ hview => exact hview

theorem Corresponds.recoverable (h : Corresponds t s) : Recoverable t.committed s.disk := by
  cases h with
  | reader h => exact h.recoverable
  | locked h => exact h.recoverable
  | @writing segs _ h => exact ⟨segs, h.txn.saved⟩
  | @finished segs h => exact ⟨segs, h.saved⟩

theorem Corresponds.trace (h : Corresponds t s) : ∀ d ∈ s.trace, Recoverable t.committed d := by
  cases h with
  | reader h => exact h.trace
  | locked h => exact h.trace
  | writing h => exact h.txn.trace
  | finished h => exact h.trace

/-- The trace starts anew. -/
theorem Corresponds.clear (h : Corresponds t s) : Corresponds t { s with trace := [] } := by
  cases h with
  | reader h hstate hsp hwork hsaves => exact .reader { h with trace := by simp } hstate hsp hwork hsaves
  | locked h hsaves hview =>
    exact .locked { h with trace := by simp } ⟨hsaves.each, hsaves.nested⟩ ⟨hview.size, hview.page⟩
  | writing h hview =>
    exact .writing ⟨{ h.txn with trace := by simp, page := fun p pPg hc => { h.txn.page p pPg hc with } },
      ⟨h.saves.each, h.saves.nested⟩⟩ ⟨hview.size, hview.page⟩
  | finished h hview => exact .finished { h with trace := by simp } ⟨hview.size, hview.page⟩

theorem View.congr (h : View im s) (hsize : s'.pager.dbSize = s.pager.dbSize) (hcontent : ∀ p, p ≤ s.pager.dbSize →
    s'.content p = s.content p) : View im s' :=
  ⟨hsize.trans h.size, fun p h1 hp => (hcontent p (h.size.symm ▸ hp)).trans (h.page p h1 hp)⟩

theorem Image.Stored.corresponds {d : Disk α} (h : im.Stored d) : Corresponds ⟨im, im, []⟩ (openPager d im.size) := by
  have hnone : ∀ p, (openPager d im.size).pager.cache p = none := fun _ => rfl
  refine .reader ⟨rfl, rfl, rfl, h.journal, h.file, ?_, ?_, ?_, h.sizeMin, h.dbPages, by simp [openPager]⟩
      rfl rfl rfl rfl
  all_goals
    intro p pPg hc
    rw [hnone] at hc
    cases hc

/-- An action that leaves the first `n` savepoints open. -/
def PagerAction.Keeps (n : Nat) : PagerAction α → Prop
  | .release iSavepoint => n ≤ iSavepoint
  | .rollbackTo nNew => n ≤ nNew
  | .commitPhaseTwo => False
  | .rollback => False
  | _ => True

theorem Store.step_keeps {n : Nat} {saves : List (Image α)} (hlen : saves.length = n) {a : PagerAction α}
    (ha : a.Keeps n)
    (h : t.saves.take n = saves) : (t.step a).saves.take n = saves := by
  have hle : n ≤ t.saves.length := by
    have := congrArg List.length h
    rw [List.length_take] at this
    omega
  cases a with
  | openSavepoint m =>
    show (t.saves ++ _).take n = saves
    rw [List.take_append_of_le_length hle, h]
  | release i =>
    show (t.saves.take i).take n = saves
    rw [List.take_take, Nat.min_eq_left ha, h]
  | rollbackTo m =>
    rw [Store.step]
    split
    · show (t.saves.take m).take n = saves
      rw [List.take_take, Nat.min_eq_left ha, h]
    · exact h
  | commitPhaseTwo => exact ha.elim
  | rollback => exact ha.elim
  | _ => exact h

/-! ### The store with the change counter -/

section

variable [PageContent α] {im' : Image α} {t' t₁ : Store α} {a : PagerAction α}

theorem Image.Same.rfl : im.Same im := ⟨Eq.refl _, fun _ => .inl (Eq.refl _)⟩

theorem Image.Same.resize (h : im.Same im') (n : Nat) : Image.Same { im with size := n } { im' with size := n } :=
  ⟨Eq.refl _, h.page⟩

theorem Image.Same.recount (h : im.Same im') (c : UInt32) : (im.recount c).Same im' := by
  refine ⟨h.size, fun p => ?_⟩
  show SamePage p (Function.update im.page 1 _ p) _
  by_cases hp : p = 1
  · subst hp
    rw [Function.update_self]
    refine .inr ⟨Eq.refl _, fun d => ?_⟩
    rw [PageContent.put_put]
    rcases h.page 1 with heq | ⟨-, hput⟩
    · rw [heq]
    · exact hput d
  · rw [Function.update_of_ne hp]
    exact h.page p

theorem Image.Same.write (h : im.Same im') (pgno : Nat) (data : α) :
    (im.write pgno data).Same (im'.write pgno data) := by
  refine ⟨congrArg (max · pgno) h.size, fun p => ?_⟩
  show SamePage p (Function.update im.page pgno data p) (Function.update im'.page pgno data p)
  by_cases hp : p = pgno
  · rw [hp, Function.update_self, Function.update_self]
    exact .inl (Eq.refl _)
  · rw [Function.update_of_ne hp, Function.update_of_ne hp]
    exact h.page p

theorem Store.Same.rollbackTo (h : t.Same t') (n : Nat) :
    ((t.saves.take n).getLast?.getD t.committed).Same ((t'.saves.take n).getLast?.getD t'.committed) := by
  have hlast := forall₂_getLast? (List.forall₂_take n h.saves)
  generalize (t.saves.take n).getLast? = o at hlast
  generalize (t'.saves.take n).getLast? = o' at hlast
  cases hlast with
  | none => exact h.committed
  | some hsame => exact hsame

/-- The store never looks at the change counter. -/
theorem Store.Same.step (h : t.Same t') (a : PagerAction α) : (t.step a).Same (t'.step a) := by
  have hlen : t.saves.length = t'.saves.length := h.saves.length_eq
  cases a with
  | write p data => exact { h with work := h.work.write p data }
  | openSavepoint n =>
    refine { h with saves := List.rel_append h.saves ?_ }
    rw [hlen]
    exact forall₂_replicate h.work _
  | release i => exact { h with saves := List.forall₂_take i h.saves }
  | rollbackTo n =>
    simp only [Store.step, hlen]
    by_cases hn : n ≤ t'.saves.length
    · rw [if_pos hn, if_pos hn]
      exact ⟨h.committed, h.rollbackTo n, List.forall₂_take n h.saves⟩
    · rw [if_neg hn, if_neg hn]
      exact h
  | commitPhaseOne n => exact { h with work := h.work.resize n }
  | commitPhaseTwo => exact ⟨h.work, h.work, .nil⟩
  | rollback => exact ⟨h.committed, h.committed, .nil⟩
  | _ => exact h

theorem Store.Step.same (h : t.Step a t₁) (hs : t.Same t') : t₁.Same (t'.step a) := by
  cases h with
  | plain => exact hs.step a
  | counter n c => exact { hs with work := (hs.work.resize n).recount c }

/-- The store with the change counter is the store, apart from the change counter. -/
theorem Store.Run.same {as : List (PagerAction α)} (h : t.Run as t₁) (hs : t.Same t') :
    t₁.Same (Runs.run Store.step t' as) := by
  induction h generalizing t' with
  | nil => exact hs
  | cons hstep _ ih => exact ih (hstep.same hs)

theorem Store.Step.saves (h : t.Step a t₁) : t₁.saves = (t.step a).saves := by
  cases h <;> rfl

theorem Store.Run.keeps {n : Nat} {saves : List (Image α)} (hlen : saves.length = n) {as : List (PagerAction α)}
    (h : t.Run as t₁) (has : ∀ a ∈ as, a.Keeps n) (hs : t.saves.take n = saves) : t₁.saves.take n = saves := by
  induction h with
  | nil => exact hs
  | cons hstep _ ih =>
    refine ih (fun a' ha' => has a' (List.mem_cons_of_mem _ ha')) ?_
    rw [hstep.saves]
    exact Store.step_keeps hlen (has _ (List.mem_cons_self ..)) hs

theorem Store.Run.append_singleton {as : List (PagerAction α)} (h : t.Run (as ++ [a]) t₁) :
    ∃ t₂, t.Run as t₂ ∧ t₂.Step a t₁ := by
  induction as generalizing t with
  | nil =>
    obtain _ | ⟨hstep, hrest⟩ := h
    cases hrest
    exact ⟨t, .nil, hstep⟩
  | cons b as ih =>
    obtain _ | ⟨hstep, hrest⟩ := h
    obtain ⟨t₂, hrun, hlast⟩ := ih hrest
    exact ⟨t₂, .cons hstep hrun, hlast⟩

end

/-! ### The cache on its own -/

theorem Idle.recycle (h : Idle im s) (p : Nat) :
    Idle im { s with pager := { s.pager with cache := Function.update s.pager.cache p none } } := by
  exact { h with
    pos := fun q pg hq => h.pos q pg (uncached_some hq)
    clean := fun q pg hq => h.clean q pg (uncached_some hq)
    data := fun q pg hq => h.data q pg (uncached_some hq) }

theorem Finished.recycle {segs : List (List (Nat × α))} (h : Finished base segs s) (p : Nat) :
    Finished base segs { s with pager := { s.pager with cache := Function.update s.pager.cache p none } } := by
  exact { h with
    pos := fun q pg hq => h.pos q pg (uncached_some hq)
    page := fun q pg hq => h.page q pg (uncached_some hq)
    data := fun q pg hq => h.data q pg (uncached_some hq) }

/-- A page whose content is in the file may leave the cache. -/
theorem content_recycle {p : Nat} {pPg : PgHdr α} (hc : s.pager.cache p = some pPg) (hdata : pPg.data = s.disk.db p) :
    PagerSys.content { s with pager := { s.pager with cache := Function.update s.pager.cache p none } } =
        s.content := by
  funext q
  by_cases hqp : q = p
  · subst hqp
    rw [content_some hc, hdata]
    exact content_none (Function.update_self _ _ _)
  · show (Function.update s.pager.cache p none q).elim (s.disk.db q) PgHdr.data = _
    rw [Function.update_of_ne hqp]
    rfl

theorem Corresponds.recycle (h : Corresponds t s) {p : Nat} {pPg : PgHdr α} (hc : s.pager.cache p = some pPg)
    (hclean : pPg.dirty = false) :
    Corresponds t { s with pager := { s.pager with cache := Function.update s.pager.cache p none } } := by
  have hcontent : (pPg.data = s.disk.db p ∨ s.pager.dbSize < p) → ∀ q, q ≤ s.pager.dbSize →
      PagerSys.content { s with pager := { s.pager with cache := Function.update s.pager.cache p none } } q =
          s.content q := by
    rintro (hdata | hlt) q hq
    · rw [content_recycle hc hdata]
    · show (Function.update s.pager.cache p none q).elim (s.disk.db q) PgHdr.data = _
      rw [Function.update_of_ne (by omega)]
      rfl
  cases h with
  | reader h hstate hsp hwork hsaves => exact .reader (h.recycle p) hstate hsp hwork hsaves
  | locked h hsaves hview =>
    have hsame := hcontent <| (Nat.lt_or_ge s.pager.dbSize p).symm.imp (fun hle => h.data p pPg hc (h.dbSize ▸ hle)) id
    exact .locked { h.toIdle.recycle p with state := h.state, orig := h.orig, dbFileSize := h.dbFileSize }
      (hsaves.congr rfl rfl (Nat.le_refl _) fun q _ hq => .inr (hsame q hq)) (hview.congr rfl hsame)
  | writing h hview =>
    have hsame := hcontent <| (Nat.lt_or_ge s.pager.dbSize p).symm.imp
        (fun hle => (h.txn.page p pPg hc).clean hclean hle) id
    exact .writing ⟨h.txn.recycle hc hclean, h.saves.congr rfl rfl (Nat.le_refl _) fun q _ hq => .inr (hsame q hq)⟩
      (hview.congr rfl hsame)
  | finished h hview =>
    have hsame := hcontent <| (Nat.lt_or_ge s.pager.dbSize p).symm.imp (fun hle => h.data p pPg hc hle) id
    exact .finished (h.recycle p) (hview.congr rfl hsame)

theorem View.write (hview : View im s) {p : Nat} {data : α} (hp : p ≤ s.pager.dbSize + 1)
    (hsize : s'.pager.dbSize = max s.pager.dbSize p)
    (hcontent : ∀ q, q ≤ max s.pager.dbSize p → s'.content q = Function.update s.content p data q) :
    View (im.write p data) s' := by
  refine ⟨hsize.trans (by rw [hview.size]; rfl), fun q h1 hq => ?_⟩
  have hq' : q ≤ max im.size p := hq
  rw [hcontent q (by rw [hview.size]; exact hq')]
  show _ = Function.update im.page p data q
  by_cases hqp : q = p
  · rw [hqp, Function.update_self, Function.update_self]
  · rw [Function.update_of_ne hqp, Function.update_of_ne hqp]
    rw [hview.size] at hp
    exact hview.page q h1 (by omega)

/-! ### Transactions -/

theorem Corresponds.begin (h : Corresponds t s) (hstate : s.pager.eState = .reader) :
    Corresponds t (sqlite3PagerBegin s) := by
  cases h with
  | reader h _ hsp hwork hsaves =>
    have hidle : Idle t.committed (sqlite3PagerBegin s) := { h with }
    refine .locked { hidle with state := rfl, orig := h.dbSize, dbFileSize := h.dbSize } ⟨?_, ?_⟩ (hwork ▸ hidle.view)
    · show List.Forall₂ _ s.pager.aSavepoint _
      rw [hsp, hsaves]
      exact .nil
    · show s.pager.aSavepoint.Pairwise Nested
      rw [hsp]
      exact .nil
  | locked h => rw [h.state] at hstate; cases hstate
  | writing h => rcases h.txn.state with ⟨hs, -⟩ | hs <;> rw [hs] at hstate <;> cases hstate
  | finished h => rw [h.eState] at hstate; cases hstate

/-- In a state that may still write. -/
theorem Corresponds.writes {P : Prop} (h : Corresponds t s) (hstate : s.pager.eState.writes = true)
    (hlocked : Locked t.committed s → Saves t.committed.size [] [] s t.saves → View t.work s → P)
    (hwriting : ∀ segs tail, Writing t.committed segs tail s t.saves → View t.work s → P) : P := by
  cases h with
  | reader h hs =>
    rw [hs] at hstate
    cases hstate
  | locked h hsaves hview => exact hlocked h hsaves hview
  | @writing segs tail h hview => exact hwriting segs tail h hview
  | finished h =>
    rw [h.eState] at hstate
    cases hstate

theorem savepointOk_new {N : Nat} {segs : List (List (Nat × α))} {tail : List (Nat × α)} {sp : PagerSavepoint}
    (hview : View im s) (hN : N ≤ s.pager.dbSize) (hn : sp.nOrig = s.pager.dbSize)
    (hoff : sp.iOffset = (journalItems N segs).length + 1 + tail.length) (hhdr : sp.iHdrOffset = 0)
    (hsub : sp.iSubRec = s.pager.sjfd.length) (hnone : ∀ p, sp.pInSavepoint p = false) :
    SavepointOk N segs tail s.pager.sjfd s.content s.pager.dbSize sp im := by
  refine ⟨hn.trans hview.size, hn ▸ hN, Nat.le_of_eq hn, Nat.le_of_eq hsub, [], ?_, ?_, ?_⟩
  · rw [hoff, hhdr]
    exact .inTail (List.append_nil _).symm
  · rw [hsub, List.drop_length]
    exact .nil fun p hp => hview.page p hp.1 (by rw [← hview.size, ← hn]; exact hp.2)
  · intro p _
    rw [hsub, List.drop_length, hnone p]
    simp

/-! ### Savepoints -/

theorem Corresponds.openSavepoint (h : Corresponds t s) (hstate : s.pager.eState.writes = true) (n : Nat) :
    Corresponds (t.step (.openSavepoint n)) (sqlite3PagerOpenSavepoint s n) := by
  have hview : View t.work (sqlite3PagerOpenSavepoint s n) := ⟨h.view.size, h.view.page⟩
  refine h.writes hstate (fun h hsaves hv => ?_) fun segs tail h hv => ?_
  · refine .locked { h with } ?_ hview
    refine hsaves.openSavepoint (savepointOk_new hv (Nat.le_of_eq h.dbSize.symm) rfl ?_ rfl rfl fun _ => rfl) rfl
      (fun _ => rfl) _ (by rw [← hsaves.each.length_eq]; rfl) rfl rfl rfl
    simp [h.isOpen, JOURNAL_HDR_SZ]
  · refine .writing ⟨{ h.txn with page := fun p pPg hc => { h.txn.page p pPg hc with } }, ?_⟩ hview
    refine h.saves.openSavepoint (savepointOk_new hv h.txn.dbSize rfl ?_ rfl rfl fun _ => rfl) rfl
      (fun _ => rfl) _ (by rw [← h.saves.each.length_eq]; rfl) rfl rfl rfl
    have hoff := h.txn.off
    rw [h.txn.hdr] at hoff
    rw [← hoff]
    exact if_pos ⟨h.txn.isOpen, by omega⟩

theorem Corresponds.release (h : Corresponds t s) (hstate : s.pager.eState.writes = true) (i : Nat) :
    Corresponds (t.step (.release i)) (releaseSavepoint s i) := by
  rw [releaseSavepoint]
  by_cases hi : i < s.pager.aSavepoint.length
  · rw [if_pos hi]
    -- the sub-journal is emptied with the last savepoint
    have htake : ∀ {N : Nat} {segs : List (List (Nat × α))} {tail : List (Nat × α)}, Saves N segs tail s t.saves →
        Saves N segs tail { s with pager := { s.pager with
          aSavepoint := s.pager.aSavepoint.take i, sjfd := if i = 0 then [] else s.pager.sjfd } } (t.saves.take i) := by
      intro N segs tail hsaves
      by_cases h0 : i = 0
      · subst h0
        exact ⟨.nil, .nil⟩
      · exact hsaves.take i rfl (if_neg h0) rfl rfl
    refine h.writes hstate (fun h hsaves hv => ?_) fun segs tail h hv => ?_
    · refine .locked { h with sjfd := ?_ } (htake hsaves) ⟨hv.size, hv.page⟩
      show (if i = 0 then [] else s.pager.sjfd) = []
      rw [h.sjfd, ite_self]
    · refine .writing ⟨{ h.txn with page := fun p pPg hc => { h.txn.page p pPg hc with }, sub := ?_ }, htake h.saves⟩
        ⟨hv.size, hv.page⟩
      intro r hr
      have hr' : r ∈ (if i = 0 then [] else s.pager.sjfd) := hr
      split at hr'
      · cases hr'
      · exact h.txn.sub r hr'
  · rw [if_neg hi]
    have htake : ∀ {N : Nat} {segs : List (List (Nat × α))} {tail : List (Nat × α)}, Saves N segs tail s t.saves →
        t.step (.release i) = t := by
      intro N segs tail hsaves
      rw [Store.step, List.take_of_length_le (by rw [← hsaves.each.length_eq]; omega)]
    refine h.writes hstate (fun _ hsaves _ => ?_) fun segs tail hw _ => ?_
    · rw [htake hsaves]
      exact h
    · rw [htake hw.saves]
      exact h

/-- Nothing has been recorded for a savepoint as long as no page has changed. -/
theorem Locked.rollbackSavepoint (h : Locked base s) {saves : List (Image α)} (hsaves : Saves base.size [] [] s saves)
    (n : Nat) : View ((saves.take n).getLast?.getD base) s := by
  cases hsave : (saves.take n).getLast? with
  | none => exact h.view
  | some save =>
    have hlast := forall₂_getLast? (List.forall₂_take n hsaves.each)
    rw [hsave] at hlast
    obtain ⟨sp, hok⟩ : ∃ sp, SavepointOk base.size [] [] s.pager.sjfd s.content s.pager.dbSize sp save := by
      generalize (s.pager.aSavepoint.take n).getLast? = o at hlast
      cases hlast with
      | some hok => exact ⟨_, hok⟩
    obtain ⟨main, hspot, hcov, -⟩ := hok.log
    have hnil : main = [] := by
      refine List.eq_nil_iff_forall_not_mem.2 fun r hr => ?_
      have := hspot.mem hr
      simp at this
    have hsize : save.size = base.size := by
      have h₁ := hok.base
      have h₂ := hok.dbSize
      rw [h.dbSize] at h₂
      rw [← hok.nOrig]
      omega
    refine ⟨h.dbSize.trans hsize.symm, fun p h1 hp => hcov.unchanged p ⟨h1, hok.nOrig ▸ hp⟩ ?_⟩
    rw [hnil, h.sjfd]
    simp

end

variable {α : Type} [PageContent α] {t : Store α} {s s' : PagerSys α} {im base : Image α}

theorem Finished.load {segs : List (List (Nat × α))} (h : Finished base segs s) {p : Nat} (h1 : 1 ≤ p)
    (hp : p ≤ s.pager.dbSize) : Finished base segs (setPage s p (sqlite3PagerGet s p)) := by
  cases hc : s.pager.cache p with
  | some pPg =>
    have hsame : setPage s p pPg = s := by rw [setPage, ← hc, Function.update_eq_self]
    rw [sqlite3PagerGet_some hc, hsame]
    exact h
  | none =>
    have hget : sqlite3PagerGet s p = ⟨s.disk.db p, false, false, false⟩ := by simp [sqlite3PagerGet, hc, hp]
    rw [hget]
    have hpage : ∀ q pg, Function.update s.pager.cache p (some ⟨s.disk.db p, false, false, false⟩) q = some pg →
        q = p ∧ pg.data = s.disk.db p ∨ s.pager.cache q = some pg := by
      intro q pg hq
      by_cases hqp : q = p
      · rw [hqp, Function.update_self, Option.some.injEq] at hq
        exact .inl ⟨hqp, hq ▸ rfl⟩
      · rw [Function.update_of_ne hqp] at hq
        exact .inr hq
    obtain ⟨rest, hs⟩ := h.saved
    refine { h with pos := ?_, page := ?_, data := ?_ }
    · intro q pg hq
      rcases hpage q pg hq with ⟨rfl, -⟩ | hq
      · exact h1
      · exact h.pos q pg hq
    · intro q pg hq hle
      rcases hpage q pg hq with ⟨rfl, hd⟩ | hq
      · rw [hd, List.append_nil]
        exact (hs.page q h1 hle).imp id And.left
      · exact h.page q pg hq hle
    · intro q pg hq hle
      rcases hpage q pg hq with ⟨rfl, hd⟩ | hq
      · exact hd
      · exact h.data q pg hq hle

theorem Finished.fetch {segs : List (List (Nat × α))} (h : Finished base segs s) {p : Nat} (h1 : 1 ≤ p)
    (hp : p ≤ s.pager.dbSize) : Finished base segs (fetchPage s p) :=
  Finished.load (s := setDbFileVers s _ _) { h with } h1 hp

theorem Corresponds.get (h : Corresponds t s) {p : Nat} (h1 : 1 ≤ p) (hp : p ≤ s.pager.dbSize) :
    Corresponds t (fetchPage s p) := by
  have hsame : ∀ q, q ≤ s.pager.dbSize → (fetchPage s p).content q = s.content q :=
    fun q hq => content_fetch s p hq
  cases h with
  | reader h hstate hsp hwork hsaves => exact .reader (h.fetch h1) hstate hsp hwork hsaves
  | locked h hsaves hview =>
    exact .locked (h.fetch h1) (hsaves.congr rfl rfl (Nat.le_refl _) fun q _ hq => .inr (hsame q hq))
        (hview.congr rfl hsame)
  | writing h hview => exact .writing (h.fetch h1) (hview.congr rfl hsame)
  | finished h hview => exact .finished (h.fetch h1 hp) (hview.congr rfl hsame)

/-! ### Pages -/

theorem Corresponds.write (h : Corresponds t s) (hstate : s.pager.eState.writes = true) {p : Nat} (h1 : 1 ≤ p)
    (hp : p ≤ s.pager.dbSize + 1) (data : α) : Corresponds (t.step (.write p data)) (writePage s p data) := by
  refine h.writes hstate (fun h hsaves hview => ?_) fun segs tail h hview => ?_
  · obtain ⟨tail', h', hsize, hcontent⟩ := h.writePage hsaves h1 hp data
    exact .writing h' (hview.write hp hsize hcontent)
  · obtain ⟨tail', h', hsize, hcontent⟩ := h.writePage h1 hp data
    exact .writing h' (hview.write hp hsize hcontent)

theorem Corresponds.stress (h : Corresponds t s) {p : Nat} {pPg : PgHdr α} (hc : s.pager.cache p = some pPg)
    (hstate : s.pager.eState.writes = true) (hdirty : pPg.dirty = true) (hne : p ≠ 1) :
    Corresponds t (pagerStress s p pPg) := by
  refine h.writes hstate (fun h _ _ => ?_) fun segs tail h hview => ?_
  · have hclean := h.clean p pPg hc
    rw [← hclean] at hdirty
    cases hdirty
  · obtain ⟨segs', tail', h', hcontent, hsize⟩ := h.pagerStress hne hc hdirty
    exact .writing h' (hview.congr hsize fun q _ => by rw [hcontent])

/-! ### Savepoints and the ends of a transaction -/

theorem Corresponds.rollbackTo (h : Corresponds t s) (hstate : s.pager.eState.writes = true) (n : Nat) :
    Corresponds (t.step (.rollbackTo n)) (rollbackSavepoint s n) := by
  have hskip : ∀ {N : Nat} {segs : List (List (Nat × α))} {tail : List (Nat × α)}, Saves N segs tail s t.saves →
      ¬ n ≤ t.saves.length → t.step (.rollbackTo n) = t ∧ rollbackSavepoint s n = s := by
    intro N segs tail hsaves hn
    exact ⟨if_neg hn, if_neg (by rw [hsaves.each.length_eq]; exact hn)⟩
  refine h.writes hstate (fun hl hsaves hv => ?_) fun segs tail hw hv => ?_
  · by_cases hn : n ≤ t.saves.length
    · have hstep : t.step (.rollbackTo n) =
          { t with saves := t.saves.take n, work := (t.saves.take n).getLast?.getD t.committed } := if_pos hn
      have hroll : rollbackSavepoint s n =
          { s with pager := { s.pager with aSavepoint := s.pager.aSavepoint.take n } } := by
        rw [rollbackSavepoint, if_pos (by rw [hsaves.each.length_eq]; exact hn)]
        exact if_neg (by simp [hl.isOpen])
      have hview := hl.rollbackSavepoint hsaves n
      rw [hstep, hroll]
      exact .locked { hl with } (hsaves.take n rfl rfl rfl rfl) ⟨hview.size, hview.page⟩
    · obtain ⟨hstep, hroll⟩ := hskip hsaves hn
      rw [hstep, hroll]
      exact h
  · by_cases hn : n ≤ t.saves.length
    · have hstep : t.step (.rollbackTo n) =
          { t with saves := t.saves.take n, work := (t.saves.take n).getLast?.getD t.committed } := if_pos hn
      obtain ⟨h', hsize, hcontent⟩ := hw.rollbackSavepoint hn
      rw [hstep]
      exact .writing h' ⟨hsize, hcontent⟩
    · obtain ⟨hstep, hroll⟩ := hskip hw.saves hn
      rw [hstep, hroll]
      exact h

theorem View.commit (hview : View im s) {n : Nat} (hn : n ≤ s.pager.dbSize) {g : Nat → α} (hg : Recounted s.content g)
    (hsize : s'.pager.dbSize = n) (hcontent : ∀ q, q ≤ n → s'.content q = g q) :
    View { im with size := n } s' ∨ ∃ c, View (Image.recount { im with size := n } c) s' := by
  have hpage : ∀ q, 1 ≤ q → q ≤ n → s.content q = im.page q :=
    fun q h1 hq => hview.page q h1 (Nat.le_trans hq (hview.size ▸ hn))
  rcases hg with rfl | ⟨c, rfl⟩
  · exact .inl ⟨hsize, fun q h1 hq => (hcontent q hq).trans (hpage q h1 hq)⟩
  · refine .inr ⟨c, hsize, fun q h1 hq => ?_⟩
    rw [hcontent q hq]
    show _ = Function.update im.page 1 _ q
    by_cases hq1 : q = 1
    · subst hq1
      rw [Function.update_self, Function.update_self, hpage 1 h1 hq]
    · rw [Function.update_of_ne hq1, Function.update_of_ne hq1]
      exact hpage q h1 hq

theorem Corresponds.commitPhaseOne (h : Corresponds t s) (hstate : s.pager.eState.writes = true) {n : Nat}
    (hn : n ≤ s.pager.dbSize) (hlocked : s.pager.eState = .writerLocked → n = s.pager.dbSize) :
    ∃ t', t.Step (.commitPhaseOne n) t' ∧ Corresponds t' (sqlite3PagerCommitPhaseOne s n) := by
  refine h.writes hstate (fun hl hsaves hv => ?_) fun segs tail hw hv => ?_
  · have hsame : sqlite3PagerCommitPhaseOne s n = s := if_pos hl.state
    have hwork : t.step (.commitPhaseOne n) = t := by
      rw [Store.step, hlocked hl.state, hv.size]
    refine ⟨_, .plain _, ?_⟩
    rw [hsame, hwork]
    exact h
  · obtain ⟨segs', g, h', hsize, hg, hcontent⟩ := hw.commitPhaseOne hn
    rcases hv.commit hn hg hsize hcontent with hview | ⟨c, hview⟩
    · exact ⟨_, .plain _, .finished h' hview⟩
    · exact ⟨_, .counter n c, .finished h' hview⟩

/-- The end of a transaction leaves no savepoint. -/
theorem pagerEndTransaction_aSavepoint (s : PagerSys α) (bCommit : Bool) :
    (pagerEndTransaction s bCommit).pager.aSavepoint = [] := by
  have htrunc : ∀ (t : PagerSys α) (n : Nat), (pagerTruncate t n).pager.aSavepoint = t.pager.aSavepoint := by
    intro t n
    simp only [pagerTruncate]
    repeat' split
    all_goals rfl
  simp only [pagerEndTransaction]
  repeat' split
  all_goals first | rfl | exact (htrunc _ _).trans rfl

theorem Corresponds.commitPhaseTwo (h : Corresponds t s) (htrace : s.trace = [])
    (hstate : s.pager.eState = .writerLocked ∨ s.pager.eState = .writerFinished) :
    Corresponds (t.step .commitPhaseTwo) (sqlite3PagerCommitPhaseTwo s) := by
  have hsp := pagerEndTransaction_aSavepoint s true
  cases h with
  | reader _ hs => rw [hs] at hstate; rcases hstate with hstate | hstate <;> cases hstate
  | locked h hsaves hv =>
    have hsize : t.work.size = t.committed.size := hv.size.symm.trans h.dbSize
    have hset : Settled t.work s := by
      refine ⟨hv.size, fun p h1 hp => ?_, h.pos, fun p pPg hc hp => h.data p pPg hc (hsize ▸ hp), hsize ▸ h.sizeMin,
        hsize ▸ h.dbPages, by simp [htrace]⟩
      have hp' : p ≤ t.committed.size := hsize ▸ hp
      exact ⟨(h.content hp').symm.trans (hv.page p h1 hp), (h.file p h1 hp').2⟩
    obtain ⟨h', hs⟩ := hset.endTransaction (.inr h.journal) true
    exact .reader h' hs hsp rfl rfl
  | writing h => rcases h.txn.state with ⟨hs, -⟩ | hs <;> rw [hs] at hstate <;> rcases hstate with hstate | hstate <;>
      cases hstate
  | finished h hv =>
    obtain ⟨h', hs⟩ := h.commitPhaseTwo hv.size hv.page htrace
    exact .reader h' hs hsp rfl rfl

theorem Corresponds.rollback (h : Corresponds t s) : Corresponds (t.step .rollback) (sqlite3PagerRollback s) := by
  have hsp : s.pager.eState ≠ .reader → (sqlite3PagerRollback s).pager.aSavepoint = [] := by
    intro hne
    rw [sqlite3PagerRollback, if_neg hne]
    split
    · exact pagerEndTransaction_aSavepoint s false
    · exact pagerEndTransaction_aSavepoint _ false
  cases h with
  | reader h hs hsp =>
    rw [sqlite3PagerRollback, if_pos hs]
    exact .reader h hs hsp rfl rfl
  | locked h =>
    obtain ⟨h', hs⟩ := h.rollback
    exact .reader h' hs (hsp (by rw [h.state]; decide)) rfl rfl
  | writing h =>
    obtain ⟨h', hs⟩ := h.txn.rollback
    refine .reader h' hs (hsp ?_) rfl rfl
    rcases h.txn.state with ⟨hs, -⟩ | hs <;> rw [hs] <;> decide
  | finished h =>
    obtain ⟨h', hs⟩ := h.rollback
    exact .reader h' hs (hsp (by rw [h.eState]; decide)) rfl rfl

/-! ### Runs -/

/-- What one action does. -/
theorem Corresponds.step (h : Corresponds t s) {a : PagerAction α} (hstep : pagerStep s a = some s') :
    ∃ t', t.Step a t' ∧ Corresponds t' s' := by
  have h₀ := h.clear
  cases a with
  | begin =>
    simp only [pagerStep, Option.ite_none_right_eq_some, Option.some.injEq] at hstep
    obtain ⟨hstate, rfl⟩ := hstep
    exact ⟨_, .plain _, h₀.begin hstate⟩
  | get p =>
    simp only [pagerStep, Option.ite_none_right_eq_some, Option.some.injEq] at hstep
    obtain ⟨⟨h1, hp, -⟩, rfl⟩ := hstep
    exact ⟨_, .plain _, h₀.get h1 hp⟩
  | recycle p =>
    simp only [pagerStep] at hstep
    split at hstep
    · next pPg hc =>
      split at hstep
      · cases hstep
      · next hd =>
        cases hstep
        exact ⟨_, .plain _, h₀.recycle hc (by simpa using hd)⟩
    · cases hstep
  | write p data =>
    simp only [pagerStep, Option.ite_none_right_eq_some, Option.some.injEq] at hstep
    obtain ⟨⟨hstate, h1, hp⟩, rfl⟩ := hstep
    exact ⟨_, .plain _, h₀.write hstate h1 hp data⟩
  | stress p =>
    simp only [pagerStep] at hstep
    split at hstep
    · next pPg hc =>
      rw [Option.ite_none_right_eq_some, Option.some.injEq] at hstep
      obtain ⟨⟨hstate, hd, hne⟩, rfl⟩ := hstep
      exact ⟨_, .plain _, h₀.stress hc hstate hd hne⟩
    · cases hstep
  | openSavepoint n =>
    simp only [pagerStep, Option.ite_none_right_eq_some, Option.some.injEq] at hstep
    obtain ⟨⟨hstate, -⟩, rfl⟩ := hstep
    exact ⟨_, .plain _, h₀.openSavepoint hstate n⟩
  | release i =>
    simp only [pagerStep, Option.ite_none_right_eq_some, Option.some.injEq] at hstep
    obtain ⟨hstate, rfl⟩ := hstep
    exact ⟨_, .plain _, h₀.release hstate i⟩
  | rollbackTo n =>
    simp only [pagerStep, Option.ite_none_right_eq_some, Option.some.injEq] at hstep
    obtain ⟨hstate, rfl⟩ := hstep
    exact ⟨_, .plain _, h₀.rollbackTo hstate n⟩
  | commitPhaseOne n =>
    simp only [pagerStep, Option.ite_none_right_eq_some, Option.some.injEq] at hstep
    obtain ⟨⟨hstate, hn, hlocked⟩, rfl⟩ := hstep
    exact h₀.commitPhaseOne hstate hn hlocked
  | commitPhaseTwo =>
    simp only [pagerStep, Option.ite_none_right_eq_some, Option.some.injEq] at hstep
    obtain ⟨hstate, rfl⟩ := hstep
    exact ⟨_, .plain _, h₀.commitPhaseTwo rfl hstate⟩
  | rollback =>
    simp only [pagerStep, Option.ite_none_right_eq_some, Option.some.injEq] at hstep
    obtain ⟨-, rfl⟩ := hstep
    exact ⟨_, .plain _, h₀.rollback⟩

/-- A run of the pager is a run of the store. -/
theorem Corresponds.run (h : Corresponds t s) {as : List (PagerAction α)} (hrun : as.foldlM pagerStep s = some s') :
    ∃ t', t.Run as t' ∧ Corresponds t' s' := by
  induction as generalizing t s with
  | nil =>
    cases hrun
    exact ⟨t, .nil, h⟩
  | cons a as ih =>
    rw [List.foldlM_cons] at hrun
    obtain ⟨s₁, hstep, hrest⟩ := Option.bind_eq_some_iff.1 hrun
    obtain ⟨t₁, hstep', h₁⟩ := h.step hstep
    obtain ⟨t', hrun', h'⟩ := ih h₁ hrest
    exact ⟨t', .cons hstep' hrun', h'⟩

/-- What a page holds is what the store says. -/
theorem View.get (h : View im s) {p : Nat} (h1 : 1 ≤ p) (hp : p ≤ im.size) :
    (sqlite3PagerGet s p).data = im.page p := by
  rw [← h.page p h1 hp]
  have hle : p ≤ s.pager.dbSize := h.size.symm ▸ hp
  cases hc : s.pager.cache p with
  | some pPg => rw [sqlite3PagerGet_some hc, content_some hc]
  | none => simp [sqlite3PagerGet, hc, hle, content_none hc]

/-- In every run of the pager, whatever the cache spills and recycles in between, the pages are those of the store. -/
theorem pager_refines_store {d : Disk α} (hd : im.Stored d) {as : List (PagerAction α)}
    (hrun : as.foldlM pagerStep (openPager d im.size) = some s') :
    ∃ t, Store.Run ⟨im, im, []⟩ as t ∧ t.Same (Runs.run Store.step ⟨im, im, []⟩ as) ∧ s'.pager.dbSize = t.work.size ∧
      ∀ p, 1 ≤ p → p ≤ t.work.size → (sqlite3PagerGet s' p).data = t.work.page p := by
  obtain ⟨t, ht, h⟩ := hd.corresponds.run hrun
  exact ⟨t, ht, ht.same ⟨.rfl, .rfl, .nil⟩, h.view.size, fun p h1 hp => h.view.get h1 hp⟩

/-- A database of two pages. -/
def twoPages : Disk (Nat → UInt8) := ⟨fun _ _ => 7, fun _ => true, 2, 2, []⟩

theorem stored_twoPages : Image.Stored ⟨2, fun _ _ => 7⟩ twoPages :=
  ⟨rfl, fun _ _ _ => ⟨rfl, rfl⟩, Nat.le_refl _, Nat.le_refl _⟩

theorem pager_refines_store_twoPages :
    ∃ s' ∈ [.begin, .write 2 fun _ => 8, .stress 2, .recycle 2, .openSavepoint 1, .write 2 fun _ => 9, .rollbackTo 1,
      .commitPhaseOne 2, .commitPhaseTwo].foldlM pagerStep (openPager twoPages 2),
      (sqlite3PagerGet s' 2).data = fun _ => 8 := by
  obtain ⟨s', hrun⟩ : ∃ s', [.begin, .write 2 fun _ => 8, .stress 2, .recycle 2, .openSavepoint 1, .write 2 fun _ => 9,
      .rollbackTo 1, .commitPhaseOne 2, .commitPhaseTwo].foldlM pagerStep (openPager twoPages 2) = some s' :=
    Option.isSome_iff_exists.1 rfl
  obtain ⟨t, -, hsame, -, hpage⟩ := pager_refines_store stored_twoPages hrun
  refine ⟨s', hrun, ?_⟩
  rw [hpage 2 (by decide) (Nat.le_of_eq hsame.work.size.symm)]
  exact (hsame.work.page 2).resolve_right fun h => absurd h.1 (by decide)

/-- Wherever the power fails in a run, and however often it fails again while the journal is rolled back, the database
is the one that was committed last. -/
theorem committed_after_crashes {d : Disk α} (hd : im.Stored d) {as : List (PagerAction α)}
    (hrun : as.foldlM pagerStep (openPager d im.size) = some s') :
    ∃ t, Store.Run ⟨im, im, []⟩ as t ∧ t.Same (Runs.run Store.step ⟨im, im, []⟩ as) ∧
      ∀ d₁ ∈ s'.disk :: s'.trace, ∀ d₂, d₁.Crashes d₂ → t.committed.On (recovery d₂).disk := by
  obtain ⟨t, ht, h⟩ := hd.corresponds.run hrun
  refine ⟨t, ht, ht.same ⟨.rfl, .rfl, .nil⟩, fun d₁ hmem d₂ hcrash => ?_⟩
  rcases List.mem_cons.1 hmem with rfl | hmem
  · exact h.recoverable.crashes hcrash
  · exact (h.trace d₁ hmem).crashes hcrash

/-- Page 2 has been spilled, and is not synced. -/
def spilledPage : Disk (Nat → UInt8) where
  db := Function.update (fun _ _ => 7) 2 fun _ => 8
  dbSynced := Function.update (fun _ => true) 2 false
  dbPages := 2
  dbPagesMin := 2
  journal := [(.header true 1 2, true), (.page 2 fun _ => 7, true), (.header false 0 2, false)]

/-- The power failed while page 2 was being written, and the last header of the journal is lost. -/
def tornPage : Disk (Nat → UInt8) where
  db := Function.update (fun _ _ => 7) 2 fun i => if i < 512 then 8 else 7
  dbSynced _ := true
  dbPages := 2
  dbPagesMin := 2
  journal := [(.header true 1 2, true), (.page 2 fun _ => 7, true)]

theorem crash_spilledPage : spilledPage.Crash tornPage where
  db p hp := by
    have hne : p ≠ 2 := by
      rintro rfl
      exact absurd hp (by decide)
    simp [tornPage, spilledPage, hne]
  dbSynced _ := rfl
  dbPages := Nat.le_refl 2
  dbPagesMin := rfl
  journal i item hi := by
    rcases i with _ | _ | _ | i
    · exact hi
    · exact hi
    · cases hi
    · cases hi
  journalSynced := by simp [tornPage]
  header i n N b hi := by
    rcases i with _ | _ | i
    · cases hi
      exact ⟨1, true, rfl, Nat.le_refl 1⟩
    · cases hi
    · cases hi

theorem committed_after_crashes_tornPage :
    ∃ s' ∈ [.begin, .write 2 fun _ => 8, .stress 2].foldlM pagerStep (openPager twoPages 2),
      s'.disk.Crashes tornPage ∧ (recovery tornPage).disk.db 2 = fun _ => 7 := by
  obtain ⟨s', hrun⟩ : ∃ s', [.begin, .write 2 fun _ => 8, .stress 2].foldlM pagerStep (openPager twoPages 2) =
      some s' :=
    Option.isSome_iff_exists.1 rfl
  have hcrash : s'.disk.Crash tornPage := by
    cases hrun
    exact crash_spilledPage
  obtain ⟨t, -, hsame, hall⟩ := committed_after_crashes stored_twoPages hrun
  have hon := hall s'.disk (List.mem_cons_self ..) tornPage (.first hcrash)
  refine ⟨s', hrun, .first hcrash, ?_⟩
  rw [hon.page 2 (by decide) (Nat.le_of_eq hsame.committed.size.symm)]
  exact (hsame.committed.page 2).resolve_right fun h => absurd h.1 (by decide)

/-- Rolling back to a savepoint brings back every page as it was when the savepoint was opened, whatever happened
since. -/
theorem rollbackTo_restores {d : Disk α} (hd : im.Stored d) {as bs : List (PagerAction α)} {s₁ s₂ : PagerSys α}
    {m n : Nat}
    (hrun : as.foldlM pagerStep (openPager d im.size) = some s₁) (hm : s₁.pager.aSavepoint.length < m) (hmn : m ≤ n)
    (hbs : ∀ b ∈ bs, b.Keeps m)
    (hrest : (PagerAction.openSavepoint n :: (bs ++ [PagerAction.rollbackTo m])).foldlM pagerStep s₁ = some s₂) :
    s₂.pager.dbSize = s₁.pager.dbSize ∧
      ∀ p, 1 ≤ p → p ≤ s₁.pager.dbSize → (sqlite3PagerGet s₂ p).data = (sqlite3PagerGet s₁ p).data := by
  obtain ⟨t₁, -, h₁⟩ := hd.corresponds.run hrun
  obtain ⟨t', hrun', h₂⟩ := h₁.run hrest
  -- the transaction may still write when the savepoints are opened
  have hstate : s₁.pager.eState.writes = true := by
    rw [List.foldlM_cons] at hrest
    obtain ⟨s, hstep, -⟩ := Option.bind_eq_some_iff.1 hrest
    simp only [pagerStep, Option.ite_none_right_eq_some] at hstep
    exact hstep.1.1
  have hlen : t₁.saves.length = s₁.pager.aSavepoint.length :=
    h₁.writes hstate (fun _ hsaves _ => hsaves.each.length_eq.symm) fun _ _ hw _ => hw.saves.each.length_eq.symm
  obtain ⟨k, hk⟩ : ∃ k, m - t₁.saves.length = k + 1 := ⟨m - t₁.saves.length - 1, by omega⟩
  let saves := t₁.saves ++ List.replicate (k + 1) t₁.work
  have hsaves : saves.length = m := by
    simp only [saves, List.length_append, List.length_replicate]
    omega
  have hnew : (t₁.step (.openSavepoint n)).saves.take m = saves := by
    show (t₁.saves ++ List.replicate (n - t₁.saves.length) t₁.work).take m = saves
    rw [List.take_append, List.take_of_length_le (by omega), List.take_replicate, hk, Nat.min_eq_left (by omega)]
  obtain _ | ⟨hstep, hrun'⟩ := hrun'
  obtain ⟨t₂, hbody, hlast⟩ := hrun'.append_singleton
  have hkeep : t₂.saves.take m = saves := hbody.keeps hsaves hbs (by rw [hstep.saves, hnew])
  have hwork : t'.work = t₁.work := by
    have hle : m ≤ t₂.saves.length := by
      have := congrArg List.length hkeep
      rw [List.length_take, hsaves] at this
      omega
    cases hlast with
    | plain =>
      rw [Store.step, if_pos hle]
      show (t₂.saves.take m).getLast?.getD t₂.committed = t₁.work
      rw [hkeep]
      simp [saves, List.replicate_succ']
  have hview := h₂.view
  rw [hwork] at hview
  refine ⟨hview.size.trans h₁.view.size.symm, fun p h1 hp => ?_⟩
  rw [h₁.view.size] at hp
  rw [hview.get h1 hp, h₁.view.get h1 hp]

theorem rollbackTo_restores_twoPages :
    ∃ s₁ ∈ [.begin, .write 2 fun _ => 8].foldlM pagerStep (openPager twoPages 2),
      ∃ s₂ ∈ [.openSavepoint 2, .write 2 fun _ => 9, .write 3 fun _ => 3, .stress 2, .rollbackTo 1].foldlM pagerStep s₁,
        s₂.pager.dbSize = s₁.pager.dbSize ∧ (sqlite3PagerGet s₂ 2).data = (sqlite3PagerGet s₁ 2).data := by
  obtain ⟨s₁, hrun⟩ : ∃ s₁, [.begin, .write 2 fun _ => 8].foldlM pagerStep (openPager twoPages 2) = some s₁ :=
    Option.isSome_iff_exists.1 rfl
  have hsize : s₁.pager.aSavepoint.length = 0 ∧ s₁.pager.dbSize = 2 := by
    cases hrun
    exact ⟨rfl, rfl⟩
  obtain ⟨s₂, hrest⟩ : ∃ s₂, (PagerAction.openSavepoint 2 :: ([.write 2 fun _ => 9, .write 3 fun _ => 3, .stress 2] ++
      [PagerAction.rollbackTo 1])).foldlM pagerStep s₁ = some s₂ := by
    cases hrun
    exact Option.isSome_iff_exists.1 rfl
  have hkeeps : ∀ b ∈ ([.write 2 fun _ => 9, .write 3 fun _ => 3, .stress 2] : List (PagerAction (Nat → UInt8))),
      b.Keeps 1 := by simp [PagerAction.Keeps]
  have hsame := rollbackTo_restores stored_twoPages hrun (by omega) (by decide) hkeeps hrest
  exact ⟨s₁, hrun, s₂, hrest, hsame.1, hsame.2 2 (by decide) (Nat.le_of_eq hsize.2.symm)⟩

end Sqlite4a
