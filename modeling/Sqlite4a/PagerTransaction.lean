import Sqlite4a.HotJournal

/-!
# Write transactions of the pager

The invariant of a transaction that has opened its journal.  The journal holds the segments that have been synced and,
after the last header, the records that have not; a page in one of these is in the cache and waits for the sync.  A page
of the old database that has no synced record is still in the file as it was.
-/

namespace Sqlite4a

section

variable {α : Type}

/-- The content of a page, as `sqlite3PagerGet` gives it. -/
def PagerSys.content (s : PagerSys α) (p : Nat) : α := (s.pager.cache p).elim (s.disk.db p) PgHdr.data

/-- A page in the cache during a transaction. -/
structure PageOk (s : PagerSys α) (p : Nat) (pPg : PgHdr α) : Prop where
  pos : 1 ≤ p
  clean : pPg.dirty = false → p ≤ s.pager.dbSize → pPg.data = s.disk.db p
  dirty : pPg.dirty = true → s.pager.pInJournal p = true ∨ s.pager.dbOrigSize < p
  needSync : pPg.needSync = true → pPg.dirty = true
  writeable : pPg.writeable = true → pPg.dirty = true

/-- A transaction in `PAGER_WRITER_CACHEMOD` or `PAGER_WRITER_DBMOD`. -/
structure Txn (base : Image α) (segs : List (List (Nat × α))) (tail : List (Nat × α)) (s : PagerSys α) : Prop where
  state : s.pager.eState = .writerCachemod ∧ segs = [] ∨ s.pager.eState = .writerDbmod
  isOpen : s.pager.isOpenJfd = true
  orig : s.pager.dbOrigSize = base.size
  hdr : s.pager.journalHdr = (journalItems base.size segs).length
  off : s.pager.journalOff = s.pager.journalHdr + 1 + tail.length
  nRec : s.pager.nRec = tail.length
  journal : ∃ rest, s.disk.journal = synced (journalItems base.size segs) ++ rest ∧
    rest.map Prod.fst = .header false 0 base.size :: tail.map pageItem
  record : ∀ r ∈ segs.flatten ++ tail, base.Record r
  inJournal : ∀ p, s.pager.pInJournal p = true ↔ ∃ r ∈ segs.flatten ++ tail, r.1 = p
  sub : ∀ r ∈ s.pager.sjfd, 1 ≤ r.1 ∧ (s.pager.pInJournal r.1 = true ∨ base.size < r.1) ∧
    (s.pager.eState = .writerCachemod → ∃ pPg, s.pager.cache r.1 = some pPg ∧ pPg.dirty = true)
  unrecorded : ∀ p, 1 ≤ p → p ≤ base.size →
    (∃ r ∈ segs.flatten, r.1 = p) ∨ s.disk.db p = base.page p ∧ s.disk.dbSynced p = true
  pending : ∀ r ∈ tail, ∃ pPg, s.pager.cache r.1 = some pPg ∧ pPg.needSync = true
  page : ∀ p pPg, s.pager.cache p = some pPg → PageOk s p pPg
  grown : ∀ p, s.pager.dbFileSize < p → p ≤ s.pager.dbSize → ∃ pPg, s.pager.cache p = some pPg ∧ pPg.dirty = true
  sizeMin : base.size ≤ s.disk.dbPagesMin
  fileSize : base.size ≤ s.pager.dbFileSize
  dbPages : s.pager.dbFileSize ≤ s.disk.dbPages
  dbSize : base.size ≤ s.pager.dbSize
  trace : ∀ d ∈ s.trace, Recoverable base d

/-- No transaction, or one that has not changed a page. -/
structure Idle (base : Image α) (s : PagerSys α) : Prop where
  isOpen : s.pager.isOpenJfd = false
  dbSize : s.pager.dbSize = base.size
  sjfd : s.pager.sjfd = []
  journal : s.disk.journal = []
  file : ∀ p, 1 ≤ p → p ≤ base.size → s.disk.db p = base.page p ∧ s.disk.dbSynced p = true
  pos : ∀ p pPg, s.pager.cache p = some pPg → 1 ≤ p
  clean : ∀ p pPg, s.pager.cache p = some pPg → makeClean pPg = pPg
  data : ∀ p pPg, s.pager.cache p = some pPg → p ≤ base.size → pPg.data = s.disk.db p
  sizeMin : base.size ≤ s.disk.dbPagesMin
  dbPages : base.size ≤ s.disk.dbPages
  trace : ∀ d ∈ s.trace, Recoverable base d

/-- `PAGER_WRITER_LOCKED`. -/
structure Locked (base : Image α) (s : PagerSys α) : Prop extends Idle base s where
  state : s.pager.eState = .writerLocked
  orig : s.pager.dbOrigSize = base.size
  dbFileSize : s.pager.dbFileSize = base.size

variable {base : Image α} {segs : List (List (Nat × α))} {tail : List (Nat × α)} {s : PagerSys α}

/-- A journal that ends in a header that is not valid yet. -/
theorem Txn.saved_journal (h : Txn base segs tail s) {d : Disk α} {rest : List (JournalItem α × Bool)} {n N : Nat}
    {items : List (JournalItem α)} (hj : d.journal = synced (journalItems base.size segs) ++ rest)
    (hrest : rest.map Prod.fst = .header false n N :: items) (hdb : d.db = s.disk.db)
    (hsync : ∀ p, s.disk.dbSynced p = true → d.dbSynced p = true) (hmin : base.size ≤ d.dbPagesMin)
    (hpages : d.dbPages = s.disk.dbPages) : Saved base segs rest d := by
  refine ⟨hj, .none ?_, ?_, ?_, hmin, ?_⟩
  · intro n N b hn
    have hhead := congrArg (fun l => l[0]?) hrest
    simp [hn] at hhead
  · exact fun r hr => h.record r (List.mem_append_left _ hr)
  · intro p h1 hp
    rw [hdb]
    exact (h.unrecorded p h1 hp).imp id (And.imp id (hsync p))
  · rw [hpages]
    exact Nat.le_trans h.fileSize h.dbPages

theorem Txn.saved (h : Txn base segs tail s) : ∃ rest, Saved base segs rest s.disk := by
  obtain ⟨rest, hj, hrest⟩ := h.journal
  exact ⟨rest, h.saved_journal hj hrest rfl (fun _ => id) h.sizeMin rfl⟩

theorem Idle.recoverable (h : Idle base s) : Recoverable base s.disk :=
    saved_of_noJournal h.journal h.file h.sizeMin h.dbPages

theorem Txn.length_journal (h : Txn base segs tail s) : s.disk.journal.length = s.pager.journalOff := by
  obtain ⟨rest, hj, hrest⟩ := h.journal
  have hlen := congrArg List.length hrest
  simp only [List.length_map, List.length_cons] at hlen
  rw [hj, h.off, h.hdr, List.length_append, length_synced, hlen]
  omega

/-! ### The content -/

theorem content_some {p : Nat} {pPg : PgHdr α} (h : s.pager.cache p = some pPg) : s.content p = pPg.data := by
  simp [PagerSys.content, h]

theorem content_none {p : Nat} (h : s.pager.cache p = none) : s.content p = s.disk.db p := by
  simp [PagerSys.content, h]

@[simp] theorem cache_setPage (s : PagerSys α) (p : Nat) (pPg : PgHdr α) :
    (setPage s p pPg).pager.cache p = some pPg := by
  simp [setPage]

theorem content_setPage (s : PagerSys α) (p : Nat) (pPg : PgHdr α) :
    (setPage s p pPg).content = Function.update s.content p pPg.data := by
  funext q
  by_cases hq : q = p
  · subst hq
    simp [PagerSys.content, setPage]
  · simp [PagerSys.content, setPage, Function.update_of_ne hq]

theorem content_congr {s' : PagerSys α} (hcache : s'.pager.cache = s.pager.cache) (hdb : s'.disk.db = s.disk.db) :
    s'.content = s.content := by
  funext q
  rw [PagerSys.content, PagerSys.content, hcache, hdb]

theorem content_setPage_of_data {p : Nat} {pPg : PgHdr α} (h : s.pager.cache p = some pPg) (pPg' : PgHdr α)
    (hdata : pPg'.data = pPg.data) : (setPage s p pPg').content = s.content := by
  rw [content_setPage, hdata, ← content_some h, Function.update_eq_self]

theorem content_fetch [PageContent α] (s : PagerSys α) (p : Nat) {q : Nat} (hq : q ≤ s.pager.dbSize) :
    (fetchPage s p).content q = s.content q := by
  show (setPage s p (sqlite3PagerGet s p)).content q = _
  rw [content_setPage]
  by_cases hqp : q = p
  · subst hqp
    rw [Function.update_self, sqlite3PagerGet, PagerSys.content]
    cases s.pager.cache q <;> simp [hq]
  · exact Function.update_of_ne hqp _ _

theorem cache_fetchPage [PageContent α] (s : PagerSys α) (p : Nat) :
    (fetchPage s p).pager.cache p = some (sqlite3PagerGet s p) := cache_setPage _ p _

theorem setPage_setPage (s : PagerSys α) (p : Nat) (a b : PgHdr α) : setPage (setPage s p a) p b = setPage s p b := by
  simp [setPage]

/-- A page of the old database that has no record is as it was. -/
theorem Txn.content_base (h : Txn base segs tail s) {p : Nat} (h1 : 1 ≤ p) (hp : p ≤ base.size)
    (hnot : s.pager.pInJournal p = false) : s.disk.db p = base.page p ∧ s.content p = base.page p := by
  have hno : ¬ ∃ r ∈ segs.flatten, r.1 = p := by
    rintro ⟨r, hr, hrp⟩
    have hin := (h.inJournal p).2 ⟨r, List.mem_append_left _ hr, hrp⟩
    rw [hin] at hnot
    cases hnot
  have hdb := ((h.unrecorded p h1 hp).resolve_left hno).1
  refine ⟨hdb, ?_⟩
  cases hc : s.pager.cache p with
  | none => exact (content_none hc).trans hdb
  | some pPg =>
    have hok := h.page p pPg hc
    have hclean : pPg.dirty = false := by
      cases hd : pPg.dirty with
      | false => rfl
      | true =>
        rcases hok.dirty hd with hin | hlt
        · rw [hin] at hnot
          cases hnot
        · rw [h.orig] at hlt
          omega
    exact (content_some hc).trans ((hok.clean hclean (Nat.le_trans hp h.dbSize)).trans hdb)

theorem clearSyncFlags_some {cache : Nat → Option (PgHdr α)} {p : Nat} {pPg : PgHdr α} (h : cache p = some pPg) :
    clearSyncFlags cache p = some { pPg with needSync := false } := by
  simp [clearSyncFlags, h]

/-! ### The cache -/

/-- A page in the cache may be replaced. -/
theorem Txn.setPage (h : Txn base segs tail s) {p : Nat} {pPg : PgHdr α} (hok : PageOk s p pPg)
    (hsub : s.pager.eState = .writerCachemod → (∃ r ∈ s.pager.sjfd, r.1 = p) → pPg.dirty = true)
    (htail : (∃ r ∈ tail, r.1 = p) → pPg.needSync = true)
    (hgrown : s.pager.dbFileSize < p → p ≤ s.pager.dbSize → pPg.dirty = true) :
    Txn base segs tail (setPage s p pPg) := by
  have hcache : ∀ q, q ≠ p → (Sqlite4a.setPage s p pPg).pager.cache q = s.pager.cache q :=
    fun q hq => Function.update_of_ne hq _ _
  have hself : (Sqlite4a.setPage s p pPg).pager.cache p = some pPg := Function.update_self _ _ _
  refine { h with sub := ?_, pending := ?_, page := ?_, grown := ?_ }
  · intro r hr
    obtain ⟨h1, hin, hc⟩ := h.sub r hr
    refine ⟨h1, hin, fun hstate => ?_⟩
    by_cases hrp : r.1 = p
    · exact ⟨pPg, hrp ▸ hself, hsub hstate ⟨r, hr, hrp⟩⟩
    · rw [hcache _ hrp]
      exact hc hstate
  · intro r hr
    by_cases hrp : r.1 = p
    · exact ⟨pPg, hrp ▸ hself, htail ⟨r, hr, hrp⟩⟩
    · rw [hcache _ hrp]
      exact h.pending r hr
  · intro q pg hq
    by_cases hqp : q = p
    · subst hqp
      rw [hself, Option.some.injEq] at hq
      exact hq ▸ { hok with }
    · rw [hcache _ hqp] at hq
      exact { h.page q pg hq with }
  · intro q hlt hle
    by_cases hqp : q = p
    · subst hqp
      exact ⟨pPg, hself, hgrown hlt hle⟩
    · rw [hcache _ hqp]
      exact h.grown q hlt hle

/-- A page in the cache may become dirty, when it is in the journal or new, and dirty pages may change. -/
theorem Txn.setDirty (h : Txn base segs tail s) {p : Nat} {pPg₀ pPg : PgHdr α} (hc : s.pager.cache p = some pPg₀)
    (hdirty : pPg.dirty = true) (hin : s.pager.pInJournal p = true ∨ s.pager.dbOrigSize < p)
    (hsync : pPg₀.needSync = true → pPg.needSync = true) : Txn base segs tail (Sqlite4a.setPage s p pPg) := by
  refine h.setPage ⟨(h.page p _ hc).pos, ?_, fun _ => hin, fun _ => hdirty, fun _ => hdirty⟩ (fun _ _ => hdirty) ?_
    (fun _ _ => hdirty)
  · intro hclean
    rw [hdirty] at hclean
    cases hclean
  · rintro ⟨r, hr, rfl⟩
    obtain ⟨pg, hpg, hns⟩ := h.pending r hr
    rw [hc, Option.some.injEq] at hpg
    exact hsync (hpg ▸ hns)

/-- The change counter has no part in this. -/
theorem Txn.setCounter (h : Txn base segs tail s) (done : Bool) (vers : UInt32) :
    Txn base segs tail { s with pager := { s.pager with changeCountDone := done, dbFileVers := vers } } :=
  { h with page := fun p pPg hc => { h.page p pPg hc with } }

/-- A page that is not in the cache may be loaded, and so may one that is. -/
theorem Txn.load [PageContent α] (h : Txn base segs tail s) {p : Nat} (h1 : 1 ≤ p) :
    Txn base segs tail (Sqlite4a.setPage s p (sqlite3PagerGet s p)) := by
  cases hc : s.pager.cache p with
  | some pPg =>
    have hget : sqlite3PagerGet s p = pPg := by simp [sqlite3PagerGet, hc]
    have hsame : Sqlite4a.setPage s p pPg = s := by
      rw [Sqlite4a.setPage, ← hc, Function.update_eq_self]
    rw [hget, hsame]
    exact h
  | none =>
    have hget : sqlite3PagerGet s p = ⟨if p ≤ s.pager.dbSize then s.disk.db p else default, false, false, false⟩ := by
      simp [sqlite3PagerGet, hc]
    rw [hget]
    refine h.setPage ⟨h1, fun _ hp => if_pos hp, by simp, by simp, by simp⟩ ?_ ?_ ?_
    · rintro hstate ⟨r, hr, rfl⟩
      obtain ⟨pg, hpg, -⟩ := (h.sub r hr).2.2 hstate
      rw [hc] at hpg
      cases hpg
    · rintro ⟨r, hr, rfl⟩
      obtain ⟨pg, hpg, -⟩ := h.pending r hr
      rw [hc] at hpg
      cases hpg
    · intro hlt hle
      obtain ⟨pg, hpg, -⟩ := h.grown p hlt hle
      rw [hc] at hpg
      cases hpg

theorem Txn.fetch [PageContent α] (h : Txn base segs tail s) {p : Nat} (h1 : 1 ≤ p) :
    Txn base segs tail (fetchPage s p) :=
  Txn.load (h.setCounter s.pager.changeCountDone _) h1

/-- What is in the cache when one page has left it. -/
theorem uncached_some {cache : Nat → Option (PgHdr α)} {p q : Nat} {pg : PgHdr α}
    (hq : Function.update cache p none q = some pg) : cache q = some pg := by
  have hne : q ≠ p := by
    rintro rfl
    rw [Function.update_self] at hq
    cases hq
  exact (Function.update_of_ne hne _ _).symm.trans hq

/-- A clean page may leave the cache. -/
theorem Txn.recycle (h : Txn base segs tail s) {p : Nat} {pPg : PgHdr α} (hc : s.pager.cache p = some pPg)
    (hclean : pPg.dirty = false) :
    Txn base segs tail { s with pager := { s.pager with cache := Function.update s.pager.cache p none } } := by
  have hcache : ∀ q, q ≠ p → Function.update s.pager.cache p none q = s.pager.cache q :=
    fun q hq => Function.update_of_ne hq _ _
  have hne : ∀ {q : Nat}, (∃ pg, s.pager.cache q = some pg ∧ pg.dirty = true) → q ≠ p := by
    rintro q ⟨pg, hpg, hd⟩ rfl
    rw [hc, Option.some.injEq] at hpg
    rw [← hpg, hclean] at hd
    cases hd
  refine { h with sub := ?_, pending := ?_, page := ?_, grown := ?_ }
  · intro r hr
    obtain ⟨h1, hin, hdirty⟩ := h.sub r hr
    refine ⟨h1, hin, fun hstate => ?_⟩
    show ∃ pg, Function.update s.pager.cache p none r.1 = some pg ∧ _
    rw [hcache _ (hne (hdirty hstate))]
    exact hdirty hstate
  · intro r hr
    obtain ⟨pg, hpg, hns⟩ := h.pending r hr
    show ∃ pg, Function.update s.pager.cache p none r.1 = some pg ∧ _
    rw [hcache _ (hne ⟨pg, hpg, (h.page _ _ hpg).needSync hns⟩)]
    exact ⟨pg, hpg, hns⟩
  · intro q pg hq
    exact { h.page q pg (uncached_some hq) with }
  · intro q hlt hle
    show ∃ pg, Function.update s.pager.cache p none q = some pg ∧ _
    rw [hcache _ (hne (h.grown q hlt hle))]
    exact h.grown q hlt hle

/-- The content of a page is written to the sub-journal. -/
theorem Txn.subjournalPage (h : Txn base segs tail s) {p : Nat} {pPg : PgHdr α} (hc : s.pager.cache p = some pPg)
    (hdirty : pPg.dirty = true) (data : α) :
    Txn base segs tail { s with pager := subjournalPage s.pager p data } := by
  refine { h with sub := ?_, page := fun q pg hq => { h.page q pg hq with } }
  intro r hr
  have hr' : r ∈ s.pager.sjfd ++ [(p, data)] := hr
  rw [List.mem_append, List.mem_singleton] at hr'
  rcases hr' with hr' | rfl
  · exact h.sub r hr'
  · have hok := h.page p pPg hc
    exact ⟨hok.pos, (hok.dirty hdirty).imp id (h.orig ▸ id), fun _ => ⟨pPg, hc, hdirty⟩⟩

/-- The database grows by a page that is dirty. -/
theorem Txn.grow (h : Txn base segs tail s) {p : Nat} {pPg : PgHdr α} (hc : s.pager.cache p = some pPg)
    (hdirty : pPg.dirty = true) (hp : p ≤ s.pager.dbSize + 1) :
    Txn base segs tail { s with pager := { s.pager with dbSize := max s.pager.dbSize p } } := by
  refine { h with page := ?_, grown := ?_, dbSize := Nat.le_trans h.dbSize (Nat.le_max_left _ _) }
  · intro q pg hq
    have hok := h.page q pg hq
    refine { hok with clean := fun hclean hle => ?_ }
    have hle' : q ≤ max s.pager.dbSize p := hle
    have hne : q ≠ p := by
      rintro rfl
      have hsome : s.pager.cache q = some pg := hq
      rw [hc, Option.some.injEq] at hsome
      rw [← hsome, hdirty] at hclean
      cases hclean
    exact hok.clean hclean (by omega)
  · intro q hlt hle
    have hle' : q ≤ max s.pager.dbSize p := hle
    by_cases hqp : q = p
    · exact ⟨pPg, hqp ▸ hc, hdirty⟩
    · exact h.grown q hlt (by omega)

end

variable {α : Type} [PageContent α] {base : Image α} {segs : List (List (Nat × α))} {tail : List (Nat × α)}
    {s : PagerSys α}

/-! ### The journals -/

theorem trace_call {s : PagerSys α} {c : Syscall α} {P : Disk α → Prop} (h : ∀ d ∈ s.trace, P d)
    (hc : P (s.disk.exec c)) : ∀ d ∈ (s.call c).trace, P d := by
  intro d hd
  rcases List.mem_append.1 hd with hd | hd
  · exact h d hd
  · exact List.mem_singleton.1 hd ▸ hc

theorem exec_writeJournal_end {d : Disk α} {off : Nat} (h : d.journal.length = off) (item : JournalItem α) :
    d.exec (.writeJournal off item) = { d with journal := d.journal ++ [(item, false)] } := by
  simp [Disk.exec, h]

/-- The old content of a page is written to the journal, and the page becomes dirty. -/
theorem Txn.journalPage (h : Txn base segs tail s) {p : Nat} {pPg₀ : PgHdr α} (hc : s.pager.cache p = some pPg₀)
    (hnot : s.pager.pInJournal p = false) (hp : p ≤ base.size) :
    Txn base segs (tail ++ [(p, s.content p)])
      (pagerAddPageToRollbackJournal (Sqlite4a.setPage s p { pPg₀ with dirty := true }) p
      { pPg₀ with dirty := true }) := by
  have h1 := (h.page p pPg₀ hc).pos
  have hcontent : s.content p = pPg₀.data := content_some hc
  obtain ⟨rest, hj, hrest⟩ := h.journal
  have hexec := exec_writeJournal_end h.length_journal (.page p pPg₀.data)
  have hj' : s.disk.journal ++ [(JournalItem.page p pPg₀.data, false)] =
      synced (journalItems base.size segs) ++ (rest ++ [(.page p pPg₀.data, false)]) := by
    rw [hj, List.append_assoc]
  have hrest' : (rest ++ [(JournalItem.page p pPg₀.data, false)]).map Prod.fst =
      .header false 0 base.size :: (tail ++ [(p, s.content p)]).map pageItem := by
    simp [hrest, hcontent, pageItem]
  let s' := pagerAddPageToRollbackJournal (Sqlite4a.setPage s p { pPg₀ with dirty := true }) p
      { pPg₀ with dirty := true }
  let pPg : PgHdr α := { pPg₀ with dirty := true, needSync := true }
  have hdisk : s'.disk = { s.disk with journal := s.disk.journal ++ [(.page p pPg₀.data, false)] } := hexec
  have hself : s'.pager.cache p = some pPg := Function.update_self _ _ _
  have hcache : ∀ q, q ≠ p → s'.pager.cache q = s.pager.cache q := by
    intro q hq
    exact (Function.update_of_ne hq _ _).trans (Function.update_of_ne hq _ _)
  have hset : ∀ q, s'.pager.pInJournal q = true ↔ q = p ∨ s.pager.pInJournal q = true := by
    intro q
    show Function.update s.pager.pInJournal p true q = true ↔ _
    by_cases hq : q = p
    · simp [hq]
    · simp [hq, Function.update_of_ne]
  have hdirty : ∀ {q : Nat} {pg : PgHdr α}, s.pager.cache q = some pg → pg.dirty = true →
      ∃ pg', s'.pager.cache q = some pg' ∧ pg'.dirty = true := by
    intro q pg hq hd
    by_cases hqp : q = p
    · exact ⟨pPg, hqp ▸ hself, rfl⟩
    · exact ⟨pg, (hcache q hqp).trans hq, hd⟩
  refine ⟨h.state, h.isOpen, h.orig, h.hdr, ?_, ?_, ⟨_, (congrArg Disk.journal hdisk).trans hj', hrest'⟩, ?_, ?_, ?_,
    ?_, ?_,
    ?_, ?_, ?_, h.fileSize, ?_, h.dbSize, ?_⟩
  · show s.pager.journalOff + 1 = s.pager.journalHdr + 1 + _
    rw [h.off, List.length_append]
    simp only [List.length_singleton]
    omega
  · show s.pager.nRec + 1 = _
    rw [h.nRec, List.length_append]
    rfl
  · intro r hr
    rw [← List.append_assoc, List.mem_append, List.mem_singleton] at hr
    rcases hr with hr | rfl
    · exact h.record r hr
    · exact ⟨h1, hp, (h.content_base h1 hp hnot).2⟩
  · intro q
    rw [hset, h.inJournal, ← List.append_assoc]
    constructor
    · rintro (rfl | ⟨r, hr, hrq⟩)
      · exact ⟨_, List.mem_append_right _ (List.mem_singleton.2 rfl), rfl⟩
      · exact ⟨r, List.mem_append_left _ hr, hrq⟩
    · rintro ⟨r, hr, hrq⟩
      rw [List.mem_append, List.mem_singleton] at hr
      rcases hr with hr | rfl
      · exact .inr ⟨r, hr, hrq⟩
      · exact .inl hrq.symm
  · intro r hr
    obtain ⟨hr1, hin, hstate⟩ := h.sub r hr
    refine ⟨hr1, hin.imp (fun hin => (hset _).2 (.inr hin)) id, fun hmod => ?_⟩
    obtain ⟨pg, hpg, hd⟩ := hstate hmod
    exact hdirty hpg hd
  · intro q hq1 hq
    rw [hdisk]
    exact h.unrecorded q hq1 hq
  · intro r hr
    by_cases hrp : r.1 = p
    · exact ⟨pPg, (congrArg s'.pager.cache hrp).trans hself, rfl⟩
    · rw [List.mem_append, List.mem_singleton] at hr
      rcases hr with hr | rfl
      · rw [hcache _ hrp]
        exact h.pending r hr
      · exact absurd rfl hrp
  · intro q pg hq
    by_cases hqp : q = p
    · subst hqp
      rw [hself, Option.some.injEq] at hq
      subst hq
      exact ⟨h1, by simp [pPg], fun _ => .inl ((hset q).2 (.inl rfl)), fun _ => rfl, fun _ => rfl⟩
    · rw [hcache q hqp] at hq
      have hok := h.page q pg hq
      refine ⟨hok.pos, ?_, fun hd => (hok.dirty hd).imp (fun hin => (hset q).2 (.inr hin)) id, hok.needSync,
          hok.writeable⟩
      rw [hdisk]
      exact hok.clean
  · intro q hlt hle
    obtain ⟨pg, hpg, hd⟩ := h.grown q hlt hle
    exact hdirty hpg hd
  · rw [hdisk]
    exact h.sizeMin
  · rw [hdisk]
    exact h.dbPages
  · refine trace_call (c := .writeJournal s.pager.journalOff (.page p pPg₀.data)) h.trace
      ⟨segs, rest ++ [(.page p pPg₀.data, false)], ?_⟩
    have hsaved := h.saved_journal (d := { s.disk with journal := s.disk.journal ++ [(.page p pPg₀.data, false)] })
        hj' hrest'
      rfl (fun _ => id) h.sizeMin rfl
    exact (congrArg (Saved base segs _) hexec).mpr hsaved

/-! ### The database file -/

/-- A page that has a synced record, or that is new, may be written to the file. -/
theorem Txn.writeDbPage (h : Txn base segs tail s) {p : Nat} (data : α) (h1 : 1 ≤ p)
    (hp : (∃ r ∈ segs.flatten, r.1 = p) ∨ base.size < p)
    (hcache : ∀ pPg, s.pager.cache p = some pPg → pPg.dirty = false → p ≤ s.pager.dbSize → pPg.data = data) :
    Txn base segs tail (writeDbPage s p data) := by
  have hpage : ∀ q, 1 ≤ q → q ≤ base.size → (∃ r ∈ segs.flatten, r.1 = q) ∨
      Function.update s.disk.db p data q = base.page q ∧ Function.update s.disk.dbSynced p false q = true := by
    intro q hq1 hq
    by_cases hqp : q = p
    · subst hqp
      exact .inl (hp.resolve_right (by omega))
    · rw [Function.update_of_ne hqp, Function.update_of_ne hqp]
      exact h.unrecorded q hq1 hq
  have hdbPages : s.pager.dbFileSize ≤ s.disk.dbPages := h.dbPages
  refine { h with unrecorded := hpage, page := ?_, grown := ?_, fileSize := ?_, dbPages := ?_, trace := ?_ }
  · intro q pg hq
    have hok := h.page q pg hq
    refine { hok with clean := fun hclean hle => ?_ }
    show pg.data = Function.update s.disk.db p data q
    by_cases hqp : q = p
    · subst hqp
      rw [Function.update_self]
      exact hcache pg hq hclean hle
    · rw [Function.update_of_ne hqp]
      exact hok.clean hclean hle
  · intro q hlt hle
    have hlt' : max s.pager.dbFileSize p < q := hlt
    exact h.grown q (by omega) hle
  · exact Nat.le_trans h.fileSize (Nat.le_max_left _ _)
  · show max s.pager.dbFileSize p ≤ max s.disk.dbPages p
    omega
  · obtain ⟨rest, hs⟩ := h.saved
    refine trace_call (c := .writeDb p data) h.trace ⟨segs, rest, hs.journal, hs.rest, hs.record, hpage, hs.sizeMin, ?_⟩
    exact Nat.le_trans hs.size (Nat.le_max_left _ _)

/-! ### The sync of the journal -/

/-- The calls of `syncJournal`: the header counts its records once these have been synced. -/
theorem Txn.sync_calls (h : Txn base segs tail s) :
    let s' := ((s.call .syncJournal).call (.writeJournal s.pager.journalHdr (.header true s.pager.nRec base.size))).call
      .syncJournal
    s'.disk = { s.disk with journal := synced (journalItems base.size (segs ++ [tail])) } ∧
      ∀ d ∈ s'.trace, Recoverable base d := by
  obtain ⟨rest, hj, hrest⟩ := h.journal
  have hrecord : ∀ r ∈ segs.flatten, base.Record r := fun r hr => h.record r (List.mem_append_left _ hr)
  have htail : ∀ r ∈ tail, base.Record r := fun r hr => h.record r (List.mem_append_right _ hr)
  have hsize : base.size ≤ s.disk.dbPages := Nat.le_trans h.fileSize h.dbPages
  have hj₁ : (s.disk.exec .syncJournal).journal =
      synced (journalItems base.size segs) ++ synced (.header false 0 base.size :: tail.map pageItem) := by
    show s.disk.journal.map (fun i => (i.1, true)) = _
    rw [synced_flags, hj, List.map_append, map_fst_synced, hrest, synced_append]
  have hlen : (synced (journalItems base.size segs)).length = s.pager.journalHdr := by rw [length_synced, h.hdr]
  have hlt : s.pager.journalHdr < (s.disk.exec .syncJournal).journal.length := by
    rw [hj₁, List.length_append, hlen]
    simp [synced]
  let header : JournalItem α := .header true s.pager.nRec base.size
  have hj₂ : ((s.disk.exec .syncJournal).exec (.writeJournal s.pager.journalHdr header)).journal =
      synced (journalItems base.size segs) ++ (header, false) :: synced (tail.map pageItem) := by
    show (if s.pager.journalHdr < (s.disk.exec .syncJournal).journal.length then _ else _) = _
    rw [if_pos hlt, hj₁, List.set_append_right _ _ (Nat.le_of_eq hlen), hlen, Nat.sub_self]
    rfl
  have hj₃ : (((s.disk.exec .syncJournal).exec (.writeJournal s.pager.journalHdr header)).exec .syncJournal).journal =
      synced (journalItems base.size (segs ++ [tail])) := by
    show ((s.disk.exec .syncJournal).exec (.writeJournal s.pager.journalHdr header)).journal.map
        (fun i => (i.1, true)) = _
    rw [synced_flags, hj₂, List.map_append, map_fst_synced, List.map_cons, map_fst_synced, journalItems_append]
    simp [segmentItems, header, h.nRec]
  refine ⟨?_, trace_call (trace_call
      (trace_call h.trace ⟨segs, synced (.header false 0 base.size :: tail.map pageItem), ?_⟩)
    ⟨segs, (header, false) :: synced (tail.map pageItem), hj₂, ?_, hrecord, ?_, ?_, ?_⟩)
    ⟨segs ++ [tail], [], ?_, .none (by simp), ?_, ?_, ?_, ?_⟩⟩
  · show ({ s.disk with
      journal := (((s.disk.exec .syncJournal).exec (.writeJournal s.pager.journalHdr header)).exec .syncJournal).journal
          } :
        Disk α) = _
    rw [hj₃]
  · exact h.saved_journal hj₁ (map_fst_synced _) rfl (fun _ => id) h.sizeMin rfl
  · rw [show header = .header true tail.length base.size by rw [← h.nRec]]
    exact .header htail
  · exact h.unrecorded
  · exact h.sizeMin
  · exact hsize
  · exact hj₃.trans (List.append_nil _).symm
  · intro r hr
    rw [List.flatten_append, List.mem_append] at hr
    exact hr.elim (hrecord r) (by simpa using htail r)
  · intro p h1 hp
    refine (h.unrecorded p h1 hp).imp ?_ id
    rintro ⟨r, hr, hrp⟩
    exact ⟨r, by rw [List.flatten_append]; exact List.mem_append_left _ hr, hrp⟩
  · exact h.sizeMin
  · exact hsize

/-- The journal is synced, and a new header is written: all records are synced now. -/
theorem Txn.syncJournal (h : Txn base segs tail s) : Txn base (segs ++ [tail]) [] (syncJournal s true) := by
  obtain ⟨hdisk, htrace⟩ := h.sync_calls
  let s₁ := ((s.call .syncJournal).call (.writeJournal s.pager.journalHdr (.header true s.pager.nRec base.size))).call
    .syncJournal
  let s' := Sqlite4a.syncJournal s true
  have hlen : s₁.disk.journal.length = s.pager.journalOff := by
    rw [hdisk, h.off, h.hdr]
    simp [journalItems_append, length_segmentItems]
    omega
  have hmem : ∀ r, r ∈ (segs ++ [tail]).flatten ++ [] ↔ r ∈ segs.flatten ++ tail := by simp
  have hexec := exec_writeJournal_end hlen (.header false 0 base.size)
  have hcall : s'.disk = s₁.disk.exec (.writeJournal s.pager.journalOff (.header false 0 base.size)) ∧
      s'.trace = (s₁.call (.writeJournal s.pager.journalOff (.header false 0 base.size))).trace := by
    simp only [s', s₁, Sqlite4a.syncJournal, writeJournalHdr, if_true, PagerSys.call, h.orig, and_self]
  have hdisk' : s'.disk = { s.disk with
      journal := synced (journalItems base.size (segs ++ [tail])) ++ [(.header false 0 base.size, false)] } := by
    rw [hcall.1]
    exact hexec.trans (by rw [hdisk])
  have hpager : s'.pager = { s.pager with
      journalHdr := s.pager.journalOff
      nRec := 0
      aSavepoint := s.pager.aSavepoint.map fun p =>
        if p.iHdrOffset = 0 then { p with iHdrOffset := s.pager.journalOff } else p
      journalOff := s.pager.journalOff + 1
      cache := clearSyncFlags s.pager.cache
      eState := .writerDbmod } := rfl
  have hclear : ∀ {q : Nat} {pg : PgHdr α}, s'.pager.cache q = some pg →
      ∃ pg₀, s.pager.cache q = some pg₀ ∧ pg = { pg₀ with needSync := false } := by
    intro q pg hq
    have hmap : (s.pager.cache q).map (fun pPg => { pPg with needSync := false }) = some pg := hq
    obtain ⟨pg₀, hpg₀, rfl⟩ := Option.map_eq_some_iff.1 hmap
    exact ⟨pg₀, hpg₀, rfl⟩
  have hunrec : ∀ p, 1 ≤ p → p ≤ base.size → (∃ r ∈ (segs ++ [tail]).flatten, r.1 = p) ∨
      s.disk.db p = base.page p ∧ s.disk.dbSynced p = true := by
    intro p h1 hp
    refine (h.unrecorded p h1 hp).imp ?_ id
    rintro ⟨r, hr, hrp⟩
    exact ⟨r, by rw [List.flatten_append]; exact List.mem_append_left _ hr, hrp⟩
  refine ⟨.inr rfl, h.isOpen, h.orig, ?_, rfl, rfl, ⟨_, congrArg Disk.journal hdisk', rfl⟩, ?_, ?_, ?_, ?_, by simp, ?_,
    ?_,
    ?_, h.fileSize, ?_, h.dbSize, ?_⟩
  · rw [hpager, ← hlen, hdisk, length_synced]
  · exact fun r hr => h.record r ((hmem r).1 hr)
  · intro p
    refine (h.inJournal p).trans ?_
    simp only [hmem]
  · intro r hr
    obtain ⟨h1, hin, -⟩ := h.sub r hr
    exact ⟨h1, hin, fun hstate => by cases hstate⟩
  · rw [hdisk']
    exact hunrec
  · intro q pg hq
    obtain ⟨pg₀, hq₀, rfl⟩ := hclear hq
    have hok := h.page q pg₀ hq₀
    refine ⟨hok.pos, ?_, hok.dirty, by simp, hok.writeable⟩
    rw [hdisk']
    exact hok.clean
  · intro q hlt hle
    obtain ⟨pg, hpg, hd⟩ := h.grown q hlt hle
    exact ⟨_, clearSyncFlags_some hpg, hd⟩
  · rw [hdisk']
    exact h.sizeMin
  · rw [hdisk']
    exact h.dbPages
  · have hsaved : Saved base (segs ++ [tail]) [(.header false 0 base.size, false)] s'.disk := by
      rw [hdisk']
      refine ⟨rfl, .none (by simp), ?_, hunrec, h.sizeMin, Nat.le_trans h.fileSize h.dbPages⟩
      exact fun r hr => h.record r ((hmem r).1 (by simpa using hr))
    show ∀ d ∈ s'.trace, Recoverable base d
    rw [hcall.2]
    exact trace_call htrace ⟨_, _, hcall.1 ▸ hsaved⟩

/-- The first page is about to be changed. -/
theorem Locked.openJournal (h : Locked base s) : Txn base [] [] (pagerOpenJournal s) := by
  let s' := pagerOpenJournal s
  have hlen : s.disk.journal.length = 0 := by rw [h.journal]; rfl
  have hexec := exec_writeJournal_end hlen (.header false 0 base.size)
  have hdisk : s'.disk = { s.disk with journal := [(.header false 0 base.size, false)] } := by
    refine Eq.trans ?_ (hexec.trans (by rw [h.journal]; rfl))
    simp only [s', pagerOpenJournal, writeJournalHdr, PagerSys.call, h.orig]
  have hsaved : Saved base [] [(.header false 0 base.size, false)] s'.disk := by
    rw [hdisk]
    exact ⟨rfl, .none (by simp), by simp, fun p h1 hp => .inr (h.file p h1 hp), h.sizeMin, h.dbPages⟩
  refine ⟨.inl ⟨rfl, rfl⟩, rfl, h.orig, rfl, rfl, rfl, ⟨_, congrArg Disk.journal hdisk, rfl⟩, by simp, ?_, ?_,
    ?_, by simp, ?_,
    ?_, ?_, Nat.le_of_eq h.dbFileSize.symm, ?_, Nat.le_of_eq h.dbSize.symm, ?_⟩
  · intro p
    have hnone : s'.pager.pInJournal p = false := rfl
    show s'.pager.pInJournal p = true ↔ _
    simp [hnone]
  · intro r hr
    have hr' : r ∈ s.pager.sjfd := hr
    rw [h.sjfd] at hr'
    cases hr'
  · rw [hdisk]
    exact hsaved.page
  · intro q pg hq
    have hclean := h.clean q pg hq
    refine ⟨h.pos q pg hq, fun _ hle => ?_, ?_, ?_, ?_⟩
    · rw [hdisk]
      exact h.data q pg hq (h.dbSize ▸ hle)
    all_goals
      rw [← hclean]
      simp [makeClean]
  · intro q hlt hle
    have hlt' : s.pager.dbFileSize < q := hlt
    have hle' : q ≤ s.pager.dbSize := hle
    rw [h.dbFileSize] at hlt'
    rw [h.dbSize] at hle'
    omega
  · rw [hdisk]
    exact h.sizeMin
  · rw [hdisk]
    exact h.dbFileSize.symm ▸ h.dbPages
  · have htrace : s'.trace = (s.call (.writeJournal 0 (.header false 0 base.size))).trace := by
      simp only [s', pagerOpenJournal, writeJournalHdr, PagerSys.call, h.orig]
    have hd : s'.disk = s.disk.exec (.writeJournal 0 (.header false 0 base.size)) := by
      simp only [s', pagerOpenJournal, writeJournalHdr, PagerSys.call, h.orig]
    show ∀ d ∈ s'.trace, Recoverable base d
    rw [htrace]
    exact trace_call h.trace ⟨_, _, hd ▸ hsaved⟩

end Sqlite4a
