import Sqlite4a.PagerEnd

/-!
# Commit

`sqlite3PagerCommitPhaseOne` gives page 1 a new change counter, syncs the journal, writes every dirty page of the new
database to the file and syncs the file.  Until the journal is deleted, the old database can be found again.
-/

namespace Sqlite4a

section

variable {α : Type} {base : Image α} {segs : List (List (Nat × α))} {s : PagerSys α}

/-- The journal has been synced, and the dirty pages are being written. -/
structure Committing (base : Image α) (segs : List (List (Nat × α))) (s : PagerSys α) :
    Prop extends Undo base segs [] s where
  journal : s.disk.journal = synced (journalItems base.size segs)
  header : segs ≠ []
  writes : s.pager.eState.writesDb = true
  dirty : ∀ p pPg, s.pager.cache p = some pPg → pPg.dirty = true → (∃ r ∈ segs.flatten, r.1 = p) ∨ base.size < p
  clean : ∀ p pPg, s.pager.cache p = some pPg → pPg.dirty = false → p ≤ s.pager.dbSize → pPg.data = s.disk.db p
  grown : ∀ p, s.pager.dbFileSize < p → p ≤ s.pager.dbSize → ∃ pPg, s.pager.cache p = some pPg ∧ pPg.dirty = true
  dbPages : s.pager.dbFileSize ≤ s.disk.dbPages

/-- The file holds the new database. -/
structure Finished (base : Image α) (segs : List (List (Nat × α))) (s : PagerSys α) :
    Prop extends Undo base segs [] s where
  journal : s.disk.journal = synced (journalItems base.size segs)
  header : segs ≠ []
  eState : s.pager.eState = .writerFinished
  synced : ∀ p, s.disk.dbSynced p = true
  data : ∀ p pPg, s.pager.cache p = some pPg → p ≤ s.pager.dbSize → pPg.data = s.disk.db p
  sizeMin : s.pager.dbSize ≤ s.disk.dbPagesMin
  dbPages : s.pager.dbSize ≤ s.disk.dbPages

/-- What writing the dirty pages does. -/
structure Flushed (base : Image α) (segs : List (List (Nat × α))) (ps : List Nat) (s s' : PagerSys α) : Prop where
  committing : Committing base segs s'
  pager : s'.pager = { s.pager with dbFileSize := s'.pager.dbFileSize, dbFileVers := s'.pager.dbFileVers }
  dbFileSize : s.pager.dbFileSize ≤ s'.pager.dbFileSize
  content : s'.content = s.content
  kept : ∀ p pPg, s.pager.cache p = some pPg → pPg.data = s.disk.db p → pPg.data = s'.disk.db p
  written : ∀ p ∈ ps, ∀ pPg, s.pager.cache p = some pPg → pPg.dirty = true → p ≤ s.pager.dbSize →
    pPg.data = s'.disk.db p ∧ p ≤ s'.pager.dbFileSize

theorem Flushed.trans {ps qs : List Nat} {s₁ s₂ : PagerSys α} (h : Flushed base segs ps s s₁)
    (h' : Flushed base segs qs s₁ s₂) :
    Flushed base segs (ps ++ qs) s s₂ := by
  have hcache : s₁.pager.cache = s.pager.cache := by rw [h.pager]
  have hsize : s₁.pager.dbSize = s.pager.dbSize := by rw [h.pager]
  refine ⟨h'.committing, ?_, Nat.le_trans h.dbFileSize h'.dbFileSize, h'.content.trans h.content, ?_, ?_⟩
  · rw [h'.pager, h.pager]
  · exact fun p pPg hc hdata => h'.kept p pPg (hcache.symm ▸ hc) (h.kept p pPg hc hdata)
  · intro p hp pPg hc hd hle
    rcases List.mem_append.1 hp with hp | hp
    · obtain ⟨hdata, hfile⟩ := h.written p hp pPg hc hd hle
      exact ⟨h'.kept p pPg (hcache.symm ▸ hc) hdata, Nat.le_trans hfile h'.dbFileSize⟩
    · exact h'.written p hp pPg (hcache.symm ▸ hc) hd (hsize.symm ▸ hle)

theorem Committing.skip (h : Committing base segs s) {p : Nat}
    (hno : ∀ pPg, s.pager.cache p = some pPg → pPg.dirty = false) :
    Flushed base segs [p] s s := by
  refine ⟨h, rfl, Nat.le_refl _, rfl, fun _ _ _ => id, fun q hq pPg hc hd _ => ?_⟩
  rw [List.mem_singleton.1 hq] at hc
  rw [hno pPg hc] at hd
  cases hd

/-- A dirty page may change. -/
theorem Committing.setDirty (h : Committing base segs s) {p : Nat} {pPg : PgHdr α} (hc : s.pager.cache p = some pPg)
    (hd : pPg.dirty = true) (data : α) : Committing base segs (setPage s p { pPg with data := data }) := by
  have hcases : ∀ q pg, (setPage s p { pPg with data := data }).pager.cache q = some pg →
      q = p ∧ pg.dirty = true ∨ q ≠ p ∧ s.pager.cache q = some pg := by
    intro q pg hq
    by_cases hqp : q = p
    · subst hqp
      rw [show (setPage s q { pPg with data := data }).pager.cache q = some _ from Function.update_self _ _ _,
        Option.some.injEq] at hq
      exact .inl ⟨rfl, hq ▸ hd⟩
    · exact .inr ⟨hqp, (Function.update_of_ne hqp _ _).symm.trans hq⟩
  refine { h with pos := ?_, page := ?_, dirty := ?_, clean := ?_, grown := ?_ }
  · intro q pg hq
    rcases hcases q pg hq with ⟨rfl, -⟩ | ⟨-, hq⟩
    · exact h.pos q pPg hc
    · exact h.pos q pg hq
  · intro q pg hq hle
    rcases hcases q pg hq with ⟨rfl, -⟩ | ⟨-, hq⟩
    · rw [List.append_nil]
      exact .inl ((h.dirty q pPg hc hd).resolve_right (Nat.not_lt.2 hle))
    · exact h.page q pg hq hle
  · intro q pg hq hdirty
    rcases hcases q pg hq with ⟨rfl, -⟩ | ⟨-, hq⟩
    · exact h.dirty q pPg hc hd
    · exact h.dirty q pg hq hdirty
  · intro q pg hq hclean hle
    rcases hcases q pg hq with ⟨-, hdirty⟩ | ⟨-, hq⟩
    · rw [hdirty] at hclean
      cases hclean
    · exact h.clean q pg hq hclean hle
  · intro q hlt hle
    by_cases hqp : q = p
    · exact ⟨{ pPg with data := data }, hqp ▸ Function.update_self _ _ _, hd⟩
    · obtain ⟨pg, hpg, hdirty⟩ := h.grown q hlt hle
      exact ⟨pg, (Function.update_of_ne hqp _ _).trans hpg, hdirty⟩

end

variable {α : Type} [PageContent α] {base im : Image α} {segs : List (List (Nat × α))} {tail : List (Nat × α)}
    {s : PagerSys α}

/-! ### The change counter -/

/-- The content of the pages, perhaps with another change counter in page 1. -/
def Recounted (f g : Nat → α) : Prop :=
  g = f ∨ ∃ c, g = Function.update f 1 (PageContent.putChangeCounter c (f 1))

theorem Recounted.trans {f g h : Nat → α} (hfg : Recounted f g) (hgh : Recounted g h) : Recounted f h := by
  rcases hgh with rfl | ⟨d, rfl⟩
  · exact hfg
  · rcases hfg with rfl | ⟨c, rfl⟩
    · exact .inr ⟨d, rfl⟩
    · exact .inr ⟨d, by rw [Function.update_idem, Function.update_self, PageContent.put_put]⟩

/-- Two contents that agree up to page `n` are recounted together. -/
theorem Recounted.congr {f f' g : Nat → α} {n : Nat} (h : Recounted f f') (hn : 1 ≤ n) (hfg : ∀ q, q ≤ n → f q = g q) :
    ∃ g', Recounted g g' ∧ ∀ q, q ≤ n → f' q = g' q := by
  rcases h with rfl | ⟨c, rfl⟩
  · exact ⟨g, .inl rfl, hfg⟩
  · refine ⟨_, .inr ⟨c, rfl⟩, fun q hq => ?_⟩
    by_cases hq1 : q = 1
    · rw [hq1, Function.update_self, Function.update_self, hfg 1 hn]
    · rw [Function.update_of_ne hq1, Function.update_of_ne hq1]
      exact hfg q hq

/-- `pager_incr_changecounter` writes page 1. -/
theorem Writing.incrChangecounter {saves : List (Image α)} (h : Writing base segs tail s saves) :
    ∃ tail' g, Writing base segs tail' (pagerIncrChangecounter s) saves ∧
      (pagerIncrChangecounter s).pager.dbSize = s.pager.dbSize ∧ Recounted s.content g ∧
      ∀ q, q ≤ s.pager.dbSize → (pagerIncrChangecounter s).content q = g q := by
  rw [pagerIncrChangecounter]
  by_cases hcount : (!s.pager.changeCountDone) = true ∧ 0 < s.pager.dbSize
  · rw [if_pos hcount]
    obtain ⟨tail', h₂, hw, hcontent, hsize⟩ :=
      (h.fetch (Nat.le_refl 1)).sqlite3PagerWrite (cache_fetchPage s 1) (Nat.le_add_left 1 _)
    let s₂ := Sqlite4a.sqlite3PagerWrite (fetchPage s 1) 1
    let data := (pagerWriteChangecounter s₂ (sqlite3PagerGet s₂ 1)).data
    obtain ⟨h₃, hcontent₃⟩ := h₂.setData hw data
    have hpage : (sqlite3PagerGet s₂ 1).data = s.content 1 := by
      obtain ⟨pPg, hc, -⟩ := hw.page
      rw [sqlite3PagerGet_some hc, ← content_some hc, hcontent]
      exact content_fetch s 1 hcount.2
    have hdata : data = PageContent.putChangeCounter (s₂.pager.dbFileVers + 1) (s.content 1) := by rw [← hpage]; rfl
    refine ⟨tail', _, h₃.setCounter true s₂.pager.dbFileVers, ?_, .inr ⟨s₂.pager.dbFileVers + 1, rfl⟩, fun q hq => ?_⟩
    · refine hsize.trans ?_
      show max s.pager.dbSize 1 = _
      omega
    · rw [← hdata]
      exact content_write (hcontent₃.trans (by rw [hcontent])) (Nat.le_add_left 1 _) (by omega)
  · rw [if_neg hcount]
    exact ⟨tail, s.content, h, rfl, .inl rfl, fun _ _ => rfl⟩

/-- `sqlite3PagerTruncateImage`. -/
def PagerSys.resize (s : PagerSys α) (n : Nat) : PagerSys α := { s with pager := { s.pager with dbSize := n } }

section

variable {n p : Nat}

theorem sqlite3PagerGet_resize (hp : p ≤ n) (hn : n ≤ s.pager.dbSize) :
    sqlite3PagerGet (s.resize n) p = sqlite3PagerGet s p := by
  have hle : p ≤ s.pager.dbSize := Nat.le_trans hp hn
  cases hc : s.pager.cache p with
  | none => simp [sqlite3PagerGet, PagerSys.resize, hc, hp, hle]
  | some pPg => rw [sqlite3PagerGet_some hc, sqlite3PagerGet_some (s := s.resize n) hc]

theorem fetchPage_resize (hp : p ≤ n) (hn : n ≤ s.pager.dbSize) :
    fetchPage (s.resize n) p = (fetchPage s p).resize n := by
  have hle : p ≤ s.pager.dbSize := Nat.le_trans hp hn
  simp only [fetchPage, sqlite3PagerGet_resize hp hn]
  simp [PagerSys.resize, setPage, setDbFileVers, hp, hle]

/-- The first part of `pager_write`: the page goes to the journal, or waits for its sync. -/
def PagerSys.recordPage (s : PagerSys α) (p : Nat) (pPg : PgHdr α) : PagerSys α :=
  if s.pager.pInJournal p then setPage s p pPg
  else if p ≤ s.pager.dbOrigSize then pagerAddPageToRollbackJournal (setPage s p pPg) p pPg
  else if s.pager.eState ≠ .writerDbmod then setPage (setPage s p pPg) p { pPg with needSync := true }
  else setPage s p pPg

/-- The second part: the page may be changed. -/
def PagerSys.finishWrite (s : PagerSys α) (p : Nat) (data : α) : PagerSys α :=
  let s := setPage s p { sqlite3PagerGet s p with writeable := true }
  let s := { s with pager := Sqlite4a.subjournalPageIfRequired s.pager p data }
  { s with pager := { s.pager with dbSize := max s.pager.dbSize p } }

theorem pagerWrite_eq (hstate : s.pager.eState ≠ .writerLocked) :
    Sqlite4a.pagerWrite s p =
      (s.recordPage p { sqlite3PagerGet s p with dirty := true }).finishWrite p (sqlite3PagerGet s p).data := by
  simp only [Sqlite4a.pagerWrite, if_neg hstate]
  rfl

theorem recordPage_resize (pPg : PgHdr α) : (s.resize n).recordPage p pPg = (s.recordPage p pPg).resize n := by
  by_cases hin : s.pager.pInJournal p = true
  · simp [PagerSys.recordPage, PagerSys.resize, setPage, hin]
  · by_cases hold : p ≤ s.pager.dbOrigSize
    · simp [PagerSys.recordPage, PagerSys.resize, setPage, hin, hold, pagerAddPageToRollbackJournal, PagerSys.call]
    · by_cases hmod : s.pager.eState = .writerDbmod
      · simp [PagerSys.recordPage, PagerSys.resize, setPage, hin, hold, hmod]
      · simp [PagerSys.recordPage, PagerSys.resize, setPage, hin, hold, hmod]

theorem recordPage_dbSize (pPg : PgHdr α) : (s.recordPage p pPg).pager.dbSize = s.pager.dbSize := by
  simp only [PagerSys.recordPage]
  split_ifs <;> rfl

theorem finishWrite_resize (hp : p ≤ n) (hn : n ≤ s.pager.dbSize) (data : α) :
    (s.resize n).finishWrite p data = (s.finishWrite p data).resize n := by
  simp only [PagerSys.finishWrite, sqlite3PagerGet_resize hp hn]
  by_cases hreq : subjRequiresPage s.pager.aSavepoint p = true
  · simp [Sqlite4a.subjournalPageIfRequired, PagerSys.resize, setPage, hreq, Sqlite4a.subjournalPage,
      Nat.max_eq_left hp]
  · simp [Sqlite4a.subjournalPageIfRequired, PagerSys.resize, setPage, hreq, Nat.max_eq_left hp]

theorem sqlite3PagerWrite_resize (hp : p ≤ n) (hn : n ≤ s.pager.dbSize) (hstate : s.pager.eState ≠ .writerLocked) :
    Sqlite4a.sqlite3PagerWrite (s.resize n) p = (Sqlite4a.sqlite3PagerWrite s p).resize n := by
  simp only [Sqlite4a.sqlite3PagerWrite, sqlite3PagerGet_resize hp hn]
  by_cases hfast : (sqlite3PagerGet s p).writeable = true
  · rw [if_pos ⟨hfast, show p ≤ (s.resize n).pager.dbSize from hp⟩, if_pos ⟨hfast, Nat.le_trans hp hn⟩]
    by_cases hreq : subjRequiresPage s.pager.aSavepoint p = true
    · simp [Sqlite4a.subjournalPageIfRequired, PagerSys.resize, hreq, Sqlite4a.subjournalPage]
    · simp [Sqlite4a.subjournalPageIfRequired, PagerSys.resize, hreq]
  · rw [if_neg fun h => hfast h.1, if_neg fun h => hfast h.1, pagerWrite_eq hstate,
      pagerWrite_eq (s := s.resize n) hstate, sqlite3PagerGet_resize hp hn, recordPage_resize]
    exact finishWrite_resize hp (by rwa [recordPage_dbSize]) _

end

/-- The image may be truncated before page 1 is written, or after. -/
theorem Writing.incr_resize {saves : List (Image α)} (h : Writing base segs tail s saves) {n : Nat} (h1 : 1 ≤ n)
    (hn : n ≤ s.pager.dbSize) : pagerIncrChangecounter (s.resize n) = (pagerIncrChangecounter s).resize n := by
  have hstate : (fetchPage s 1).pager.eState ≠ .writerLocked := by
    show s.pager.eState ≠ .writerLocked
    rcases h.txn.state with ⟨hstate, -⟩ | hstate <;> rw [hstate] <;> decide
  obtain ⟨-, -, -, -, hsize⟩ :=
    (h.fetch (Nat.le_refl 1)).sqlite3PagerWrite (cache_fetchPage s 1) (Nat.le_add_left 1 _)
  have hle : n ≤ (Sqlite4a.sqlite3PagerWrite (fetchPage s 1) 1).pager.dbSize := by
    rw [hsize]
    exact Nat.le_trans hn (Nat.le_max_left _ _)
  simp only [pagerIncrChangecounter]
  by_cases hcount : (!s.pager.changeCountDone) = true
  · rw [if_pos ⟨hcount, show 0 < (s.resize n).pager.dbSize from h1⟩, if_pos ⟨hcount, Nat.lt_of_lt_of_le h1 hn⟩,
      fetchPage_resize h1 hn, sqlite3PagerWrite_resize (s := fetchPage s 1) h1 hn hstate, sqlite3PagerGet_resize h1 hle]
    rfl
  · rw [if_neg fun h => hcount h.1, if_neg fun h => hcount h.1]

/-- The image is truncated, and the journal is synced. -/
theorem Txn.syncForCommit (h : Txn base segs tail s) {n : Nat} (hn : n ≤ s.pager.dbSize) :
    Committing base (segs ++ [tail]) (Sqlite4a.syncJournal { s with pager := { s.pager with dbSize := n } } false) := by
  obtain ⟨hdisk, htrace⟩ := h.sync_calls
  let s' := Sqlite4a.syncJournal { s with pager := { s.pager with dbSize := n } } false
  let s₁ := ((s.call .syncJournal).call (.writeJournal s.pager.journalHdr (.header true s.pager.nRec base.size))).call
    .syncJournal
  have hcall : s'.disk = s₁.disk ∧ s'.trace = s₁.trace := by
    simp only [s', s₁, Sqlite4a.syncJournal, PagerSys.call, h.orig, Bool.false_eq_true, if_false, and_self]
  have hdisk' : s'.disk = { s.disk with journal := synced (journalItems base.size (segs ++ [tail])) } :=
    hcall.1.trans hdisk
  have hmem : ∀ r, r ∈ (segs ++ [tail]).flatten ↔ r ∈ segs.flatten ++ tail := by simp
  have hclear : ∀ {q : Nat} {pg : PgHdr α}, s'.pager.cache q = some pg →
      ∃ pg₀, s.pager.cache q = some pg₀ ∧ pg = { pg₀ with needSync := false } := by
    intro q pg hq
    have hmap : (s.pager.cache q).map (fun pPg => { pPg with needSync := false }) = some pg := hq
    obtain ⟨pg₀, hpg₀, rfl⟩ := Option.map_eq_some_iff.1 hmap
    exact ⟨pg₀, hpg₀, rfl⟩
  have hsaved : Saved base (segs ++ [tail]) [] s'.disk := by
    rw [hdisk']
    refine ⟨(List.append_nil _).symm, .none (by simp), fun r hr => h.record r ((hmem r).1 hr), ?_, h.sizeMin,
      Nat.le_trans h.fileSize h.dbPages⟩
    intro p h1 hp
    refine (h.unrecorded p h1 hp).imp ?_ id
    rintro ⟨r, hr, hrp⟩
    exact ⟨r, (hmem r).2 (List.mem_append_left _ hr), hrp⟩
  refine ⟨⟨.inl rfl, h.isOpen, ?_, ⟨[], hsaved⟩, ?_, ?_, ?_, hcall.2 ▸ htrace⟩, congrArg Disk.journal hdisk', by simp,
    rfl, ?_,
    ?_, ?_, ?_⟩
  · show s.pager.journalOff = _
    rw [h.off, h.hdr]
    simp [journalItems_append, length_segmentItems]
    omega
  · intro r hr
    exact h.record r ((hmem r).1 (by simpa using hr))
  · intro q pg hq
    obtain ⟨pg₀, hq₀, -⟩ := hclear hq
    exact (h.page q pg₀ hq₀).pos
  · intro q pg hq hle
    obtain ⟨pg₀, hq₀, rfl⟩ := hclear hq
    rw [List.append_nil]
    refine (h.undo.page q pg₀ hq₀ hle).imp ?_ id
    rintro ⟨r, hr, hrq⟩
    exact ⟨r, (hmem r).2 hr, hrq⟩
  · intro q pg hq hd
    obtain ⟨pg₀, hq₀, rfl⟩ := hclear hq
    refine ((h.page q pg₀ hq₀).dirty hd).imp (fun hin => ?_) (h.orig ▸ id)
    obtain ⟨r, hr, hrq⟩ := (h.inJournal q).1 hin
    exact ⟨r, (hmem r).2 hr, hrq⟩
  · intro q pg hq hd hle
    obtain ⟨pg₀, hq₀, rfl⟩ := hclear hq
    rw [hdisk']
    exact (h.page q pg₀ hq₀).clean hd (Nat.le_trans hle hn)
  · intro q hlt hle
    obtain ⟨pg, hpg, hd⟩ := h.grown q hlt (Nat.le_trans hle hn)
    exact ⟨_, clearSyncFlags_some hpg, hd⟩
  · rw [hdisk']
    exact h.dbPages

/-- A dirty page is written. -/
theorem Committing.writeDbPage (h : Committing base segs s) {p : Nat} {pPg : PgHdr α} (hc : s.pager.cache p = some pPg)
    (hd : pPg.dirty = true) : Committing base segs (writeDbPage s p pPg.data) := by
  obtain ⟨rest, hs⟩ := h.saved
  have hsaved : Saved base segs rest (s.disk.exec (.writeDb p pPg.data)) := by
    rcases h.dirty p pPg hc hd with ⟨r, hr, rfl⟩ | hlt
    · exact hs.writeDb hr _
    · refine ⟨hs.journal, hs.rest, hs.record, fun q h1 hq => ?_, hs.sizeMin, Nat.le_trans hs.size (Nat.le_max_left _ _)⟩
      have hne : q ≠ p := by omega
      refine (hs.page q h1 hq).imp id fun hq => ?_
      exact ⟨(Function.update_of_ne hne _ _).trans hq.1, (Function.update_of_ne hne _ _).trans hq.2⟩
  have hpages : s.pager.dbFileSize ≤ s.disk.dbPages := h.dbPages
  refine { h with saved := ⟨rest, hsaved⟩, trace := ?_, clean := ?_, grown := ?_, dbPages := ?_ }
  · exact trace_call (c := .writeDb p pPg.data) h.trace ⟨segs, rest, hsaved⟩
  · intro q pg hq hclean hle
    show pg.data = Function.update s.disk.db p pPg.data q
    by_cases hqp : q = p
    · subst hqp
      have hsome : s.pager.cache q = some pg := hq
      rw [hc, Option.some.injEq] at hsome
      rw [← hsome, hd] at hclean
      cases hclean
    · rw [Function.update_of_ne hqp]
      exact h.clean q pg hq hclean hle
  · intro q hlt hle
    have hlt' : max s.pager.dbFileSize p < q := hlt
    exact h.grown q (by omega) hle
  · show max s.pager.dbFileSize p ≤ max s.disk.dbPages p
    omega

/-- A dirty page of the database has been written. -/
theorem Committing.written (h : Committing base segs s) {p : Nat} {pPg : PgHdr α} (hc : s.pager.cache p = some pPg)
    (hd : pPg.dirty = true) (vers : UInt32) :
    Flushed base segs [p] s
      { Sqlite4a.writeDbPage s p pPg.data with
        pager := { (Sqlite4a.writeDbPage s p pPg.data).pager with dbFileVers := vers } } := by
  refine ⟨{ h.writeDbPage hc hd with }, rfl, Nat.le_max_left _ _, ?_, ?_, ?_⟩
  · funext q
    show (s.pager.cache q).elim (Function.update s.disk.db p pPg.data q) PgHdr.data = _
    by_cases hqp : q = p
    · rw [hqp, hc]
      exact (content_some hc).symm
    · rw [Function.update_of_ne hqp]
      rfl
  · intro q pg hq hdata
    show pg.data = Function.update s.disk.db p pPg.data q
    by_cases hqp : q = p
    · subst hqp
      rw [hc, Option.some.injEq] at hq
      rw [Function.update_self, hq]
    · rw [Function.update_of_ne hqp, hdata]
  · intro q hq pg hpg _ _
    rw [List.mem_singleton.1 hq] at hpg ⊢
    rw [hc, Option.some.injEq] at hpg
    rw [← hpg]
    exact ⟨(Function.update_self p pPg.data s.disk.db).symm, Nat.le_max_right _ _⟩

/-- `pager_write_pagelist` for a page past the end of the database, and for any page but the first. -/
theorem Committing.writePage (h : Committing base segs s) {p : Nat} {pPg : PgHdr α} (hc : s.pager.cache p = some pPg)
    (hd : pPg.dirty = true) (hp : p ≤ s.pager.dbSize → p ≠ 1) : Flushed base segs [p] s (pagerWritePage s p pPg) := by
  rw [pagerWritePage]
  by_cases hle : p ≤ s.pager.dbSize
  · have hsame : setPage s p pPg = s := by rw [setPage, ← hc, Function.update_eq_self]
    rw [if_pos hle]
    simp only [if_neg (hp hle), hsame]
    exact h.written hc hd _
  · rw [if_neg hle]
    refine ⟨h, rfl, Nat.le_refl _, rfl, fun _ _ _ => id, fun q hq pg _ _ hqle => ?_⟩
    rw [List.mem_singleton.1 hq] at hqle
    exact absurd hqle hle

/-- Page 1 gets the change counter before it is written. -/
theorem Committing.writeFirst (h : Committing base segs s) {pPg : PgHdr α} (hc : s.pager.cache 1 = some pPg)
    (hd : pPg.dirty = true) (hle : 1 ≤ s.pager.dbSize) :
    Flushed base segs [1] (setPage s 1 (pagerWriteChangecounter s pPg)) (pagerWritePage s 1 pPg) := by
  have h₁ : Committing base segs (setPage s 1 (pagerWriteChangecounter s pPg)) := h.setDirty hc hd _
  rw [pagerWritePage, if_pos hle]
  simp only [if_true]
  exact h₁.written (cache_setPage s 1 _) hd _

/-- `pager_write_pagelist` for other pages than the first. -/
theorem Committing.writePagelist (h : Committing base segs s) {ps : List Nat} (hps : ∀ p ∈ ps, p ≠ 1) :
    Flushed base segs ps s (pagerWritePagelist s ps) := by
  induction ps generalizing s with
  | nil => exact ⟨h, rfl, Nat.le_refl _, rfl, fun _ _ _ => id, fun p hp => by cases hp⟩
  | cons p ps ih =>
    have hrest : ∀ q ∈ ps, q ≠ 1 := fun q hq => hps q (List.mem_cons_of_mem p hq)
    rw [pagerWritePagelist]
    cases hc : s.pager.cache p with
    | none =>
      have hskip := h.skip (p := p) fun pPg hpPg => by
        rw [hc] at hpPg
        cases hpPg
      exact hskip.trans (ih h hrest)
    | some pPg =>
      dsimp only
      by_cases hd : pPg.dirty = true
      · rw [if_pos hd]
        have hw := h.writePage hc hd fun _ => hps p (List.mem_cons_self ..)
        exact hw.trans (ih hw.committing hrest)
      · rw [if_neg hd]
        have hskip := h.skip (p := p) fun pg hpg => by
          rw [hc, Option.some.injEq] at hpg
          rw [← hpg]
          simpa using hd
        exact hskip.trans (ih h hrest)

/-- `pager_write_pagelist` for all pages: the first one gets the change counter, and then all are written. -/
theorem Committing.writeAll (h : Committing base segs s) (n : Nat) :
    ∃ s₁, Flushed base segs (List.range (n + 1)) s₁ (pagerWritePagelist s (List.range (n + 1))) ∧
      Recounted s.content s₁.content ∧ s₁.pager = { s.pager with cache := s₁.pager.cache } := by
  have hzero : ∀ {t : PagerSys α}, Committing base segs t → Flushed base segs [0] t t := fun ht =>
    ht.skip fun pPg hc => absurd (ht.pos 0 pPg hc) (by decide)
  have hnone : s.pager.cache 0 = none := by
    cases hc : s.pager.cache 0 with
    | none => rfl
    | some pPg => exact absurd (h.pos 0 pPg hc) (by decide)
  cases n with
  | zero => exact ⟨s, h.writePagelist (by simp), .inl rfl, rfl⟩
  | succ m =>
    have hlist : List.range (m + 1 + 1) = [0] ++ ([1] ++ (List.range m).map fun i => i + 2) := by
      rw [List.range_succ_eq_map, List.range_succ_eq_map]
      simp [Function.comp_def]
    have hps : ∀ p ∈ (List.range m).map fun i => i + 2, p ≠ 1 := by simp
    have hrest : pagerWritePagelist s (List.range (m + 1 + 1)) =
        pagerWritePagelist s (1 :: (List.range m).map fun i => i + 2) := by
      rw [hlist]
      show pagerWritePagelist s (0 :: _) = _
      rw [pagerWritePagelist, hnone]
      rfl
    rw [hrest, hlist, pagerWritePagelist]
    -- what is left to do when page 1 has been seen to
    have hthen : ∀ {s₁ t : PagerSys α}, Committing base segs s₁ → Flushed base segs [1] s₁ t →
        Flushed base segs ([0] ++ ([1] ++ (List.range m).map fun i => i + 2)) s₁
          (pagerWritePagelist t ((List.range m).map fun i => i + 2)) := fun h₁ ht =>
      (hzero h₁).trans (ht.trans (ht.committing.writePagelist hps))
    cases hc : s.pager.cache 1 with
    | none =>
      refine ⟨s, hthen h (h.skip fun pPg hpPg => ?_), .inl rfl, rfl⟩
      rw [hc] at hpPg
      cases hpPg
    | some pPg =>
      dsimp only
      by_cases hd : pPg.dirty = true
      · rw [if_pos hd]
        by_cases hle : 1 ≤ s.pager.dbSize
        · refine ⟨_, hthen (h.setDirty hc hd _) (h.writeFirst hc hd hle), .inr ⟨s.pager.dbFileVers + 1, ?_⟩, rfl⟩
          rw [content_setPage, content_some hc]
        · exact ⟨s, hthen h (h.writePage hc hd fun hle' => absurd hle' hle), .inl rfl, rfl⟩
      · rw [if_neg hd]
        refine ⟨s, hthen h (h.skip fun pg hpg => ?_), .inl rfl, rfl⟩
        rw [hc, Option.some.injEq] at hpg
        rw [← hpg]
        simpa using hd

/-- `sqlite3PagerCommitPhaseOne` from the sync of the journal on. -/
def PagerSys.flush (s : PagerSys α) (n : Nat) : PagerSys α :=
  let s := pagerWritePagelist (Sqlite4a.syncJournal s false) (List.range (n + 1))
  let s := { s with pager := { s.pager with cache := fun p => (s.pager.cache p).map makeClean } }
  let s := if s.pager.dbFileSize < n then pagerTruncate s n else s
  let s := s.call .syncDb
  { s with pager := { s.pager with eState := .writerFinished } }

theorem commitPhaseOne_eq (hstate : s.pager.eState ≠ .writerLocked) (n : Nat) :
    sqlite3PagerCommitPhaseOne s n = (pagerIncrChangecounter (s.resize n)).flush n := if_neg hstate

/-- All dirty pages are written: the file holds the new database, and the old one can still be found. -/
theorem Txn.flush (h : Txn base segs tail s) {n : Nat} (hn : n ≤ s.pager.dbSize) :
    Finished base (segs ++ [tail]) ((s.resize n).flush n) ∧ Recounted s.content ((s.resize n).flush n).content ∧
      ((s.resize n).flush n).pager.dbSize = n := by
  let s₀ := Sqlite4a.syncJournal (s.resize n) false
  let s₂ := pagerWritePagelist s₀ (List.range (n + 1))
  have h₀ : Committing base (segs ++ [tail]) s₀ := h.syncForCommit hn
  obtain ⟨s₁, hw, hcount, hpager⟩ := h₀.writeAll n
  have hsize₁ : s₁.pager.dbSize = n := by rw [hpager]; rfl
  have h₂ : Committing base (segs ++ [tail]) s₂ := hw.committing
  have hsize : s₂.pager.dbSize = n := by
    show (pagerWritePagelist s₀ _).pager.dbSize = n
    rw [hw.pager]
    exact hsize₁
  have hcache : s₂.pager.cache = s₁.pager.cache := by
    show (pagerWritePagelist s₀ _).pager.cache = _
    rw [hw.pager]
  have hmem : ∀ p, p ≤ n → p ∈ List.range (n + 1) := fun p hp => List.mem_range.2 (by omega)
  -- the last page of the new database is in the file
  have hfile : n ≤ s₂.pager.dbFileSize := by
    by_contra hlt
    obtain ⟨pPg, hc, hd⟩ := h₂.grown n (by omega) (Nat.le_of_eq hsize.symm)
    have := (hw.written n (hmem n (Nat.le_refl n)) pPg (hcache ▸ hc) hd (Nat.le_of_eq hsize₁.symm)).2
    exact hlt this
  have hdata : ∀ p pPg, s₂.pager.cache p = some pPg → p ≤ n → pPg.data = s₂.disk.db p := by
    intro p pPg hc hp
    cases hd : pPg.dirty with
    | false => exact h₂.clean p pPg hc hd (hsize.symm ▸ hp)
    | true => exact (hw.written p (hmem p hp) pPg (hcache ▸ hc) hd (hsize₁.symm ▸ hp)).1
  have hpages : n ≤ s₂.disk.dbPages := Nat.le_trans hfile h₂.dbPages
  let s' := (s.resize n).flush n
  have hresult : s' = { s₂ with
      pager := { s₂.pager with cache := fun p => (s₂.pager.cache p).map makeClean, eState := .writerFinished }
      disk := s₂.disk.exec .syncDb
      trace := s₂.trace ++ [s₂.disk.exec .syncDb] } := by
    have hnot : ¬ (pagerWritePagelist (Sqlite4a.syncJournal (s.resize n) false) (List.range (n + 1))).pager.dbFileSize <
        n :=
      Nat.not_lt.2 hfile
    simp only [s', s₂, s₀, PagerSys.flush, if_neg hnot, PagerSys.call]
  have hclean : ∀ {q : Nat} {pg : PgHdr α}, s'.pager.cache q = some pg →
      ∃ pg₀, s₂.pager.cache q = some pg₀ ∧ pg.data = pg₀.data := by
    intro q pg hq
    rw [hresult] at hq
    obtain ⟨pg₀, hpg₀, rfl⟩ := Option.map_eq_some_iff.1 hq
    exact ⟨pg₀, hpg₀, rfl⟩
  obtain ⟨rest, hs⟩ := h₂.saved
  have hundo : Undo base (segs ++ [tail]) [] s' := by
    refine ⟨.inl (by rw [hresult]; rfl), by rw [hresult]; exact h₂.isOpen, by rw [hresult]; exact h₂.hdr,
      ⟨rest, by rw [hresult]; exact hs.syncDb⟩, h₂.record, ?_, ?_, ?_⟩
    · intro q pg hq
      obtain ⟨pg₀, hq₀, -⟩ := hclean hq
      exact h₂.pos q pg₀ hq₀
    · intro q pg hq hle
      obtain ⟨pg₀, hq₀, hd⟩ := hclean hq
      rw [hd]
      exact h₂.page q pg₀ hq₀ hle
    · rw [hresult]
      exact trace_call (c := .syncDb) h₂.trace ⟨_, rest, hs.syncDb⟩
  have hcontent : s'.content = s₁.content := by
    refine Eq.trans ?_ hw.content
    rw [hresult]
    funext q
    show ((s₂.pager.cache q).map makeClean).elim (s₂.disk.db q) PgHdr.data = (s₂.pager.cache q).elim (s₂.disk.db q)
        PgHdr.data
    cases s₂.pager.cache q <;> rfl
  have hcontent₀ : s₀.content = s.content := by
    funext q
    show (clearSyncFlags s.pager.cache q).elim (s.disk.db q) PgHdr.data = _
    rw [clearSyncFlags, PagerSys.content]
    cases s.pager.cache q <;> rfl
  show Finished base (segs ++ [tail]) s' ∧ Recounted s.content s'.content ∧ s'.pager.dbSize = n
  refine ⟨{ hundo with
    journal := by rw [hresult]; exact h₂.journal
    header := h₂.header
    eState := by rw [hresult]
    synced := by rw [hresult]; exact fun _ => rfl
    data := ?_
    sizeMin := by rw [hresult]; exact hsize.symm ▸ hpages
    dbPages := by rw [hresult]; exact hsize.symm ▸ hpages }, ?_, by rw [hresult]; exact hsize⟩
  · intro q pg hq hle
    obtain ⟨pg₀, hq₀, hd⟩ := hclean hq
    rw [hresult] at hle ⊢
    rw [hd]
    exact hdata q pg₀ hq₀ (hsize ▸ hle)
  · rw [hcontent, ← hcontent₀]
    exact hcount

/-- `sqlite3PagerCommitPhaseOne`: the file holds the new database with a new change counter. -/
theorem Writing.commitPhaseOne {saves : List (Image α)} (h : Writing base segs tail s saves) {n : Nat}
    (hn : n ≤ s.pager.dbSize) :
    ∃ segs' g, Finished base segs' (sqlite3PagerCommitPhaseOne s n) ∧
        (sqlite3PagerCommitPhaseOne s n).pager.dbSize = n ∧
      Recounted s.content g ∧ ∀ q, q ≤ n → (sqlite3PagerCommitPhaseOne s n).content q = g q := by
  have hlocked : s.pager.eState ≠ .writerLocked := by
    rcases h.txn.state with ⟨hstate, -⟩ | hstate <;> rw [hstate] <;> decide
  rw [commitPhaseOne_eq hlocked]
  rcases Nat.eq_zero_or_pos n with rfl | h1
  · -- an empty database has no change counter
    have hincr : pagerIncrChangecounter (s.resize 0) = s.resize 0 := by
      rw [pagerIncrChangecounter, if_neg]
      exact fun h => Nat.lt_irrefl 0 h.2
    obtain ⟨hfin, hcount, hsize⟩ := h.txn.flush hn
    rw [hincr]
    exact ⟨_, _, hfin, hsize, hcount, fun _ _ => rfl⟩
  · obtain ⟨tail', g, h₁, hsize₁, hg, hsame⟩ := h.incrChangecounter
    obtain ⟨hfin, hcount, hsize⟩ := h₁.txn.flush (hsize₁.symm ▸ hn)
    rw [h.incr_resize h1 hn]
    obtain ⟨g', hg', hsame'⟩ := hcount.congr (g := g) (n := s.pager.dbSize) (Nat.le_trans h1 hn) hsame
    exact ⟨_, g', hfin, hsize, hg.trans hg', fun q hq => hsame' q (Nat.le_trans hq hn)⟩

/-! ### After the first phase -/

theorem Finished.rollback (h : Finished base segs s) :
    Idle base (sqlite3PagerRollback s) ∧ (sqlite3PagerRollback s).pager.eState = .reader := by
  have hplay : sqlite3PagerRollback s = pagerPlayback s false := by
    have hne : s.pager.eState ≠ .reader := by rw [h.eState]; decide
    rw [sqlite3PagerRollback, if_neg hne, if_neg]
    simp [h.isOpen, h.eState]
  rw [hplay]
  have hitems : s.disk.journal.map Prod.fst = journalItems base.size segs ++ [] := by
    rw [h.journal, map_fst_synced, List.append_nil]
  exact h.toUndo.pagerPlayback hitems (.inr ⟨rfl, rfl⟩) (.inl h.header)

/-- `sqlite3PagerCommitPhaseTwo`: the journal is deleted. -/
theorem Finished.commitPhaseTwo (h : Finished base segs s) (hsize : s.pager.dbSize = im.size)
    (hcontent : ∀ p, 1 ≤ p → p ≤ im.size → s.content p = im.page p) (htrace : s.trace = []) :
    Idle im (sqlite3PagerCommitPhaseTwo s) ∧ (sqlite3PagerCommitPhaseTwo s).pager.eState = .reader := by
  refine Settled.endTransaction ⟨hsize, ?_, h.pos, ?_, hsize ▸ h.sizeMin, hsize ▸ h.dbPages, by simp [htrace]⟩
      (.inl h.isOpen) true
  · intro p h1 hp
    refine ⟨?_, h.synced p⟩
    rw [← hcontent p h1 hp]
    cases hc : s.pager.cache p with
    | none => exact (content_none hc).symm
    | some pPg =>
      rw [content_some hc]
      exact (h.data p pPg hc (hsize ▸ hp)).symm
  · exact fun p pPg hc hp => h.data p pPg hc (hsize ▸ hp)

end Sqlite4a
