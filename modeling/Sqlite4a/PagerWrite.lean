import Sqlite4a.PagerSavepoints

/-!
# Writing a page

`sqlite3PagerWrite` records what the journal and the savepoints need of a page; then the page may change.
-/

namespace Sqlite4a

section

variable {α : Type} {base : Image α} {segs : List (List (Nat × α))} {tail : List (Nat × α)} {s : PagerSys α}
  {saves : List (Image α)} {p : Nat} {pPg : PgHdr α}

/-- The page may be changed: what was there before is recorded wherever that is needed. -/
structure Writable (s : PagerSys α) (p : Nat) : Prop where
  page : ∃ pPg, s.pager.cache p = some pPg ∧ pPg.dirty = true
  recorded : ∀ sp ∈ s.pager.aSavepoint, p ≤ sp.nOrig → sp.pInSavepoint p = true

/-- A transaction with its savepoints. -/
structure Writing (base : Image α) (segs : List (List (Nat × α))) (tail : List (Nat × α)) (s : PagerSys α)
    (saves : List (Image α)) : Prop where
  txn : Txn base segs tail s
  saves : Saves base.size segs tail s saves

theorem Writing.setCounter (h : Writing base segs tail s saves) (done : Bool) (vers : UInt32) :
    Writing base segs tail { s with pager := { s.pager with changeCountDone := done, dbFileVers := vers } } saves :=
  ⟨h.txn.setCounter done vers, h.saves.congr rfl rfl (Nat.le_refl _) fun _ _ _ => .inr rfl⟩

theorem Writing.setDirty (h : Writing base segs tail s saves) (hc : s.pager.cache p = some pPg) (pPg' : PgHdr α)
    (hdirty : pPg'.dirty = true) (hdata : pPg'.data = pPg.data)
    (hin : s.pager.pInJournal p = true ∨ s.pager.dbOrigSize < p) (hsync : pPg.needSync = true → pPg'.needSync = true) :
    Writing base segs tail (setPage s p pPg') saves := by
  refine ⟨h.txn.setDirty hc hdirty hin hsync, h.saves.congr rfl rfl (Nat.le_refl _) fun q _ _ => .inr ?_⟩
  rw [content_setPage_of_data hc pPg' hdata]

theorem Writing.subjournalPageIfRequired (h : Writing base segs tail s saves) (hc : s.pager.cache p = some pPg)
    (hdirty : pPg.dirty = true) :
    Writing base segs tail { s with pager := subjournalPageIfRequired s.pager p pPg.data } saves ∧
      Writable { s with pager := subjournalPageIfRequired s.pager p pPg.data } p := by
  rw [Sqlite4a.subjournalPageIfRequired]
  by_cases hreq : subjRequiresPage s.pager.aSavepoint p = true
  · rw [if_pos hreq]
    refine ⟨⟨h.txn.subjournalPage hc hdirty _, h.saves.subjournalPage (content_some hc)⟩, ⟨pPg, hc, hdirty⟩, ?_⟩
    exact fun sp hsp => mem_addToSavepointBitvecs hsp
  · rw [if_neg hreq]
    refine ⟨h, ⟨pPg, hc, hdirty⟩, fun sp hsp hle => ?_⟩
    rw [subjRequiresPage, List.any_eq_true] at hreq
    by_contra hnot
    exact hreq ⟨sp, hsp, by simpa [hle] using hnot⟩

end

variable {α : Type} [PageContent α] {base : Image α} {segs : List (List (Nat × α))} {tail : List (Nat × α)}
  {s : PagerSys α} {saves : List (Image α)} {p : Nat} {pPg : PgHdr α}

theorem sqlite3PagerGet_some (h : s.pager.cache p = some pPg) : sqlite3PagerGet s p = pPg := by
  simp [sqlite3PagerGet, h]

theorem Writing.journalPage (h : Writing base segs tail s saves) (hc : s.pager.cache p = some pPg)
    (hnot : s.pager.pInJournal p = false) (hp : p ≤ base.size) :
    Writing base segs (tail ++ [(p, s.content p)])
      (pagerAddPageToRollbackJournal (setPage s p { pPg with dirty := true }) p { pPg with dirty := true }) saves := by
  have hcontent : (pagerAddPageToRollbackJournal (setPage s p { pPg with dirty := true }) p
      { pPg with dirty := true }).content = s.content := by
    refine Eq.trans ?_ (content_setPage_of_data hc { pPg with dirty := true, needSync := true } rfl)
    exact content_congr (Function.update_idem _ _ _) rfl
  refine ⟨h.txn.journalPage hc hnot hp, h.saves.journalPage rfl rfl rfl hcontent ?_ ?_⟩
  · rintro r hr rfl
    rw [(h.txn.inJournal r.1).2 ⟨r, hr, rfl⟩] at hnot
    cases hnot
  · rintro r hr rfl
    rcases (h.txn.sub r hr).2.1 with hin | hlt
    · rw [hin] at hnot
      cases hnot
    · omega

/-- The end of `pager_write`. -/
theorem Writing.finishWrite (h : Writing base segs tail s saves) (hc : s.pager.cache p = some pPg)
    (hdirty : pPg.dirty = true) (hp : p ≤ s.pager.dbSize + 1) {data : α} (hdata : pPg.data = data) :
    let s₁ := setPage s p { sqlite3PagerGet s p with writeable := true }
    let s₂ := { s₁ with pager := Sqlite4a.subjournalPageIfRequired s₁.pager p data }
    let s' := { s₂ with pager := { s₂.pager with dbSize := max s₂.pager.dbSize p } }
    Writing base segs tail s' saves ∧ Writable s' p ∧ s'.content = s.content ∧ s'.pager.dbSize =
        max s.pager.dbSize p := by
  subst hdata
  intro s₁ s₂ s'
  have hget : sqlite3PagerGet s p = pPg := sqlite3PagerGet_some hc
  have h₁ : Writing base segs tail s₁ saves := by
    simp only [s₁, hget]
    exact h.setDirty hc _ hdirty rfl ((h.txn.page p pPg hc).dirty hdirty) id
  have hc₁ : s₁.pager.cache p = some { pPg with writeable := true } := by
    simp only [s₁, hget]
    exact Function.update_self _ _ _
  have hcontent₁ : s₁.content = s.content := by
    simp only [s₁, hget]
    exact content_setPage_of_data hc _ rfl
  obtain ⟨h₂, hw⟩ := h₁.subjournalPageIfRequired hc₁ hdirty
  have hframe : s₂.pager.cache = s₁.pager.cache ∧ s₂.pager.dbSize = s.pager.dbSize := by
    simp only [s₂, Sqlite4a.subjournalPageIfRequired]
    constructor <;> split <;> rfl
  have hc₂ : s₂.pager.cache p = some { pPg with writeable := true } := by rw [hframe.1, hc₁]
  have hcontent₂ : s'.content = s₁.content := by
    funext q
    show (s₂.pager.cache q).elim (s₂.disk.db q) PgHdr.data = _
    rw [hframe.1]
    rfl
  refine ⟨⟨h₂.txn.grow hc₂ hdirty (by rw [hframe.2]; exact hp), h₂.saves.congr rfl rfl (Nat.le_max_left _ _) ?_⟩, ?_,
      ?_, ?_⟩
  · exact fun _ _ _ => .inr rfl
  · exact ⟨hw.page, hw.recorded⟩
  · rw [hcontent₂, hcontent₁]
  · show max s₂.pager.dbSize p = _
    rw [hframe.2]

/-- `pager_write` once the journal is open. -/
theorem Writing.pagerWrite (h : Writing base segs tail s saves) (hc : s.pager.cache p = some pPg)
    (hp : p ≤ s.pager.dbSize + 1) :
    ∃ tail', Writing base segs tail' (pagerWrite s p) saves ∧ Writable (Sqlite4a.pagerWrite s p) p ∧
      (Sqlite4a.pagerWrite s p).content = s.content ∧ (Sqlite4a.pagerWrite s p).pager.dbSize =
          max s.pager.dbSize p := by
  have hopen : s.pager.eState ≠ .writerLocked := by
    rcases h.txn.state with ⟨hstate, -⟩ | hstate <;> rw [hstate] <;> decide
  have hget : sqlite3PagerGet s p = pPg := sqlite3PagerGet_some hc
  have hself : ∀ pg, (setPage s p pg).pager.cache p = some pg := fun pg => Function.update_self _ _ _
  simp only [Sqlite4a.pagerWrite, if_neg hopen, hget]
  by_cases hin : s.pager.pInJournal p = true
  · -- the page is in the journal already
    rw [if_pos (show (setPage s p { pPg with dirty := true }).pager.pInJournal p = true from hin)]
    have h₁ := h.setDirty hc { pPg with dirty := true } rfl rfl (.inl hin) id
    obtain ⟨hw, hpage, hcontent, hsize⟩ := h₁.finishWrite (hself _) rfl hp rfl
    exact ⟨tail, hw, hpage, hcontent.trans (content_setPage_of_data hc _ rfl), hsize⟩
  · rw [if_neg (show ¬ (setPage s p { pPg with dirty := true }).pager.pInJournal p = true from hin)]
    have hnot : s.pager.pInJournal p = false := by simpa using hin
    by_cases hle : p ≤ base.size
    · -- a page of the old database
      rw [if_pos (show p ≤ (setPage s p { pPg with dirty := true }).pager.dbOrigSize from h.txn.orig.symm ▸ hle)]
      have h₁ := h.journalPage hc hnot hle
      have hc₁ : (pagerAddPageToRollbackJournal (setPage s p { pPg with dirty := true }) p
          { pPg with dirty := true }).pager.cache p = some { pPg with dirty := true, needSync := true } :=
        Function.update_self _ _ _
      have hcontent₁ : (pagerAddPageToRollbackJournal (setPage s p { pPg with dirty := true }) p
          { pPg with dirty := true }).content = s.content := by
        refine Eq.trans ?_ (content_setPage_of_data hc { pPg with dirty := true, needSync := true } rfl)
        exact content_congr (Function.update_idem _ _ _) rfl
      obtain ⟨hw, hpage, hcontent, hsize⟩ := h₁.finishWrite hc₁ rfl hp rfl
      exact ⟨_, hw, hpage, hcontent.trans hcontent₁, hsize⟩
    · -- a new page
      have hnew : s.pager.dbOrigSize < p := by rw [h.txn.orig]; omega
      rw [if_neg (show ¬ p ≤ (setPage s p { pPg with dirty := true }).pager.dbOrigSize from Nat.not_le.2 hnew)]
      let pPg' : PgHdr α := { pPg with
        dirty := true, needSync := if s.pager.eState ≠ .writerDbmod then true else pPg.needSync }
      have hs₂ : (if (setPage s p { pPg with dirty := true }).pager.eState ≠ .writerDbmod then
          setPage (setPage s p { pPg with dirty := true }) p { pPg with dirty := true, needSync := true }
          else setPage s p { pPg with dirty := true }) = setPage s p pPg' := by
        show (if s.pager.eState ≠ .writerDbmod then _ else _) = _
        by_cases hstate : s.pager.eState ≠ .writerDbmod
        · simp only [if_pos hstate, setPage_setPage, pPg']
        · simp only [if_neg hstate, pPg']
      rw [hs₂]
      have hsync : pPg.needSync = true → pPg'.needSync = true := by
        intro hns
        by_cases hstate : s.pager.eState ≠ .writerDbmod <;> simp [pPg', hstate, hns]
      have h₁ := h.setDirty hc pPg' rfl rfl (.inr hnew) hsync
      obtain ⟨hw, hpage, hcontent, hsize⟩ := h₁.finishWrite (hself pPg') rfl hp rfl
      exact ⟨tail, hw, hpage, hcontent.trans (content_setPage_of_data hc _ rfl), hsize⟩

/-- `sqlite3PagerWrite` once the journal is open. -/
theorem Writing.sqlite3PagerWrite (h : Writing base segs tail s saves) (hc : s.pager.cache p = some pPg)
    (hp : p ≤ s.pager.dbSize + 1) :
    ∃ tail', Writing base segs tail' (sqlite3PagerWrite s p) saves ∧ Writable (Sqlite4a.sqlite3PagerWrite s p) p ∧
      (Sqlite4a.sqlite3PagerWrite s p).content = s.content ∧
      (Sqlite4a.sqlite3PagerWrite s p).pager.dbSize = max s.pager.dbSize p := by
  have hget : sqlite3PagerGet s p = pPg := sqlite3PagerGet_some hc
  simp only [Sqlite4a.sqlite3PagerWrite, hget]
  by_cases hfast : pPg.writeable = true ∧ p ≤ s.pager.dbSize
  · rw [if_pos hfast]
    have hdirty := (h.txn.page p pPg hc).writeable hfast.1
    obtain ⟨hw, hpage⟩ := h.subjournalPageIfRequired hc hdirty
    have hframe : ∀ pager : Pager α, (Sqlite4a.subjournalPageIfRequired pager p pPg.data).cache = pager.cache ∧
        (Sqlite4a.subjournalPageIfRequired pager p pPg.data).dbSize = pager.dbSize := by
      intro pager
      rw [Sqlite4a.subjournalPageIfRequired]
      constructor <;> split <;> rfl
    refine ⟨tail, hw, hpage, content_congr (hframe s.pager).1 rfl, (hframe s.pager).2.trans ?_⟩
    omega
  · rw [if_neg hfast]
    exact h.pagerWrite hc hp

/-- A page that may be changed is changed. -/
theorem Writing.setData (h : Writing base segs tail s saves) (hw : Writable s p) (data : α) :
    Writing base segs tail (setPage s p { Sqlite4a.sqlite3PagerGet s p with data := data }) saves ∧
      (setPage s p { Sqlite4a.sqlite3PagerGet s p with data := data }).content = Function.update s.content p data := by
  obtain ⟨pPg, hc, hdirty⟩ := hw.page
  have hget : sqlite3PagerGet s p = pPg := sqlite3PagerGet_some hc
  rw [hget]
  have hcontent := content_setPage s p { pPg with data := data }
  refine ⟨⟨h.txn.setDirty hc hdirty ((h.txn.page p pPg hc).dirty hdirty) id, h.saves.congr rfl rfl (Nat.le_refl _) ?_⟩,
    hcontent⟩
  intro q _ _
  by_cases hq : q = p
  · exact .inl fun sp hsp hle => hq.symm ▸ hw.recorded sp hsp (hq ▸ hle)
  · rw [hcontent]
    exact .inr (Function.update_of_ne hq _ _)

/-- The fetch of a page does not change what is there. -/
theorem Writing.fetch (h : Writing base segs tail s saves) (h1 : 1 ≤ p) :
    Writing base segs tail (fetchPage s p) saves := by
  refine ⟨h.txn.fetch h1, h.saves.congr rfl rfl (Nat.le_refl _) fun q _ hq => .inr ?_⟩
  exact content_fetch s p hq

/-! ### The first page of a transaction -/

theorem Idle.load (h : Idle base s) (h1 : 1 ≤ p) : Idle base (setPage s p (Sqlite4a.sqlite3PagerGet s p)) := by
  have hpage : ∀ q pg, (setPage s p (Sqlite4a.sqlite3PagerGet s p)).pager.cache q = some pg → s.pager.cache q =
      some pg ∨
      q = p ∧ pg = ⟨if p ≤ s.pager.dbSize then s.disk.db p else default, false, false, false⟩ := by
    intro q pg hq
    by_cases hqp : q = p
    · subst hqp
      have hget : some (Sqlite4a.sqlite3PagerGet s q) = some pg := by
        rw [← hq]
        exact (Function.update_self q _ s.pager.cache).symm
      rw [Option.some.injEq, Sqlite4a.sqlite3PagerGet] at hget
      cases hc : s.pager.cache q with
      | some pPg => exact .inl (by simpa [hc] using hget)
      | none => exact .inr ⟨rfl, by simpa [hc] using hget.symm⟩
    · exact .inl ((Function.update_of_ne hqp _ _).symm.trans hq)
  refine { h with pos := ?_, clean := ?_, data := ?_ }
  · intro q pg hq
    rcases hpage q pg hq with hq | ⟨rfl, -⟩
    · exact h.pos q pg hq
    · exact h1
  · intro q pg hq
    rcases hpage q pg hq with hq | ⟨-, rfl⟩
    · exact h.clean q pg hq
    · rfl
  · intro q pg hq hle
    rcases hpage q pg hq with hq | ⟨rfl, rfl⟩
    · exact h.data q pg hq hle
    · exact if_pos (h.dbSize.symm ▸ hle)

theorem Idle.fetch (h : Idle base s) (h1 : 1 ≤ p) : Idle base (fetchPage s p) :=
  Idle.load (s := setDbFileVers s _ _) { h with } h1

theorem Locked.fetch (h : Locked base s) (h1 : 1 ≤ p) : Locked base (fetchPage s p) :=
  { h.toIdle.fetch h1 with state := h.state, orig := h.orig, dbFileSize := h.dbFileSize }

theorem pagerOpenJournal_aSavepoint (s : PagerSys α) : (pagerOpenJournal s).pager.aSavepoint = s.pager.aSavepoint := by
  show s.pager.aSavepoint.map _ = _
  refine (List.map_congr_left ?_).trans (List.map_id _)
  intro sp _
  split
  · next h0 =>
    cases sp
    cases h0
    rfl
  · rfl

/-- The journal is opened when the first page is changed. -/
theorem Locked.pagerWrite (h : Locked base s) (hsaves : Saves base.size [] [] s saves) (hc : s.pager.cache p = some pPg)
    (hp : p ≤ s.pager.dbSize + 1) :
    ∃ tail', Writing base [] tail' (Sqlite4a.pagerWrite s p) saves ∧ Writable (Sqlite4a.pagerWrite s p) p ∧
      (Sqlite4a.pagerWrite s p).content = s.content ∧ (Sqlite4a.pagerWrite s p).pager.dbSize =
          max s.pager.dbSize p := by
  have hopen : Sqlite4a.pagerWrite s p = Sqlite4a.pagerWrite (pagerOpenJournal s) p := by
    have hstate : (pagerOpenJournal s).pager.eState ≠ .writerLocked := by
      show PagerState.writerCachemod ≠ .writerLocked
      decide
    simp only [Sqlite4a.pagerWrite, if_pos h.state, if_neg hstate]
  have hw : Writing base [] [] (pagerOpenJournal s) saves :=
    ⟨h.openJournal, hsaves.congr (pagerOpenJournal_aSavepoint s) rfl (Nat.le_refl _) fun _ _ _ => .inr rfl⟩
  rw [hopen]
  exact hw.pagerWrite hc hp

/-- The content after a page has been written. -/
theorem content_write {t : PagerSys α} {data : α}
    (ht : t.content = Function.update (fetchPage s p).content p data)
    (hp : p ≤ s.pager.dbSize + 1) {q : Nat} (hq : q ≤ max s.pager.dbSize p) :
    t.content q = Function.update s.content p data q := by
  rw [ht]
  by_cases hqp : q = p
  · rw [hqp, Function.update_self, Function.update_self]
  · rw [Function.update_of_ne hqp, Function.update_of_ne hqp, content_fetch s p (by omega)]

/-- A page is written. -/
theorem Writing.writePage (h : Writing base segs tail s saves) (h1 : 1 ≤ p) (hp : p ≤ s.pager.dbSize + 1) (data : α) :
    ∃ tail', Writing base segs tail' (writePage s p data) saves ∧ (writePage s p data).pager.dbSize =
        max s.pager.dbSize p ∧
      ∀ q, q ≤ max s.pager.dbSize p → (writePage s p data).content q = Function.update s.content p data q := by
  have hself : (fetchPage s p).pager.cache p = some (Sqlite4a.sqlite3PagerGet s p) :=
    Function.update_self _ _ _
  obtain ⟨tail', h₂, hw, hcontent, hsize⟩ := (h.fetch h1).sqlite3PagerWrite hself hp
  obtain ⟨h₃, hcontent'⟩ := h₂.setData hw data
  exact ⟨tail', h₃, hsize, fun q hq => content_write (hcontent'.trans (by rw [hcontent])) hp hq⟩

theorem Locked.writePage (h : Locked base s) (hsaves : Saves base.size [] [] s saves) (h1 : 1 ≤ p)
    (hp : p ≤ s.pager.dbSize + 1) (data : α) :
    ∃ tail', Writing base [] tail' (Sqlite4a.writePage s p data) saves ∧
      (Sqlite4a.writePage s p data).pager.dbSize = max s.pager.dbSize p ∧
      ∀ q, q ≤ max s.pager.dbSize p → (Sqlite4a.writePage s p data).content q = Function.update s.content p data q := by
  have hself : (fetchPage s p).pager.cache p = some (Sqlite4a.sqlite3PagerGet s p) :=
    Function.update_self _ _ _
  have h₁ := h.fetch h1
  have hsaves₁ : Saves base.size [] [] (fetchPage s p) saves :=
    hsaves.congr rfl rfl (Nat.le_refl _) fun q _ hq => .inr (content_fetch s p hq)
  have hclean : (Sqlite4a.sqlite3PagerGet s p).writeable = false := by
    rw [← h₁.clean p _ hself]
    rfl
  have hslow : Sqlite4a.sqlite3PagerWrite (fetchPage s p) p =
      Sqlite4a.pagerWrite (fetchPage s p) p := by
    rw [Sqlite4a.sqlite3PagerWrite, sqlite3PagerGet_some hself]
    exact if_neg (by simp [hclean])
  obtain ⟨tail', h₂, hw, hcontent, hsize⟩ := h₁.pagerWrite hsaves₁ hself hp
  rw [← hslow] at h₂ hw hcontent hsize
  obtain ⟨h₃, hcontent'⟩ := h₂.setData hw data
  exact ⟨tail', h₃, hsize, fun q hq => content_write (hcontent'.trans (by rw [hcontent])) hp hq⟩

/-! ### Spilling a page -/

theorem Writing.syncJournal (h : Writing base segs tail s saves) :
    Writing base (segs ++ [tail]) [] (Sqlite4a.syncJournal s true) saves ∧ (Sqlite4a.syncJournal s true).content =
        s.content := by
  have hcontent : (Sqlite4a.syncJournal s true).content = s.content := by
    funext q
    show (clearSyncFlags s.pager.cache q).elim (s.disk.db q) PgHdr.data = _
    rw [clearSyncFlags, PagerSys.content]
    cases s.pager.cache q <;> rfl
  have hoff : s.pager.journalOff = (journalItems base.size segs).length + 1 + tail.length := by
    rw [h.txn.off, h.txn.hdr]
  exact ⟨⟨h.txn.syncJournal, h.saves.sync hoff rfl rfl rfl hcontent⟩, hcontent⟩

/-- The page is in the file and clean, unless it is past the end of the database. -/
def PagerSys.spill (s : PagerSys α) (p : Nat) (pPg : PgHdr α) : PagerSys α :=
  setPage (if p ≤ s.pager.dbSize then writeDbPage s p pPg.data else s) p (makeClean pPg)

/-- Any page but the first is written as it is. -/
theorem spill_of_ne (hp : p ≠ 1) {pPg₀ : PgHdr α} (hc : s.pager.cache p = some pPg₀) (pPg : PgHdr α)
    (hdata : pPg₀.data = pPg.data) :
    setPage (pagerWritePage s p pPg) p (makeClean (sqlite3PagerGet (pagerWritePage s p pPg) p)) = s.spill p pPg := by
  rw [PagerSys.spill, pagerWritePage]
  by_cases hle : p ≤ s.pager.dbSize
  · rw [if_pos hle, if_pos hle, if_neg hp,
      sqlite3PagerGet_some (show _ = some pPg from Function.update_self _ _ _)]
    simp [setDbFileVers, setPage, writeDbPage, PagerSys.call, hp]
  · rw [if_neg hle, if_neg hle, sqlite3PagerGet_some hc, makeClean, makeClean, hdata]

/-- A dirty page without `needSync` is spilled when the journal has been synced. -/
theorem Txn.spill (h : Txn base segs tail s) (hstate : s.pager.eState = .writerDbmod) {pPg₀ : PgHdr α}
    (hc : s.pager.cache p = some pPg₀) (hdirty : pPg₀.dirty = true) (hsync : ∀ r ∈ tail, r.1 ≠ p) :
    Txn base segs tail (s.spill p pPg) := by
  have hok := h.page p pPg₀ hc
  have hnot : ¬ s.pager.eState = .writerCachemod := by rw [hstate]; decide
  have hrec : (∃ r ∈ segs.flatten, r.1 = p) ∨ base.size < p := by
    rcases hok.dirty hdirty with hin | hlt
    · obtain ⟨r, hr, hrp⟩ := (h.inJournal p).1 hin
      rcases List.mem_append.1 hr with hr | hr
      · exact .inl ⟨r, hr, hrp⟩
      · exact absurd hrp (hsync r hr)
    · exact .inr (h.orig ▸ hlt)
  have htail : (∃ r ∈ tail, r.1 = p) → (makeClean pPg).needSync = true := by
    rintro ⟨r, hr, hrp⟩
    exact absurd hrp (hsync r hr)
  rw [PagerSys.spill]
  by_cases hle : p ≤ s.pager.dbSize
  · rw [if_pos hle]
    refine (h.writeDbPage pPg.data hok.pos hrec ?_).setPage ⟨hok.pos, fun _ _ => ?_, ?_, ?_, ?_⟩
        (fun hs => absurd hs hnot) htail ?_
    · intro pg hpg hclean
      rw [hc, Option.some.injEq] at hpg
      rw [← hpg, hdirty] at hclean
      cases hclean
    · exact (Function.update_self p pPg.data s.disk.db).symm
    · simp [makeClean]
    · simp [makeClean]
    · simp [makeClean]
    · intro hlt _
      have hlt' : max s.pager.dbFileSize p < p := hlt
      omega
  · rw [if_neg hle]
    refine h.setPage ⟨hok.pos, fun _ hle' => absurd hle' hle, ?_, ?_, ?_⟩ (fun hs => absurd hs hnot) htail
      fun _ hle' => absurd hle' hle
    all_goals simp [makeClean]

theorem Writing.spill (h : Writing base segs tail s saves) (pPg : PgHdr α) (hstate : s.pager.eState = .writerDbmod)
    {pPg₀ : PgHdr α} (hc : s.pager.cache p = some pPg₀) (hdirty : pPg₀.dirty = true) (hsync : ∀ r ∈ tail, r.1 ≠ p)
    (hdata : pPg₀.data = pPg.data) :
    Writing base segs tail (s.spill p pPg) saves ∧ (s.spill p pPg).content = s.content ∧
      (s.spill p pPg).pager.dbSize = s.pager.dbSize := by
  have hcontent : (s.spill p pPg).content = s.content := by
    funext q
    by_cases hqp : q = p
    · subst hqp
      rw [PagerSys.spill, content_setPage, Function.update_self, content_some hc, hdata]
      rfl
    · rw [PagerSys.spill, content_setPage, Function.update_of_ne hqp]
      split
      · show (s.pager.cache q).elim (Function.update s.disk.db p pPg.data q) PgHdr.data = _
        rw [Function.update_of_ne hqp]
        rfl
      · rfl
  have hframe : (s.spill p pPg).pager.aSavepoint = s.pager.aSavepoint ∧
      (s.spill p pPg).pager.sjfd = s.pager.sjfd ∧ (s.spill p pPg).pager.dbSize = s.pager.dbSize := by
    rw [PagerSys.spill]
    split <;> exact ⟨rfl, rfl, rfl⟩
  refine ⟨⟨h.txn.spill hstate hc hdirty hsync, h.saves.congr hframe.1 hframe.2.1 (Nat.le_of_eq hframe.2.2.symm) ?_⟩,
    hcontent, hframe.2.2⟩
  exact fun q _ _ => .inr (by rw [hcontent])

/-- `pagerStress`. -/
theorem Writing.pagerStress (h : Writing base segs tail s saves) (hp : p ≠ 1) (hc : s.pager.cache p = some pPg)
    (hdirty : pPg.dirty = true) :
    ∃ segs' tail', Writing base segs' tail' (Sqlite4a.pagerStress s p pPg) saves ∧
      (Sqlite4a.pagerStress s p pPg).content = s.content ∧
      (Sqlite4a.pagerStress s p pPg).pager.dbSize = s.pager.dbSize := by
  simp only [Sqlite4a.pagerStress]
  by_cases hsync : pPg.needSync = true ∨ s.pager.eState = .writerCachemod
  · rw [if_pos hsync]
    have hc₁ := clearSyncFlags_some hc
    obtain ⟨h₁, hcontent₁⟩ := h.syncJournal
    obtain ⟨h₂, hcontent₂, hsize⟩ := h₁.spill pPg rfl hc₁ hdirty (by simp) rfl
    rw [spill_of_ne (s := Sqlite4a.syncJournal s true) hp hc₁ pPg rfl]
    exact ⟨_, _, h₂, hcontent₂.trans hcontent₁, hsize⟩
  · rw [if_neg hsync]
    have hstate : s.pager.eState = .writerDbmod := by
      rcases h.txn.state with ⟨hmod, -⟩ | hmod
      · exact absurd (.inr hmod) hsync
      · exact hmod
    have hnot : ∀ r ∈ tail, r.1 ≠ p := by
      intro r hr hrp
      obtain ⟨pg, hpg, hns⟩ := h.txn.pending r hr
      rw [hrp, hc, Option.some.injEq] at hpg
      exact hsync (.inl (hpg ▸ hns))
    obtain ⟨h₂, hcontent₂, hsize⟩ := h.spill pPg hstate hc hdirty hnot rfl
    rw [spill_of_ne hp hc pPg rfl]
    exact ⟨_, _, h₂, hcontent₂, hsize⟩

end Sqlite4a
