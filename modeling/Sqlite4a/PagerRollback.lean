import Sqlite4a.PagerWrite

/-!
# Rolling back to a savepoint

The records after the savepoint are played, the first one of each page: a record that has been synced goes to the file,
and to the cache if the page is there, and one that has not been synced goes to the cache only.
-/

namespace Sqlite4a

section

variable {α : Type}

def PagerSys.setOff (s : PagerSys α) (off : Nat) : PagerSys α := { s with pager := { s.pager with journalOff := off } }

/-- What playing a record leaves alone. -/
structure SameLog (s s' : PagerSys α) : Prop where
  aSavepoint : s'.pager.aSavepoint = s.pager.aSavepoint
  sjfd : s'.pager.sjfd = s.pager.sjfd
  dbSize : s'.pager.dbSize = s.pager.dbSize
  eState : s'.pager.eState = s.pager.eState
  journalHdr : s'.pager.journalHdr = s.pager.journalHdr
  isOpenJfd : s'.pager.isOpenJfd = s.pager.isOpenJfd

theorem SameLog.rfl (s : PagerSys α) : SameLog s s := ⟨.refl _, .refl _, .refl _, .refl _, .refl _, .refl _⟩

theorem SameLog.trans {s s' s'' : PagerSys α} (h : SameLog s s') (h' : SameLog s' s'') : SameLog s s'' :=
  ⟨h'.1.trans h.1, h'.2.trans h.2, h'.3.trans h.3, h'.4.trans h.4, h'.5.trans h.5, h'.6.trans h.6⟩

/-- While the savepoint `sp` is rolled back: the records that have been played, and what that has done to the content
`old`. -/
structure Playing (base : Image α) (segs : List (List (Nat × α))) (tail : List (Nat × α)) (saves : List (Image α))
    (szJ : Nat)
    (s₀ : PagerSys α) (done : List (Nat × α)) (s : PagerSys α) (pDone : Option (Nat → Bool)) : Prop where
  writing : Writing base segs tail (s.setOff szJ) saves
  same : SameLog s₀ s
  isDone : ∃ b, pDone = some b ∧ ∀ p, p ≤ s₀.pager.dbSize → (b p = true ↔ done.lookup p ≠ none)
  content : ∀ p, 1 ≤ p → p ≤ s₀.pager.dbSize → s.content p = (done.lookup p).getD (s₀.content p)

theorem Playing.setOff {base : Image α} {segs : List (List (Nat × α))} {tail : List (Nat × α)} {saves : List (Image α)}
    {szJ : Nat} {s₀ s : PagerSys α} {done : List (Nat × α)} {pDone : Option (Nat → Bool)}
    (h : Playing base segs tail saves szJ s₀ done s pDone) (o : Nat) :
    Playing base segs tail saves szJ s₀ done (s.setOff o) pDone :=
  ⟨h.writing, h.same.trans ⟨.refl _, .refl _, .refl _, .refl _, .refl _, .refl _⟩, h.isDone, h.content⟩

theorem lookup_append_singleton (l : List (Nat × α)) (r : Nat × α) (p : Nat) :
    (l ++ [r]).lookup p = (l.lookup p).or (if p = r.1 then some r.2 else none) := by
  rw [List.lookup_append, List.lookup_cons, List.lookup_nil]
  by_cases hp : p = r.1
  · simp [hp]
  · simp [hp, beq_false_of_ne hp]

theorem Txn.shrink {base : Image α} {segs : List (List (Nat × α))} {tail : List (Nat × α)} {s : PagerSys α}
    (h : Txn base segs tail s) {n : Nat} (hn : n ≤ s.pager.dbSize) (hbase : base.size ≤ n) :
    Txn base segs tail { s with pager := { s.pager with dbSize := n } } := by
  refine { h with page := ?_, grown := ?_, dbSize := hbase }
  · intro p pPg hc
    have hok := h.page p pPg hc
    exact { hok with clean := fun hd hle => hok.clean hd (Nat.le_trans hle hn) }
  · intro p hlt hle
    exact h.grown p hlt (Nat.le_trans hle hn)

/-- What a savepoint has recorded, the ones before it have recorded. -/
theorem Saves.recorded {N : Nat} {segs : List (List (Nat × α))} {tail : List (Nat × α)} {s : PagerSys α}
    {saves : List (Image α)}
    (h : Saves N segs tail s saves) {sp : PagerSavepoint}
    (hlast : s.pager.aSavepoint.getLast? = some sp) :
    ∀ sp' ∈ s.pager.aSavepoint, sp'.nOrig ≤ sp.nOrig ∧ ∀ p, p ≤ sp'.nOrig → sp.pInSavepoint p = true →
        sp'.pInSavepoint p = true := by
  obtain ⟨init, hinit⟩ := List.getLast?_eq_some_iff.1 hlast
  intro sp' hsp'
  have hpair := h.nested
  rw [hinit] at hsp' hpair
  rcases List.mem_append.1 hsp' with hmem | hmem
  · have hn := (List.pairwise_append.1 hpair).2.2 sp' hmem sp (List.mem_singleton.2 rfl)
    exact ⟨hn.nOrig, hn.recorded⟩
  · rw [List.mem_singleton.1 hmem]
    exact ⟨Nat.le_refl _, fun _ _ => id⟩

theorem Saves.shrink {N n : Nat} {segs : List (List (Nat × α))} {tail : List (Nat × α)} {s : PagerSys α}
    {saves : List (Image α)}
    (h : Saves N segs tail s saves) (hn : ∀ sp ∈ s.pager.aSavepoint, sp.nOrig ≤ n) :
    Saves N segs tail { s with pager := { s.pager with dbSize := n } } saves := by
  refine ⟨?_, h.nested⟩
  have hboth := (List.forall₂_and_left _ _).2 ⟨hn, h.each⟩
  exact hboth.imp fun sp save hok => ⟨hok.2.nOrig, hok.2.base, hok.1, hok.2.iSubRec, hok.2.log⟩

/-! ### Headers -/

theorem readJournalHdr_segment {s : PagerSys α} {N : Nat} {seg : List (Nat × α)} {more : List (JournalItem α)}
    (hdrop : (s.disk.journal.drop s.pager.journalOff).map Prod.fst = segmentItems N seg ++ more)
    (hhdr : s.pager.journalOff < s.pager.journalHdr) :
    readJournalHdr s false s.disk.journal.length = some (s.setOff (s.pager.journalOff + 1), seg.length, N) ∧
      recordCount (s.setOff (s.pager.journalOff + 1)) false s.disk.journal.length seg.length = seg.length := by
  obtain ⟨⟨⟨item, b⟩, hread, rfl⟩, -⟩ := getElem?_of_map_drop hdrop
  have hlt : s.pager.journalOff < s.disk.journal.length := (List.getElem?_eq_some_iff.1 hread).1
  refine ⟨?_, ?_⟩
  · rw [readJournalHdr, if_neg (by rw [JOURNAL_HDR_SZ]; omega), hread]
    simp [PagerSys.setOff, JOURNAL_HDR_SZ]
  · rw [recordCount, if_neg]
    rintro ⟨-, -, he⟩
    have he' : s.pager.journalHdr + 1 = s.pager.journalOff + 1 := he
    omega

theorem readJournalHdr_tail {s : PagerSys α} {N : Nat} {items : List (JournalItem α)}
    (hdrop : (s.disk.journal.drop s.pager.journalOff).map Prod.fst = .header false 0 N :: items)
    (hhdr : s.pager.journalHdr = s.pager.journalOff) :
    readJournalHdr s false s.disk.journal.length = some (s.setOff (s.pager.journalOff + 1), 0, N) ∧
      recordCount (s.setOff (s.pager.journalOff + 1)) false s.disk.journal.length 0 = items.length := by
  obtain ⟨⟨⟨item, b⟩, hread, rfl⟩, hnext⟩ := getElem?_of_map_drop hdrop
  have hlt : s.pager.journalOff < s.disk.journal.length := (List.getElem?_eq_some_iff.1 hread).1
  refine ⟨?_, ?_⟩
  · rw [readJournalHdr, if_neg (by rw [JOURNAL_HDR_SZ]; omega), hread]
    simp [PagerSys.setOff, JOURNAL_HDR_SZ, hhdr]
  · have hlen := congrArg List.length hnext
    rw [List.length_map, List.length_drop] at hlen
    have hcond : 0 = 0 ∧ (!false) = true ∧
        (s.setOff (s.pager.journalOff + 1)).pager.journalHdr + JOURNAL_HDR_SZ =
          (s.setOff (s.pager.journalOff + 1)).pager.journalOff := ⟨rfl, rfl, congrArg (· + 1) hhdr⟩
    rw [recordCount, if_pos hcond, ← hlen]
    exact Nat.div_one _

end

variable {α : Type} [PageContent α] {base : Image α} {segs : List (List (Nat × α))} {tail : List (Nat × α)}
  {s : PagerSys α} {saves : List (Image α)}

theorem setData_some {p : Nat} {data : α} {pPg : PgHdr α} (h : s.pager.cache p = some pPg) :
    setData s p data = setPage (setDbFileVers s (p = 1) data) p { pPg with data := data } := by
  simp [setData, h]

theorem setData_none {p : Nat} {data : α} (h : s.pager.cache p = none) : setData s p data = s := by
  simp [setData, h]

theorem sameLog_setData (s : PagerSys α) (p : Nat) (data : α) : SameLog s (setData s p data) := by
  rw [setData]
  split <;> exact ⟨.refl _, .refl _, .refl _, .refl _, .refl _, .refl _⟩

theorem Txn.setDbFileVers (h : Txn base segs tail s) (isPage1 : Bool) (data : α) :
    Txn base segs tail (setDbFileVers s isPage1 data) :=
  h.setCounter s.pager.changeCountDone _

theorem onePage_setOff (s : PagerSys α) (o off pgno : Nat) (data : α) (pDone : Option (Nat → Bool))
    (isMainJrnl : Bool) :
    pagerPlaybackOnePage (s.setOff o) off pgno data pDone isMainJrnl =
      ((pagerPlaybackOnePage s off pgno data pDone isMainJrnl).1.setOff o,
        (pagerPlaybackOnePage s off pgno data pDone isMainJrnl).2) := by
  have hset : ∀ t : PagerSys α, setData (t.setOff o) pgno data = (setData t pgno data).setOff o := by
    intro t
    cases hc : t.pager.cache pgno with
    | none => rw [setData_none hc, setData_none (s := t.setOff o) hc]
    | some pPg =>
      rw [setData_some hc, setData_some (s := t.setOff o) hc]
      rfl
  simp only [pagerPlaybackOnePage]
  split
  · next hskip => rw [if_pos (show s.pager.dbSize < pgno ∨ _ from hskip)]
  · next hskip =>
    rw [if_neg (show ¬ (s.pager.dbSize < pgno ∨ _) from hskip)]
    refine Prod.ext ?_ rfl
    dsimp only
    rw [← hset]
    rw [apply_ite (PagerSys.setOff · o), apply_ite (PagerSys.setOff · o)]
    rfl

/-- A record goes to the file and to the cache. -/
theorem Txn.playWrite (h : Txn base segs tail s) (hstate : s.pager.eState = .writerDbmod) {p : Nat} (h1 : 1 ≤ p)
    (hp : (∃ r ∈ segs.flatten, r.1 = p) ∨ base.size < p) (data : α) :
    Txn base segs tail (setData (Sqlite4a.writeDbPage s p data) p data) ∧
      (setData (Sqlite4a.writeDbPage s p data) p data).content = Function.update s.content p data ∧
      SameLog s (setData (Sqlite4a.writeDbPage s p data) p data) := by
  have hlog : SameLog s (setData (Sqlite4a.writeDbPage s p data) p data) :=
    SameLog.trans (⟨.refl _, .refl _, .refl _, .refl _, .refl _, .refl _⟩ : SameLog s (Sqlite4a.writeDbPage s p data))
      (sameLog_setData _ p data)
  rw [← and_assoc]
  refine ⟨?_, hlog⟩
  have hcontent : ∀ q, q ≠ p → (Sqlite4a.writeDbPage s p data).content q = s.content q := by
    intro q hq
    show (s.pager.cache q).elim (Function.update s.disk.db p data q) PgHdr.data = _
    rw [Function.update_of_ne hq]
    rfl
  cases hc : s.pager.cache p with
  | none =>
    rw [setData_none (s := Sqlite4a.writeDbPage s p data) hc]
    refine ⟨h.writeDbPage data h1 hp fun pPg hpPg => ?_, ?_⟩
    · rw [hc] at hpPg
      cases hpPg
    · funext q
      by_cases hq : q = p
      · subst hq
        have hnone : (Sqlite4a.writeDbPage s q data).pager.cache q = none := hc
        rw [content_none hnone, Function.update_self]
        exact Function.update_self _ _ _
      · rw [hcontent q hq, Function.update_of_ne hq]
  | some pPg =>
    rw [setData_some (s := Sqlite4a.writeDbPage s p data) hc]
    have hok := h.page p pPg hc
    refine ⟨Txn.setDbFileVers (s := Sqlite4a.setPage (Sqlite4a.writeDbPage s p data) p { pPg with data := data }) ?_
      _ _,
      ?_⟩
    · cases hdirty : pPg.dirty with
      | true =>
        have h₁ := h.writeDbPage data h1 hp fun pg hpg hclean => by
          rw [hc, Option.some.injEq] at hpg
          rw [← hpg, hdirty] at hclean
          cases hclean
        have hc₁ : (Sqlite4a.writeDbPage s p data).pager.cache p = some pPg := hc
        exact h₁.setDirty hc₁ rfl (hok.dirty hdirty) id
      | false =>
        -- the page leaves the cache, and comes back with what is in the file now
        let s₁ : PagerSys α := { s with pager := { s.pager with cache := Function.update s.pager.cache p none } }
        have h₁ : Txn base segs tail s₁ := h.recycle hc hdirty
        have hnone : s₁.pager.cache p = none := Function.update_self p none s.pager.cache
        have h₂ : Txn base segs tail (Sqlite4a.writeDbPage s₁ p data) := h₁.writeDbPage data h1 hp fun pg hpg => by
          rw [hnone] at hpg
          cases hpg
        have hclean : pPg.dirty = true → False := by rw [hdirty]; simp
        have hok₂ : PageOk (Sqlite4a.writeDbPage s₁ p data) p { pPg with data := data } :=
          ⟨h1, fun _ _ => (Function.update_self p data s.disk.db).symm, fun hd => (hclean hd).elim,
            fun hns => (hclean (hok.needSync hns)).elim, fun hw => (hclean (hok.writeable hw)).elim⟩
        have h₃ : Txn base segs tail (Sqlite4a.setPage (Sqlite4a.writeDbPage s₁ p data) p
            { pPg with data := data }) := by
          refine h₂.setPage hok₂ ?_ ?_ ?_
          · intro hs
            rw [show s.pager.eState = .writerCachemod from hs] at hstate
            cases hstate
          · rintro ⟨r, hr, rfl⟩
            obtain ⟨pg, hpg, -⟩ := h₁.pending r hr
            rw [hnone] at hpg
            cases hpg
          · intro hlt _
            have hlt' : max s.pager.dbFileSize p < p := hlt
            omega
        convert h₃ using 1
        simp [s₁, Sqlite4a.setPage, Sqlite4a.writeDbPage, PagerSys.call, hdirty]
    · funext q
      rw [content_setPage]
      by_cases hq : q = p
      · subst hq
        rw [Function.update_self, Function.update_self]
      · rw [Function.update_of_ne hq, Function.update_of_ne hq]
        exact hcontent q hq

/-- A record goes to a page in the cache that is dirty. -/
theorem Txn.setData (h : Txn base segs tail s) {p : Nat} {pPg : PgHdr α} (hc : s.pager.cache p = some pPg)
    (hdirty : pPg.dirty = true) (data : α) :
    Txn base segs tail (setData s p data) ∧ (setData s p data).content = Function.update s.content p data ∧
      SameLog s (setData s p data) := by
  rw [← and_assoc]
  refine ⟨?_, sameLog_setData s p data⟩
  rw [setData_some hc]
  have hpage : Txn base segs tail (Sqlite4a.setPage s p { pPg with data := data }) :=
    h.setDirty hc hdirty ((h.page p pPg hc).dirty hdirty) id
  exact ⟨hpage.setDbFileVers _ _, content_setPage _ _ _⟩

/-- A record of the main journal is played, unless the page has been restored already. -/
theorem Txn.playMain (h : Txn base segs tail s) {r : Nat × α} {off : Nat}
    (hr : r ∈ segs.flatten ∧ off ≤ s.pager.journalHdr ∨ r ∈ tail ∧ s.pager.journalHdr < off)
    {pDone : Option (Nat → Bool)}
    (hnot : (pDone.any fun b => b r.1) = false) :
    Txn base segs tail (pagerPlaybackOnePage s off r.1 r.2 pDone true).1 ∧
      (pagerPlaybackOnePage s off r.1 r.2 pDone true).1.content = Function.update s.content r.1 r.2 ∧
      SameLog s (pagerPlaybackOnePage s off r.1 r.2 pDone true).1 ∧
      (pagerPlaybackOnePage s off r.1 r.2 pDone true).2 = pDone.map fun b => sqlite3BitvecSet b r.1 := by
  have hrec : base.Record r := h.record r (List.mem_append.2 (hr.imp And.left And.left))
  have hskip : ¬ (s.pager.dbSize < r.1 ∨ (pDone.any fun b => b r.1) = true) := by
    rw [hnot]
    have := Nat.le_trans hrec.le h.dbSize
    simp
    omega
  rw [pagerPlaybackOnePage, if_neg hskip]
  simp only [if_true, decide_eq_true_eq, Bool.not_true, Bool.false_eq_true, false_and, if_false, and_true]
  rcases hr with ⟨hmem, hoff⟩ | ⟨hmem, hoff⟩
  · -- the record has been synced
    have hstate : s.pager.eState = .writerDbmod := by
      rcases h.state with ⟨-, rfl⟩ | hstate
      · simp at hmem
      · exact hstate
    rw [if_pos ⟨by rw [hstate]; rfl, hoff⟩]
    exact h.playWrite hstate hrec.pos (.inl ⟨r, hmem, rfl⟩) r.2
  · -- the record has not been synced, and the page is in the cache
    rw [if_neg (by omega)]
    obtain ⟨pPg, hc, hns⟩ := h.pending r hmem
    exact h.setData hc ((h.page _ _ hc).needSync hns) r.2

/-- A record of the sub-journal is played. -/
theorem Txn.playSub (h : Txn base segs tail s) {r : Nat × α} (hr : r ∈ s.pager.sjfd) {pDone : Option (Nat → Bool)}
    (hnot : (pDone.any fun b => b r.1) = false) (hsize : r.1 ≤ s.pager.dbSize) :
    Txn base segs tail (pagerPlaybackOnePage s 0 r.1 r.2 pDone false).1 ∧
      (pagerPlaybackOnePage s 0 r.1 r.2 pDone false).1.content = Function.update s.content r.1 r.2 ∧
      SameLog s (pagerPlaybackOnePage s 0 r.1 r.2 pDone false).1 ∧
      (pagerPlaybackOnePage s 0 r.1 r.2 pDone false).2 = pDone.map fun b => sqlite3BitvecSet b r.1 := by
  obtain ⟨h1, hin, hmod⟩ := h.sub r hr
  have hskip : ¬ (s.pager.dbSize < r.1 ∨ (pDone.any fun b => b r.1) = true) := by
    rw [hnot]
    simp
    omega
  rw [pagerPlaybackOnePage, if_neg hskip]
  simp only [Bool.false_eq_true, if_false, Bool.not_false, true_and, and_true]
  rcases h.state with ⟨hstate, -⟩ | hstate
  · obtain ⟨pPg, hc, hdirty⟩ := hmod hstate
    rw [if_neg (by rw [hstate]; simp [PagerState.writesDb]), if_neg (by rw [hc]; simp)]
    exact h.setData hc hdirty r.2
  · by_cases hsync : ((s.pager.cache r.1).all fun p => !p.needSync) = true
    · rw [if_pos ⟨by rw [hstate]; rfl, hsync⟩]
      have hp : (∃ r' ∈ segs.flatten, r'.1 = r.1) ∨ base.size < r.1 := by
        rcases hin with hin | hlt
        · obtain ⟨r', hr', he⟩ := (h.inJournal r.1).1 hin
          rcases List.mem_append.1 hr' with hr' | hr'
          · exact .inl ⟨r', hr', he⟩
          · obtain ⟨pPg, hc, hns⟩ := h.pending r' hr'
            rw [he] at hc
            simp [hc, hns] at hsync
        · exact .inr hlt
      exact h.playWrite hstate h1 hp r.2
    · rw [if_neg (fun hc => hsync hc.2)]
      cases hc : s.pager.cache r.1 with
      | none => simp [hc] at hsync
      | some pPg =>
        rw [if_neg (by simp)]
        have hns : pPg.needSync = true := by simpa [hc] using hsync
        -- the page still waits for the sync
        exact h.setData hc ((h.page _ _ hc).needSync hns) r.2

/-! ### A savepoint -/

/-- What each of the records keeps is kept by the loop over the headers. -/
theorem savepointLoop_rule (P : List (Nat × α) → PagerSys α → Option (Nat → Bool) → Prop) {H N : Nat}
    (hsetOff : ∀ done s pDone o, P done s pDone → P done (s.setOff o) pDone)
    (hhdr : ∀ done s pDone, P done s pDone → s.pager.journalHdr = H) {later : List (List (Nat × α))}
    {J : List (JournalItem α × Bool)} {start : Nat}
    (hdrop : (J.drop start).map Prod.fst = journalItems N later ++ .header false 0 N :: tail.map pageItem)
    (hH : H = start + (journalItems N later).length) (hpos : ∀ r ∈ later.flatten ++ tail, 1 ≤ r.1)
    (hseg : ∀ done s pDone r off, r ∈ later.flatten → off ≤ H → P done s pDone →
      P (done ++ [r]) (pagerPlaybackOnePage s off r.1 r.2 pDone true).1
          (pagerPlaybackOnePage s off r.1 r.2 pDone true).2)
    (htail : ∀ done s pDone r off, r ∈ tail → H < off → P done s pDone →
      P (done ++ [r]) (pagerPlaybackOnePage s off r.1 r.2 pDone true).1
          (pagerPlaybackOnePage s off r.1 r.2 pDone true).2)
    {fuel : Nat} (hfuel : later.length < fuel) (done : List (Nat × α)) (s : PagerSys α) (pDone : Option (Nat → Bool))
    (hinv : P done s pDone) (hj : s.disk.journal = J) (hoff : s.pager.journalOff = start) :
    ∃ s' pDone', savepointLoop J.length fuel s pDone = (s', pDone') ∧ P (done ++ later.flatten ++ tail) s' pDone' := by
  obtain ⟨fuel, rfl⟩ : ∃ f, fuel = f + 1 := ⟨fuel - 1, by omega⟩
  have hlt : s.pager.journalOff < J.length := by
    have hlen := congrArg List.length hdrop
    simp only [List.length_map, List.length_drop, List.length_append, List.length_cons] at hlen
    omega
  induction later generalizing s pDone done start fuel with
  | nil =>
    rw [journalItems_nil, List.nil_append] at hdrop
    have hHs : H = start := by simpa using hH
    obtain ⟨hread, hcount⟩ := readJournalHdr_tail (s := s) (by rw [hj, hoff]; exact hdrop)
      (by rw [hhdr done s pDone hinv, hHs, hoff])
    have hnext : (J.drop (start + 1)).map Prod.fst = tail.map pageItem ++ [] :=
      (getElem?_of_map_drop hdrop).2.trans (List.append_nil _).symm
    have hlen := congrArg List.length hnext
    rw [List.append_nil, List.length_map, List.length_drop, List.length_map] at hlen
    obtain ⟨s', pDone', hplay, hinv', hj', hoff'⟩ := playRecords_rule P hsetOff hnext
      (fun r hr => hpos r (List.mem_append_right _ hr))
      (fun done s pDone r off hr hlt _ _ => htail done s pDone r off hr (by omega)) done (s.setOff (start + 1)) pDone
      (hsetOff _ _ _ _ hinv) hj rfl
    refine ⟨s', pDone', ?_, by simpa using hinv'⟩
    have hmin : min tail.length (J.length - (start + 1)) = tail.length := by omega
    have hend : ∀ f, savepointLoop J.length f s' pDone' = (s', pDone') := by
      intro f
      cases f with
      | zero => rfl
      | succ f =>
        rw [savepointLoop, if_neg]
        rw [hoff']
        omega
    have hplay' : playRecords (min tail.length (J.length - (s.setOff (start + 1)).pager.journalOff))
        (s.setOff (start + 1))
        pDone = (s', pDone', true) := (congrArg (fun n => playRecords n _ pDone) hmin).trans hplay
    rw [savepointLoop, if_pos hlt, ← hj, hread]
    simp only [hcount, List.length_map]
    rw [hj, hoff]
    simp only [hplay', if_true]
    exact hend fuel
  | cons seg later ih =>
    rw [journalItems_cons, List.append_assoc] at hdrop
    rw [journalItems_cons, List.length_append, length_segmentItems] at hH
    obtain ⟨hread, hcount⟩ := readJournalHdr_segment (s := s) (by rw [hj, hoff]; exact hdrop)
      (by rw [hhdr done s pDone hinv, hoff]; omega)
    have hnext : (J.drop (start + 1)).map Prod.fst =
        seg.map pageItem ++ (journalItems N later ++ .header false 0 N :: tail.map pageItem) :=
      (getElem?_of_map_drop hdrop).2
    have hlen := congrArg List.length hnext
    simp only [List.length_map, List.length_drop, List.length_append, List.length_cons] at hlen
    have hmem : ∀ r, r ∈ seg ∨ r ∈ later.flatten → r ∈ (seg :: later).flatten := fun r hr => by
      rw [List.flatten_cons]
      exact List.mem_append.2 hr
    obtain ⟨s₁, pDone₁, hplay, hinv₁, hj₁, hoff₁⟩ := playRecords_rule P hsetOff hnext
      (fun r hr => hpos r (List.mem_append_left _ (hmem r (.inl hr))))
      (fun done s pDone r off hr _ hle _ => hseg done s pDone r off (hmem r (.inl hr)) (by omega)) done
      (s.setOff (start + 1)) pDone (hsetOff _ _ _ _ hinv) hj rfl
    have hdrop₁ : (J.drop (start + 1 + seg.length)).map Prod.fst =
        journalItems N later ++ .header false 0 N :: tail.map pageItem := by
      rw [← List.drop_drop, List.map_drop, hnext, List.drop_left' (List.length_map _)]
    obtain ⟨fuel, rfl⟩ : ∃ f, fuel = f + 1 := ⟨fuel - 1, by rw [List.length_cons] at hfuel; omega⟩
    have hfuel₁ : later.length < fuel + 1 := by
      rw [List.length_cons] at hfuel
      omega
    have hlt₁ : s₁.pager.journalOff < J.length := by
      rw [hoff₁]
      omega
    have hpos₁ : ∀ r ∈ later.flatten ++ tail, 1 ≤ r.1 := fun r hr =>
      hpos r (List.mem_append.2 ((List.mem_append.1 hr).imp (fun hr => hmem r (.inr hr)) id))
    obtain ⟨s', pDone', hloop, hinv'⟩ := ih hdrop₁ (by omega) hpos₁
      (fun done s pDone r off hr => hseg done s pDone r off (hmem r (.inr hr)))
      (done ++ seg) s₁ pDone₁ hinv₁ hj₁ hoff₁ fuel
      hfuel₁ hlt₁
    refine ⟨s', pDone', ?_, by simpa using hinv'⟩
    have hmin : min seg.length (J.length - (start + 1)) = seg.length := by omega
    have hplay' : playRecords (min seg.length (J.length - (s.setOff (start + 1)).pager.journalOff))
        (s.setOff (start + 1))
        pDone = (s₁, pDone₁, true) := (congrArg (fun n => playRecords n _ pDone) hmin).trans hplay
    rw [savepointLoop, if_pos hlt, ← hj, hread]
    simp only [hcount]
    rw [hj, hoff]
    simp only [hplay', if_true]
    exact hloop

variable {szJ : Nat} {s₀ : PagerSys α} {done : List (Nat × α)} {pDone : Option (Nat → Bool)}

/-- One record; `hplay` says what it does when the page is not done yet. -/
theorem Playing.step (h : Playing base segs tail saves szJ s₀ done s pDone) {r : Nat × α} {off : Nat}
    {isMainJrnl : Bool}
    (hrec : ∀ sp ∈ s₀.pager.aSavepoint, r.1 ≤ sp.nOrig → sp.pInSavepoint r.1 = true)
    (hplay : (pDone.any fun b => b r.1) = false → r.1 ≤ s₀.pager.dbSize →
      Txn base segs tail (pagerPlaybackOnePage (s.setOff szJ) off r.1 r.2 pDone isMainJrnl).1 ∧
        (pagerPlaybackOnePage (s.setOff szJ) off r.1 r.2 pDone isMainJrnl).1.content =
          Function.update (s.setOff szJ).content r.1 r.2 ∧
        SameLog (s.setOff szJ) (pagerPlaybackOnePage (s.setOff szJ) off r.1 r.2 pDone isMainJrnl).1 ∧
        (pagerPlaybackOnePage (s.setOff szJ) off r.1 r.2 pDone isMainJrnl).2 = pDone.map fun b =>
            sqlite3BitvecSet b r.1) :
    Playing base segs tail saves szJ s₀ (done ++ [r]) (pagerPlaybackOnePage s off r.1 r.2 pDone isMainJrnl).1
      (pagerPlaybackOnePage s off r.1 r.2 pDone isMainJrnl).2 := by
  obtain ⟨b, rfl, hb⟩ := h.isDone
  by_cases hskip : s.pager.dbSize < r.1 ∨ ((some b).any fun b => b r.1) = true
  · -- the page is done, or does not belong to the savepoint
    rw [pagerPlaybackOnePage, if_pos hskip]
    have hsame : ∀ p, p ≤ s₀.pager.dbSize → (done ++ [r]).lookup p = done.lookup p := by
      intro p hp
      rw [lookup_append_singleton]
      by_cases hpr : p = r.1
      · subst hpr
        have hdone : b r.1 = true := hskip.elim (fun hlt => by rw [h.same.dbSize] at hlt; omega) id
        obtain ⟨v, hv⟩ := Option.ne_none_iff_exists'.1 ((hb r.1 hp).1 hdone)
        rw [hv, Option.some_or]
      · rw [if_neg hpr, Option.or_none]
    refine ⟨h.writing, h.same, ⟨b, rfl, fun p hp => ?_⟩, fun p h1 hp => ?_⟩
    · rw [hsame p hp]
      exact hb p hp
    · rw [hsame p hp]
      exact h.content p h1 hp
  · rw [not_or] at hskip
    have hle : r.1 ≤ s₀.pager.dbSize := by
      have hn := hskip.1
      rw [h.same.dbSize] at hn
      omega
    have hb0 : b r.1 = false := by simpa using hskip.2
    obtain ⟨htxn, hcontent, hlog, hdone⟩ := hplay hb0 hle
    rw [onePage_setOff] at htxn hcontent hlog hdone
    have hnone : done.lookup r.1 = none := by
      by_contra hne
      have := (hb r.1 hle).2 hne
      rw [hb0] at this
      cases this
    have hsame : SameLog s (pagerPlaybackOnePage s off r.1 r.2 (some b) isMainJrnl).1 :=
      ⟨hlog.aSavepoint, hlog.sjfd, hlog.dbSize, hlog.eState, hlog.journalHdr, hlog.isOpenJfd⟩
    refine ⟨⟨htxn, h.writing.saves.congr hlog.aSavepoint hlog.sjfd (Nat.le_of_eq hlog.dbSize.symm) ?_⟩,
      h.same.trans hsame,
      ⟨sqlite3BitvecSet b r.1, hdone, ?_⟩, ?_⟩
    · intro p _ _
      by_cases hp : p = r.1
      · exact .inl fun sp hsp hle' => hp.symm ▸ hrec sp (h.same.aSavepoint ▸ hsp) (hp ▸ hle')
      · exact .inr ((congrFun hcontent p).trans (Function.update_of_ne hp _ _))
    · intro p hp
      rw [lookup_append_singleton, sqlite3BitvecSet]
      by_cases hpr : p = r.1
      · simp [hpr, hnone]
      · rw [Function.update_of_ne hpr, if_neg hpr, Option.or_none]
        exact hb p hp
    · intro p h1 hp
      have hat : (pagerPlaybackOnePage s off r.1 r.2 (some b) isMainJrnl).1.content p = _ := congrFun hcontent p
      rw [hat, lookup_append_singleton]
      by_cases hpr : p = r.1
      · subst hpr
        rw [Function.update_self, hnone, if_pos rfl]
        rfl
      · rw [Function.update_of_ne hpr, if_neg hpr, Option.or_none]
        exact h.content p h1 hp

theorem playSubRecords_rule (P : List (Nat × α) → PagerSys α → Option (Nat → Bool) → Prop) (records : List (Nat × α))
    (hstep : ∀ done s pDone r, r ∈ records → P done s pDone →
      P (done ++ [r]) (pagerPlaybackOnePage s 0 r.1 r.2 pDone false).1 (pagerPlaybackOnePage s 0 r.1 r.2 pDone false).2)
    (done : List (Nat × α)) (s : PagerSys α) (pDone : Option (Nat → Bool)) (hinv : P done s pDone) :
    ∃ pDone', P (done ++ records) (playSubRecords records s pDone) pDone' := by
  induction records generalizing done s pDone with
  | nil => exact ⟨pDone, (List.append_nil done).symm ▸ hinv⟩
  | cons r records ih =>
    obtain ⟨pDone', hinv'⟩ := ih (fun done s pDone r' hr' => hstep done s pDone r' (List.mem_cons_of_mem r hr')) _ _ _
      (hstep done s pDone r (List.mem_cons_self ..) hinv)
    rw [List.append_assoc] at hinv'
    exact ⟨pDone', hinv'⟩

/-- The records after a position of the journal are played in order. -/
theorem Spot.rule {H N io ih : Nat} {main : List (Nat × α)} {J : List (JournalItem α × Bool)}
    (hspot : Spot N segs tail io ih main) (P : List (Nat × α) → PagerSys α → Option (Nat → Bool) → Prop)
    (hsetOff : ∀ done s pDone o, P done s pDone → P done (s.setOff o) pDone)
    (hhdr : ∀ done s pDone, P done s pDone → s.pager.journalHdr = H)
    (hstep : ∀ done s pDone r off, r ∈ main → (r ∈ segs.flatten ∧ off ≤ H ∨ r ∈ tail ∧ H < off) → P done s pDone →
      P (done ++ [r]) (pagerPlaybackOnePage s off r.1 r.2 pDone true).1
          (pagerPlaybackOnePage s off r.1 r.2 pDone true).2)
    (hpos : ∀ r ∈ main, 1 ≤ r.1) (hJ : J.map Prod.fst = journalItems N segs ++ .header false 0 N :: tail.map pageItem)
    (hH : H = (journalItems N segs).length) (s : PagerSys α) (pDone : Option (Nat → Bool)) (hinv : P [] s pDone)
    (hj : s.disk.journal = J) (hoff : s.pager.journalOff = io) :
    ∃ s' pDone', savepointLoop J.length (J.length + 1) (playRecords ((if ih ≠ 0 then ih else J.length) - io) s pDone).1
      (playRecords ((if ih ≠ 0 then ih else J.length) - io) s pDone).2.1 = (s', pDone') ∧ P main s' pDone' := by
  have hlenJ := congrArg List.length hJ
  simp only [List.length_map, List.length_append, List.length_cons] at hlenJ
  cases hspot with
  | @inTail before _ h =>
    have hlen := congrArg List.length h
    rw [List.length_append] at hlen
    have hdrop : (J.drop ((journalItems N segs).length + 1 + before.length)).map Prod.fst =
        main.map pageItem ++ [] := by
      have hsplit : journalItems N segs ++ .header false 0 N :: (before ++ main).map pageItem =
          (journalItems N segs ++ .header false 0 N :: before.map pageItem) ++ main.map pageItem := by simp
      rw [List.map_drop, hJ, h, hsplit, List.append_nil, List.drop_left']
      simp only [List.length_append, List.length_cons, List.length_map]
      omega
    obtain ⟨s', pDone', hplay, hinv', -, hoff'⟩ := playRecords_rule P hsetOff hdrop hpos
      (fun done s pDone r off hr hlt _ _ => hstep done s pDone r off hr (.inr ⟨by simp [h, hr], by omega⟩)) []
          s pDone hinv hj
      hoff
    have hn : (if (0 : Nat) ≠ 0 then 0 else J.length) - ((journalItems N segs).length + 1 + before.length) =
        main.length := by
      rw [if_neg (by simp)]
      omega
    refine ⟨s', pDone', ?_, hinv'⟩
    rw [hn, hplay, savepointLoop, if_neg]
    dsimp only
    rw [hoff']
    omega
  | @inSegment before first later h hpos' =>
    have hlen := congrArg List.length h
    simp only [List.length_append, List.length_map] at hlen
    have hdrop : (J.drop before.length).map Prod.fst =
        first.map pageItem ++ (journalItems N later ++ .header false 0 N :: tail.map pageItem) := by
      rw [List.map_drop, hJ, h]
      simp
    have hmem : ∀ r, r ∈ first ∨ r ∈ later.flatten → r ∈ segs.flatten := by
      intro r hr
      rw [← pageItem_mem_journalItems (N := N), h, List.mem_append, List.mem_append]
      exact hr.elim (fun hr => .inl (.inr (List.mem_map_of_mem hr))) fun hr => .inr (pageItem_mem_journalItems.2 hr)
    obtain ⟨s₁, pDone₁, hplay, hinv₁, hj₁, hoff₁⟩ :=
      playRecords_rule P hsetOff hdrop (fun r hr => hpos r (by simp [hr]))
      (fun done s pDone r off hr _ hle _ => hstep done s pDone r off (by simp [hr]) (.inl ⟨hmem r (.inl hr), by omega⟩))
      [] s
      pDone hinv hj hoff
    have hdrop₁ : (J.drop (before.length + first.length)).map Prod.fst =
        journalItems N later ++ .header false 0 N :: tail.map pageItem := by
      rw [← List.drop_drop, List.map_drop, hdrop, List.drop_left' (List.length_map _)]
    have hfuel : later.length < J.length + 1 := by
      have := length_le_journalItems N later
      omega
    obtain ⟨s', pDone', hloop, hinv'⟩ := savepointLoop_rule P hsetOff hhdr hdrop₁ (by omega)
      (fun r hr => hpos r (by rw [List.append_assoc]; exact List.mem_append_right _ hr))
      (fun done s pDone r off hr hle => hstep done s pDone r off (by simp [hr]) (.inl ⟨hmem r (.inr hr), hle⟩))
      (fun done s pDone r off hr hlt => hstep done s pDone r off (by simp [hr]) (.inr ⟨hr, hlt⟩))
          hfuel _ s₁ pDone₁ hinv₁ hj₁
      hoff₁
    have hn : (if before.length + first.length ≠ 0 then before.length + first.length else J.length) - before.length =
        first.length := by
      rw [if_pos (by omega)]
      omega
    refine ⟨s', pDone', ?_, hinv'⟩
    rw [hn, hplay]
    exact hloop

/-- Rolling back to the last savepoint brings back the content of the database at the time it was opened. -/
theorem Writing.playbackSavepoint (h : Writing base segs tail s saves) {sp : PagerSavepoint} {save : Image α}
    (hlast : s.pager.aSavepoint.getLast? = some sp)
    (hok : SavepointOk base.size segs tail s.pager.sjfd s.content s.pager.dbSize sp save) :
    Writing base segs tail (pagerPlaybackSavepoint s (some sp)) saves ∧
      (pagerPlaybackSavepoint s (some sp)).pager.dbSize = save.size ∧
      ∀ p, 1 ≤ p → p ≤ save.size → (pagerPlaybackSavepoint s (some sp)).content p = save.page p := by
  obtain ⟨main, hspot, hcov, hmark⟩ := hok.log
  let J := s.disk.journal
  let szJ := s.pager.journalOff
  let s₀ : PagerSys α := { s with pager := { s.pager with
    dbSize := sp.nOrig, changeCountDone := false, journalOff := sp.iOffset } }
  have hlen : J.length = szJ := h.txn.length_journal
  have hrecorded := h.saves.recorded hlast
  -- what is in the log is recorded for all savepoints
  have hrec : ∀ r ∈ main ++ s.pager.sjfd.drop sp.iSubRec, ∀ sp' ∈ s.pager.aSavepoint, r.1 ≤ sp'.nOrig →
      sp'.pInSavepoint r.1 = true := by
    intro r hr sp' hsp' hle
    obtain ⟨hn, hin⟩ := hrecorded sp' hsp'
    refine hin r.1 hle ((hmark r.1 (Nat.le_trans hle hn)).2 ?_)
    exact UndoLog.lookup_ne_none_iff.2 ⟨r, hr, rfl⟩
  have hcount := h.setCounter false s.pager.dbFileVers
  have hstart : Playing base segs tail saves szJ s₀ [] s₀ (some fun _ => false) :=
    ⟨⟨hcount.txn.shrink hok.dbSize hok.base, hcount.saves.shrink fun sp' hsp' => (hrecorded sp' hsp').1⟩, SameLog.rfl _,
      ⟨_, rfl, by simp⟩, by simp⟩
  have hmain : ∀ done t pDone r off, r ∈ main → (r ∈ segs.flatten ∧ off ≤ s.pager.journalHdr ∨
      r ∈ tail ∧ s.pager.journalHdr < off) → Playing base segs tail saves szJ s₀ done t pDone →
      Playing base segs tail saves szJ s₀ (done ++ [r]) (pagerPlaybackOnePage t off r.1 r.2 pDone true).1
        (pagerPlaybackOnePage t off r.1 r.2 pDone true).2 := by
    intro done t pDone r off hr hwhere hp
    refine hp.step (hrec r (List.mem_append_left _ hr)) fun hnot _ => hp.writing.txn.playMain ?_ hnot
    show r ∈ segs.flatten ∧ off ≤ t.pager.journalHdr ∨ r ∈ tail ∧ t.pager.journalHdr < off
    rw [hp.same.journalHdr]
    exact hwhere
  -- the records of the main journal
  have hfirst : ∃ t pDone, savepointLoop szJ (szJ + 1)
      (playRecords ((if sp.iHdrOffset ≠ 0 then sp.iHdrOffset else szJ) - sp.iOffset) s₀ (some fun _ => false)).1
      (playRecords ((if sp.iHdrOffset ≠ 0 then sp.iHdrOffset else szJ) - sp.iOffset) s₀ (some fun _ => false)).2.1 =
        (t, pDone) ∧ Playing base segs tail saves szJ s₀ main t pDone := by
    obtain ⟨rest, hj, hrest⟩ := h.txn.journal
    have hJ : J.map Prod.fst = journalItems base.size segs ++ .header false 0 base.size :: tail.map pageItem := by
      show s.disk.journal.map Prod.fst = _
      rw [hj, List.map_append, map_fst_synced, hrest]
    have hrule := hspot.rule (Playing base segs tail saves szJ s₀) (fun _ _ _ o hp => hp.setOff o)
      (fun _ _ _ hp => hp.same.journalHdr) hmain (fun r hr => (h.txn.record r (hspot.mem hr)).pos)
          hJ h.txn.hdr s₀ _ hstart
      rfl rfl
    rw [hlen] at hrule
    exact hrule
  obtain ⟨t, pDone, hloop, ht⟩ := hfirst
  -- the records of the sub-journal
  have hsub : ∀ done t pDone r, r ∈ s.pager.sjfd.drop sp.iSubRec → Playing base segs tail saves szJ s₀ done t pDone →
      Playing base segs tail saves szJ s₀ (done ++ [r]) (pagerPlaybackOnePage t 0 r.1 r.2 pDone false).1
        (pagerPlaybackOnePage t 0 r.1 r.2 pDone false).2 := by
    intro done t pDone r hr hp
    refine hp.step (hrec r (List.mem_append_right _ hr)) fun hnot hle => hp.writing.txn.playSub ?_ hnot ?_
    · show r ∈ t.pager.sjfd
      rw [hp.same.sjfd]
      exact List.mem_of_mem_drop hr
    · show r.1 ≤ t.pager.dbSize
      rw [hp.same.dbSize]
      exact hle
  obtain ⟨pDone', ht'⟩ := playSubRecords_rule (Playing base segs tail saves szJ s₀)
      (s.pager.sjfd.drop sp.iSubRec) hsub main t
    pDone ht
  let t' := playSubRecords (s.pager.sjfd.drop sp.iSubRec) t pDone
  have hresult : pagerPlaybackSavepoint s (some sp) = t'.setOff szJ := by
    have hsjfd : t.pager.sjfd = s.pager.sjfd := ht.same.sjfd
    simp only [pagerPlaybackSavepoint]
    show PagerSys.setOff (playSubRecords ((savepointLoop szJ (szJ + 1)
      (playRecords ((if sp.iHdrOffset ≠ 0 then sp.iHdrOffset else szJ) - sp.iOffset) s₀ (some fun _ => false)).1
      (playRecords ((if sp.iHdrOffset ≠ 0 then sp.iHdrOffset else szJ) - sp.iOffset) s₀
      (some fun _ => false)).2.1).1.pager.sjfd.drop
        sp.iSubRec) _ _) szJ = _
    rw [hloop]
    dsimp only
    rw [hsjfd]
  rw [hresult]
  refine ⟨ht'.writing, ht'.same.dbSize.trans hok.nOrig, fun p h1 hp => ?_⟩
  rw [← hok.nOrig] at hp
  exact (ht'.content p h1 hp).trans (hcov.restored ⟨h1, hp⟩)

/-- While the whole transaction is rolled back. -/
structure PlayingAll (base : Image α) (segs : List (List (Nat × α))) (tail : List (Nat × α)) (szJ : Nat)
    (s₀ : PagerSys α)
    (done : List (Nat × α)) (s : PagerSys α) (pDone : Option (Nat → Bool)) : Prop where
  txn : Txn base segs tail (s.setOff szJ)
  same : SameLog s₀ s
  isDone : pDone = none
  content : ∀ p, 1 ≤ p → p ≤ base.size → s₀.content p = base.page p ∨ (∃ r ∈ done, r.1 = p) → s.content p = base.page p

/-- The records of the whole journal bring back the old database. -/
theorem Txn.playbackAll (h : Txn base segs tail s) :
    Txn base segs tail (pagerPlaybackSavepoint s none) ∧
      (pagerPlaybackSavepoint s none).pager.aSavepoint = s.pager.aSavepoint ∧
      (pagerPlaybackSavepoint s none).pager.dbSize = base.size ∧
      ∀ p, 1 ≤ p → p ≤ base.size → (pagerPlaybackSavepoint s none).content p = base.page p := by
  let szJ := s.pager.journalOff
  let s₀ : PagerSys α := { s with pager := { s.pager with
    dbSize := s.pager.dbOrigSize, changeCountDone := false, journalOff := 0 } }
  have hlen : s.disk.journal.length = szJ := h.length_journal
  have hstart : PlayingAll base segs tail szJ s₀ [] s₀ none := by
    refine ⟨?_, SameLog.rfl _, rfl, by simp⟩
    exact (h.setCounter false s.pager.dbFileVers).shrink (Nat.le_trans (Nat.le_of_eq h.orig) h.dbSize)
      (Nat.le_of_eq h.orig.symm)
  have hstep : ∀ done t pDone r off, (r ∈ segs.flatten ∧ off ≤ s.pager.journalHdr ∨ r ∈ tail ∧ s.pager.journalHdr <
      off) →
      PlayingAll base segs tail szJ s₀ done t pDone → PlayingAll base segs tail szJ s₀ (done ++ [r])
        (pagerPlaybackOnePage t off r.1 r.2 pDone true).1 (pagerPlaybackOnePage t off r.1 r.2 pDone true).2 := by
    rintro done t pDone r off hwhere ⟨ht, hsame, rfl, hcontent⟩
    have hwhere' : r ∈ segs.flatten ∧ off ≤ (t.setOff szJ).pager.journalHdr ∨
        r ∈ tail ∧ (t.setOff szJ).pager.journalHdr < off := by
      show r ∈ segs.flatten ∧ off ≤ t.pager.journalHdr ∨ r ∈ tail ∧ t.pager.journalHdr < off
      rw [hsame.journalHdr]
      exact hwhere
    obtain ⟨ht', hc', hlog, hdone⟩ :=
      ht.playMain hwhere' (rfl : ((none : Option (Nat → Bool)).any fun b => b r.1) = false)
    rw [onePage_setOff] at ht' hc' hlog hdone
    have hrec : base.Record r := h.record r (List.mem_append.2 (hwhere.imp And.left And.left))
    refine ⟨ht', hsame.trans ⟨hlog.1, hlog.2, hlog.3, hlog.4, hlog.5, hlog.6⟩, hdone, fun p h1 hp hor => ?_⟩
    refine (congrFun hc' p).trans ?_
    by_cases hpr : p = r.1
    · rw [hpr, Function.update_self, hrec.data]
    · rw [Function.update_of_ne hpr]
      refine hcontent p h1 hp (hor.imp id ?_)
      rintro ⟨r', hr', rfl⟩
      rw [List.mem_append, List.mem_singleton] at hr'
      exact ⟨r', hr'.resolve_right fun he => hpr (congrArg Prod.fst he), rfl⟩
  obtain ⟨rest, hj, hrest⟩ := h.journal
  have hdrop : (s.disk.journal.drop 0).map Prod.fst =
      journalItems base.size segs ++ .header false 0 base.size :: tail.map pageItem := by
    rw [List.drop_zero, hj, List.map_append, map_fst_synced, hrest]
  have hfuel : segs.length < s.disk.journal.length + 1 := by
    have := length_le_journalItems base.size segs
    have hlenJ := congrArg List.length hdrop
    simp only [List.drop_zero, List.length_map, List.length_append, List.length_cons] at hlenJ
    omega
  obtain ⟨t, pDone, hloop, ht⟩ := savepointLoop_rule (PlayingAll base segs tail szJ s₀)
    (fun _ _ _ _ hp => ⟨hp.txn, hp.same.trans ⟨.refl _, .refl _, .refl _, .refl _, .refl _, .refl _⟩, hp.isDone,
        hp.content⟩)
    (fun _ _ _ hp => hp.same.journalHdr) hdrop (by rw [Nat.zero_add]; exact h.hdr) (fun r hr => (h.record r hr).pos)
    (fun done t pDone r off hr hle => hstep done t pDone r off (.inl ⟨hr, hle⟩))
    (fun done t pDone r off hr hlt => hstep done t pDone r off (.inr ⟨hr, hlt⟩)) hfuel [] s₀ none hstart rfl rfl
  have hresult : pagerPlaybackSavepoint s none = t.setOff szJ := by
    rw [hlen] at hloop
    simp only [pagerPlaybackSavepoint]
    show PagerSys.setOff (savepointLoop szJ (szJ + 1) s₀ none).1 szJ = _
    rw [hloop]
  rw [hresult]
  refine ⟨ht.txn, ht.same.aSavepoint, ht.same.dbSize.trans h.orig, fun p h1 hp => ht.content p h1 hp ?_⟩
  cases hin : s.pager.pInJournal p with
  | false => exact .inl (h.content_base h1 hp hin).2
  | true => exact .inr ((h.inJournal p).1 hin)

theorem forall₂_getLast? {β γ : Type} {R : β → γ → Prop} {l₁ : List β} {l₂ : List γ} (h : List.Forall₂ R l₁ l₂) :
    Option.Rel R l₁.getLast? l₂.getLast? := by
  rw [← List.head?_reverse, ← List.head?_reverse]
  have hrev := List.forall₂_reverse_iff.2 h
  generalize l₁.reverse = a, l₂.reverse = b at hrev ⊢
  cases hrev with
  | nil => exact .none
  | cons hab _ => exact .some hab

/-- `sqlite3PagerSavepoint(SAVEPOINT_ROLLBACK)` brings back the content at the time of the savepoint, or of the start of
the transaction. -/
theorem Writing.rollbackSavepoint (h : Writing base segs tail s saves) {nNew : Nat} (hn : nNew ≤ saves.length) :
    Writing base segs tail (rollbackSavepoint s nNew) (saves.take nNew) ∧
      (rollbackSavepoint s nNew).pager.dbSize = ((saves.take nNew).getLast?.getD base).size ∧
      ∀ p, 1 ≤ p → p ≤ ((saves.take nNew).getLast?.getD base).size →
        (rollbackSavepoint s nNew).content p = ((saves.take nNew).getLast?.getD base).page p := by
  let s₁ : PagerSys α := { s with pager := { s.pager with aSavepoint := s.pager.aSavepoint.take nNew } }
  have h₁ : Writing base segs tail s₁ (saves.take nNew) :=
    ⟨{ h.txn with page := fun p pPg hc => { h.txn.page p pPg hc with } }, h.saves.take nNew rfl rfl rfl rfl⟩
  have hlen : nNew ≤ s.pager.aSavepoint.length := h.saves.each.length_eq.symm ▸ hn
  have hresult : Sqlite4a.rollbackSavepoint s nNew = pagerPlaybackSavepoint s₁ s₁.pager.aSavepoint.getLast? := by
    rw [Sqlite4a.rollbackSavepoint, if_pos hlen]
    exact if_pos h.txn.isOpen
  rw [hresult]
  have hlast := forall₂_getLast? h₁.saves.each
  cases hsp : s₁.pager.aSavepoint.getLast? with
  | some sp =>
    rw [hsp] at hlast
    cases hsave : (saves.take nNew).getLast? with
    | none =>
      rw [hsave] at hlast
      cases hlast
    | some save =>
      rw [hsave] at hlast
      cases hlast with
      | some hok => exact h₁.playbackSavepoint hsp hok
  | none =>
    rw [hsp] at hlast
    cases hsave : (saves.take nNew).getLast? with
    | some save =>
      rw [hsave] at hlast
      cases hlast
    | none =>
      obtain ⟨htxn, hsame, hsize, hcontent⟩ := h₁.txn.playbackAll
      have hnil := List.getLast?_eq_none_iff.1 hsp
      have hnil' := List.getLast?_eq_none_iff.1 hsave
      refine ⟨⟨htxn, ?_, ?_⟩, hsize, hcontent⟩
      · rw [hsame, hnil, hnil']
        exact .nil
      · rw [hsame, hnil]
        exact .nil

end Sqlite4a
