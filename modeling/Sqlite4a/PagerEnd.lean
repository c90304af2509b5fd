import Sqlite4a.PagerRollback

/-!
# The end of a transaction

A commit writes the dirty pages to the file, syncs the file and deletes the journal.  A rollback plays the journal,
syncs the file and deletes the journal.  The deletion of the journal is the moment at which the old database can no
longer be found.
-/

namespace Sqlite4a

section

variable {α : Type} {base im : Image α} {segs : List (List (Nat × α))} {tail : List (Nat × α)} {s : PagerSys α}

theorem Idle.setState (h : Idle im s) (done : Bool) (eState : PagerState) :
    Idle im { s with pager := { s.pager with changeCountDone := done, eState := eState } } := { h with }

/-- A page of the cache when the transaction ends. -/
theorem endTransaction_cache {cache : Nat → Option (PgHdr α)} {n p : Nat} {pPg : PgHdr α}
    (h : (if p ≤ n then (cache p).map makeClean else none) = some pPg) :
    p ≤ n ∧ makeClean pPg = pPg ∧ ∃ pPg₀, cache p = some pPg₀ ∧ pPg.data = pPg₀.data := by
  split at h
  · next hle =>
    obtain ⟨pPg₀, hc, rfl⟩ := Option.map_eq_some_iff.1 h
    exact ⟨hle, rfl, pPg₀, hc, rfl⟩
  · cases h

/-- A transaction that can be rolled back from the journal: the records in `segs` have been synced, those in `tail` have
not. -/
structure Undo (base : Image α) (segs : List (List (Nat × α))) (tail : List (Nat × α)) (s : PagerSys α) : Prop where
  state : s.pager.eState.writesDb = true ∨ segs = []
  isOpen : s.pager.isOpenJfd = true
  hdr : s.pager.journalHdr = (journalItems base.size segs).length
  saved : ∃ rest, Saved base segs rest s.disk
  record : ∀ r ∈ segs.flatten ++ tail, base.Record r
  pos : ∀ p pPg, s.pager.cache p = some pPg → 1 ≤ p
  page : ∀ p pPg, s.pager.cache p = some pPg → p ≤ base.size →
    (∃ r ∈ segs.flatten ++ tail, r.1 = p) ∨ pPg.data = base.page p
  trace : ∀ d ∈ s.trace, Recoverable base d

/-- The records that have been played, in the file and in the cache. -/
structure Undoing (base : Image α) (segs : List (List (Nat × α))) (tail filed done : List (Nat × α)) (s : PagerSys α) :
    Prop extends Undo base segs tail s where
  dbSize : s.pager.dbSize = base.size
  file : ∀ r ∈ filed, s.disk.db r.1 = base.page r.1
  data : ∀ r ∈ done, ∀ pPg, s.pager.cache r.1 = some pPg → pPg.data = base.page r.1

theorem Undo.setOff (h : Undo base segs tail s) (o : Nat) : Undo base segs tail (s.setOff o) := { h with }

theorem Undoing.setOff {filed done : List (Nat × α)} (h : Undoing base segs tail filed done s) (o : Nat) :
    Undoing base segs tail filed done (s.setOff o) := { h with }

theorem Undoing.setCounter {filed done : List (Nat × α)} (h : Undoing base segs tail filed done s) (count : Bool) :
    Undoing base segs tail filed done { s with pager := { s.pager with changeCountDone := count } } := { h with }

/-- Where the loop is at a header: at the first one nothing has been played, and the size has not been set. -/
def AtHeader (base : Image α) (segs : List (List (Nat × α))) (tail filed done : List (Nat × α)) (s : PagerSys α) :
    Prop :=
  s.pager.journalOff = 0 ∧ Undo base segs tail s ∧ filed = [] ∧ done = [] ∨
    s.pager.journalOff ≠ 0 ∧ Undoing base segs tail filed done s

theorem AtHeader.undo {filed done : List (Nat × α)} (h : AtHeader base segs tail filed done s) :
    Undo base segs tail s :=
  h.elim (fun h => h.2.1) fun h => h.2.toUndo

theorem Txn.undo (h : Txn base segs tail s) : Undo base segs tail s := by
  refine ⟨?_, h.isOpen, h.hdr, h.saved, h.record, fun p pPg hc => (h.page p pPg hc).pos, ?_, h.trace⟩
  · rcases h.state with ⟨-, hnil⟩ | hstate
    · exact .inr hnil
    · rw [hstate]
      exact .inl rfl
  · intro p pPg hc hp
    cases hin : s.pager.pInJournal p with
    | true => exact .inl ((h.inJournal p).1 hin)
    | false => exact .inr ((content_some hc).symm.trans (h.content_base (h.page p pPg hc).pos hp hin).2)

end

variable {α : Type} [PageContent α] {base im : Image α} {segs : List (List (Nat × α))} {tail : List (Nat × α)}
    {s : PagerSys α}

/-- What there has to be when the journal is deleted. -/
structure Settled (im : Image α) (s : PagerSys α) : Prop where
  dbSize : s.pager.dbSize = im.size
  file : ∀ p, 1 ≤ p → p ≤ im.size → s.disk.db p = im.page p ∧ s.disk.dbSynced p = true
  pos : ∀ p pPg, s.pager.cache p = some pPg → 1 ≤ p
  data : ∀ p pPg, s.pager.cache p = some pPg → p ≤ im.size → pPg.data = s.disk.db p
  sizeMin : im.size ≤ s.disk.dbPagesMin
  dbPages : im.size ≤ s.disk.dbPages
  trace : ∀ d ∈ s.trace, Recoverable im d

theorem Idle.truncate (h : Idle im s) : Idle im (pagerTruncate s s.pager.dbSize) := by
  have hge : ¬ s.disk.dbPages < s.pager.dbSize := by
    rw [h.dbSize]
    exact Nat.not_lt.2 h.dbPages
  simp only [pagerTruncate, if_neg hge]
  split
  · split
    · have hpage : ∀ p, p ≤ im.size → ¬ s.pager.dbSize < p := fun p hp => Nat.not_lt.2 (h.dbSize.symm ▸ hp)
      have hfile : ∀ p, 1 ≤ p → p ≤ im.size → (if s.pager.dbSize < p then default else s.disk.db p) = im.page p ∧
          (if s.pager.dbSize < p then false else s.disk.dbSynced p) = true := by
        intro p h1 hp
        rw [if_neg (hpage p hp), if_neg (hpage p hp)]
        exact h.file p h1 hp
      have hmin : im.size ≤ min s.disk.dbPagesMin s.pager.dbSize := Nat.le_min.2 ⟨h.sizeMin, Nat.le_of_eq h.dbSize.symm⟩
      refine { h with file := hfile, data := ?_, sizeMin := hmin, dbPages := ?_, trace := ?_ }
      · intro p pPg hc hp
        exact (h.data p pPg hc hp).trans (if_neg (hpage p hp)).symm
      · exact Nat.le_of_eq h.dbSize.symm
      · refine trace_call (c := .truncateDb s.pager.dbSize) h.trace ?_
        exact saved_of_noJournal h.journal hfile hmin (Nat.le_of_eq h.dbSize.symm)
    · exact { h with }
  · exact h

/-- The journal is deleted, and the cache is clean. -/
theorem Settled.endTransaction (h : Settled im s) (hopen : s.pager.isOpenJfd = true ∨ s.disk.journal = [])
    (bCommit : Bool) :
    Idle im (pagerEndTransaction s bCommit) ∧ (pagerEndTransaction s bCommit).pager.eState = .reader := by
  let s₁ : PagerSys α := if s.pager.isOpenJfd then s.call .deleteJournal else s
  let s₂ : PagerSys α := { s₁ with pager := { s.pager with
    aSavepoint := []
    sjfd := []
    isOpenJfd := false
    pInJournal := fun _ => false
    nRec := 0
    cache := fun p => if p ≤ s.pager.dbSize then (s.pager.cache p).map makeClean else none } }
  have h₁ : s₁.disk.journal = [] ∧ s₁.disk.db = s.disk.db ∧ s₁.disk.dbSynced = s.disk.dbSynced ∧
      s₁.disk.dbPages = s.disk.dbPages ∧ s₁.disk.dbPagesMin = s.disk.dbPagesMin ∧ ∀ d ∈ s₁.trace, Recoverable im d := by
    cases ho : s.pager.isOpenJfd with
    | true =>
      have hs₁ : s₁ = s.call .deleteJournal := if_pos ho
      rw [hs₁]
      exact ⟨rfl, rfl, rfl, rfl, rfl,
        trace_call (c := .deleteJournal) h.trace (saved_of_noJournal rfl h.file h.sizeMin h.dbPages)⟩
    | false =>
      rw [ho] at hopen
      have hs₁ : s₁ = s := if_neg (by rw [ho]; simp)
      rw [hs₁]
      exact ⟨hopen.resolve_left (by simp), rfl, rfl, rfl, rfl, h.trace⟩
  obtain ⟨hj, hdb, hsync, hpages, hmin, htrace⟩ := h₁
  have h₂ : Idle im s₂ := by
    refine ⟨rfl, h.dbSize, rfl, hj, ?_, ?_, ?_, ?_, hmin ▸ h.sizeMin, hpages ▸ h.dbPages, htrace⟩
    · intro p h1 hp
      show s₁.disk.db p = _ ∧ s₁.disk.dbSynced p = _
      rw [hdb, hsync]
      exact h.file p h1 hp
    · intro p pPg hc
      obtain ⟨-, -, pPg₀, hc₀, -⟩ := endTransaction_cache hc
      exact h.pos p pPg₀ hc₀
    · intro p pPg hc
      exact (endTransaction_cache hc).2.1
    · intro p pPg hc hp
      obtain ⟨-, -, pPg₀, hc₀, hdata⟩ := endTransaction_cache hc
      show _ = s₁.disk.db p
      rw [hdb, hdata]
      exact h.data p pPg₀ hc₀ hp
  have hresult : pagerEndTransaction s bCommit =
      { (if bCommit ∧ s₂.pager.dbSize < s₂.pager.dbFileSize then pagerTruncate s₂ s₂.pager.dbSize else s₂) with
        pager := { (if bCommit ∧ s₂.pager.dbSize < s₂.pager.dbFileSize then pagerTruncate s₂ s₂.pager.dbSize
            else s₂).pager with
          changeCountDone := false
          eState := .reader } } := by
    cases ho : s.pager.isOpenJfd <;> simp [pagerEndTransaction, s₂, s₁, ho, PagerSys.call]
  rw [hresult]
  refine ⟨Idle.setState ?_ false .reader, rfl⟩
  split
  · exact h₂.truncate
  · exact h₂

/-! ### Rollback -/

theorem Undoing.setData {filed done : List (Nat × α)} (h : Undoing base segs tail filed done s) {r : Nat × α}
    (hr : base.Record r) : Undoing base segs tail filed (done ++ [r]) (setData s r.1 r.2) := by
  cases hc : s.pager.cache r.1 with
  | none =>
    rw [setData_none hc]
    refine { h with data := fun r' hr' pPg hpPg => ?_ }
    rcases List.mem_append.1 hr' with hr' | hr'
    · exact h.data r' hr' pPg hpPg
    · rw [List.mem_singleton.1 hr', hc] at hpPg
      cases hpPg
  | some pPg =>
    rw [setData_some hc]
    have hcases : ∀ q pg, Function.update s.pager.cache r.1 (some { pPg with data := r.2 }) q = some pg →
        q = r.1 ∧ pg.data = r.2 ∨ q ≠ r.1 ∧ s.pager.cache q = some pg := by
      intro q pg hq
      by_cases hqr : q = r.1
      · rw [hqr, Function.update_self, Option.some.injEq] at hq
        exact .inl ⟨hqr, hq ▸ rfl⟩
      · rw [Function.update_of_ne hqr] at hq
        exact .inr ⟨hqr, hq⟩
    refine { h with pos := ?_, page := ?_, data := ?_ }
    · intro q pg hq
      rcases hcases q pg hq with ⟨rfl, -⟩ | ⟨-, hq⟩
      · exact hr.pos
      · exact h.pos q pg hq
    · intro q pg hq hle
      rcases hcases q pg hq with ⟨rfl, hd⟩ | ⟨-, hq⟩
      · exact .inr (hd.trans hr.data)
      · exact h.page q pg hq hle
    · intro r' hr' pg hpg
      rcases hcases r'.1 pg hpg with ⟨he, hd⟩ | ⟨hne, hq⟩
      · rw [he]
        exact hd.trans hr.data
      · rcases List.mem_append.1 hr' with hr' | hr'
        · exact h.data r' hr' pg hq
        · exact absurd (congrArg Prod.fst (List.mem_singleton.1 hr')) hne

theorem Undoing.writeDbPage {filed done : List (Nat × α)} (h : Undoing base segs tail filed done s) {r : Nat × α}
    (hr : r ∈ segs.flatten) : Undoing base segs tail (filed ++ [r]) done (writeDbPage s r.1 r.2) := by
  have hrec : base.Record r := h.record r (List.mem_append_left _ hr)
  obtain ⟨rest, hs⟩ := h.saved
  have htrace : ∀ d ∈ (Sqlite4a.writeDbPage s r.1 r.2).trace, Recoverable base d :=
    trace_call (c := .writeDb r.1 r.2) h.trace ⟨segs, rest, hs.writeDb hr r.2⟩
  refine { h with saved := ⟨rest, hs.writeDb hr r.2⟩, trace := htrace, file := ?_ }
  intro r' hr'
  show Function.update s.disk.db r.1 r.2 r'.1 = _
  by_cases he : r'.1 = r.1
  · rw [he, Function.update_self, hrec.data]
  · rw [Function.update_of_ne he]
    rcases List.mem_append.1 hr' with hr' | hr'
    · exact h.file r' hr'
    · exact absurd (congrArg Prod.fst (List.mem_singleton.1 hr')) he

/-- A record that has been synced is played. -/
theorem Undoing.playSynced {filed done : List (Nat × α)} (h : Undoing base segs tail filed done s) {r : Nat × α}
    {off : Nat}
    (hr : r ∈ segs.flatten) (hoff : off ≤ s.pager.journalHdr) :
    Undoing base segs tail (filed ++ [r]) (done ++ [r]) (pagerPlaybackOnePage s off r.1 r.2 none true).1 ∧
      (pagerPlaybackOnePage s off r.1 r.2 none true).2 = none := by
  have hrec : base.Record r := h.record r (List.mem_append_left _ hr)
  have hskip : ¬ (s.pager.dbSize < r.1 ∨ ((none : Option (Nat → Bool)).any fun b => b r.1) = true) := by
    have := hrec.le
    rw [h.dbSize]
    simp
    omega
  have hwrites : s.pager.eState.writesDb = true := h.state.resolve_right fun he => by
    rw [he] at hr
    cases hr
  rw [pagerPlaybackOnePage, if_neg hskip]
  simp only [if_true, decide_eq_true_eq, Bool.not_true, Bool.false_eq_true, false_and, if_false]
  rw [if_pos ⟨hwrites, hoff⟩]
  exact ⟨(h.writeDbPage hr).setData hrec, rfl⟩

/-- A record that has not been synced goes to the cache only. -/
theorem Undoing.playUnsynced {filed done : List (Nat × α)} (h : Undoing base segs tail filed done s) {r : Nat × α}
    {off : Nat}
    (hr : r ∈ tail) (hoff : s.pager.journalHdr < off) :
    Undoing base segs tail filed (done ++ [r]) (pagerPlaybackOnePage s off r.1 r.2 none true).1 ∧
      (pagerPlaybackOnePage s off r.1 r.2 none true).2 = none := by
  have hrec : base.Record r := h.record r (List.mem_append_right _ hr)
  have hskip : ¬ (s.pager.dbSize < r.1 ∨ ((none : Option (Nat → Bool)).any fun b => b r.1) = true) := by
    have := hrec.le
    rw [h.dbSize]
    simp
    omega
  rw [pagerPlaybackOnePage, if_neg hskip]
  simp only [if_true, decide_eq_true_eq, Bool.not_true, Bool.false_eq_true, false_and, if_false]
  rw [if_neg (by omega)]
  exact ⟨h.setData hrec, rfl⟩

/-- What the loop does with a header. -/
theorem AtHeader.next {filed done : List (Nat × α)} (h : AtHeader base segs tail filed done s) :
    let s₁ := s.setOff (s.pager.journalOff + 1)
    let s₂ :=
      if s₁.pager.journalOff = JOURNAL_HDR_SZ then
        let t := pagerTruncate s₁ base.size
        { t with pager := { t.pager with dbSize := base.size } }
      else s₁
    Undoing base segs tail filed done s₂ ∧ s₂.disk.journal = s.disk.journal ∧
      s₂.pager.journalOff = s.pager.journalOff + 1 := by
  intro s₁ s₂
  rcases h with ⟨hoff, hu, rfl, rfl⟩ | ⟨hoff, hu⟩
  · have hs₂ : s₂ = { pagerTruncate s₁ base.size with
        pager := { (pagerTruncate s₁ base.size).pager with dbSize := base.size } } :=
      if_pos (congrArg (· + 1) hoff)
    rw [hs₂]
    obtain ⟨rest, hs⟩ := hu.saved
    have hge : ¬ s₁.disk.dbPages < base.size := Nat.not_lt.2 hs.size
    simp only [pagerTruncate, if_neg hge]
    split
    · split
      · have htrace : ∀ d ∈ (s₁.call (.truncateDb base.size)).trace, Recoverable base d :=
          trace_call hu.trace ⟨segs, rest, hs.truncate⟩
        exact ⟨{ hu with
            saved := ⟨rest, hs.truncate⟩, trace := htrace, dbSize := rfl, file := by simp, data := by simp }, rfl, rfl⟩
      · exact ⟨{ hu with dbSize := rfl, file := by simp, data := by simp }, rfl, rfl⟩
    · exact ⟨{ hu with dbSize := rfl, file := by simp, data := by simp }, rfl, rfl⟩
  · have hs₂ : s₂ = s₁ := if_neg fun he => hoff (Nat.succ.inj he)
    rw [hs₂]
    exact ⟨hu.setOff _, rfl, rfl⟩

/-- The loop ends at the end of the journal. -/
theorem pagerPlaybackLoop_end {szJ : Nat} (h : szJ ≤ s.pager.journalOff) (fuel : Nat) :
    pagerPlaybackLoop false szJ fuel s = s := by
  cases fuel with
  | zero => rfl
  | succ fuel =>
    have hread : readJournalHdr s false szJ = none := by
      rw [readJournalHdr, if_pos]
      rw [JOURNAL_HDR_SZ]
      omega
    rw [pagerPlaybackLoop, hread]

/-- The records after a header. -/
theorem Undoing.segment {filed done seg : List (Nat × α)} {more : List (JournalItem α)}
    (h : Undoing base segs tail filed done s) (hseg : ∀ r ∈ seg, r ∈ segs.flatten)
    (hdrop : (s.disk.journal.drop s.pager.journalOff).map Prod.fst = seg.map pageItem ++ more)
    (hhdr : s.pager.journalOff + seg.length ≤ s.pager.journalHdr) :
    ∃ s', playRecords seg.length s none = (s', none, true) ∧
      Undoing base segs tail (filed ++ seg) (done ++ seg) s' ∧ s'.disk.journal = s.disk.journal ∧
      s'.pager.journalOff = s.pager.journalOff + seg.length := by
  let Inv (played : List (Nat × α)) (t : PagerSys α) (pDone : Option (Nat → Bool)) : Prop :=
    pDone = none ∧ Undoing base segs tail (filed ++ played) (done ++ played) t
  have hstep : ∀ played t pDone r off, r ∈ seg → s.pager.journalOff < off → off ≤ s.pager.journalOff + seg.length →
      t.disk.journal = s.disk.journal → Inv played t pDone →
      Inv (played ++ [r]) (pagerPlaybackOnePage t off r.1 r.2 pDone true).1
        (pagerPlaybackOnePage t off r.1 r.2 pDone true).2 := by
    rintro played t pDone r off hr - hle - ⟨rfl, ht⟩
    have hH : t.pager.journalHdr = s.pager.journalHdr := ht.hdr.trans h.hdr.symm
    have hin : off ≤ t.pager.journalHdr := by omega
    obtain ⟨h₁, hnone⟩ := ht.playSynced (hseg r hr) hin
    refine ⟨hnone, ?_⟩
    rw [← List.append_assoc, ← List.append_assoc]
    exact h₁
  obtain ⟨s', pDone', hplay, ⟨rfl, h'⟩, hj, hoff⟩ := playRecords_rule Inv
    (fun _ _ _ o hi => ⟨hi.1, hi.2.setOff o⟩) hdrop (fun r hr => (h.record r (List.mem_append_left _ (hseg r hr))).pos)
        hstep
    [] s none ⟨rfl, by simpa using h⟩ rfl rfl
  exact ⟨s', hplay, h', hj, hoff⟩

/-- The records after the last header. -/
theorem Undoing.last {filed done : List (Nat × α)} (h : Undoing base segs tail filed done s)
    (hdrop : (s.disk.journal.drop s.pager.journalOff).map Prod.fst = tail.map pageItem)
    (hhdr : s.pager.journalHdr < s.pager.journalOff) :
    ∃ s', playRecords tail.length s none = (s', none, true) ∧ Undoing base segs tail filed (done ++ tail) s' ∧
      s'.pager.journalOff = s.pager.journalOff + tail.length := by
  let Inv (played : List (Nat × α)) (t : PagerSys α) (pDone : Option (Nat → Bool)) : Prop :=
    pDone = none ∧ Undoing base segs tail filed (done ++ played) t
  have hstep : ∀ played t pDone r off, r ∈ tail → s.pager.journalOff < off → off ≤ s.pager.journalOff + tail.length →
      t.disk.journal = s.disk.journal → Inv played t pDone →
      Inv (played ++ [r]) (pagerPlaybackOnePage t off r.1 r.2 pDone true).1
        (pagerPlaybackOnePage t off r.1 r.2 pDone true).2 := by
    rintro played t pDone r off hr hlt - - ⟨rfl, ht⟩
    have hH : t.pager.journalHdr = s.pager.journalHdr := ht.hdr.trans h.hdr.symm
    have hout : t.pager.journalHdr < off := by omega
    obtain ⟨h₁, hnone⟩ := ht.playUnsynced hr hout
    refine ⟨hnone, ?_⟩
    rw [← List.append_assoc]
    exact h₁
  obtain ⟨s', pDone', hplay, ⟨rfl, h'⟩, -, hoff⟩ := playRecords_rule Inv
    (fun _ _ _ o hi => ⟨hi.1, hi.2.setOff o⟩) (hdrop.trans (List.append_nil _).symm)
    (fun r hr => (h.record r (List.mem_append_right _ hr)).pos) hstep [] s none ⟨rfl, by simpa using h⟩ rfl rfl
  exact ⟨s', hplay, h', hoff⟩

/-- All records are played. -/
theorem AtHeader.loop {filed done : List (Nat × α)} {later : List (List (Nat × α))} {J : List (JournalItem α × Bool)}
    {last : List (JournalItem α)} (h : AtHeader base segs tail filed done s) (hj : s.disk.journal = J)
    (hlast : last = .header false 0 base.size :: tail.map pageItem ∨ last = [] ∧ tail = [])
    (hsome : s.pager.journalOff = 0 → later ≠ [] ∨ last ≠ [])
    (hsub : ∀ r ∈ later.flatten, r ∈ segs.flatten)
    (hdrop : (J.drop s.pager.journalOff).map Prod.fst = journalItems base.size later ++ last)
    (hhdr : s.pager.journalHdr = s.pager.journalOff + (journalItems base.size later).length) {fuel : Nat}
    (hfuel : later.length < fuel) :
    Undoing base segs tail (filed ++ later.flatten) (done ++ later.flatten ++ tail)
      (pagerPlaybackLoop false J.length fuel s) := by
  induction later generalizing s filed done fuel with
  | nil =>
    rw [journalItems_nil, List.nil_append] at hdrop
    rcases hlast with rfl | ⟨rfl, rfl⟩
    · obtain ⟨fuel, rfl⟩ : ∃ f, fuel = f + 1 := ⟨fuel - 1, by omega⟩
      rw [← hj] at hdrop
      obtain ⟨hread, hcount⟩ := readJournalHdr_tail hdrop (by simpa using hhdr)
      obtain ⟨h₂, hj₂, hoff₂⟩ := h.next
      have hnext : (s.disk.journal.drop (s.pager.journalOff + 1)).map Prod.fst = tail.map pageItem :=
        (getElem?_of_map_drop hdrop).2
      have hlen := congrArg List.length hnext
      rw [List.length_map, List.length_drop, List.length_map] at hlen
      obtain ⟨s', hplay, h', hoff'⟩ := h₂.last (by rw [hj₂, hoff₂]; exact hnext) (by
        rw [h₂.hdr, hoff₂]
        have := h.undo.hdr
        rw [journalItems_nil, List.length_nil] at hhdr
        omega)
      have hloop : pagerPlaybackLoop false J.length (fuel + 1) s = pagerPlaybackLoop false J.length fuel s' := by
        rw [pagerPlaybackLoop, ← hj, hread]
        simp only [hcount, List.length_map]
        rw [hplay]
        rfl
      rw [hloop, pagerPlaybackLoop_end (by rw [hoff', hoff₂, ← hj]; omega)]
      simpa using h'
    · have hlen := congrArg List.length hdrop
      simp only [List.length_map, List.length_drop, List.length_nil] at hlen
      rw [pagerPlaybackLoop_end (by omega)]
      rcases h with ⟨hoff, -⟩ | ⟨-, hu⟩
      · exact absurd (hsome hoff) (by simp)
      · simpa using hu
  | cons seg later ih =>
    obtain ⟨fuel, rfl⟩ : ∃ f, fuel = f + 1 := ⟨fuel - 1, by omega⟩
    rw [journalItems_cons, List.append_assoc] at hdrop
    rw [journalItems_cons, List.length_append, length_segmentItems] at hhdr
    rw [← hj] at hdrop
    have hseg : ∀ r ∈ seg, r ∈ segs.flatten :=
      fun r hr => hsub r (by rw [List.flatten_cons]; exact List.mem_append_left _ hr)
    obtain ⟨hread, hcount⟩ := readJournalHdr_segment hdrop (by omega)
    obtain ⟨h₂, hj₂, hoff₂⟩ := h.next
    have hnext : (s.disk.journal.drop (s.pager.journalOff + 1)).map Prod.fst =
        seg.map pageItem ++ (journalItems base.size later ++ last) := (getElem?_of_map_drop hdrop).2
    have hH := h.undo.hdr
    obtain ⟨s', hplay, h', hj', hoff'⟩ :=
      h₂.segment hseg (by rw [hj₂, hoff₂]; exact hnext) (by rw [h₂.hdr, hoff₂]; omega)
    have hloop : pagerPlaybackLoop false J.length (fuel + 1) s = pagerPlaybackLoop false J.length fuel s' := by
      rw [pagerPlaybackLoop, ← hj, hread]
      simp only [hcount]
      rw [hplay]
      rfl
    have hdrop' : (J.drop s'.pager.journalOff).map Prod.fst = journalItems base.size later ++ last := by
      rw [hoff', hoff₂, ← hj, ← List.drop_drop, List.map_drop, hnext, List.drop_left' (List.length_map _)]
    have hfuel' : later.length < fuel := by
      rw [List.length_cons] at hfuel
      omega
    rw [hloop]
    have hrest := ih (.inr ⟨by rw [hoff', hoff₂]; omega, h'⟩) (hj'.trans (hj₂.trans hj)) (fun he => by
      rw [hoff', hoff₂] at he
      omega) (fun r hr => hsub r (by rw [List.flatten_cons]; exact List.mem_append_right _ hr)) hdrop'
      (by rw [h'.hdr, hoff', hoff₂]; omega) hfuel'
    simpa using hrest

theorem Saved.syncDb {d : Disk α} {rest : List (JournalItem α × Bool)} (h : Saved base segs rest d) :
    Saved base segs rest (d.exec .syncDb) :=
  ⟨h.journal, h.rest, h.record, fun p h1 hp => (h.page p h1 hp).imp id fun hp => ⟨hp.1, rfl⟩, h.size, h.size⟩

/-- When all records have been played, and the file has been synced, the old database is back. -/
theorem Undoing.settled (h : Undoing base segs tail segs.flatten (segs.flatten ++ tail) s) :
    Settled base (if s.pager.eState.writesDb then s.call .syncDb else s) ∧
      (if s.pager.eState.writesDb then s.call .syncDb else s).pager.isOpenJfd = true := by
  obtain ⟨rest, hs⟩ := h.saved
  have hdb : ∀ p, 1 ≤ p → p ≤ base.size → s.disk.db p = base.page p := by
    intro p h1 hp
    rcases hs.page p h1 hp with ⟨r, hr, rfl⟩ | ⟨hpage, -⟩
    · exact h.file r hr
    · exact hpage
  have hdata : ∀ p pPg, s.pager.cache p = some pPg → p ≤ base.size → pPg.data = s.disk.db p := by
    intro p pPg hc hp
    rw [hdb p (h.pos p pPg hc) hp]
    rcases h.page p pPg hc hp with ⟨r, hr, rfl⟩ | hdata
    · exact h.data r hr pPg hc
    · exact hdata
  by_cases hwrites : s.pager.eState.writesDb = true
  · rw [if_pos hwrites]
    exact ⟨⟨h.dbSize, fun p h1 hp => ⟨hdb p h1 hp, rfl⟩, h.pos, hdata, hs.size, hs.size,
      trace_call (c := .syncDb) h.trace ⟨segs, rest, hs.syncDb⟩⟩, h.isOpen⟩
  · rw [if_neg hwrites]
    refine ⟨⟨h.dbSize, fun p h1 hp => ⟨hdb p h1 hp, ?_⟩, h.pos, hdata, hs.sizeMin, hs.size, h.trace⟩, h.isOpen⟩
    have hnil := h.state.resolve_left hwrites
    exact ((hs.page p h1 hp).resolve_left (by simp [hnil])).2

/-- A rollback brings back the old database. -/
theorem Undo.pagerPlayback (h : Undo base segs tail s) {last : List (JournalItem α)}
    (hj : s.disk.journal.map Prod.fst = journalItems base.size segs ++ last)
    (hlast : last = .header false 0 base.size :: tail.map pageItem ∨ last = [] ∧ tail = [])
    (hsome : segs ≠ [] ∨ last ≠ []) :
    Idle base (pagerPlayback s false) ∧ (pagerPlayback s false).pager.eState = .reader := by
  have hfuel : segs.length < s.disk.journal.length + 1 := by
    have := length_le_journalItems base.size segs
    have hlen := congrArg List.length hj
    rw [List.length_map, List.length_append] at hlen
    omega
  have hstart : AtHeader base segs tail [] [] (s.setOff 0) := .inl ⟨rfl, h.setOff 0, rfl, rfl⟩
  have hdrop : (s.disk.journal.drop (s.setOff 0).pager.journalOff).map Prod.fst = journalItems base.size segs ++ last :=
    hj
  have hloop := hstart.loop rfl hlast (fun _ => hsome) (fun r hr => hr) hdrop
    (by rw [show (s.setOff 0).pager.journalOff = 0 from rfl, Nat.zero_add]; exact h.hdr) hfuel
  rw [List.nil_append] at hloop
  obtain ⟨hsettled, hopen⟩ := (hloop.setCounter false).settled
  exact hsettled.endTransaction (.inl hopen) false

/-! ### Rollback of a transaction that can still write -/

theorem Txn.rollback (h : Txn base segs tail s) :
    Idle base (sqlite3PagerRollback s) ∧ (sqlite3PagerRollback s).pager.eState = .reader := by
  have hplay : sqlite3PagerRollback s = pagerPlayback s false := by
    have hlocked : s.pager.eState ≠ .reader ∧ s.pager.eState ≠ .writerLocked := by
      rcases h.state with ⟨hstate, -⟩ | hstate <;> rw [hstate] <;> decide
    rw [sqlite3PagerRollback, if_neg hlocked.1, if_neg]
    simp [h.isOpen, hlocked.2]
  obtain ⟨rest, hj, hrest⟩ := h.journal
  rw [hplay]
  have hitems : s.disk.journal.map Prod.fst =
      journalItems base.size segs ++ .header false 0 base.size :: tail.map pageItem := by
    rw [hj, List.map_append, map_fst_synced, hrest]
  exact h.undo.pagerPlayback hitems (.inl rfl) (.inr (by simp))

/-- A transaction that has changed nothing ends. -/
theorem Locked.endTransaction (h : Locked base s) (bCommit : Bool) :
    Idle base (pagerEndTransaction s bCommit) ∧ (pagerEndTransaction s bCommit).pager.eState = .reader :=
  Settled.endTransaction ⟨h.dbSize, h.file, h.pos, h.data, h.sizeMin, h.dbPages, h.trace⟩ (.inr h.journal) bCommit

theorem Locked.rollback (h : Locked base s) :
    Idle base (sqlite3PagerRollback s) ∧ (sqlite3PagerRollback s).pager.eState = .reader := by
  have hne : s.pager.eState ≠ .reader := by rw [h.state]; decide
  rw [sqlite3PagerRollback, if_neg hne, if_pos (.inr h.state)]
  exact h.endTransaction false

end Sqlite4a
