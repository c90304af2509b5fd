import Sqlite4a.Pager
import Mathlib.Data.List.Basic

/-!
# Rolling back a hot journal

What a disk has to hold so that the content of the database at the start of the transaction can be found again: segments
of the journal that have been synced, each a header and its records, and every page of the old database either in a
record or still in the file.  A power failure keeps this, the playback of the journal keeps this, and at its end the
file holds the old content.
-/

namespace Sqlite4a

/-- The content of a database. -/
structure Image (α : Type) where
  size : Nat
  page : Nat → α

section

variable {α : Type}

/-- The file holds the pages of an image. -/
structure Image.On (im : Image α) (d : Disk α) : Prop where
  size : im.size ≤ d.dbPages
  page : ∀ p, 1 ≤ p → p ≤ im.size → d.db p = im.page p

/-- A record of an old page. -/
structure Image.Record (im : Image α) (r : Nat × α) : Prop where
  pos : 1 ≤ r.1
  le : r.1 ≤ im.size
  data : r.2 = im.page r.1

def pageItem (r : Nat × α) : JournalItem α := .page r.1 r.2

/-- A header that counts its records, and the records. -/
def segmentItems (N : Nat) (seg : List (Nat × α)) : List (JournalItem α) :=
  .header true seg.length N :: seg.map pageItem

def journalItems (N : Nat) (segs : List (List (Nat × α))) : List (JournalItem α) := segs.flatMap (segmentItems N)

/-- Items that have been synced. -/
def synced (items : List (JournalItem α)) : List (JournalItem α × Bool) := items.map fun i => (i, true)

theorem length_segmentItems (N : Nat) (seg : List (Nat × α)) : (segmentItems N seg).length = seg.length + 1 := by
  simp [segmentItems]

@[simp] theorem journalItems_nil (N : Nat) : journalItems N ([] : List (List (Nat × α))) = [] := rfl

@[simp] theorem journalItems_cons (N : Nat) (seg : List (Nat × α)) (segs : List (List (Nat × α))) :
    journalItems N (seg :: segs) = segmentItems N seg ++ journalItems N segs := rfl

@[simp] theorem journalItems_append (N : Nat) (segs segs' : List (List (Nat × α))) :
    journalItems N (segs ++ segs') = journalItems N segs ++ journalItems N segs' := List.flatMap_append

@[simp] theorem length_synced (items : List (JournalItem α)) : (synced items).length = items.length :=
    List.length_map ..

@[simp] theorem synced_append (items items' : List (JournalItem α)) :
    synced (items ++ items') = synced items ++ synced items' := List.map_append

@[simp] theorem map_fst_synced (items : List (JournalItem α)) : (synced items).map Prod.fst = items := by
  simp [synced, Function.comp_def]

theorem synced_flags (l : List (JournalItem α × Bool)) : l.map (fun i => (i.1, true)) = synced (l.map Prod.fst) := by
  simp [synced, Function.comp_def]

/-- What follows the synced segments: no valid header, or one that may be valid, with all its records synced. -/
inductive Unfinished (N : Nat) (ok : Nat × α → Prop) : List (JournalItem α × Bool) → Prop
  | none {rest} (h : ∀ n N' b, rest[0]? ≠ some (.header true n N', b)) : Unfinished N ok rest
  | header {b} {seg : List (Nat × α)} (h : ∀ r ∈ seg, ok r) :
      Unfinished N ok ((.header true seg.length N, b) :: synced (seg.map pageItem))

/-- The disk holds what is needed to find the image again. -/
structure Saved (im : Image α) (segs : List (List (Nat × α))) (rest : List (JournalItem α × Bool)) (d : Disk α) :
    Prop where
  journal : d.journal = synced (journalItems im.size segs) ++ rest
  rest : Unfinished im.size im.Record rest
  record : ∀ r ∈ segs.flatten, im.Record r
  page : ∀ p, 1 ≤ p → p ≤ im.size → (∃ r ∈ segs.flatten, r.1 = p) ∨ d.db p = im.page p ∧ d.dbSynced p = true
  sizeMin : im.size ≤ d.dbPagesMin
  size : im.size ≤ d.dbPages

def Recoverable (im : Image α) (d : Disk α) : Prop := ∃ segs rest, Saved im segs rest d

/-- Without a journal, the image is on the disk. -/
theorem saved_of_noJournal {im : Image α} {d : Disk α} (hj : d.journal = [])
    (hpage : ∀ p, 1 ≤ p → p ≤ im.size → d.db p = im.page p ∧ d.dbSynced p = true) (hmin : im.size ≤ d.dbPagesMin)
    (hsize : im.size ≤ d.dbPages) : Recoverable im d :=
  ⟨[], [], hj, .none (by simp), by simp, fun p h1 hp => .inr (hpage p h1 hp), hmin, hsize⟩

/-! ### Power failures -/

variable {im : Image α} {segs : List (List (Nat × α))} {rest : List (JournalItem α × Bool)} {d d' : Disk α}

theorem Disk.Crash.synced_prefix (h : d.Crash d') {items : List (JournalItem α)} (off : Nat)
    {l : List (JournalItem α × Bool)}
    (hd : d.journal.drop off = synced items ++ l) : ∃ l', d'.journal.drop off = synced items ++ l' := by
  induction items generalizing off with
  | nil => exact ⟨_, rfl⟩
  | cons i items ih =>
    have hi : d.journal[off]? = some (i, true) := by
      have h0 := congrArg (fun l => l[0]?) hd
      simpa [synced] using h0
    have htail : d.journal.drop (off + 1) = synced items ++ l := by
      rw [← List.drop_drop, hd]
      rfl
    obtain ⟨l', hl'⟩ := ih (off + 1) htail
    obtain ⟨hlt, hget⟩ := List.getElem?_eq_some_iff.1 (h.journal off i hi)
    refine ⟨l', ?_⟩
    rw [List.drop_eq_getElem_cons hlt, hget, hl']
    rfl

/-- A header that was being written comes with its records, which had been synced before. -/
theorem Disk.Crash.unfinished (h : d.Crash d') {off : Nat} (hrest : Unfinished im.size im.Record (d.journal.drop off)) :
    ∃ segs rest, d'.journal.drop off = synced (journalItems im.size segs) ++ rest ∧ (∀ r ∈ segs.flatten, im.Record r) ∧
      ∀ n N b, rest[0]? ≠ some (.header true n N, b) := by
  by_cases hhdr : ∃ n N b, d'.journal[off]? = some (.header true n N, b)
  · obtain ⟨n, N, b, hn⟩ := hhdr
    obtain ⟨m, b', hm, hle⟩ := h.header off n N b hn
    have hb : b = true := h.journalSynced _ (List.mem_of_getElem? hn)
    subst hb
    generalize hl : d.journal.drop off = l at hrest
    have hm0 : l[0]? = some (.header true m N, b') := by rw [← hl]; simpa using hm
    cases hrest with
    | none hno => exact absurd hm0 (hno m N b')
    | @header b₀ seg hseg =>
      simp only [List.getElem?_cons_zero, Option.some.injEq, Prod.mk.injEq, JournalItem.header.injEq, true_and] at hm0
      obtain ⟨⟨rfl, rfl⟩, -⟩ := hm0
      have htl : d.journal.drop (off + 1) = synced (seg.map pageItem) := by
        rw [← List.drop_drop, hl]
        rfl
      obtain ⟨l', hl'⟩ := h.synced_prefix (off + 1) (htl.trans (List.append_nil _).symm)
      obtain ⟨hlt, hget⟩ := List.getElem?_eq_some_iff.1 hn
      -- the first `n` records belong to the header, and what follows is a record, or was not there
      refine ⟨[seg.take n], synced ((seg.drop n).map pageItem) ++ l', ?_, ?_, ?_⟩
      · rw [List.drop_eq_getElem_cons hlt, hget, hl']
        simp only [journalItems_cons, journalItems_nil, List.append_nil, segmentItems, List.length_take,
          Nat.min_eq_left hle]
        rw [← List.append_assoc, ← List.take_append_drop n (seg.map pageItem)]
        simp [synced, List.map_take, List.map_drop]
      · intro r hr
        simp only [List.flatten_cons, List.flatten_nil, List.append_nil] at hr
        exact hseg r (List.mem_of_mem_take hr)
      · intro k M b hk
        have hat : d'.journal[off + 1 + n]? = some (.header true k M, b) := by
          have hdrop : d'.journal.drop (off + 1 + n) = synced ((seg.drop n).map pageItem) ++ l' := by
            rw [← List.drop_drop, hl', List.drop_append_of_le_length (by simpa using hle)]
            simp [synced, List.map_drop]
          rw [← hdrop] at hk
          simpa using hk
        obtain ⟨m', b'', hm', -⟩ := h.header _ _ _ _ hat
        have hin : (d.journal.drop (off + 1))[n]? = some (.header true m' M, b'') := by simpa using hm'
        rw [htl] at hin
        simp [synced, pageItem] at hin
  · refine ⟨[], d'.journal.drop off, rfl, by simp, ?_⟩
    intro n N b hn
    exact hhdr ⟨n, N, b, by simpa using hn⟩

/-- A power failure leaves what is needed to find the image again, and no header without its records. -/
theorem Saved.crash (hs : Saved im segs rest d) (h : d.Crash d') :
    ∃ segs' rest', Saved im segs' rest' d' ∧ ∀ n N b, rest'[0]? ≠ some (.header true n N, b) := by
  obtain ⟨l', hl'⟩ := h.synced_prefix 0 hs.journal
  have hdrop : d.journal.drop (journalItems im.size segs).length = rest := by
    rw [hs.journal, List.drop_left' (length_synced _)]
  obtain ⟨segs', rest', hj, hrec, hno⟩ :=
    h.unfinished (hdrop.symm ▸ hs.rest : Unfinished im.size im.Record (d.journal.drop _))
  refine ⟨segs ++ segs', rest', ⟨?_, .none hno, ?_, ?_, ?_, ?_⟩, hno⟩
  · rw [List.drop_zero] at hl'
    rw [hl', List.drop_left' (length_synced _)] at hj
    rw [hl', hj, journalItems_append, synced_append, List.append_assoc]
  · intro r hr
    rw [List.flatten_append, List.mem_append] at hr
    exact hr.elim (hs.record r) (hrec r)
  · intro p h1 hp
    rcases hs.page p h1 hp with ⟨r, hr, rfl⟩ | ⟨hpage, hsync⟩
    · exact .inl ⟨r, by rw [List.flatten_append]; exact List.mem_append_left _ hr, rfl⟩
    · exact .inr ⟨(h.db p hsync).trans hpage, h.dbSynced p⟩
  · rw [h.dbPagesMin]
    exact Nat.le_trans hs.sizeMin h.dbPages
  · exact Nat.le_trans hs.sizeMin h.dbPages

/-! ### Playback -/

theorem onePage_frame [PageContent α] (s : PagerSys α) (off pgno : Nat) (data : α) (pDone : Option (Nat → Bool))
    (isMainJrnl : Bool) :
    (pagerPlaybackOnePage s off pgno data pDone isMainJrnl).1.disk.journal = s.disk.journal ∧
      (pagerPlaybackOnePage s off pgno data pDone isMainJrnl).1.pager.journalOff = s.pager.journalOff := by
  have hset : ∀ t : PagerSys α, (setData t pgno data).disk = t.disk ∧
      (setData t pgno data).pager.journalOff = t.pager.journalOff := by
    intro t
    rw [setData]
    split <;> exact ⟨rfl, rfl⟩
  simp only [pagerPlaybackOnePage]
  split
  · exact ⟨rfl, rfl⟩
  · simp only [hset]
    constructor <;> (repeat' split) <;> rfl

theorem getElem?_of_map_drop {β γ : Type} {f : β → γ} {l : List β} {k : Nat} {a : γ} {more : List γ}
    (h : (l.drop k).map f = a :: more) : (∃ x, l[k]? = some x ∧ f x = a) ∧ (l.drop (k + 1)).map f = more := by
  constructor
  · have h0 := congrArg (fun l => l[0]?) h
    simpa using h0
  · rw [← List.drop_drop, List.map_drop, h]
    rfl

/-- What each of the records keeps is kept by all of them. -/
theorem playRecords_rule [PageContent α] (P : List (Nat × α) → PagerSys α → Option (Nat → Bool) → Prop)
    (hsetOff : ∀ done s pDone o, P done s pDone → P done { s with pager := { s.pager with journalOff := o } } pDone)
    {seg : List (Nat × α)} {more : List (JournalItem α)} {J : List (JournalItem α × Bool)} {start : Nat}
    (hdrop : (J.drop start).map Prod.fst = seg.map pageItem ++ more) (hpos : ∀ r ∈ seg, 1 ≤ r.1)
    (hstep : ∀ done s pDone r off, r ∈ seg → start < off → off ≤ start + seg.length → s.disk.journal = J →
        P done s pDone →
      P (done ++ [r]) (pagerPlaybackOnePage s off r.1 r.2 pDone true).1
          (pagerPlaybackOnePage s off r.1 r.2 pDone true).2)
    (done : List (Nat × α)) (s : PagerSys α) (pDone : Option (Nat → Bool)) (hinv : P done s pDone)
    (hj : s.disk.journal = J) (hoff : s.pager.journalOff = start) :
    ∃ s' pDone', playRecords seg.length s pDone = (s', pDone', true) ∧ P (done ++ seg) s' pDone' ∧ s'.disk.journal = J ∧
      s'.pager.journalOff = start + seg.length := by
  induction seg generalizing s pDone done start with
  | nil => exact ⟨s, pDone, rfl, by simpa using hinv, hj, hoff⟩
  | cons r seg ih =>
    obtain ⟨⟨⟨item, b⟩, hread, rfl⟩, hnext⟩ := getElem?_of_map_drop hdrop
    let s₁ : PagerSys α := { s with pager := { s.pager with journalOff := start + 1 } }
    have hone := hstep done s₁ pDone r (start + 1) (List.mem_cons_self ..) (by omega)
        (by rw [List.length_cons]; omega) hj
      (hsetOff done s pDone (start + 1) hinv)
    obtain ⟨hj₁, hoff₁⟩ := onePage_frame s₁ (start + 1) r.1 r.2 pDone true
    obtain ⟨s', pDone', hplay, hinv', hj', hoff'⟩ := ih hnext (fun r' hr' => hpos r' (List.mem_cons_of_mem r hr'))
      (fun done s pDone r' off hr' hlt hle => hstep done s pDone r' off (List.mem_cons_of_mem r hr') (by omega) (by
        rw [List.length_cons]
        omega))
      (done ++ [r]) _ _ hone (hj₁.trans hj) hoff₁
    refine ⟨s', pDone', ?_, by simpa using hinv', hj', by rw [hoff', List.length_cons]; omega⟩
    obtain ⟨pgno, hpgno⟩ : ∃ n, r.1 = n + 1 := ⟨r.1 - 1, by have := hpos r (List.mem_cons_self ..); omega⟩
    rw [List.length_cons, playRecords, hoff, hj, hread, pageItem, hpgno]
    rw [hpgno] at hplay
    exact hplay

/-- The pager while it rolls a hot journal back. -/
structure Hot (im : Image α) (segs : List (List (Nat × α))) (rest : List (JournalItem α × Bool)) (s : PagerSys α) :
    Prop where
  state : s.pager.eState = .opened
  cache : ∀ p, s.pager.cache p = none
  hdr : s.pager.journalHdr = s.disk.journal.length
  saved : Saved im segs rest s.disk
  trace : ∀ d ∈ s.trace, Recoverable im d

theorem Hot.setOff {s : PagerSys α} (h : Hot im segs rest s) (off : Nat) :
    Hot im segs rest { s with pager := { s.pager with journalOff := off } } :=
  ⟨h.state, h.cache, h.hdr, h.saved, h.trace⟩

end

variable {α : Type} [PageContent α] {im : Image α} {segs : List (List (Nat × α))} {rest : List (JournalItem α × Bool)}
  {s : PagerSys α}

/-- A call that leaves the disk in order. -/
theorem Hot.call (h : Hot im segs rest s) {c : Syscall α} (hj : (s.disk.exec c).journal = s.disk.journal)
    (hsaved : Saved im segs rest (s.disk.exec c)) : Hot im segs rest (s.call c) := by
  refine ⟨h.state, h.cache, h.hdr.trans (congrArg List.length hj.symm), hsaved, ?_⟩
  intro d hd
  rcases List.mem_append.1 hd with hd | hd
  · exact h.trace d hd
  · exact List.mem_singleton.1 hd ▸ ⟨segs, rest, hsaved⟩

/-- A page that has a record may be written. -/
theorem Saved.writeDb {d : Disk α} (h : Saved im segs rest d) {r : Nat × α} (hr : r ∈ segs.flatten) (data : α) :
    Saved im segs rest (d.exec (.writeDb r.1 data)) := by
  refine ⟨h.journal, h.rest, h.record, ?_, h.sizeMin, Nat.le_trans h.size (Nat.le_max_left _ _)⟩
  intro p h1 hp
  by_cases hpr : p = r.1
  · exact .inl ⟨r, hr, hpr.symm⟩
  · rcases h.page p h1 hp with hrec | ⟨hpage, hsync⟩
    · exact .inl hrec
    · exact .inr ⟨(Function.update_of_ne hpr _ _).trans hpage, (Function.update_of_ne hpr _ _).trans hsync⟩

theorem Saved.truncate {d : Disk α} (h : Saved im segs rest d) : Saved im segs rest (d.exec (.truncateDb im.size)) := by
  refine ⟨h.journal, h.rest, h.record, ?_, Nat.le_min.2 ⟨h.sizeMin, Nat.le_refl _⟩, Nat.le_refl _⟩
  intro p h1 hp
  rcases h.page p h1 hp with hrec | ⟨hpage, hsync⟩
  · exact .inl hrec
  · exact .inr ⟨(if_neg (Nat.not_lt.2 hp)).trans hpage, (if_neg (Nat.not_lt.2 hp)).trans hsync⟩

/-- A record of an old page is written to the database file. -/
theorem Hot.onePage (h : Hot im segs rest s) (hsize : s.pager.dbSize = im.size) {r : Nat × α} (hr : r ∈ segs.flatten)
    {off : Nat} (hoff : off ≤ s.disk.journal.length) :
    pagerPlaybackOnePage s off r.1 r.2 none true = (writeDbPage s r.1 r.2, none) ∧
      Hot im segs rest (writeDbPage s r.1 r.2) := by
  have hle := (h.saved.record r hr).le
  have hcall := h.call (c := .writeDb r.1 r.2) rfl (h.saved.writeDb hr r.2)
  refine ⟨?_, hcall.state, hcall.cache, hcall.hdr, hcall.saved, hcall.trace⟩
  have hsynced : s.pager.eState.writesDb = true ∧ off ≤ s.pager.journalHdr := by
    rw [h.state, h.hdr]
    exact ⟨rfl, hoff⟩
  have hcache : (writeDbPage s r.1 r.2).pager.cache r.1 = none := h.cache r.1
  have hskip : ¬ (s.pager.dbSize < r.1 ∨ ((none : Option (Nat → Bool)).any fun b => b r.1) = true) := by
    simp
    omega
  rw [pagerPlaybackOnePage, if_neg hskip]
  simp only [if_true, decide_eq_true_eq, hsynced, and_self, setData, hcache]
  rfl

/-- The records of a segment are played: each of its pages is as it was. -/
theorem Hot.playRecords {seg : List (Nat × α)} {more : List (JournalItem α)} (h : Hot im segs rest s)
    (hsize : s.pager.dbSize = im.size) (hsub : ∀ r ∈ seg, r ∈ segs.flatten)
    (hdrop : (s.disk.journal.drop s.pager.journalOff).map Prod.fst = seg.map pageItem ++ more) :
    ∃ s', playRecords seg.length s none = (s', none, true) ∧ Hot im segs rest s' ∧ s'.pager.dbSize = im.size ∧
      (s'.disk.journal.drop s'.pager.journalOff).map Prod.fst = more ∧
      ∀ p, s.disk.db p = im.page p ∨ (∃ r ∈ seg, r.1 = p) → s'.disk.db p = im.page p := by
  let Inv (done : List (Nat × α)) (t : PagerSys α) (pDone : Option (Nat → Bool)) : Prop :=
    pDone = none ∧ Hot im segs rest t ∧ t.pager.dbSize = im.size ∧
      ∀ p, s.disk.db p = im.page p ∨ (∃ r ∈ done, r.1 = p) → t.disk.db p = im.page p
  have hstep : ∀ done t pDone r off, r ∈ seg → s.pager.journalOff < off → off ≤ s.pager.journalOff + seg.length →
      t.disk.journal = s.disk.journal → Inv done t pDone →
      Inv (done ++ [r]) (pagerPlaybackOnePage t off r.1 r.2 pDone true).1
        (pagerPlaybackOnePage t off r.1 r.2 pDone true).2 := by
    rintro done t pDone r off hr hlt hle hj ⟨rfl, ht, hts, hdb⟩
    have hin : off ≤ t.disk.journal.length := by
      have hlen := congrArg List.length hdrop
      simp only [List.length_map, List.length_drop, List.length_append] at hlen
      rw [hj]
      omega
    obtain ⟨hone, h₁⟩ := ht.onePage hts (hsub r hr) hin
    rw [hone]
    refine ⟨rfl, h₁, hts, fun p hp => ?_⟩
    -- the page of this record has its old content from now on
    by_cases hpr : p = r.1
    · subst hpr
      exact (Function.update_self _ _ _).trans (ht.saved.record r (hsub r hr)).data
    · have hne : (writeDbPage t r.1 r.2).disk.db p = t.disk.db p := Function.update_of_ne hpr _ _
      refine hne.trans (hdb p (hp.imp id ?_))
      rintro ⟨r', hr', rfl⟩
      rw [List.mem_append, List.mem_singleton] at hr'
      exact ⟨r', hr'.resolve_right fun he => hpr (congrArg Prod.fst he), rfl⟩
  obtain ⟨s', _, hplay, ⟨rfl, h', hsize', hdb⟩, hj, hoff⟩ := playRecords_rule Inv
    (fun done t pDone o hi => ⟨hi.1, hi.2.1.setOff o, hi.2.2.1, hi.2.2.2⟩) hdrop
    (fun r hr => (h.saved.record r (hsub r hr)).pos) hstep [] s none
        ⟨rfl, h, hsize, fun p hp => hp.elim id (by simp)⟩ rfl rfl
  refine ⟨s', hplay, h', hsize', ?_, fun p hp => hdb p hp⟩
  rw [hj, hoff, ← List.drop_drop, List.map_drop, hdrop, List.drop_left' (List.length_map _)]

/-- Playback ends where there is no valid header. -/
theorem pagerPlaybackLoop_stop {more : List (JournalItem α)}
    (hmore : (s.disk.journal.drop s.pager.journalOff).map Prod.fst = more)
    (hno : ∀ n N, more[0]? ≠ some (.header true n N)) (fuel : Nat) :
    pagerPlaybackLoop true s.disk.journal.length fuel s = s := by
  cases fuel with
  | zero => rfl
  | succ fuel =>
    have hread : readJournalHdr s true s.disk.journal.length = none := by
      simp only [readJournalHdr]
      split
      · rfl
      · split
        · rename_i magic n N b hget
          have hhead : more[0]? = some (.header magic n N) := by
            rw [← hmore]
            simp [hget]
          cases magic with
          | false => simp
          | true => exact absurd hhead (hno n N)
        · rfl
    rw [pagerPlaybackLoop, hread]

theorem Hot.pagerTruncate (h : Hot im segs rest s) :
    Hot im segs rest (pagerTruncate s im.size) ∧
      (Sqlite4a.pagerTruncate s im.size).pager.journalOff = s.pager.journalOff ∧
      (Sqlite4a.pagerTruncate s im.size).disk.journal = s.disk.journal ∧
      ∀ p, p ≤ im.size → (Sqlite4a.pagerTruncate s im.size).disk.db p = s.disk.db p := by
  have hwrites : s.pager.eState.writesDb = true := by rw [h.state]; rfl
  have hge : ¬ s.disk.dbPages < im.size := Nat.not_lt.2 h.saved.size
  rw [Sqlite4a.pagerTruncate, if_pos hwrites, if_neg hge]
  by_cases hlt : im.size < s.disk.dbPages
  · have hcall := h.call (c := .truncateDb im.size) rfl h.saved.truncate
    rw [if_pos hlt]
    refine ⟨⟨hcall.state, hcall.cache, hcall.hdr, hcall.saved, hcall.trace⟩, rfl, rfl, ?_⟩
    intro p hp
    exact if_neg (Nat.not_lt.2 hp)
  · rw [if_neg hlt]
    exact ⟨⟨h.state, h.cache, h.hdr, h.saved, h.trace⟩, rfl, rfl, fun _ _ => rfl⟩

/-- One segment. -/
theorem Hot.segment {seg : List (Nat × α)} {more : List (JournalItem α)} (h : Hot im segs rest s)
    (hsize : s.pager.journalOff = 0 ∨ s.pager.dbSize = im.size) (hsub : ∀ r ∈ seg, r ∈ segs.flatten)
    (hdrop : (s.disk.journal.drop s.pager.journalOff).map Prod.fst = segmentItems im.size seg ++ more) (fuel : Nat) :
    ∃ s', pagerPlaybackLoop true s.disk.journal.length (fuel + 1) s =
        pagerPlaybackLoop true s'.disk.journal.length fuel s' ∧
      Hot im segs rest s' ∧ s'.pager.dbSize = im.size ∧
      (s'.disk.journal.drop s'.pager.journalOff).map Prod.fst = more ∧
      ∀ p, p ≤ im.size → s.disk.db p = im.page p ∨ (∃ r ∈ seg, r.1 = p) → s'.disk.db p = im.page p := by
  obtain ⟨⟨⟨item, b⟩, hread, rfl⟩, hnext⟩ := getElem?_of_map_drop hdrop
  have hlt : s.pager.journalOff < s.disk.journal.length := (List.getElem?_eq_some_iff.1 hread).1
  let s₁ : PagerSys α := { s with pager := { s.pager with journalOff := s.pager.journalOff + JOURNAL_HDR_SZ } }
  have h₁ : Hot im segs rest s₁ := h.setOff _
  have hhdr : readJournalHdr s true s.disk.journal.length = some (s₁, seg.length, im.size) := by
    rw [readJournalHdr, if_neg (by rw [JOURNAL_HDR_SZ]; omega), hread]
    simp [s₁]
  let s₂ : PagerSys α :=
    if s₁.pager.journalOff = JOURNAL_HDR_SZ then
      let t := Sqlite4a.pagerTruncate s₁ im.size
      { t with pager := { t.pager with dbSize := im.size } }
    else s₁
  have h₂ : Hot im segs rest s₂ ∧ s₂.pager.dbSize = im.size ∧ s₂.pager.journalOff = s₁.pager.journalOff ∧
      s₂.disk.journal = s.disk.journal ∧ ∀ p, p ≤ im.size → s₂.disk.db p = s.disk.db p := by
    by_cases hfirst : s₁.pager.journalOff = JOURNAL_HDR_SZ
    · have hs₂ : s₂ = { Sqlite4a.pagerTruncate s₁ im.size with
          pager := { (Sqlite4a.pagerTruncate s₁ im.size).pager with dbSize := im.size } } := if_pos hfirst
      obtain ⟨ht, hoff, hj, hdb⟩ := h₁.pagerTruncate
      rw [hs₂]
      exact ⟨⟨ht.state, ht.cache, ht.hdr, ht.saved, ht.trace⟩, rfl, hoff, hj, hdb⟩
    · have hs₂ : s₂ = s₁ := if_neg hfirst
      have hold : s.pager.journalOff ≠ 0 := fun h0 => hfirst (by
        show s.pager.journalOff + JOURNAL_HDR_SZ = _
        rw [h0, Nat.zero_add])
      rw [hs₂]
      exact ⟨h₁, hsize.resolve_left hold, rfl, rfl, fun _ _ => rfl⟩
  obtain ⟨hhot, hsize₂, hoff, hj, hdb⟩ := h₂
  have hdrop₂ : (s₂.disk.journal.drop s₂.pager.journalOff).map Prod.fst = seg.map pageItem ++ more := by
    rw [hj, hoff]
    exact hnext
  obtain ⟨s', hplay, h', hsize', hmore, hdb'⟩ := hhot.playRecords hsize₂ hsub hdrop₂
  refine ⟨s', ?_, h', hsize', hmore, ?_⟩
  · have hcount : recordCount s₁ true s.disk.journal.length seg.length = seg.length := by simp [recordCount]
    have hlen : s'.disk.journal.length = s.disk.journal.length := by
      rw [h'.saved.journal, h.saved.journal]
    rw [pagerPlaybackLoop, hhdr]
    show (if (Sqlite4a.playRecords (recordCount s₁ true s.disk.journal.length seg.length) s₂ none).2.2 = true then _
      else _) = _
    rw [hcount, hplay, hlen]
    rfl
  · intro p hp hcover
    exact hdb' p (hcover.imp (fun hp' => (hdb p hp).trans hp') id)

/-- Segment after segment, up to where there is no valid header. -/
theorem Hot.loop {segs' : List (List (Nat × α))} (h : Hot im segs rest s)
    (hno : ∀ n N b, rest[0]? ≠ some (.header true n N, b)) (hsize : s.pager.journalOff = 0 ∨ s.pager.dbSize = im.size)
    (hsub : ∀ r ∈ segs'.flatten, r ∈ segs.flatten)
    (hdrop : (s.disk.journal.drop s.pager.journalOff).map Prod.fst = journalItems im.size segs' ++ rest.map Prod.fst)
    {fuel : Nat} (hfuel : segs'.length < fuel) :
    ∃ s', pagerPlaybackLoop true s.disk.journal.length fuel s = s' ∧ Hot im segs rest s' ∧
      ∀ p, p ≤ im.size → s.disk.db p = im.page p ∨ (∃ r ∈ segs'.flatten, r.1 = p) → s'.disk.db p = im.page p := by
  induction segs' generalizing s fuel with
  | nil =>
    have hstop : ∀ n N, (rest.map Prod.fst)[0]? ≠ some (.header true n N) := by
      intro n N hn
      rw [List.getElem?_map, Option.map_eq_some_iff] at hn
      obtain ⟨⟨i, b⟩, hi, rfl⟩ := hn
      exact hno n N b hi
    exact ⟨s, pagerPlaybackLoop_stop hdrop hstop fuel, h, fun p _ hp => hp.elim id (by simp)⟩
  | cons seg segs' ih =>
    obtain ⟨f, rfl⟩ : ∃ f, fuel = f + 1 := ⟨fuel - 1, by omega⟩
    rw [journalItems_cons, List.append_assoc] at hdrop
    have hseg : ∀ r ∈ seg, r ∈ segs.flatten := fun r hr => hsub r (by simp [hr])
    obtain ⟨s₁, hstep, h₁, hsize₁, hmore, hdb⟩ := h.segment hsize hseg hdrop f
    have hfuel' : segs'.length < f := by
      rw [List.length_cons] at hfuel
      omega
    obtain ⟨s', hloop, h', hdb'⟩ := ih h₁ (.inr hsize₁) (fun r hr => hsub r (by
      rw [List.flatten_cons]
      exact List.mem_append_right _ hr)) hmore hfuel'
    refine ⟨s', hstep.trans hloop, h', ?_⟩
    rintro p hp (hcover | ⟨r, hr, rfl⟩)
    · exact hdb' p hp (.inl (hdb p hp (.inl hcover)))
    · rw [List.flatten_cons, List.mem_append] at hr
      rcases hr with hr | hr
      · exact hdb' _ hp (.inl (hdb _ hp (.inr ⟨r, hr, rfl⟩)))
      · exact hdb' _ hp (.inr ⟨r, hr, rfl⟩)

/-- A rollback ends with the deletion of the journal. -/
theorem pagerEndTransaction_false (s : PagerSys α) :
    (pagerEndTransaction s false).disk = (if s.pager.isOpenJfd then s.disk.exec .deleteJournal else s.disk) ∧
      (pagerEndTransaction s false).trace = s.trace ++
      (if s.pager.isOpenJfd then [s.disk.exec .deleteJournal] else []) := by
  cases hopen : s.pager.isOpenJfd <;> simp [pagerEndTransaction, hopen, PagerSys.call]

theorem length_le_journalItems {β : Type} (N : Nat) (segs : List (List (Nat × β))) :
    segs.length ≤ (journalItems N segs).length := by
  induction segs with
  | nil => exact Nat.le_refl 0
  | cons seg segs ih =>
    rw [journalItems_cons, List.length_append, length_segmentItems, List.length_cons]
    omega

/-- The journal is rolled back when that is needed.  Afterwards the file holds the image, and a power failure on the way
does no harm. -/
theorem Saved.recovery {d : Disk α} (h : Saved im segs rest d) (hno : ∀ n N b, rest[0]? ≠ some (.header true n N, b)) :
    im.On (recovery d).disk ∧ ∀ d' ∈ (recovery d).trace, Recoverable im d' := by
  rw [Sqlite4a.recovery]
  by_cases hhot : hasHotJournal d = true
  · rw [if_pos hhot]
    have hstart : Hot im segs rest (hotPager d) := ⟨rfl, fun _ => rfl, rfl, h, by simp [hotPager]⟩
    have hdrop : ((hotPager d).disk.journal.drop (hotPager d).pager.journalOff).map Prod.fst =
        journalItems im.size segs ++ rest.map Prod.fst := by
      show (d.journal.drop 0).map Prod.fst = _
      rw [List.drop_zero, h.journal, List.map_append, map_fst_synced]
    have hfuel : segs.length < d.journal.length + 1 := by
      have := length_le_journalItems im.size segs
      rw [h.journal, List.length_append, length_synced]
      omega
    obtain ⟨s₁, hloop, h₁, hdb⟩ := hstart.loop hno (.inl rfl) (fun r hr => hr) hdrop hfuel
    let s' : PagerSys α := { s₁ with pager := { s₁.pager with changeCountDone := false } }
    have h' : Hot im segs rest s' := ⟨h₁.state, h₁.cache, h₁.hdr, h₁.saved, h₁.trace⟩
    have hpage : ∀ p, 1 ≤ p → p ≤ im.size → s'.disk.db p = im.page p := by
      intro p h1 hp
      exact hdb p hp ((h.page p h1 hp).elim .inr fun hp' => .inl hp'.1)
    -- the file is synced, and then the journal is deleted
    have hsync : Hot im segs rest (s'.call .syncDb) := by
      refine h'.call rfl ⟨h'.saved.journal, h'.saved.rest, h'.saved.record, ?_, h'.saved.size, h'.saved.size⟩
      exact fun p h1 hp => .inr ⟨hpage p h1 hp, rfl⟩
    have hdel : Recoverable im ((s'.call .syncDb).disk.exec .deleteJournal) :=
      saved_of_noJournal rfl (fun p h1 hp => ⟨hpage p h1 hp, rfl⟩) h'.saved.size h'.saved.size
    have hplay : pagerPlayback (hotPager d) true = pagerEndTransaction (s'.call .syncDb) false := by
      have hwrites : s₁.pager.eState.writesDb = true := by rw [h₁.state]; rfl
      have hloop' : pagerPlaybackLoop true (hotPager d).disk.journal.length ((hotPager d).disk.journal.length + 1)
          { hotPager d with pager := { (hotPager d).pager with journalOff := 0 } } = s₁ := hloop
      simp only [pagerPlayback]
      rw [hloop', if_pos hwrites]
    obtain ⟨hdisk, htrace⟩ := pagerEndTransaction_false (s'.call .syncDb)
    rw [hplay, hdisk, htrace]
    cases (s'.call Syscall.syncDb).pager.isOpenJfd with
    | false => exact ⟨⟨h'.saved.size, hpage⟩, by simpa using hsync.trace⟩
    | true =>
      refine ⟨⟨h'.saved.size, hpage⟩, fun d' hd' => ?_⟩
      rcases List.mem_append.1 hd' with hd' | hd'
      · exact hsync.trace d' hd'
      · exact List.mem_singleton.1 hd' ▸ hdel
  · rw [if_neg hhot]
    refine ⟨⟨h.size, fun p h1 hp => ?_⟩, by simp [hotPager]⟩
    cases segs with
    | nil => exact (h.page p h1 hp).elim (by simp) And.left
    | cons seg segs =>
      -- a synced segment makes the journal hot
      have hpages : d.dbPages ≠ 0 := by have := h.size; omega
      refine absurd ?_ hhot
      simp [hasHotJournal, h.journal, segmentItems, synced, hpages]

/-- However often the power fails, the image is found again. -/
theorem Recoverable.crashes {d d' : Disk α} (h : Recoverable im d) (hc : d.Crashes d') : im.On (recovery d').disk := by
  have hsaved : ∃ segs rest, Saved im segs rest d' ∧ ∀ n N b, rest[0]? ≠ some (.header true n N, b) := by
    induction hc with
    | first hcrash =>
      obtain ⟨segs, rest, hs⟩ := h
      exact hs.crash hcrash
    | again _ hmem hcrash ih =>
      obtain ⟨segs, rest, hs, hno⟩ := ih
      obtain ⟨segs', rest', hs'⟩ := (hs.recovery hno).2 _ hmem
      exact hs'.crash hcrash
  obtain ⟨segs, rest, hs, hno⟩ := hsaved
  exact (hs.recovery hno).1

end Sqlite4a
