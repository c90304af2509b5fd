import Sqlite4a.PagerTransaction
import Sqlite4a.UndoLog
import Mathlib.Data.List.Forall2

/-!
# Savepoints of the pager

The undo log of a savepoint is what the main journal has after `iOffset` and what the sub-journal has after `iSubRec`.
It covers every page that has changed since the savepoint was opened, and `pInSavepoint` says which pages are in it.
-/

namespace Sqlite4a

section

variable {α : Type}

/-- The records of the main journal after a position of it. -/
inductive Spot (N : Nat) (segs : List (List (Nat × α))) (tail : List (Nat × α)) :
    (iOffset iHdrOffset : Nat) → List (Nat × α) → Prop
  | inTail {before after : List (Nat × α)} (h : tail = before ++ after) :
      Spot N segs tail ((journalItems N segs).length + 1 + before.length) 0 after
  | inSegment {before : List (JournalItem α)} {first : List (Nat × α)} {later : List (List (Nat × α))}
      (h : journalItems N segs = before ++ first.map pageItem ++ journalItems N later) (hpos : 1 ≤ before.length) :
      Spot N segs tail before.length (before.length + first.length) (first ++ later.flatten ++ tail)

/-- The undo log of a savepoint. -/
structure SavepointOk (N : Nat) (segs : List (List (Nat × α))) (tail sub : List (Nat × α)) (content : Nat → α)
    (dbSize : Nat)
    (sp : PagerSavepoint) (save : Image α) : Prop where
  nOrig : sp.nOrig = save.size
  base : N ≤ sp.nOrig
  dbSize : sp.nOrig ≤ dbSize
  iSubRec : sp.iSubRec ≤ sub.length
  log : ∃ main, Spot N segs tail sp.iOffset sp.iHdrOffset main ∧
    UndoLog.Covers (fun p => 1 ≤ p ∧ p ≤ sp.nOrig) (main ++ sub.drop sp.iSubRec) content save.page ∧
    ∀ p, p ≤ sp.nOrig → (sp.pInSavepoint p = true ↔ (main ++ sub.drop sp.iSubRec).lookup p ≠ none)

/-- What is recorded for the later savepoint is recorded for the earlier one. -/
structure Nested (a b : PagerSavepoint) : Prop where
  nOrig : a.nOrig ≤ b.nOrig
  recorded : ∀ p, p ≤ a.nOrig → b.pInSavepoint p = true → a.pInSavepoint p = true

structure Saves (N : Nat) (segs : List (List (Nat × α))) (tail : List (Nat × α)) (s : PagerSys α)
    (saves : List (Image α)) :
    Prop where
  each : List.Forall₂ (SavepointOk N segs tail s.pager.sjfd s.content s.pager.dbSize) s.pager.aSavepoint saves
  nested : s.pager.aSavepoint.Pairwise Nested

variable {N : Nat} {segs : List (List (Nat × α))} {tail main : List (Nat × α)} {iOffset iHdrOffset : Nat}

/-- A record is written at the end of the journal. -/
theorem Spot.append (h : Spot N segs tail iOffset iHdrOffset main) (r : Nat × α) :
    Spot N segs (tail ++ [r]) iOffset iHdrOffset (main ++ [r]) := by
  cases h with
  | @inTail before _ h => exact .inTail (by rw [h, List.append_assoc])
  | inSegment h hpos =>
    rw [List.append_assoc _ tail]
    exact .inSegment h hpos

/-- The journal is synced, and a header is written. -/
theorem Spot.sync (h : Spot N segs tail iOffset iHdrOffset main) {off : Nat}
    (hoff : off = (journalItems N segs).length + 1 + tail.length) :
    Spot N (segs ++ [tail]) [] iOffset (if iHdrOffset = 0 then off else iHdrOffset) main := by
  cases h with
  | @inTail before _ h =>
    let items := journalItems N segs ++ .header true tail.length N :: before.map pageItem
    have hlen : items.length = (journalItems N segs).length + 1 + before.length := by
      simp only [items, List.length_append, List.length_cons, List.length_map]
      omega
    have hitems : journalItems N (segs ++ [tail]) = items ++ main.map pageItem ++ journalItems N [] := by
      simp [items, segmentItems, h]
    have hend : off = items.length + main.length := by
      rw [hoff, h, hlen, List.length_append]
      omega
    have hspot : Spot N (segs ++ [tail]) [] items.length (items.length + main.length) (main ++ List.flatten [] ++ []) :=
      .inSegment hitems (by rw [hlen]; omega)
    rw [if_pos rfl, ← hlen, hend]
    simpa using hspot
  | @inSegment before first later h hpos =>
    have hitems : journalItems N (segs ++ [tail]) = before ++ first.map pageItem ++
        journalItems N (later ++ [tail]) := by
      rw [journalItems_append, h, List.append_assoc _ (journalItems N later), ← journalItems_append]
    have hspot : Spot N (segs ++ [tail]) [] before.length (before.length + first.length)
        (first ++ (later ++ [tail]).flatten ++ []) := .inSegment hitems hpos
    rw [if_neg (by omega)]
    simpa using hspot

theorem pageItem_mem_journalItems {r : Nat × α} : pageItem r ∈ journalItems N segs ↔ r ∈ segs.flatten := by
  induction segs with
  | nil => simp
  | cons seg segs ih =>
    have hseg : pageItem r ∈ segmentItems N seg ↔ r ∈ seg := by
      simp [segmentItems, pageItem]
    rw [journalItems_cons, List.mem_append, hseg, ih, List.flatten_cons, List.mem_append]

theorem Spot.mem (h : Spot N segs tail iOffset iHdrOffset main) {r : Nat × α} (hr : r ∈ main) :
    r ∈ segs.flatten ++ tail := by
  cases h with
  | inTail h => simp [h, hr]
  | @inSegment before first later h hpos =>
    rw [List.mem_append, List.mem_append] at hr
    rw [List.mem_append, ← pageItem_mem_journalItems (N := N), h]
    rcases hr with (hr | hr) | hr
    · exact .inl (List.mem_append_left _ (List.mem_append_right _ (List.mem_map_of_mem hr)))
    · exact .inl (List.mem_append_right _ (pageItem_mem_journalItems.2 hr))
    · exact .inr hr

/-! ### The marks -/

variable {s s' : PagerSys α} {saves : List (Image α)} {p : Nat}

theorem mem_addToSavepointBitvecs {aSavepoint : List PagerSavepoint} {pgno : Nat} {sp : PagerSavepoint}
    (h : sp ∈ addToSavepointBitvecs aSavepoint pgno) : pgno ≤ sp.nOrig → sp.pInSavepoint pgno = true := by
  obtain ⟨sp₀, -, rfl⟩ := List.mem_map.1 h
  by_cases hle : pgno ≤ sp₀.nOrig <;> simp [hle, sqlite3BitvecSet]

/-- A savepoint with a mark for a page. -/
structure Marked (pgno : Nat) (sp sp' : PagerSavepoint) : Prop where
  nOrig : sp'.nOrig = sp.nOrig
  iOffset : sp'.iOffset = sp.iOffset
  iHdrOffset : sp'.iHdrOffset = sp.iHdrOffset
  iSubRec : sp'.iSubRec = sp.iSubRec
  mark : ∀ q, q ≤ sp.nOrig → (sp'.pInSavepoint q = true ↔ q = pgno ∨ sp.pInSavepoint q = true)

theorem marked_addToSavepointBitvecs (sp : PagerSavepoint) (pgno : Nat) :
    Marked pgno sp
      (if pgno ≤ sp.nOrig then { sp with pInSavepoint := sqlite3BitvecSet sp.pInSavepoint pgno } else sp) := by
  by_cases hle : pgno ≤ sp.nOrig
  · rw [if_pos hle]
    refine ⟨rfl, rfl, rfl, rfl, fun q _ => ?_⟩
    by_cases hq : q = pgno
    · simp [hq, sqlite3BitvecSet]
    · simp [hq, sqlite3BitvecSet, Function.update_of_ne]
  · rw [if_neg hle]
    refine ⟨rfl, rfl, rfl, rfl, fun q hq => ⟨.inr, fun h => h.resolve_left ?_⟩⟩
    rintro rfl
    exact hle hq

theorem nested_addToSavepointBitvecs {aSavepoint : List PagerSavepoint} (h : aSavepoint.Pairwise Nested) (pgno : Nat) :
    (addToSavepointBitvecs aSavepoint pgno).Pairwise Nested := by
  refine List.Pairwise.map _ ?_ h
  intro a b hab
  have ha := marked_addToSavepointBitvecs a pgno
  have hb := marked_addToSavepointBitvecs b pgno
  refine ⟨?_, fun q hq hqb => ?_⟩
  · rw [ha.nOrig, hb.nOrig]
    exact hab.nOrig
  · rw [ha.nOrig] at hq
    rw [hb.mark q (Nat.le_trans hq hab.nOrig)] at hqb
    rw [ha.mark q hq]
    exact hqb.imp id (hab.recorded q hq)

/-! ### What the savepoints keep -/

/-- Pages that are recorded may change, and so may pages that no savepoint has. -/
theorem Saves.congr (h : Saves N segs tail s saves) (hsp : s'.pager.aSavepoint = s.pager.aSavepoint)
    (hsub : s'.pager.sjfd = s.pager.sjfd) (hdb : s.pager.dbSize ≤ s'.pager.dbSize)
    (hcontent : ∀ p, 1 ≤ p → p ≤ s.pager.dbSize →
      (∀ sp ∈ s.pager.aSavepoint, p ≤ sp.nOrig → sp.pInSavepoint p = true) ∨ s'.content p = s.content p) :
    Saves N segs tail s' saves := by
  obtain ⟨hlen, heach⟩ := List.forall₂_iff_zip.1 h.each
  refine ⟨?_, hsp ▸ h.nested⟩
  rw [hsp, hsub]
  refine List.forall₂_iff_zip.2 ⟨hlen, fun {sp save} hmem => ?_⟩
  obtain ⟨hn, hb, hd, hi, main, hspot, hcov, hmark⟩ := heach hmem
  refine ⟨hn, hb, Nat.le_trans hd hdb, hi, main, hspot, hcov.congr fun q hq hnone => ?_, hmark⟩
  refine (hcontent q hq.1 (Nat.le_trans hq.2 hd)).resolve_left fun hall => ?_
  exact (hmark q hq.2).1 (hall sp (List.of_mem_zip hmem).1 hq.2) hnone

/-- A page that has no record is recorded in the main journal. -/
theorem SavepointOk.journalPage {sub : List (Nat × α)} {content : Nat → α} {dbSize : Nat} {sp sp' : PagerSavepoint}
    {save : Image α} (h : SavepointOk N segs tail sub content dbSize sp save) (hm : Marked p sp sp')
    (hmain : ∀ r ∈ segs.flatten ++ tail, r.1 ≠ p) (hsub : ∀ r ∈ sub, r.1 ≠ p) :
    SavepointOk N segs (tail ++ [(p, content p)]) sub content dbSize sp' save := by
  obtain ⟨main, hspot, hcov, hmark⟩ := h.log
  have hnone : (main ++ sub.drop sp.iSubRec).lookup p = none := by
    rw [List.lookup_eq_none_iff]
    intro r hr
    rw [List.mem_append] at hr
    have hne : r.1 ≠ p := hr.elim (fun hr => hmain r (hspot.mem hr)) fun hr => hsub r (List.mem_of_mem_drop hr)
    simpa using fun he => hne he.symm
  have hlog : main ++ [(p, content p)] ++ sub.drop sp.iSubRec = main ++ (p, content p) :: sub.drop sp.iSubRec := by simp
  refine ⟨hm.nOrig.trans h.nOrig, ?_, ?_, ?_, main ++ [(p, content p)], ?_, ?_, ?_⟩
  · exact hm.nOrig.symm ▸ h.base
  · exact hm.nOrig.symm ▸ h.dbSize
  · exact hm.iSubRec.symm ▸ h.iSubRec
  · rw [hm.iOffset, hm.iHdrOffset]
    exact hspot.append _
  · rw [hm.nOrig, hm.iSubRec, hlog]
    exact hcov.insert fun _ => hnone
  · intro q hq
    rw [hm.nOrig] at hq
    rw [hm.mark q hq, hm.iSubRec, hlog, hmark q hq, UndoLog.lookup_insert_ne_none]

theorem Saves.journalPage (h : Saves N segs tail s saves)
    (hsp : s'.pager.aSavepoint = addToSavepointBitvecs s.pager.aSavepoint p)
    (hsub : s'.pager.sjfd = s.pager.sjfd) (hdb : s'.pager.dbSize = s.pager.dbSize) (hcontent : s'.content = s.content)
    (hmain : ∀ r ∈ segs.flatten ++ tail, r.1 ≠ p) (hnot : ∀ r ∈ s.pager.sjfd, r.1 ≠ p) :
    Saves N segs (tail ++ [(p, s.content p)]) s' saves := by
  refine ⟨?_, hsp ▸ nested_addToSavepointBitvecs h.nested p⟩
  rw [hsp, hsub, hdb, hcontent, addToSavepointBitvecs, List.forall₂_map_left_iff]
  exact h.each.imp fun sp save hok => hok.journalPage (marked_addToSavepointBitvecs sp p) hmain hnot

/-- The content of a page is recorded in the sub-journal. -/
theorem SavepointOk.subjournalPage {sub : List (Nat × α)} {content : Nat → α} {dbSize : Nat} {sp sp' : PagerSavepoint}
    {save : Image α} (h : SavepointOk N segs tail sub content dbSize sp save) (hm : Marked p sp sp') :
    SavepointOk N segs tail (sub ++ [(p, content p)]) content dbSize sp' save := by
  obtain ⟨main, hspot, hcov, hmark⟩ := h.log
  have hlog : main ++ (sub ++ [(p, content p)]).drop sp.iSubRec = main ++ sub.drop sp.iSubRec ++ [(p, content p)] := by
    rw [List.drop_append_of_le_length h.iSubRec, List.append_assoc]
  refine ⟨hm.nOrig.trans h.nOrig, ?_, ?_, ?_, main, ?_, ?_, ?_⟩
  · exact hm.nOrig.symm ▸ h.base
  · exact hm.nOrig.symm ▸ h.dbSize
  · rw [hm.iSubRec, List.length_append]
    exact Nat.le_trans h.iSubRec (Nat.le_add_right _ _)
  · rw [hm.iOffset, hm.iHdrOffset]
    exact hspot
  · rw [hm.nOrig, hm.iSubRec, hlog]
    exact hcov.append p
  · intro q hq
    rw [hm.nOrig] at hq
    rw [hm.mark q hq, hm.iSubRec, hlog, hmark q hq, UndoLog.lookup_insert_ne_none, List.append_nil]

theorem Saves.subjournalPage (h : Saves N segs tail s saves) {data : α} (hdata : s.content p = data) :
    Saves N segs tail { s with pager := subjournalPage s.pager p data } saves := by
  subst hdata
  refine ⟨?_, nested_addToSavepointBitvecs h.nested p⟩
  show List.Forall₂ _ (addToSavepointBitvecs s.pager.aSavepoint p) saves
  rw [addToSavepointBitvecs, List.forall₂_map_left_iff]
  exact h.each.imp fun sp save hok => hok.subjournalPage (marked_addToSavepointBitvecs sp p)

/-- The journal is synced, and a header is written. -/
theorem Saves.sync (h : Saves N segs tail s saves) {off : Nat}
    (hoff : off = (journalItems N segs).length + 1 + tail.length)
    (hsp : s'.pager.aSavepoint =
      s.pager.aSavepoint.map fun p => if p.iHdrOffset = 0 then { p with iHdrOffset := off } else p)
    (hsub : s'.pager.sjfd = s.pager.sjfd) (hdb : s'.pager.dbSize = s.pager.dbSize) (hcontent : s'.content = s.content) :
    Saves N (segs ++ [tail]) [] s' saves := by
  have hif : ∀ p : PagerSavepoint, (if p.iHdrOffset = 0 then { p with iHdrOffset := off } else p) =
      { p with iHdrOffset := if p.iHdrOffset = 0 then off else p.iHdrOffset } := by
    intro p
    split <;> rfl
  simp only [hif] at hsp
  refine ⟨?_, ?_⟩
  · rw [hsp, hsub, hdb, hcontent, List.forall₂_map_left_iff]
    refine h.each.imp fun sp save hok => ?_
    obtain ⟨main, hspot, hcov, hmark⟩ := hok.log
    exact ⟨hok.nOrig, hok.base, hok.dbSize, hok.iSubRec, main, hspot.sync hoff, hcov, hmark⟩
  · rw [hsp]
    exact h.nested.map _ fun a b hab => ⟨hab.nOrig, hab.recorded⟩

theorem Saves.nOrig_le (h : Saves N segs tail s saves) : ∀ sp ∈ s.pager.aSavepoint, sp.nOrig ≤ s.pager.dbSize := by
  have hboth : List.Forall₂ (fun sp save => sp.nOrig ≤ s.pager.dbSize ∧ SavepointOk N segs tail s.pager.sjfd s.content
      s.pager.dbSize sp save) s.pager.aSavepoint saves := h.each.imp fun _ _ hok => ⟨hok.dbSize, hok⟩
  exact ((List.forall₂_and_left _ _).1 hboth).1

theorem forall₂_replicate {β γ : Type} {R : β → γ → Prop} {b : β} {c : γ} (h : R b c) (n : Nat) :
    List.Forall₂ R (List.replicate n b) (List.replicate n c) := by
  induction n with
  | zero => exact .nil
  | succ n ih => exact .cons h ih

/-- Savepoints are opened. -/
theorem Saves.openSavepoint (h : Saves N segs tail s saves) {new : PagerSavepoint} {work : Image α}
    (hnew : SavepointOk N segs tail s.pager.sjfd s.content s.pager.dbSize new work) (hn : new.nOrig = s.pager.dbSize)
    (hnone : ∀ p, new.pInSavepoint p = false) (n : Nat)
    (hsp : s'.pager.aSavepoint = s.pager.aSavepoint ++ List.replicate n new) (hsub : s'.pager.sjfd = s.pager.sjfd)
    (hdb : s'.pager.dbSize = s.pager.dbSize) (hcontent : s'.content = s.content) :
    Saves N segs tail s' (saves ++ List.replicate n work) := by
  refine ⟨?_, ?_⟩
  · rw [hsp, hsub, hdb, hcontent]
    exact List.rel_append h.each (forall₂_replicate hnew n)
  · rw [hsp, List.pairwise_append]
    refine ⟨h.nested, ?_, ?_⟩
    · rw [List.pairwise_replicate]
      exact .inr ⟨Nat.le_refl _, fun _ _ => id⟩
    · intro a ha b hb
      rw [List.eq_of_mem_replicate hb]
      refine ⟨hn ▸ h.nOrig_le a ha, fun p _ hp => ?_⟩
      rw [hnone p] at hp
      cases hp

/-- The later savepoints are forgotten. -/
theorem Saves.take (h : Saves N segs tail s saves) (n : Nat) (hsp : s'.pager.aSavepoint = s.pager.aSavepoint.take n)
    (hsub : s'.pager.sjfd = s.pager.sjfd) (hdb : s'.pager.dbSize = s.pager.dbSize) (hcontent : s'.content = s.content) :
    Saves N segs tail s' (saves.take n) := by
  refine ⟨?_, hsp ▸ h.nested.sublist (List.take_sublist n _)⟩
  rw [hsp, hsub, hdb, hcontent]
  exact List.forall₂_take n h.each

end

end Sqlite4a
