import Mathlib.Data.List.Perm.Basic
import Mathlib.Tactic.Common

/-!
# Merge sort with slots

A bottom-up merge sort of a linked list.  A slot is empty or holds a sorted list; each element is merged with the
lists in the slots from the first one on, up to the first empty slot, and stays there, and in the end all slots are
merged.  The result is a permutation of the list (`sort_perm`), and it is sorted if the comparison is total and
transitive (`pairwise_sort`); otherwise it depends on which elements meet.
-/

namespace SlotSort

variable {α : Type*} (le : α → α → Bool)

/-- Puts a list into the slots. -/
def insert (p : List α) : List (Option (List α)) → List (Option (List α))
  | [] => [some p]
  | none :: slots => some p :: slots
  | some q :: slots => none :: insert (p.merge q le) slots

/-- Merges a list that may be missing with a slot. -/
def mergeSlot (p : Option (List α)) : Option (List α) → Option (List α)
  | none => p
  | some q => some (p.elim q fun p => p.merge q le)

def collect (slots : List (Option (List α))) : Option (List α) := slots.foldl (mergeSlot le) none

def sort (l : List α) : List α := (collect le (l.foldl (fun slots x => insert le [x] slots) [])).getD []

/-! ### The elements -/

/-- The elements in the slots. -/
def contents (slots : List (Option (List α))) : List α := slots.flatMap (·.getD [])

variable {le}

theorem contents_insert_perm (p : List α) (slots : List (Option (List α))) :
    (contents (insert le p slots)).Perm (p ++ contents slots) := by
  induction slots generalizing p with
  | nil => simp [insert, contents]
  | cons slot slots ih =>
    cases slot with
    | none => exact List.Perm.refl _
    | some q =>
      have hmerge : (p.merge q le).Perm (p ++ q) := List.merge_perm_append le
      calc (contents (insert le (p.merge q le) slots)).Perm (p.merge q le ++ contents slots) := ih _
        _ |>.Perm ((p ++ q) ++ contents slots) := hmerge.append_right _
        _ = p ++ contents (some q :: slots) := List.append_assoc _ _ _

theorem collect_perm (slots : List (Option (List α))) : ((collect le slots).getD []).Perm (contents slots) := by
  have hfold : ∀ p : Option (List α), ((slots.foldl (mergeSlot le) p).getD []).Perm (p.getD [] ++ contents slots) := by
    induction slots with
    | nil => intro p; simp [contents]
    | cons slot slots ih =>
      intro p
      refine (ih _).trans ?_
      cases slot with
      | none => exact List.Perm.refl _
      | some q =>
        cases p with
        | none => exact List.Perm.refl _
        | some p =>
          have hmerge : (p.merge q le).Perm (p ++ q) := List.merge_perm_append le
          exact (hmerge.append_right _).trans (List.Perm.of_eq (List.append_assoc _ _ _))
  exact hfold none

theorem sort_perm (l : List α) : (sort le l).Perm l := by
  refine (collect_perm _).trans ?_
  have hfold : ∀ slots : List (Option (List α)),
      (contents (l.foldl (fun slots x => insert le [x] slots) slots)).Perm (l ++ contents slots) := by
    induction l with
    | nil => intro slots; exact List.Perm.refl _
    | cons x l ih =>
      intro slots
      refine (ih _).trans ?_
      exact ((contents_insert_perm [x] slots).append_left l).trans List.perm_middle
  simpa [contents] using hfold []

/-! ### The order -/

/-- Every slot is sorted. -/
def SlotsSorted (le : α → α → Bool) (slots : List (Option (List α))) : Prop :=
  ∀ q, some q ∈ slots → q.Pairwise (le · ·)

variable (htrans : ∀ a b c, le a b → le b c → le a c) (htotal : ∀ a b, le a b ∨ le b a)
include htrans htotal

theorem slotsSorted_insert {p : List α} {slots : List (Option (List α))} (hp : p.Pairwise (le · ·))
    (hs : SlotsSorted le slots) : SlotsSorted le (insert le p slots) := by
  induction slots generalizing p with
  | nil =>
    intro q hq
    obtain rfl := Option.some.inj (List.mem_singleton.1 hq)
    exact hp
  | cons slot slots ih =>
    have htail : SlotsSorted le slots := fun q hq => hs q (List.mem_cons_of_mem _ hq)
    cases slot with
    | none =>
      intro q hq
      rcases List.mem_cons.1 hq with h | hq
      · obtain rfl := Option.some.inj h
        exact hp
      · exact htail q hq
    | some r =>
      have hr := hs r List.mem_cons_self
      have hmerge : (p.merge r le).Pairwise (le · ·) := List.pairwise_merge htrans (by simpa using htotal) p r hp hr
      intro q hq
      rcases List.mem_cons.1 hq with h | hq
      · cases h
      · exact ih hmerge htail q hq

theorem pairwise_collect {slots : List (Option (List α))} (hs : SlotsSorted le slots) :
    ((collect le slots).getD []).Pairwise (le · ·) := by
  have hfold : ∀ p : Option (List α), (p.getD []).Pairwise (le · ·) →
      ((slots.foldl (mergeSlot le) p).getD []).Pairwise (le · ·) := by
    induction slots with
    | nil => intro p hp; exact hp
    | cons slot slots ih =>
      intro p hp
      apply ih fun q hq => hs q (List.mem_cons_of_mem _ hq)
      cases slot with
      | none => exact hp
      | some q =>
        have hq := hs q List.mem_cons_self
        cases p with
        | none => exact hq
        | some p => exact List.pairwise_merge htrans (by simpa using htotal) p q hp hq
  exact hfold none List.Pairwise.nil

/-- With a total and transitive comparison the result is sorted. -/
theorem pairwise_sort (l : List α) : (sort le l).Pairwise (le · ·) := by
  have hfold : ∀ slots : List (Option (List α)), SlotsSorted le slots →
      SlotsSorted le (l.foldl (fun slots x => insert le [x] slots) slots) := by
    induction l with
    | nil => intro slots hs; exact hs
    | cons x l ih =>
      intro slots hs
      exact ih _ (slotsSorted_insert htrans htotal (List.pairwise_singleton _ _) hs)
  exact pairwise_collect htrans htotal (hfold [] fun q hq => absurd hq List.not_mem_nil)

omit htrans htotal

/-- Two elements are compared once, the last one first. -/
theorem sort_pair (a b : α) : sort le [a, b] = if le b a then [b, a] else [a, b] := by
  simp only [sort, List.foldl_cons, List.foldl_nil, insert, collect, mergeSlot, List.merge]
  split <;> simp_all

end SlotSort
