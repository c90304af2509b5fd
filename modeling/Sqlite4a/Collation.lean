import Sqlite4a.SlotSort
import Sqlite4a.Text

/-!
# Sorting by a comparator

The sorter of the VDBE compares the keys of two rows by `java_compare`, whose result is the `int` that the Java
comparator returned; for a descending column it negates that `int`.  The least `int` is its own negation, so a
comparator that returns it makes a descending sort take the smaller of the two strings for the greater; all others sort
both ways as they say (`ordersRows_iff`).
-/

namespace Sqlite4a

/-! ### The sorter -/

/-- The end of `sqlite3VdbeRecordCompareWithSkip` for a key of one column; `default_rc` is 0. -/
def recordCompare (desc : Bool) (rc : Int32) : Int32 :=
  if rc ≠ 0 then if desc then -rc else rc else 0

/-- `vdbeSorterSort` of the rows in the order of `sqlite3VdbeSorterWrite`, which puts each in front of the list;
`vdbeSorterMerge` takes from its first list where the keys compare as at most 0. -/
def vdbeSorterSort {α : Type*} (xCompare : α → α → Int32) (rows : List α) : List α :=
  SlotSort.sort (fun a b => decide (xCompare a b ≤ 0)) rows.reverse

/-! ### Comparators -/

/-- The contract of `java.util.Comparator`. -/
structure IsComparator (compare : JavaString → JavaString → Int32) : Prop where
  antisymm : ∀ x y, compare x y < 0 ↔ 0 < compare y x
  trans : ∀ x y z, 0 < compare x y → 0 < compare y z → 0 < compare x z
  congr : ∀ x y, compare x y = 0 → ∀ z, (0 < compare x z ↔ 0 < compare y z)

/-- A string that `bindString` stores. -/
structure BindableString where
  units : JavaString
  fits : (Mutf8.encode units).length ≤ SQLITE_MAX_LENGTH

variable (vm : Jvm) (compare : JavaString → JavaString → Int32) (data : Nat) (env : JniEnv)

/-- How two bound strings compare under the collation. -/
def xCompare (desc : Bool) (a b : BindableString) : Int32 :=
  recordCompare desc (.ofInt (collate vm compare data (Mutf8.encode a.units) (Mutf8.encode b.units) env).1)

theorem xCompare_eq (desc : Bool) (a b : BindableString) :
    xCompare vm compare data env desc a b = recordCompare desc (compare a.units b.units) := by
  have hread : ∀ s : JavaString, vm.read (beforeZero (Mutf8.encode s)) = s := by
    intro s
    have h := vm.stringOf_encode s
    exact Option.some.inj h
  rw [xCompare, collate_eq, hread, hread, Int32.ofInt_toInt]

/-- Both sorts give the same rows back, in an order ascending for the comparator, and in one descending for it. -/
structure OrdersRows : Prop where
  asc : ∀ rows : List BindableString, (vdbeSorterSort (xCompare vm compare data env false) rows).Perm rows ∧
    (vdbeSorterSort (xCompare vm compare data env false) rows).Pairwise fun a b => compare a.units b.units ≤ 0
  desc : ∀ rows : List BindableString, (vdbeSorterSort (xCompare vm compare data env true) rows).Perm rows ∧
    (vdbeSorterSort (xCompare vm compare data env true) rows).Pairwise fun a b => 0 ≤ compare a.units b.units

/-! ### What the sorter's comparison says -/

theorem recordCompare_asc (rc : Int32) : recordCompare false rc ≤ 0 ↔ rc ≤ 0 := by
  unfold recordCompare
  by_cases h : rc = 0
  · simp [h]
  · simp [h]

theorem recordCompare_desc (rc : Int32) : recordCompare true rc ≤ 0 ↔ rc = Int32.minValue ∨ 0 ≤ rc := by
  unfold recordCompare
  by_cases h : rc = 0
  · simp [h]
  · simp only [ne_eq, h, not_false_eq_true, if_true]
    exact Int32.neg_nonpos_iff rc

theorem vdbeSorterSort_perm {α : Type*} (xCompare : α → α → Int32) (rows : List α) :
    (vdbeSorterSort xCompare rows).Perm rows :=
  (SlotSort.sort_perm _).trans (List.reverse_perm rows)

/-- Where the comparison of the sorter says `R`, and `R` is total and transitive, the rows are sorted by `R`. -/
theorem vdbeSorterSort_pairwise {α : Type*} {xCompare : α → α → Int32} {R : α → α → Prop}
    (hR : ∀ a b, xCompare a b ≤ 0 ↔ R a b) (htrans : ∀ a b c, R a b → R b c → R a c) (htotal : ∀ a b, R a b ∨ R b a)
    (rows : List α) : (vdbeSorterSort xCompare rows).Pairwise R := by
  have hle : ∀ a b, decide (xCompare a b ≤ 0) = true ↔ R a b := fun a b => decide_eq_true_iff.trans (hR a b)
  have hsorted := @SlotSort.pairwise_sort _ (fun a b => decide (xCompare a b ≤ 0))
    (fun a b c hab hbc => (hle a c).2 (htrans a b c ((hle a b).1 hab) ((hle b c).1 hbc)))
    (fun a b => (htotal a b).imp (hle a b).2 (hle b a).2) rows.reverse
  exact hsorted.imp fun h => (hle _ _).1 h

/-! ### The law -/

variable {compare}

theorem IsComparator.total (h : IsComparator compare) (x y : JavaString) : compare x y ≤ 0 ∨ compare y x ≤ 0 := by
  by_cases hxy : compare x y ≤ 0
  · exact .inl hxy
  · right
    have hlt : compare y x < 0 := (h.antisymm y x).2 (Int32.not_le.1 hxy)
    exact Int32.le_of_lt hlt

theorem IsComparator.nonneg_iff (h : IsComparator compare) (x y : JavaString) : 0 ≤ compare x y ↔ compare y x ≤ 0 := by
  rw [← Int32.not_lt, ← Int32.not_lt, h.antisymm]

theorem IsComparator.le_trans (h : IsComparator compare) {x y z : JavaString} (hxy : compare x y ≤ 0)
    (hyz : compare y z ≤ 0) : compare x z ≤ 0 := by
  rw [← Int32.not_lt] at hyz ⊢
  intro hxz
  apply hyz
  by_cases heq : compare x y = 0
  · exact (h.congr x y heq z).1 hxz
  · have hlt : compare x y < 0 := Int32.lt_of_le_of_ne hxy heq
    exact h.trans y x z ((h.antisymm x y).1 hlt) hxz

/-- The least `int` is negative, and still says of a pair that it is in descending order. -/
theorem vdbeSorterSort_pair_minValue {a b : BindableString} (hmin : compare a.units b.units = Int32.minValue) :
    vdbeSorterSort (xCompare vm compare data env true) [a, b] = [a, b] := by
  have hle : xCompare vm compare data env true a b ≤ 0 := by
    rw [xCompare_eq, recordCompare_desc]
    exact .inl hmin
  simp only [vdbeSorterSort, List.reverse_cons, List.reverse_nil, List.nil_append, List.cons_append, SlotSort.sort_pair,
    hle, decide_true, if_true]

/-- A comparator orders the rows both ways exactly where it never returns the least `int` for two strings that can be
bound. -/
theorem ordersRows_iff (h : IsComparator compare) :
    OrdersRows vm compare data env ↔ ∀ a b : BindableString, compare a.units b.units ≠ Int32.minValue := by
  constructor
  · intro ho a b hmin
    have hdesc := (ho.desc [a, b]).2
    rw [vdbeSorterSort_pair_minValue vm data env hmin] at hdesc
    have hnonneg : 0 ≤ compare a.units b.units := List.rel_of_pairwise_cons hdesc List.mem_cons_self
    rw [hmin] at hnonneg
    exact absurd hnonneg (by decide)
  · intro hne
    constructor
    · intro rows
      refine ⟨vdbeSorterSort_perm _ rows, vdbeSorterSort_pairwise (fun a b => ?_) ?_ ?_ rows⟩
      · rw [xCompare_eq, recordCompare_asc]
      · exact fun a b c hab hbc => h.le_trans hab hbc
      · exact fun a b => h.total a.units b.units
    · intro rows
      refine ⟨vdbeSorterSort_perm _ rows, vdbeSorterSort_pairwise (fun a b => ?_) ?_ ?_ rows⟩
      · rw [xCompare_eq, recordCompare_desc]
        exact or_iff_right (hne a b)
      · intro a b c hab hbc
        rw [h.nonneg_iff] at hab hbc ⊢
        exact h.le_trans hbc hab
      · intro a b
        rw [h.nonneg_iff, h.nonneg_iff]
        exact h.total b.units a.units

/-- Shorter strings first; `least` is the result for them. -/
def byLength (least : Int32) (x y : JavaString) : Int32 :=
  if x.length < y.length then least else if y.length < x.length then 1 else 0

theorem isComparator_byLength {least : Int32} (hneg : least < 0) : IsComparator (byLength least) := by
  have hpos : ∀ x y : JavaString, 0 < byLength least x y ↔ y.length < x.length := by
    intro x y
    unfold byLength
    split
    · exact iff_of_false (Int32.lt_asymm hneg) (by omega)
    · split
      · exact iff_of_true (by decide) (by omega)
      · exact iff_of_false (by decide) (by omega)
  have hnegative : ∀ x y : JavaString, byLength least x y < 0 ↔ x.length < y.length := by
    intro x y
    unfold byLength
    split
    · exact iff_of_true hneg (by omega)
    · split
      · exact iff_of_false (by decide) (by omega)
      · exact iff_of_false (by decide) (by omega)
  refine ⟨fun x y => by rw [hpos, hnegative], fun x y z hxy hyz => ?_, fun x y hzero z => ?_⟩
  · rw [hpos] at hxy hyz ⊢
    omega
  · have h1 := (hpos x y).not.1 (by rw [hzero]; decide)
    have h2 := (hnegative x y).not.1 (by rw [hzero]; decide)
    rw [hpos, hpos]
    omega

/-- The empty string and `"a"` stay in ascending order under a comparator that returns `Integer.MIN_VALUE`. -/
theorem not_ordersRows_minValue :
    ¬ OrdersRows (fun _ => []) (byLength Int32.minValue) 0 JniEnv.empty := by
  intro h
  have hdesc := (h.desc [⟨[], by decide⟩, ⟨[0x61], by decide⟩]).2
  rw [vdbeSorterSort_pair_minValue _ _ _ rfl] at hdesc
  have hnonneg := List.rel_of_pairwise_cons hdesc List.mem_cons_self
  exact absurd hnonneg (by decide)

theorem ordersRows_iff_byLength :
    OrdersRows (fun _ => []) (byLength (-1)) 0 JniEnv.empty ↔
      ∀ a b : BindableString, byLength (-1) a.units b.units ≠ Int32.minValue :=
  ordersRows_iff (fun _ => []) 0 JniEnv.empty (isComparator_byLength (by decide))

end Sqlite4a
