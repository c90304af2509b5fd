import Mathlib.Logic.Function.Basic
import Mathlib.Tactic.Common

/-!
# Undo logs

A log of records `(k, v)`: `v` was stored under `k` when the record was written.  If every key that has changed has a
record, and the first record of a key holds its old value, then playing back the first record of every key restores the
old values.  Records may be inserted, and keys with a record may change, without harm to that.
-/

namespace UndoLog

variable {κ ν : Type} [DecidableEq κ]

/-- On `dom`, the first records in `log` hold the values of `old`, and `cur` has changed only where there are
records. -/
structure Covers (dom : κ → Prop) (log : List (κ × ν)) (cur old : κ → ν) : Prop where
  recorded : ∀ k v, dom k → log.lookup k = some v → v = old k
  unchanged : ∀ k, dom k → log.lookup k = none → cur k = old k

variable {dom : κ → Prop} {log l₁ l₂ : List (κ × ν)} {cur old : κ → ν}

theorem Covers.nil (h : ∀ k, dom k → cur k = old k) : Covers dom [] cur old :=
  ⟨fun _ _ _ h => by simp at h, fun k hk _ => h k hk⟩

/-- Playing back restores the old values. -/
theorem Covers.restored (h : Covers dom log cur old) {k : κ} (hk : dom k) : (log.lookup k).getD (cur k) = old k := by
  cases hl : log.lookup k with
  | none => exact h.unchanged k hk hl
  | some v => exact h.recorded k v hk hl

/-- A key that has a record may change, and so may a key outside of `dom`. -/
theorem Covers.congr (h : Covers dom log cur old) {cur' : κ → ν}
    (hcur : ∀ k, dom k → log.lookup k = none → cur' k = cur k) : Covers dom log cur' old :=
  ⟨h.recorded, fun k hk hl => (hcur k hk hl).trans (h.unchanged k hk hl)⟩

/-- A record of the current value of a key that has none may be written anywhere. -/
theorem Covers.insert (h : Covers dom (l₁ ++ l₂) cur old) {k : κ} (hk : dom k → (l₁ ++ l₂).lookup k = none) :
    Covers dom (l₁ ++ (k, cur k) :: l₂) cur old := by
  constructor
  · intro j v hj hl
    rw [List.lookup_append, List.lookup_cons] at hl
    by_cases hjk : j = k
    · subst hjk
      have hnone := hk hj
      rw [List.lookup_append, Option.or_eq_none_iff] at hnone
      simp only [hnone.1, beq_self_eq_true, Option.none_or, Option.some.injEq] at hl
      exact hl ▸ h.unchanged j hj (hk hj)
    · have hne : (j == k) = false := beq_false_of_ne hjk
      rw [hne] at hl
      exact h.recorded j v hj (by rw [List.lookup_append]; exact hl)
  · intro j hj hl
    rw [List.lookup_append, List.lookup_cons, Option.or_eq_none_iff] at hl
    obtain ⟨h₁, h₂⟩ := hl
    split at h₂
    · cases h₂
    · exact h.unchanged j hj (by rw [List.lookup_append, h₁, h₂]; rfl)

/-- A record of the current value may always be written at the end. -/
theorem Covers.append (h : Covers dom log cur old) (k : κ) : Covers dom (log ++ [(k, cur k)]) cur old := by
  constructor
  · intro j v hj hl
    rw [List.lookup_append] at hl
    cases hlog : log.lookup j with
    | some w =>
      rw [hlog, Option.some_or, Option.some.injEq] at hl
      exact hl ▸ h.recorded j w hj hlog
    | none =>
      rw [hlog, Option.none_or, List.lookup_cons] at hl
      by_cases hjk : j = k
      · subst hjk
        simp only [beq_self_eq_true, Option.some.injEq] at hl
        exact hl ▸ h.unchanged j hj hlog
      · simp [beq_false_of_ne hjk] at hl
  · intro j hj hl
    rw [List.lookup_append, Option.or_eq_none_iff] at hl
    exact h.unchanged j hj hl.1

theorem lookup_ne_none_iff {k : κ} : log.lookup k ≠ none ↔ ∃ r ∈ log, r.1 = k := by
  constructor
  · intro h
    obtain ⟨v, hv⟩ := Option.ne_none_iff_exists'.1 h
    obtain ⟨_, _, rfl, -⟩ := List.lookup_eq_some_iff.1 hv
    exact ⟨(k, v), by simp, rfl⟩
  · rintro ⟨r, hr, rfl⟩ hnone
    exact absurd (List.lookup_eq_none_iff.1 hnone r hr) (by simp)

theorem lookup_insert_ne_none {k j : κ} {v : ν} :
    (l₁ ++ (k, v) :: l₂).lookup j ≠ none ↔ j = k ∨ (l₁ ++ l₂).lookup j ≠ none := by
  simp only [lookup_ne_none_iff, List.mem_append, List.mem_cons]
  constructor
  · rintro ⟨r, hr | rfl | hr, rfl⟩
    · exact .inr ⟨r, .inl hr, rfl⟩
    · exact .inl rfl
    · exact .inr ⟨r, .inr hr, rfl⟩
  · rintro (rfl | ⟨r, hr | hr, rfl⟩)
    · exact ⟨(j, v), .inr (.inl rfl), rfl⟩
    · exact ⟨r, .inl hr, rfl⟩
    · exact ⟨r, .inr (.inr hr), rfl⟩

end UndoLog
