import Mathlib.Data.List.Basic
import Mathlib.Tactic.Common

/-!
# Ledgers of resources

A ledger is the list of what a program did with its resources, in order: it acquires a resource, uses it, and
releases it.  `Sound` says that nothing is done with a resource once it has been released, so in particular nothing
is released twice (`Sound.count_release_le_one`); `Live` that a resource is held.
-/

namespace Ledger

variable {ρ : Type*}

inductive Event (ρ : Type*)
  | acquire (r : ρ)
  | use (r : ρ)
  | release (r : ρ)
  deriving DecidableEq, Repr

/-- The resource an event is about. -/
def Event.resource : Event ρ → ρ
  | .acquire r => r
  | .use r => r
  | .release r => r

/-- No event is about a resource that an earlier event released. -/
def Sound (log : List (Event ρ)) : Prop := log.Pairwise fun e e' => e ≠ .release e'.resource

instance [DecidableEq ρ] (log : List (Event ρ)) : Decidable (Sound log) :=
  inferInstanceAs (Decidable (log.Pairwise fun e e' => e ≠ .release e'.resource))

/-- The resource has been acquired and not been released. -/
def Live (log : List (Event ρ)) (r : ρ) : Prop := .acquire r ∈ log ∧ .release r ∉ log

instance [DecidableEq ρ] (log : List (Event ρ)) (r : ρ) : Decidable (Live log r) :=
  inferInstanceAs (Decidable (.acquire r ∈ log ∧ .release r ∉ log))

@[simp] theorem resource_acquire (r : ρ) : (Event.acquire r).resource = r := rfl

@[simp] theorem resource_use (r : ρ) : (Event.use r).resource = r := rfl

@[simp] theorem resource_release (r : ρ) : (Event.release r).resource = r := rfl

@[simp] theorem sound_nil : Sound ([] : List (Event ρ)) := List.Pairwise.nil

theorem sound_append {log es : List (Event ρ)} :
    Sound (log ++ es) ↔ Sound log ∧ Sound es ∧ ∀ e ∈ es, .release e.resource ∉ log := by
  unfold Sound
  rw [List.pairwise_append]
  refine and_congr_right fun _ => and_congr_right fun _ => ?_
  constructor
  · intro h e he hm
    exact h _ hm e he rfl
  · intro h a ha b hb hab
    exact h b hb (hab ▸ ha)

/-- Uses alone never break a ledger that has not released what they use. -/
theorem sound_append_uses {log : List (Event ρ)} (rs : List ρ) :
    Sound (log ++ rs.map .use) ↔ Sound log ∧ ∀ r ∈ rs, .release r ∉ log := by
  have huses : Sound (rs.map Event.use) := by
    unfold Sound
    rw [List.pairwise_map]
    exact List.pairwise_of_forall fun _ _ h => nomatch h
  rw [sound_append]
  constructor
  · intro ⟨h, _, hn⟩
    exact ⟨h, fun r hr => hn _ (List.mem_map_of_mem hr)⟩
  · intro ⟨h, hn⟩
    refine ⟨h, huses, fun e he => ?_⟩
    obtain ⟨r, hr, rfl⟩ := List.mem_map.1 he
    exact hn r hr

/-- Distinct resources may be released one after the other. -/
theorem sound_map_release {rs : List ρ} : Sound (rs.map Event.release) ↔ rs.Nodup := by
  unfold Sound
  rw [List.pairwise_map]
  exact List.Pairwise.iff fun a b => by simp

/-- A sound ledger releases no resource twice. -/
theorem Sound.count_release_le_one [DecidableEq ρ] {log : List (Event ρ)} (h : Sound log) (r : ρ) :
    log.count (.release r) ≤ 1 := by
  induction log with
  | nil => simp
  | cons e log ih =>
    obtain ⟨hhead, htail⟩ := List.pairwise_cons.1 h
    by_cases he : e = .release r
    · subst he
      have : log.count (.release r) = 0 := List.count_eq_zero_of_not_mem fun hm => hhead _ hm rfl
      exact Nat.le_of_eq (by rw [List.count_cons_self, this])
    · rw [List.count_cons_of_ne he]
      exact ih htail

end Ledger
