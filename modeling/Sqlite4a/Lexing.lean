import Mathlib.Tactic.Common

/-!
# Lexers

A lexer cuts a text into tokens from the left.  Its rule looks at the text from where a token begins and tells the kind
of the token and how many symbols it has behind its first, so that no token is empty.  The tokens put together are the
text again (`flatMap_text_tokens`), and a search for the first token of some kinds splits the list of tokens at the
place in the text where it stops (`find_cases`).

`substitute` replaces the tokens of some kinds, with a state that is carried from one replacement to the next.
-/

namespace Lexing

variable {α κ σ : Type*}

/-- The kind of a token, and the number of its symbols behind the first. -/
structure Munch (κ : Type*) where
  kind : κ
  more : Nat
  deriving DecidableEq

/-- What there is at the front of a text, given by its first symbol and the others. -/
abbrev Rule (α κ : Type*) := α → List α → Munch κ

structure Token (α κ : Type*) where
  kind : κ
  text : List α
  deriving DecidableEq

variable (next : Rule α κ)

/-! ### The tokens of a text -/

/-- At most `n` tokens. -/
def cut : Nat → List α → List (Token α κ)
  | 0, _ => []
  | _ + 1, [] => []
  | n + 1, a :: z => ⟨(next a z).kind, a :: z.take (next a z).more⟩ :: cut n (z.drop (next a z).more)

def tokens (z : List α) : List (Token α κ) := cut next z.length z

/-- As many tokens as there are symbols are enough. -/
theorem cut_eq_tokens {n : Nat} {z : List α} (h : z.length ≤ n) : cut next n z = tokens next z := by
  have hcut : ∀ (m n : Nat) (z : List α), z.length ≤ m → z.length ≤ n → cut next m z = cut next n z := by
    intro m
    induction m with
    | zero =>
      intro n z hm _
      obtain rfl : z = [] := List.length_eq_zero_iff.1 (by omega)
      cases n <;> rfl
    | succ m ih =>
      intro n z hm hn
      cases z with
      | nil => cases n <;> rfl
      | cons a z =>
        rw [List.length_cons] at hm hn
        obtain ⟨n, rfl⟩ : ∃ k, n = k + 1 := ⟨n - 1, by omega⟩
        have hlen := List.length_drop (i := (next a z).more) (l := z)
        have hrest := ih n (z.drop (next a z).more) (by omega) (by omega)
        simp only [cut, hrest]
  exact hcut n z.length z h (Nat.le_refl _)

@[simp] theorem tokens_nil : tokens next [] = [] := rfl

theorem tokens_cons (a : α) (z : List α) :
    tokens next (a :: z) =
      ⟨(next a z).kind, a :: z.take (next a z).more⟩ :: tokens next (z.drop (next a z).more) := by
  have hlen := List.length_drop (i := (next a z).more) (l := z)
  have hrest : cut next z.length (z.drop (next a z).more) = tokens next (z.drop (next a z).more) :=
    cut_eq_tokens next (by omega)
  rw [← hrest]
  rfl

/-- Induction along the tokens. -/
theorem text_induction {motive : List α → Prop} (nil : motive [])
    (cons : ∀ a z, motive (z.drop (next a z).more) → motive (a :: z)) (z : List α) : motive z := by
  have hall : ∀ (n : Nat) (z : List α), z.length ≤ n → motive z := by
    intro n
    induction n with
    | zero =>
      intro z hz
      obtain rfl : z = [] := List.length_eq_zero_iff.1 (by omega)
      exact nil
    | succ n ih =>
      intro z hz
      cases z with
      | nil => exact nil
      | cons a z =>
        have hlen := List.length_drop (i := (next a z).more) (l := z)
        rw [List.length_cons] at hz
        exact cons a z (ih _ (by omega))
  exact hall z.length z (Nat.le_refl _)

/-- The texts of the tokens make up the text. -/
theorem flatMap_text_tokens (z : List α) : (tokens next z).flatMap Token.text = z := by
  induction z using text_induction next with
  | nil => rfl
  | cons a z ih =>
    rw [tokens_cons, List.flatMap_cons, ih]
    show a :: (z.take (next a z).more ++ z.drop (next a z).more) = _
    rw [List.take_append_drop]

/-- A token is what the rule finds where it begins. -/
theorem of_mem_tokens {z : List α} {t : Token α κ} (ht : t ∈ tokens next z) :
    ∃ a u, t = ⟨(next a u).kind, a :: u.take (next a u).more⟩ := by
  induction z using text_induction next with
  | nil => exact absurd ht List.not_mem_nil
  | cons a z ih =>
    rw [tokens_cons] at ht
    rcases List.mem_cons.1 ht with rfl | ht
    · exact ⟨a, z, rfl⟩
    · exact ih ht

/-! ### The first token of some kinds -/

variable (p : κ → Bool)

/-- The number of symbols before the first token of a kind in `p`, and the length of this token, or 0 if there is none.
At most `n` tokens are looked at. -/
def find : Nat → List α → Nat × Nat
  | 0, _ => (0, 0)
  | _ + 1, [] => (0, 0)
  | n + 1, a :: z =>
    if p (next a z).kind then (0, (next a z).more + 1)
    else
      let r := find n (z.drop (next a z).more)
      ((next a z).more + 1 + r.1, r.2)

/-- There is no token of these kinds, and the search ends behind the text. -/
structure FindsNone (z : List α) (r : Nat × Nat) : Prop where
  token : r.2 = 0
  all : z.length ≤ r.1
  plain : ∀ t ∈ tokens next z, p t.kind = false

/-- The search stops before a token of these kinds. -/
structure FindsToken (z : List α) (r : Nat × Nat) (before : List (Token α κ)) (kind : κ) : Prop where
  token : 0 < r.2
  split : tokens next z = before ++ ⟨kind, (z.drop r.1).take r.2⟩ :: tokens next ((z.drop r.1).drop r.2)
  found : p kind = true
  text : before.flatMap Token.text = z.take r.1
  plain : ∀ t ∈ before, p t.kind = false

theorem find_cases {n : Nat} {z : List α} (h : z.length ≤ n) :
    FindsNone next p z (find next p n z) ∨ ∃ before kind, FindsToken next p z (find next p n z) before kind := by
  induction n generalizing z with
  | zero =>
    obtain rfl : z = [] := List.length_eq_zero_iff.1 (by omega)
    exact .inl ⟨rfl, Nat.le_refl _, fun t ht => absurd ht List.not_mem_nil⟩
  | succ n ih =>
    cases z with
    | nil => exact .inl ⟨rfl, Nat.le_refl _, fun t ht => absurd ht List.not_mem_nil⟩
    | cons a z =>
      rw [List.length_cons] at h
      have hlen := List.length_drop (i := (next a z).more) (l := z)
      by_cases hp : p (next a z).kind
      · right
        refine ⟨[], (next a z).kind, ?_⟩
        have hfind : find next p (n + 1) (a :: z) = (0, (next a z).more + 1) := if_pos hp
        rw [hfind]
        exact ⟨Nat.succ_pos _, tokens_cons next a z, hp, rfl, fun t ht => absurd ht List.not_mem_nil⟩
      · have hfind : find next p (n + 1) (a :: z) =
            ((next a z).more + 1 + (find next p n (z.drop (next a z).more)).1,
              (find next p n (z.drop (next a z).more)).2) := if_neg hp
        rw [hfind]
        rcases ih (z := z.drop (next a z).more) (by omega) with hnone | ⟨before, kind, hsome⟩
        · left
          refine ⟨hnone.token, ?_, ?_⟩
          · have := hnone.all
            rw [List.length_cons]
            omega
          · rw [tokens_cons]
            exact List.forall_mem_cons.2 ⟨Bool.eq_false_iff.2 hp, hnone.plain⟩
        · right
          refine ⟨⟨(next a z).kind, a :: z.take (next a z).more⟩ :: before, kind, hsome.token, ?_, hsome.found, ?_, ?_⟩
          · have hdrop : ∀ k, (a :: z).drop ((next a z).more + 1 + k) = (z.drop (next a z).more).drop k := by
              intro k
              rw [Nat.add_right_comm, List.drop_succ_cons, List.drop_drop]
            rw [tokens_cons, hsome.split, hdrop]
            rfl
          · rw [List.flatMap_cons, hsome.text, List.take_add, List.take_succ_cons, List.drop_succ_cons]
          · exact List.forall_mem_cons.2 ⟨Bool.eq_false_iff.2 hp, hsome.plain⟩

/-! ### Replacing tokens -/

variable (step : σ → List α → σ × List α)

/-- The text with its tokens of a kind in `p` replaced. -/
def substitute : σ → List (Token α κ) → List α
  | _, [] => []
  | s, t :: ts => if p t.kind then (step s t.text).2 ++ substitute (step s t.text).1 ts else t.text ++ substitute s ts

variable {p step}

/-- Where there is none of them, nothing changes. -/
theorem substitute_plain_append {before : List (Token α κ)} (h : ∀ t ∈ before, p t.kind = false) (s : σ)
    (ts : List (Token α κ)) :
    substitute p step s (before ++ ts) = before.flatMap Token.text ++ substitute p step s ts := by
  induction before with
  | nil => rfl
  | cons t before ih =>
    rw [List.forall_mem_cons] at h
    rw [List.cons_append, substitute, if_neg (by rw [h.1]; exact Bool.false_ne_true), ih h.2, List.flatMap_cons,
      List.append_assoc]

theorem substitute_plain {ts : List (Token α κ)} (h : ∀ t ∈ ts, p t.kind = false) (s : σ) :
    substitute p step s ts = ts.flatMap Token.text := by
  have happ : substitute p step s (ts ++ []) = ts.flatMap Token.text ++ [] := substitute_plain_append h s []
  rwa [List.append_nil, List.append_nil] at happ

theorem substitute_cons_found {t : Token α κ} (h : p t.kind = true) (s : σ) (ts : List (Token α κ)) :
    substitute p step s (t :: ts) = (step s t.text).2 ++ substitute p step (step s t.text).1 ts := if_pos h

/-- A property of the symbols of the text and of the replacements. -/
theorem forall_mem_substitute {q : α → Prop} {ts : List (Token α κ)} (htext : ∀ t ∈ ts, ∀ a ∈ t.text, q a)
    (hstep : ∀ s z, ∀ a ∈ (step s z).2, q a) (s : σ) : ∀ a ∈ substitute p step s ts, q a := by
  induction ts generalizing s with
  | nil => exact fun a ha => absurd ha List.not_mem_nil
  | cons t ts ih =>
    rw [List.forall_mem_cons] at htext
    intro a ha
    rw [substitute] at ha
    split at ha
    · rcases List.mem_append.1 ha with ha | ha
      · exact hstep s t.text a ha
      · exact ih htext.2 _ a ha
    · rcases List.mem_append.1 ha with ha | ha
      · exact htext.1 a ha
      · exact ih htext.2 _ a ha

/-- If no replacement begins like the token it stands for, the text stays as it is only where there are no such
tokens. -/
theorem substitute_eq_text_iff {ts : List (Token α κ)} (s : σ)
    (hhead : ∀ t ∈ ts, p t.kind = true → ∀ s, ∃ a u b v, t.text = a :: u ∧ (step s t.text).2 = b :: v ∧ a ≠ b) :
    substitute p step s ts = ts.flatMap Token.text ↔ ∀ t ∈ ts, p t.kind = false := by
  refine ⟨fun heq => ?_, fun h => substitute_plain h s⟩
  induction ts with
  | nil => exact fun t ht => absurd ht List.not_mem_nil
  | cons t ts ih =>
    rw [List.forall_mem_cons] at hhead
    by_cases hp : p t.kind = true
    · obtain ⟨a, u, b, v, htext, hstep, hne⟩ := hhead.1 hp s
      rw [substitute_cons_found hp, List.flatMap_cons, hstep, htext, List.cons_append, List.cons_append] at heq
      exact absurd (List.cons.inj heq).1.symm hne
    · rw [substitute, if_neg hp, List.flatMap_cons] at heq
      exact List.forall_mem_cons.2 ⟨Bool.eq_false_iff.2 hp, ih hhead.2 (List.append_cancel_left heq)⟩

end Lexing
