import Mathlib.Data.Nat.Bitwise
import Mathlib.Tactic.Common

/-!
# Words as numbers with two digits

The bitwise operations on `h * 2 ^ k + l` with `l < 2 ^ k` work on the digits `h` and `l`.  So `|||` of words whose
digits do not meet is their sum, and a mask keeps the digits it is made of.
-/

namespace Radix

variable {k l l' : Nat}

theorem eq_of_div_mod {x y : Nat} (hdiv : x / 2 ^ k = y / 2 ^ k) (hmod : x % 2 ^ k = y % 2 ^ k) : x = y := by
  rw [← Nat.div_add_mod x (2 ^ k), ← Nat.div_add_mod y (2 ^ k), hdiv, hmod]

theorem div_mul_add (hl : l < 2 ^ k) (h : Nat) : (h * 2 ^ k + l) / 2 ^ k = h := by
  rw [Nat.add_comm, Nat.add_mul_div_right _ _ (Nat.two_pow_pos k), Nat.div_eq_of_lt hl, Nat.zero_add]

theorem mod_mul_add (hl : l < 2 ^ k) (h : Nat) : (h * 2 ^ k + l) % 2 ^ k = l := by
  rw [Nat.add_comm, Nat.add_mul_mod_self_right, Nat.mod_eq_of_lt hl]

theorem or_mul_add (hl : l < 2 ^ k) (hl' : l' < 2 ^ k) (h h' : Nat) :
    (h * 2 ^ k + l) ||| (h' * 2 ^ k + l') = (h ||| h') * 2 ^ k + (l ||| l') := by
  have hor : l ||| l' < 2 ^ k := Nat.or_lt_two_pow hl hl'
  apply eq_of_div_mod
  · rw [Nat.or_div_two_pow, div_mul_add hl, div_mul_add hl', div_mul_add hor]
  · rw [Nat.or_mod_two_pow, mod_mul_add hl, mod_mul_add hl', mod_mul_add hor]

theorem and_mul_add (hl : l < 2 ^ k) (hl' : l' < 2 ^ k) (h h' : Nat) :
    (h * 2 ^ k + l) &&& (h' * 2 ^ k + l') = (h &&& h') * 2 ^ k + (l &&& l') := by
  have hand : l &&& l' < 2 ^ k := Nat.and_lt_two_pow _ hl'
  apply eq_of_div_mod
  · rw [Nat.and_div_two_pow, div_mul_add hl, div_mul_add hl', div_mul_add hand]
  · rw [Nat.and_mod_two_pow, mod_mul_add hl, mod_mul_add hl', mod_mul_add hand]

/-- A word that is zero below its digit, and a digit below. -/
theorem or_low (hl : l < 2 ^ k) (h : Nat) : (h * 2 ^ k) ||| l = h * 2 ^ k + l := by
  have hor := or_mul_add (Nat.two_pow_pos k) hl h 0
  simpa using hor

/-- Two words of digits of seven bits, with zeros where the other one has its digits. -/
theorem or_weave {x y : Nat} (hx : x / 2 ^ 7 % 2 ^ 7 = 0) (hx' : x / 2 ^ 21 % 2 ^ 7 = 0) (hy : y / 2 ^ 7 % 2 ^ 7 = 0)
    (hlt : y < 2 ^ 21) : x ||| y * 2 ^ 7 = x + y * 2 ^ 7 := by
  have hxs : x = ((x / 2 ^ 21 * 2 ^ 7 + x / 2 ^ 14 % 2 ^ 7) * 2 ^ 7 + 0) * 2 ^ 7 + x % 2 ^ 7 := by omega
  have hys : y * 2 ^ 7 = ((y / 2 ^ 14 * 2 ^ 7 + 0) * 2 ^ 7 + y % 2 ^ 7) * 2 ^ 7 + 0 := by omega
  have hhigh : x / 2 ^ 21 ||| y / 2 ^ 14 = x / 2 ^ 21 + y / 2 ^ 14 := by
    have h := or_low (k := 7) (l := y / 2 ^ 14) (by omega) (x / 2 ^ 28)
    have he : x / 2 ^ 28 * 2 ^ 7 = x / 2 ^ 21 := by omega
    rwa [he] at h
  conv => lhs; rw [hxs, hys]
  rw [or_mul_add (Nat.mod_lt _ (by decide)) (by decide), or_mul_add (by decide) (Nat.mod_lt _ (by decide)),
    or_mul_add (Nat.mod_lt _ (by decide)) (by decide), Nat.or_zero, Nat.or_zero, Nat.zero_or, hhigh]
  omega

/-- The same over a lowest digit of `k` bits. -/
theorem or_weave_mul {x y : Nat} (k : Nat) (hx : x / 2 ^ k / 2 ^ 7 % 2 ^ 7 = 0) (hx' : x / 2 ^ k / 2 ^ 21 % 2 ^ 7 = 0)
    (hy : y / 2 ^ 7 % 2 ^ 7 = 0) (hlt : y < 2 ^ 21) : x ||| y * 2 ^ 7 * 2 ^ k = x + y * 2 ^ 7 * 2 ^ k := by
  have hsplit : x / 2 ^ k * 2 ^ k + x % 2 ^ k = x := Nat.div_add_mod' x (2 ^ k)
  have hor := or_mul_add (Nat.mod_lt x (Nat.two_pow_pos k)) (Nat.two_pow_pos k) (x / 2 ^ k) (y * 2 ^ 7)
  rw [hsplit, Nat.add_zero, or_weave hx hx' hy hlt, Nat.or_zero, Nat.add_mul] at hor
  rw [hor]
  omega

end Radix
