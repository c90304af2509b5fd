import Sqlite4a.Radix

/-!
# Variable-length integers

`sqlite3GetVarint` collects the bytes at even and at odd places in two words of 32 bits and puts them together with
masks at the end.  It reads the same number as a loop over the bytes does (`sqlite3GetVarint_eq`), and so it reads back
what `sqlite3PutVarint` has written (`sqlite3GetVarint_putVarint`).
-/

namespace Sqlite4a

/-- What is found at and after a pointer. -/
abbrev Memory := Nat → UInt8

/-! ### Reading -/

/-- A mask for `(0x7f << 14) | 0x7f`. -/
def SLOT_2_0 : UInt32 := 0x001fc07f

/-- A mask for `(0xf << 28) | SLOT_2_0`. -/
def SLOT_4_2_0 : UInt32 := 0xf01fc07f

/-- `((u64)s) << 32 | a`. -/
def words (s a : UInt32) : UInt64 := s.toUInt64 <<< 32 ||| a.toUInt64

/-- `sqlite3GetVarint` after six bytes that are not the last one.
`s` is `p0 << 21 | p1 << 14 | p2 << 7 | p3` (masked), `a` is `p0 << 28 | p2 << 14 | p4` and `b` is
`p1 << 28 | p3 << 14 | p5` (both unmasked). -/
def getVarintAfter6 (p : Memory) (s a b : UInt32) : UInt64 × Nat :=
  let a := a <<< 14 ||| (p 6).toUInt32
  if a &&& 0x80 = 0 then (words (s >>> 11) (a &&& SLOT_4_2_0 ||| (b &&& SLOT_2_0) <<< 7), 7)
  else
    let a := a &&& SLOT_2_0
    let b := b <<< 14 ||| (p 7).toUInt32
    if b &&& 0x80 = 0 then (words (s >>> 4) (a <<< 7 ||| b &&& SLOT_4_2_0), 8)
    else
      let a := a <<< 15 ||| (p 8).toUInt32
      let b := b &&& SLOT_2_0
      let s := s <<< 4 ||| ((p 4).toUInt32 &&& 0x7f) >>> 3
      (words s (a ||| b <<< 8), 9)

/-- `sqlite3GetVarint` after four bytes that are not the last one.  `a` is `p0 << 14 | p2` and `b` is `p1 << 14 | p3`
(both masked). -/
def getVarintAfter4 (p : Memory) (a b : UInt32) : UInt64 × Nat :=
  let s := a
  let a := a <<< 14 ||| (p 4).toUInt32
  if a &&& 0x80 = 0 then (words (s >>> 18) (a ||| b <<< 7), 5)
  else
    let s := s <<< 7 ||| b
    let b := b <<< 14 ||| (p 5).toUInt32
    if b &&& 0x80 = 0 then (words (s >>> 18) ((a &&& SLOT_2_0) <<< 7 ||| b), 6)
    else getVarintAfter6 p s a b

/-- The value at `p`, and the number of bytes read. -/
def sqlite3GetVarint (p : Memory) : UInt64 × Nat :=
  let a := (p 0).toUInt32
  if a &&& 0x80 = 0 then (a.toUInt64, 1)
  else
    let b := (p 1).toUInt32
    if b &&& 0x80 = 0 then (((a &&& 0x7f) <<< 7 ||| b).toUInt64, 2)
    else
      let a := a <<< 14 ||| (p 2).toUInt32
      if a &&& 0x80 = 0 then ((a &&& SLOT_2_0 ||| (b &&& 0x7f) <<< 7).toUInt64, 3)
      else
        let a := a &&& SLOT_2_0
        let b := b <<< 14 ||| (p 3).toUInt32
        if b &&& 0x80 = 0 then ((a <<< 7 ||| b &&& SLOT_2_0).toUInt64, 4)
        else getVarintAfter4 p a (b &&& SLOT_2_0)

/-- The macro and the function `getVarint32`: a value that does not fit is read as `0xffffffff`. -/
def sqlite3GetVarint32 (p : Memory) : UInt32 × Nat :=
  let a := (p 0).toUInt32
  if a &&& 0x80 = 0 then (a, 1)
  else
    let b := (p 1).toUInt32
    if b &&& 0x80 = 0 then ((a &&& 0x7f) <<< 7 ||| b, 2)
    else
      let a := a <<< 14 ||| (p 2).toUInt32
      if a &&& 0x80 = 0 then (a &&& SLOT_2_0 ||| (b &&& 0x7f) <<< 7, 3)
      else
        let r := sqlite3GetVarint p
        (if (r.1 &&& 0xffffffff) ≠ r.1 then 0xffffffff else r.1.toUInt32, r.2)

/-! ### Writing -/

/-- The bytes that the loop of `putVarint64` collects in `buf`, lowest first; `buf` has room for `n` of them. -/
def varintBuf : Nat → UInt64 → List UInt8
  | 0, _ => []
  | n + 1, v => (v &&& 0x7f ||| 0x80).toUInt8 :: if v >>> 7 = 0 then [] else varintBuf n (v >>> 7)

/-- `n` bytes that are not the last one. -/
def varintBytes : Nat → UInt64 → List UInt8
  | 0, _ => []
  | n + 1, v => varintBytes n (v >>> 7) ++ [(v &&& 0x7f ||| 0x80).toUInt8]

def putVarint64 (v : UInt64) : List UInt8 :=
  if v &&& (0xff000000 : UInt64) <<< 32 ≠ 0 then varintBytes 8 (v >>> 8) ++ [v.toUInt8]
  else
    match varintBuf 10 v with
    | [] => []
    | a :: buf => ((a &&& 0x7f) :: buf).reverse

def sqlite3PutVarint (v : UInt64) : List UInt8 :=
  if v ≤ 0x7f then [(v &&& 0x7f).toUInt8]
  else if v ≤ 0x3fff then [(v >>> 7 &&& 0x7f ||| 0x80).toUInt8, (v &&& 0x7f).toUInt8]
  else putVarint64 v

/-- The loop of `sqlite3VarintLen`, of at most `n` rounds. -/
def varintLenLoop : Nat → Nat → UInt64 → Nat
  | 0, i, _ => i
  | n + 1, i, v => if v >>> 7 = 0 then i else varintLenLoop n (i + 1) (v >>> 7)

def sqlite3VarintLen (v : UInt64) : Nat := varintLenLoop 10 1 v

/-! ### The number at a place -/

/-- A varint read byte by byte from `k` on, `n` bytes before the ninth; seven bits count of each byte, and all bits of
the ninth. -/
def varint (p : Memory) : Nat → Nat → Nat → Nat × Nat
  | 0, k, v => (2 ^ 8 * v + (p k).toNat, k + 1)
  | n + 1, k, v =>
    if (p k).toNat < 2 ^ 7 then (2 ^ 7 * v + (p k).toNat, k + 1)
    else varint p n (k + 1) (2 ^ 7 * v + (p k).toNat % 2 ^ 7)

theorem varint_last {p : Memory} {k : Nat} (h : (p k).toNat < 2 ^ 7) (n v : Nat) :
    varint p (n + 1) k v = (2 ^ 7 * v + (p k).toNat, k + 1) := if_pos h

theorem varint_more {p : Memory} {k : Nat} (h : ¬ (p k).toNat < 2 ^ 7) (n v : Nat) :
    varint p (n + 1) k v = varint p n (k + 1) (2 ^ 7 * v + (p k).toNat % 2 ^ 7) := if_neg h

/-! ### Words of digits -/

theorem toNat_low (a : UInt32) : (a &&& 0x7f).toNat = a.toNat % 2 ^ 7 := by
  rw [UInt32.toNat_and]
  exact Nat.and_two_pow_sub_one_eq_mod a.toNat 7

/-- The continuation bit of a byte below other digits. -/
theorem and_0x80_eq_zero_iff (a : UInt32) : a &&& 0x80 = 0 ↔ a.toNat % 2 ^ 8 < 2 ^ 7 := by
  have hand : (a &&& 0x80).toNat = (a.toNat.testBit 7).toNat * 2 ^ 7 := by
    rw [UInt32.toNat_and]
    exact Nat.and_two_pow a.toNat 7
  rw [← UInt32.toNat_inj, hand, Nat.testBit_eq_decide_div_mod_eq]
  by_cases h : a.toNat / 2 ^ 7 % 2 = 1
  · rw [decide_eq_true h]
    refine iff_of_false (by decide) ?_
    omega
  · rw [decide_eq_false h]
    refine iff_of_true rfl ?_
    omega

theorem toNat_slot_2_0 (a : UInt32) :
    (a &&& SLOT_2_0).toNat = a.toNat / 2 ^ 14 % 2 ^ 7 * 2 ^ 14 + a.toNat % 2 ^ 7 := by
  have hmask : SLOT_2_0.toNat = 127 * 2 ^ 14 + 127 := rfl
  have hsplit : a.toNat = a.toNat / 2 ^ 14 * 2 ^ 14 + a.toNat % 2 ^ 14 := by omega
  have h7 : ∀ x, x &&& 127 = x % 2 ^ 7 := fun x => Nat.and_two_pow_sub_one_eq_mod x 7
  rw [UInt32.toNat_and, hmask]
  conv => lhs; rw [hsplit]
  rw [Radix.and_mul_add (Nat.mod_lt _ (by decide)) (by decide), h7, h7]
  omega

theorem toNat_slot_4_2_0 (a : UInt32) : (a &&& SLOT_4_2_0).toNat =
    a.toNat / 2 ^ 28 * 2 ^ 28 + a.toNat / 2 ^ 14 % 2 ^ 7 * 2 ^ 14 + a.toNat % 2 ^ 7 := by
  have hmask : SLOT_4_2_0.toNat = (15 * 2 ^ 14 + 127) * 2 ^ 14 + 127 := rfl
  have hsplit : a.toNat = (a.toNat / 2 ^ 28 * 2 ^ 14 + a.toNat / 2 ^ 14 % 2 ^ 14) * 2 ^ 14 + a.toNat % 2 ^ 14 := by
    omega
  have h7 : ∀ x, x &&& 127 = x % 2 ^ 7 := fun x => Nat.and_two_pow_sub_one_eq_mod x 7
  have h4 : a.toNat / 2 ^ 28 &&& 15 = a.toNat / 2 ^ 28 := by
    have hlt := a.toNat_lt
    rw [show (15 : Nat) = 2 ^ 4 - 1 from rfl, Nat.and_two_pow_sub_one_eq_mod]
    omega
  rw [UInt32.toNat_and, hmask]
  conv => lhs; rw [hsplit]
  rw [Radix.and_mul_add (Nat.mod_lt _ (by decide)) (by decide), Radix.and_mul_add (Nat.mod_lt _ (by decide))
    (by decide),
    h7, h7, h4]
  omega

/-- The next byte comes two places further down. -/
theorem toNat_push (a : UInt32) (c : UInt8) :
    (a <<< 14 ||| c.toUInt32).toNat = a.toNat % 2 ^ 18 * 2 ^ 14 + c.toNat := by
  have hshift : (a <<< 14).toNat = a.toNat % 2 ^ 18 * 2 ^ 14 := by
    show a.toNat <<< 14 % 2 ^ 32 = _
    rw [Nat.shiftLeft_eq]
    omega
  have hc := c.toNat_lt
  rw [UInt32.toNat_or, hshift, UInt8.toNat_toUInt32, Radix.or_low (by omega)]

theorem continues_byte (c : UInt8) : c.toUInt32 &&& 0x80 = 0 ↔ c.toNat < 2 ^ 7 := by
  have hc := c.toNat_lt
  rw [and_0x80_eq_zero_iff, UInt8.toNat_toUInt32]
  omega

theorem continues_push (a : UInt32) (c : UInt8) : (a <<< 14 ||| c.toUInt32) &&& 0x80 = 0 ↔ c.toNat < 2 ^ 7 := by
  have hc := c.toNat_lt
  rw [and_0x80_eq_zero_iff, toNat_push]
  omega

theorem toNat_weave {a b : UInt32} (ha : a.toNat / 2 ^ 7 % 2 ^ 7 = 0) (ha' : a.toNat / 2 ^ 21 % 2 ^ 7 = 0)
    (hb : b.toNat / 2 ^ 7 % 2 ^ 7 = 0) (hlt : b.toNat < 2 ^ 21) :
    (a ||| b <<< 7).toNat = a.toNat + b.toNat * 2 ^ 7 := by
  have hshift : (b <<< 7).toNat = b.toNat * 2 ^ 7 := by
    show b.toNat <<< 7 % 2 ^ 32 = _
    rw [Nat.shiftLeft_eq]
    omega
  rw [UInt32.toNat_or, hshift, Radix.or_weave ha ha' hb hlt]

theorem toNat_words (s a : UInt32) : (words s a).toNat = s.toNat * 2 ^ 32 + a.toNat := by
  have hs := s.toNat_lt
  have hshift : (s.toUInt64 <<< 32).toNat = s.toNat * 2 ^ 32 := by
    show s.toUInt64.toNat <<< 32 % 2 ^ 64 = _
    rw [Nat.shiftLeft_eq, UInt32.toNat_toUInt64]
    omega
  rw [words, UInt64.toNat_or, hshift, UInt32.toNat_toUInt64, Radix.or_low a.toNat_lt]

/-- The digits of `a` that the next two bytes are added to. -/
structure Digits (a : UInt32) (x y : Nat) : Prop where
  mid : a.toNat / 2 ^ 14 % 2 ^ 7 = x
  low : a.toNat % 2 ^ 7 = y

theorem Digits.slot_2_0 {a : UInt32} {x y : Nat} (h : Digits a x y) : (a &&& SLOT_2_0).toNat = x * 2 ^ 14 + y := by
  rw [toNat_slot_2_0, h.mid, h.low]

theorem Digits.next {a : UInt32} {x y : Nat} (h : Digits a x y) (c : UInt8) :
    Digits (a <<< 14 ||| c.toUInt32) y (c.toNat % 2 ^ 7) := by
  have hlow := h.low
  have hc := c.toNat_lt
  constructor <;> rw [toNat_push] <;> omega

theorem Digits.slot_4_2_0_push {a : UInt32} {x y : Nat} (h : Digits a x y) (c : UInt8) :
    ((a <<< 14 ||| c.toUInt32) &&& SLOT_4_2_0).toNat = x % 2 ^ 4 * 2 ^ 28 + y * 2 ^ 14 + c.toNat % 2 ^ 7 := by
  have hmid := h.mid
  have hlow := h.low
  have hc := c.toNat_lt
  rw [toNat_slot_4_2_0, toNat_push]
  omega

theorem toNat_shiftRight (s : UInt32) {k : Nat} (hk : k < 32) : (s >>> UInt32.ofNat k).toNat = s.toNat / 2 ^ k := by
  rw [UInt32.toNat_shiftRight, UInt32.toNat_ofNat_of_lt' (Nat.lt_trans hk (by decide)), Nat.mod_eq_of_lt hk,
    Nat.shiftRight_eq_div_pow]

/-- The digits of the bytes at `p`. -/
def digit (p : Memory) (i : Nat) : Nat := (p i).toNat % 2 ^ 7

theorem digit_lt (p : Memory) (i : Nat) : digit p i < 2 ^ 7 := Nat.mod_lt _ (by decide)

theorem digit_of_lt {p : Memory} {i : Nat} (h : (p i).toNat < 2 ^ 7) : (p i).toNat = digit p i :=
  (Nat.mod_eq_of_lt h).symm

/-- What a reader returns. -/
structure Reads (r : UInt64 × Nat) (v : Nat × Nat) : Prop where
  value : r.1.toNat = v.1
  size : r.2 = v.2

/-- The last three bytes. -/
theorem getVarintAfter6_eq {p : Memory} {s a b : UInt32} (ha : Digits a (digit p 2) (digit p 4))
    (hb : Digits b (digit p 3) (digit p 5)) (hs : s.toNat < 2 ^ 28)
    (hd : s.toNat % 2 ^ 14 = digit p 2 * 2 ^ 7 + digit p 3) :
    Reads (getVarintAfter6 p s a b) (varint p 2 6 (2 ^ 7 * (2 ^ 7 * s.toNat + digit p 4) + digit p 5)) := by
  have l2 := digit_lt p 2
  have l3 := digit_lt p 3
  have l4 := digit_lt p 4
  have l5 := digit_lt p 5
  have ha6 : ((a <<< 14 ||| (p 6).toUInt32) &&& SLOT_2_0).toNat = digit p 4 * 2 ^ 14 + digit p 6 :=
    (ha.next (p 6)).slot_2_0
  have hb7 : ((b <<< 14 ||| (p 7).toUInt32) &&& SLOT_2_0).toNat = digit p 5 * 2 ^ 14 + digit p 7 :=
    (hb.next (p 7)).slot_2_0
  simp only [getVarintAfter6, continues_push]
  by_cases h6 : (p 6).toNat < 2 ^ 7
  · have ha6' := ha.slot_4_2_0_push (p 6)
    have hb5 := hb.slot_2_0
    have hs11 : (s >>> 11).toNat = s.toNat / 2 ^ 11 := toNat_shiftRight s (k := 11) (by decide)
    have h6' := digit_of_lt h6
    rw [if_pos h6, varint_last h6]
    refine ⟨?_, rfl⟩
    show (words (s >>> 11) _).toNat = _
    rw [toNat_words, toNat_weave (by omega) (by omega) (by omega) (by omega), hs11]
    omega
  have l6 := digit_lt p 6
  rw [if_neg h6, varint_more h6]
  generalize (a <<< 14 ||| (p 6).toUInt32) &&& SLOT_2_0 = a at ha6 ⊢
  by_cases h7 : (p 7).toNat < 2 ^ 7
  · have hb7' := hb.slot_4_2_0_push (p 7)
    have hs4 : (s >>> 4).toNat = s.toNat / 2 ^ 4 := toNat_shiftRight s (k := 4) (by decide)
    have h7' := digit_of_lt h7
    rw [if_pos h7, varint_last h7]
    refine ⟨?_, rfl⟩
    show (words (s >>> 4) _).toNat = 2 ^ 7 * (2 ^ 7 * _ + digit p 6) + (p 7).toNat
    rw [toNat_words, UInt32.or_comm, toNat_weave (by omega) (by omega) (by omega) (by omega), hs4]
    omega
  have l7 := digit_lt p 7
  have l8 := (p 8).toNat_lt
  rw [if_neg h7, varint_more h7]
  generalize (b <<< 14 ||| (p 7).toUInt32) &&& SLOT_2_0 = b at hb7 ⊢
  refine ⟨?_, rfl⟩
  have ha8 : (a <<< 15 ||| (p 8).toUInt32).toNat = digit p 4 % 2 ^ 3 * 2 ^ 29 + digit p 6 * 2 ^ 15 + (p 8).toNat := by
    have hshift : (a <<< 15).toNat = (digit p 4 % 2 ^ 3 * 2 ^ 14 + digit p 6) * 2 ^ 15 := by
      show a.toNat <<< 15 % 2 ^ 32 = _
      rw [Nat.shiftLeft_eq]
      omega
    rw [UInt32.toNat_or, hshift, UInt8.toNat_toUInt32, Radix.or_low (by omega)]
    omega
  have hs4 : (s <<< 4 ||| ((p 4).toUInt32 &&& 0x7f) >>> 3).toNat = s.toNat * 2 ^ 4 + digit p 4 / 2 ^ 3 := by
    have hshift : (s <<< 4).toNat = s.toNat * 2 ^ 4 := by
      show s.toNat <<< 4 % 2 ^ 32 = _
      rw [Nat.shiftLeft_eq]
      omega
    have hlow : (((p 4).toUInt32 &&& 0x7f) >>> 3).toNat = digit p 4 / 2 ^ 3 := by
      have h := toNat_shiftRight ((p 4).toUInt32 &&& 0x7f) (k := 3) (by decide)
      rw [toNat_low] at h
      exact h
    rw [UInt32.toNat_or, hshift, hlow, Radix.or_low (by omega)]
  have hb8 : (a <<< 15 ||| (p 8).toUInt32 ||| b <<< 8).toNat =
      (a <<< 15 ||| (p 8).toUInt32).toNat + b.toNat * 2 ^ 8 := by
    have hshift : (b <<< 8).toNat = b.toNat * 2 ^ 7 * 2 ^ 1 := by
      show b.toNat <<< 8 % 2 ^ 32 = _
      rw [Nat.shiftLeft_eq]
      omega
    rw [UInt32.toNat_or, hshift, Radix.or_weave_mul 1 (by omega) (by omega) (by omega) (by omega)]
    omega
  show (words _ _).toNat = 2 ^ 8 * (2 ^ 7 * (2 ^ 7 * _ + digit p 6) + digit p 7) + (p 8).toNat
  rw [toNat_words, hs4, hb8, ha8]
  omega

/-- The fifth and the sixth byte. -/
theorem getVarintAfter4_eq {p : Memory} {a b : UInt32} (ha : a.toNat = digit p 0 * 2 ^ 14 + digit p 2)
    (hb : b.toNat = digit p 1 * 2 ^ 14 + digit p 3) :
    Reads (getVarintAfter4 p a b)
      (varint p 4 4 (2 ^ 7 * (2 ^ 7 * (2 ^ 7 * digit p 0 + digit p 1) + digit p 2) + digit p 3)) := by
  have l0 := digit_lt p 0
  have l1 := digit_lt p 1
  have l2 := digit_lt p 2
  have l3 := digit_lt p 3
  have ha' : Digits a (digit p 0) (digit p 2) := ⟨by omega, by omega⟩
  have hb' : Digits b (digit p 1) (digit p 3) := ⟨by omega, by omega⟩
  have hs : (a <<< 7 ||| b).toNat = 2 ^ 7 * (2 ^ 7 * (2 ^ 7 * digit p 0 + digit p 1) + digit p 2) + digit p 3 := by
    rw [UInt32.or_comm, toNat_weave (by omega) (by omega) (by omega) (by omega)]
    omega
  have ha4 := toNat_push a (p 4)
  simp only [getVarintAfter4, continues_push]
  by_cases h4 : (p 4).toNat < 2 ^ 7
  · have hs18 : (a >>> 18).toNat = a.toNat / 2 ^ 18 := toNat_shiftRight a (k := 18) (by decide)
    rw [if_pos h4, varint_last h4]
    refine ⟨?_, rfl⟩
    show (words (a >>> 18) _).toNat = _
    rw [toNat_words, toNat_weave (by omega) (by omega) (by omega) (by omega), hs18]
    omega
  rw [if_neg h4, varint_more h4]
  have ha4' : ((a <<< 14 ||| (p 4).toUInt32) &&& SLOT_2_0).toNat = digit p 2 * 2 ^ 14 + digit p 4 :=
    (ha'.next (p 4)).slot_2_0
  have hb5 := toNat_push b (p 5)
  by_cases h5 : (p 5).toNat < 2 ^ 7
  · have l4 := digit_lt p 4
    have hs18 : ((a <<< 7 ||| b) >>> 18).toNat = (a <<< 7 ||| b).toNat / 2 ^ 18 :=
      toNat_shiftRight _ (k := 18) (by decide)
    rw [if_pos h5, varint_last h5]
    refine ⟨?_, rfl⟩
    show (words ((a <<< 7 ||| b) >>> 18) _).toNat = 2 ^ 7 * (2 ^ 7 * _ + digit p 4) + (p 5).toNat
    rw [toNat_words, UInt32.or_comm (((a <<< 14 ||| (p 4).toUInt32) &&& SLOT_2_0) <<< 7),
      toNat_weave (by omega) (by omega) (by omega) (by omega), hs18]
    omega
  rw [if_neg h5, varint_more h5]
  have htail := getVarintAfter6_eq (s := a <<< 7 ||| b) (ha'.next (p 4)) (hb'.next (p 5)) (by omega) (by omega)
  rw [hs] at htail
  exact htail

/-- `sqlite3GetVarint` reads what a loop over the bytes reads. -/
theorem sqlite3GetVarint_eq (p : Memory) : Reads (sqlite3GetVarint p) (varint p 8 0 0) := by
  have l0 := digit_lt p 0
  have l1 := digit_lt p 1
  have l2 := digit_lt p 2
  have hlow : ∀ i, ((p i).toUInt32 &&& 0x7f).toNat = digit p i := fun i => toNat_low _
  simp only [sqlite3GetVarint, continues_byte, continues_push]
  by_cases h0 : (p 0).toNat < 2 ^ 7
  · rw [if_pos h0, varint_last h0]
    refine ⟨?_, rfl⟩
    show (p 0).toNat = _
    omega
  rw [if_neg h0, varint_more h0]
  by_cases h1 : (p 1).toNat < 2 ^ 7
  · rw [if_pos h1, varint_last h1]
    refine ⟨?_, rfl⟩
    have hb : ((p 1).toUInt32).toNat = (p 1).toNat := rfl
    have ha := hlow 0
    show (((p 0).toUInt32 &&& 0x7f) <<< 7 ||| (p 1).toUInt32).toNat = 2 ^ 7 * (2 ^ 7 * 0 + digit p 0) + (p 1).toNat
    rw [UInt32.or_comm, toNat_weave (by omega) (by omega) (by omega) (by omega)]
    omega
  rw [if_neg h1, varint_more h1]
  have ha2 : (((p 0).toUInt32 <<< 14 ||| (p 2).toUInt32) &&& SLOT_2_0).toNat = digit p 0 * 2 ^ 14 + digit p 2 :=
    (Digits.next ⟨rfl, rfl⟩ (p 2)).slot_2_0
  have hb3 : (((p 1).toUInt32 <<< 14 ||| (p 3).toUInt32) &&& SLOT_2_0).toNat = digit p 1 * 2 ^ 14 + digit p 3 :=
    (Digits.next ⟨rfl, rfl⟩ (p 3)).slot_2_0
  generalize ((p 0).toUInt32 <<< 14 ||| (p 2).toUInt32) &&& SLOT_2_0 = a at ha2 ⊢
  generalize ((p 1).toUInt32 <<< 14 ||| (p 3).toUInt32) &&& SLOT_2_0 = b at hb3 ⊢
  by_cases h2 : (p 2).toNat < 2 ^ 7
  · have hb := hlow 1
    have h2' := digit_of_lt h2
    rw [if_pos h2, varint_last h2]
    refine ⟨?_, rfl⟩
    show (a ||| ((p 1).toUInt32 &&& 0x7f) <<< 7).toNat =
      2 ^ 7 * (2 ^ 7 * (2 ^ 7 * 0 + digit p 0) + digit p 1) + (p 2).toNat
    rw [toNat_weave (by omega) (by omega) (by omega) (by omega)]
    omega
  rw [if_neg h2, varint_more h2]
  by_cases h3 : (p 3).toNat < 2 ^ 7
  · have l3 := digit_lt p 3
    have h3' := digit_of_lt h3
    rw [if_pos h3, varint_last h3]
    refine ⟨?_, rfl⟩
    show (a <<< 7 ||| b).toNat =
      2 ^ 7 * (2 ^ 7 * (2 ^ 7 * (2 ^ 7 * 0 + digit p 0) + digit p 1) + digit p 2) + (p 3).toNat
    rw [UInt32.or_comm, toNat_weave (by omega) (by omega) (by omega) (by omega)]
    omega
  rw [if_neg h3, varint_more h3, Nat.mul_zero, Nat.zero_add]
  exact getVarintAfter4_eq ha2 hb3

/-! ### Reading what has been written -/

/-- The bytes at `p`, from `k` on. -/
def Holds (p : Memory) (k : Nat) (z : List UInt8) : Prop := ∀ i (h : i < z.length), p (k + i) = z[i]

theorem holds_append {p : Memory} {k : Nat} {y z : List UInt8} :
    Holds p k (y ++ z) ↔ Holds p k y ∧ Holds p (k + y.length) z := by
  constructor
  · intro h
    constructor
    · intro i hi
      rw [h i (by rw [List.length_append]; omega), List.getElem_append_left hi]
    · intro i hi
      rw [Nat.add_assoc, h (y.length + i) (by rw [List.length_append]; omega),
        List.getElem_append_right (Nat.le_add_right _ _)]
      simp
  · intro ⟨hy, hz⟩ i hi
    by_cases hlt : i < y.length
    · rw [hy i hlt, List.getElem_append_left hlt]
    · rw [List.length_append] at hi
      have hi' := hz (i - y.length) (by omega)
      rw [show k + y.length + (i - y.length) = k + i by omega] at hi'
      rw [hi', List.getElem_append_right (by omega)]

theorem Holds.head {p : Memory} {k : Nat} {a : UInt8} {z : List UInt8} (h : Holds p k (a :: z)) : p k = a :=
  h 0 (Nat.succ_pos _)

theorem toNat_more (v : UInt64) : (v &&& 0x7f ||| 0x80).toUInt8.toNat = 2 ^ 7 + v.toNat % 2 ^ 7 := by
  have hand : (v &&& 0x7f).toNat = v.toNat % 2 ^ 7 := by
    rw [UInt64.toNat_and]
    exact Nat.and_two_pow_sub_one_eq_mod v.toNat 7
  have hor := Radix.or_low (Nat.mod_lt v.toNat (Nat.two_pow_pos 7)) 1
  rw [UInt64.toNat_toUInt8, UInt64.toNat_or, hand, Nat.or_comm]
  rw [Nat.one_mul] at hor
  rw [show (0x80 : UInt64).toNat = 2 ^ 7 from rfl, hor]
  omega

theorem toNat_shiftRight_7 (v : UInt64) : (v >>> 7).toNat = v.toNat / 2 ^ 7 := Nat.shiftRight_eq_div_pow _ _

theorem varintBytes_succ (m : Nat) (v : UInt64) :
    varintBytes (m + 1) v = varintBytes m (v >>> 7) ++ [(v &&& 0x7f ||| 0x80).toUInt8] := rfl

theorem length_varintBytes (m : Nat) (v : UInt64) : (varintBytes m v).length = m := by
  induction m generalizing v with
  | zero => rfl
  | succ m ih => rw [varintBytes_succ, List.length_append, ih, List.length_singleton]

/-- Bytes that are not the last one add their digits. -/
theorem varint_varintBytes {p : Memory} {m n k : Nat} {v : UInt64} (h : Holds p k (varintBytes m v)) (w : Nat) :
    varint p (n + m) k w = varint p n (k + m) (2 ^ (7 * m) * w + v.toNat % 2 ^ (7 * m)) := by
  induction m generalizing n v with
  | zero => rw [varintBytes] at h; rw [Nat.mul_zero, Nat.pow_zero, Nat.one_mul, Nat.mod_one]; rfl
  | succ m ih =>
    obtain ⟨hbefore, hlast⟩ := holds_append.1 h
    rw [length_varintBytes] at hlast
    have hbyte : (p (k + m)).toNat = 2 ^ 7 + v.toNat % 2 ^ 7 := by rw [hlast.head, toNat_more]
    have hdigit : v.toNat % 2 ^ (7 * (m + 1)) = 2 ^ 7 * (v.toNat / 2 ^ 7 % 2 ^ (7 * m)) + v.toNat % 2 ^ 7 := by
      rw [Nat.mul_succ, Nat.add_comm, Nat.pow_add, Nat.mod_mul, Nat.add_comm]
    rw [show n + (m + 1) = n + 1 + m by omega, ih hbefore, varint_more (by omega), toNat_shiftRight_7, hbyte, hdigit]
    rw [show 7 * (m + 1) = 7 + 7 * m by omega, Nat.pow_add 2 7]
    congr 1
    have hmod : (2 ^ 7 + v.toNat % 2 ^ 7) % 2 ^ 7 = v.toNat % 2 ^ 7 := by omega
    rw [hmod, Nat.mul_add, Nat.mul_assoc, Nat.add_assoc]

theorem shiftRight_7_eq_zero_iff (v : UInt64) : v >>> 7 = 0 ↔ v.toNat < 2 ^ 7 := by
  rw [← UInt64.toNat_inj, toNat_shiftRight_7]
  show _ = 0 ↔ _
  omega

/-- `v` has `m + 1` digits. -/
structure DigitCount (v m : Nat) : Prop where
  lt : v < 2 ^ (7 * (m + 1))
  ge : m = 0 ∨ 2 ^ (7 * m) ≤ v

theorem DigitCount.succ {v m : Nat} (h : DigitCount (v / 2 ^ 7) m) (hv : 2 ^ 7 ≤ v) : DigitCount v (m + 1) := by
  obtain ⟨hlt, hge⟩ := h
  constructor
  · rw [Nat.mul_succ 7 (m + 1), Nat.pow_add, Nat.mul_comm]
    omega
  · rw [Nat.mul_succ, Nat.pow_add, Nat.mul_comm]
    rcases hge with rfl | hge
    · exact .inr hv
    · exact .inr (by omega)

theorem DigitCount.pred {v m : Nat} (h : DigitCount v (m + 1)) : DigitCount (v / 2 ^ 7) m ∧ 2 ^ 7 ≤ v := by
  obtain ⟨hlt, hge⟩ := h
  rw [Nat.mul_succ 7 (m + 1), Nat.pow_add, Nat.mul_comm] at hlt
  rw [Nat.mul_succ, Nat.pow_add, Nat.mul_comm] at hge
  have hge := hge.resolve_left (Nat.succ_ne_zero m)
  have hpos := Nat.two_pow_pos (7 * m)
  exact ⟨⟨by omega, .inr (by omega)⟩, by omega⟩

theorem varintLenLoop_eq {m f : Nat} {v : UInt64} (hm : m < f) (h : DigitCount v.toNat m) (i : Nat) :
    varintLenLoop f i v = i + m := by
  induction m generalizing f v i with
  | zero =>
    obtain ⟨f, rfl⟩ : ∃ g, f = g + 1 := ⟨f - 1, by omega⟩
    rw [varintLenLoop, if_pos ((shiftRight_7_eq_zero_iff v).2 h.lt)]
    rfl
  | succ m ih =>
    obtain ⟨f, rfl⟩ : ∃ g, f = g + 1 := ⟨f - 1, by omega⟩
    obtain ⟨hdiv, hge⟩ := h.pred
    rw [varintLenLoop, if_neg (fun hz => by have := (shiftRight_7_eq_zero_iff v).1 hz; omega),
      ih (by omega) (by rwa [toNat_shiftRight_7])]
    omega

theorem varintBuf_eq {n f : Nat} {v : UInt64} (hn : 0 < n) (hf : n ≤ f) (hv : v.toNat < 2 ^ (7 * n)) :
    ∃ m < n, DigitCount v.toNat m ∧ varintBuf f v = (varintBytes (m + 1) v).reverse := by
  induction n generalizing f v with
  | zero => omega
  | succ n ih =>
    obtain ⟨f, rfl⟩ : ∃ g, f = g + 1 := ⟨f - 1, by omega⟩
    rw [varintBuf]
    by_cases hzero : v >>> 7 = 0
    · refine ⟨0, Nat.succ_pos _, ⟨(shiftRight_7_eq_zero_iff v).1 hzero, .inl rfl⟩, ?_⟩
      rw [if_pos hzero]
      rfl
    · have hge : 2 ^ 7 ≤ v.toNat := Nat.le_of_not_lt (mt (shiftRight_7_eq_zero_iff v).2 hzero)
      have hlt : v.toNat / 2 ^ 7 < 2 ^ (7 * n) := by
        rw [Nat.mul_succ, Nat.pow_add] at hv
        exact Nat.div_lt_of_lt_mul (by rwa [Nat.mul_comm])
      have hn' : 0 < n := by
        rcases Nat.eq_zero_or_pos n with rfl | h
        · omega
        · exact h
      obtain ⟨m, hm, hcount, hbuf⟩ := ih hn' (Nat.le_of_succ_le_succ hf) (by rwa [toNat_shiftRight_7])
      rw [toNat_shiftRight_7] at hcount
      refine ⟨m + 1, Nat.succ_lt_succ hm, hcount.succ hge, ?_⟩
      rw [if_neg hzero, hbuf, varintBytes_succ (m + 1), List.reverse_append]
      rfl

/-- A varint has the fewest bytes that its value needs, and at most nine. -/
inductive Written (v : UInt64) : List UInt8 → Prop
  | short (m : Nat) (c : UInt8) (hm : m < 8) (hcount : DigitCount v.toNat m) (hc : c.toNat = v.toNat % 2 ^ 7) :
    Written v (varintBytes m (v >>> 7) ++ [c])
  | long (h : 2 ^ 56 ≤ v.toNat) : Written v (varintBytes 8 (v >>> 8) ++ [v.toUInt8])

theorem high_eq_zero_iff (v : UInt64) : v &&& (0xff000000 : UInt64) <<< 32 = 0 ↔ v.toNat < 2 ^ 56 := by
  have hv := v.toNat_lt
  have hmask : ((0xff000000 : UInt64) <<< 32).toNat = 255 * 2 ^ 56 + 0 := rfl
  have hsplit : v.toNat / 2 ^ 56 * 2 ^ 56 + v.toNat % 2 ^ 56 = v.toNat := Nat.div_add_mod' _ _
  have h8 : v.toNat / 2 ^ 56 &&& 255 = v.toNat / 2 ^ 56 := by
    rw [show (255 : Nat) = 2 ^ 8 - 1 from rfl, Nat.and_two_pow_sub_one_eq_mod]
    omega
  have hand := Radix.and_mul_add (Nat.mod_lt v.toNat (Nat.two_pow_pos 56)) (Nat.two_pow_pos 56) (v.toNat / 2 ^ 56) 255
  rw [hsplit, h8, Nat.and_zero] at hand
  rw [← UInt64.toNat_inj, UInt64.toNat_and, hmask, hand]
  show _ = 0 ↔ _
  omega

theorem toNat_and_0x7f (v : UInt64) : (v &&& 0x7f).toUInt8.toNat = v.toNat % 2 ^ 7 := by
  have hand : (v &&& 0x7f).toNat = v.toNat % 2 ^ 7 := by
    rw [UInt64.toNat_and]
    exact Nat.and_two_pow_sub_one_eq_mod v.toNat 7
  rw [UInt64.toNat_toUInt8, hand]
  omega

theorem written_putVarint64 (v : UInt64) : Written v (putVarint64 v) := by
  unfold putVarint64
  by_cases hlt : v.toNat < 2 ^ 56
  · rw [if_neg (not_not.2 ((high_eq_zero_iff v).2 hlt))]
    obtain ⟨m, hm, hcount, hbuf⟩ := varintBuf_eq (n := 8) (f := 10) (by decide) (by decide) hlt
    rw [hbuf, varintBytes, List.reverse_append]
    show Written v ((_ :: (varintBytes m (v >>> 7)).reverse).reverse)
    rw [List.reverse_cons, List.reverse_reverse]
    refine .short m _ hm hcount ?_
    have hmore := toNat_more v
    have hand : ((v &&& 0x7f ||| 0x80).toUInt8 &&& 0x7f).toNat = (v &&& 0x7f ||| 0x80).toUInt8.toNat % 2 ^ 7 := by
      rw [UInt8.toNat_and]
      exact Nat.and_two_pow_sub_one_eq_mod _ 7
    rw [hand, hmore]
    omega
  · rw [if_pos (mt (high_eq_zero_iff v).1 hlt)]
    exact .long (Nat.le_of_not_lt hlt)

theorem written_putVarint (v : UInt64) : Written v (sqlite3PutVarint v) := by
  unfold sqlite3PutVarint
  split
  · rename_i h
    exact .short 0 _ (by decide) ⟨Nat.lt_succ_of_le (UInt64.le_iff_toNat_le.1 h), .inl rfl⟩ (toNat_and_0x7f v)
  · rename_i h
    split
    · rename_i h'
      have hlt : v.toNat < 2 ^ 14 := Nat.lt_succ_of_le (UInt64.le_iff_toNat_le.1 h')
      have hge : 2 ^ 7 ≤ v.toNat := Nat.lt_of_not_le fun hle => h (UInt64.le_iff_toNat_le.2 hle)
      exact .short 1 _ (by decide) ⟨hlt, .inr hge⟩ (toNat_and_0x7f v)
    · exact written_putVarint64 v

/-- What has been written is read back, whatever comes after it. -/
theorem varint_putVarint {p : Memory} {v : UInt64} (h : Holds p 0 (sqlite3PutVarint v)) :
    varint p 8 0 0 = (v.toNat, (sqlite3PutVarint v).length) := by
  have hw := written_putVarint v
  generalize sqlite3PutVarint v = z at h hw
  cases hw with
  | short m c hm hcount hc =>
    obtain ⟨hbefore, hlast⟩ := holds_append.1 h
    rw [length_varintBytes, Nat.zero_add] at hlast
    have hdiv : v.toNat / 2 ^ 7 < 2 ^ (7 * m) := by
      have hlt := hcount.lt
      rw [Nat.mul_succ, Nat.pow_add] at hlt
      exact Nat.div_lt_of_lt_mul (by rwa [Nat.mul_comm])
    have hbyte : (p m).toNat = v.toNat % 2 ^ 7 := by rw [hlast.head, hc]
    have hread := varint_varintBytes (n := 8 - m) hbefore 0
    rw [Nat.sub_add_cancel hm.le, toNat_shiftRight_7, Nat.mod_eq_of_lt hdiv, Nat.mul_zero, Nat.zero_add,
      Nat.zero_add] at hread
    obtain ⟨n, hn⟩ : ∃ n, 8 - m = n + 1 := ⟨7 - m, by omega⟩
    rw [hread, hn, varint_last (by omega), hbyte, Nat.div_add_mod, List.length_append, length_varintBytes]
    rfl
  | long hge =>
    obtain ⟨hbefore, hlast⟩ := holds_append.1 h
    rw [length_varintBytes] at hlast
    have hv := v.toNat_lt
    have hshift : (v >>> 8).toNat = v.toNat / 2 ^ 8 := Nat.shiftRight_eq_div_pow _ _
    have hread := varint_varintBytes (n := 0) hbefore 0
    rw [hshift, Nat.mul_zero, Nat.zero_add, Nat.zero_add, Nat.mod_eq_of_lt (by omega)] at hread
    rw [hread, varint, hlast.head, UInt64.toNat_toUInt8, Nat.div_add_mod]
    rfl

theorem sqlite3GetVarint_putVarint {p : Memory} {v : UInt64} (h : Holds p 0 (sqlite3PutVarint v)) :
    sqlite3GetVarint p = (v, (sqlite3PutVarint v).length) := by
  obtain ⟨hvalue, hsize⟩ := sqlite3GetVarint_eq p
  rw [varint_putVarint h] at hvalue hsize
  exact Prod.ext (UInt64.toNat_inj.1 hvalue) hsize

/-- `sqlite3VarintLen` gives the number of bytes that are written, except where the highest bit is set. -/
theorem sqlite3VarintLen_eq_iff (v : UInt64) :
    sqlite3VarintLen v = (sqlite3PutVarint v).length ↔ v.toNat < 2 ^ 63 := by
  have hv := v.toNat_lt
  have hw := written_putVarint v
  generalize sqlite3PutVarint v = z at hw
  rw [sqlite3VarintLen]
  cases hw with
  | short m c hm hcount hc =>
    have hlt : 2 ^ (7 * (m + 1)) ≤ 2 ^ 56 := Nat.pow_le_pow_right (by decide) (by omega)
    have hcount' := hcount.lt
    rw [varintLenLoop_eq (Nat.lt_trans hm (by decide)) hcount, List.length_append, length_varintBytes, Nat.add_comm]
    exact iff_of_true rfl (by omega)
  | long hge =>
    have hlen : (varintBytes 8 (v >>> 8) ++ [v.toUInt8]).length = 9 := by
      rw [List.length_append, length_varintBytes, List.length_singleton]
    rw [hlen]
    by_cases hlt : v.toNat < 2 ^ 63
    · rw [varintLenLoop_eq (m := 8) (by decide) ⟨hlt, .inr hge⟩]
      exact iff_of_true rfl hlt
    · rw [varintLenLoop_eq (m := 9) (by decide) ⟨by omega, .inr (Nat.le_of_not_lt hlt)⟩]
      exact iff_of_false (by decide) hlt

/-- `sqlite3GetVarint32` reads the same number, or the greatest one of 32 bits if that does not fit. -/
theorem sqlite3GetVarint32_eq (p : Memory) :
    (sqlite3GetVarint32 p).1.toNat = min (varint p 8 0 0).1 (2 ^ 32 - 1) ∧
      (sqlite3GetVarint32 p).2 = (varint p 8 0 0).2 := by
  obtain ⟨hvalue, hsize⟩ := sqlite3GetVarint_eq p
  rw [← hvalue, ← hsize]
  have hsmall : ∀ a : UInt32, a.toNat = min a.toUInt64.toNat (2 ^ 32 - 1) := by
    intro a
    have ha := a.toNat_lt
    rw [UInt32.toNat_toUInt64]
    omega
  by_cases h0 : (p 0).toUInt32 &&& 0x80 = 0
  · rw [sqlite3GetVarint32, sqlite3GetVarint, if_pos h0, if_pos h0]
    exact ⟨hsmall _, rfl⟩
  by_cases h1 : (p 1).toUInt32 &&& 0x80 = 0
  · rw [sqlite3GetVarint32, sqlite3GetVarint, if_neg h0, if_neg h0, if_pos h1, if_pos h1]
    exact ⟨hsmall _, rfl⟩
  by_cases h2 : ((p 0).toUInt32 <<< 14 ||| (p 2).toUInt32) &&& 0x80 = 0
  · rw [sqlite3GetVarint32, sqlite3GetVarint, if_neg h0, if_neg h0, if_neg h1, if_neg h1, if_pos h2, if_pos h2]
    exact ⟨hsmall _, rfl⟩
  rw [sqlite3GetVarint32, if_neg h0, if_neg h1, if_neg h2]
  refine ⟨?_, rfl⟩
  have hmask : ∀ v : UInt64, (v &&& 0xffffffff).toNat = v.toNat % 2 ^ 32 := by
    intro v
    rw [UInt64.toNat_and]
    exact Nat.and_two_pow_sub_one_eq_mod v.toNat 32
  dsimp only
  generalize (sqlite3GetVarint p).1 = v at hmask
  split
  · rename_i hne
    have hge : ¬ v.toNat < 2 ^ 32 := fun hlt => hne (UInt64.toNat_inj.1 (by rw [hmask, Nat.mod_eq_of_lt hlt]))
    show 2 ^ 32 - 1 = _
    omega
  · rename_i heq
    have hlt : v.toNat = v.toNat % 2 ^ 32 := by
      rw [← hmask, not_not.1 heq]
    rw [UInt64.toNat_toUInt32]
    omega

/-! ### Both directions -/

/-- A number of `n` digits. -/
theorem varint_lt (p : Memory) (n k v : Nat) : k < (varint p n k v).2 ∧ (varint p n k v).2 ≤ k + n + 1 ∧
    ((varint p n k v).2 ≤ k + n → (varint p n k v).1 < (v + 1) * 2 ^ (7 * ((varint p n k v).2 - k))) := by
  induction n generalizing k v with
  | zero =>
    refine ⟨Nat.lt_succ_self k, Nat.le_refl _, fun h => ?_⟩
    exact absurd h (Nat.not_succ_le_self k)
  | succ n ih =>
    by_cases hlast : (p k).toNat < 2 ^ 7
    · rw [varint_last hlast]
      refine ⟨Nat.lt_succ_self k, by dsimp only; omega, fun _ => ?_⟩
      rw [Nat.add_sub_cancel_left]
      dsimp only
      omega
    · rw [varint_more hlast]
      obtain ⟨hpos, hle, hlt⟩ := ih (k + 1) (2 ^ 7 * v + (p k).toNat % 2 ^ 7)
      generalize varint p n (k + 1) (2 ^ 7 * v + (p k).toNat % 2 ^ 7) = r at hpos hle hlt
      refine ⟨by omega, by omega, fun h => ?_⟩
      have hdigit : (p k).toNat % 2 ^ 7 < 2 ^ 7 := Nat.mod_lt _ (by decide)
      have hsplit : r.2 - k = r.2 - (k + 1) + 1 := by omega
      rw [hsplit, Nat.mul_succ, Nat.pow_add, Nat.mul_comm (2 ^ _), ← Nat.mul_assoc]
      exact Nat.lt_of_lt_of_le (hlt (by omega)) (Nat.mul_le_mul_right _ (by omega))

/-- Any varint of the same number is at least as long as the one that is written. -/
theorem length_putVarint_le {q : Memory} {v : UInt64} (h : (varint q 8 0 0).1 = v.toNat) :
    (sqlite3PutVarint v).length ≤ (varint q 8 0 0).2 := by
  obtain ⟨hpos, hle, hlt⟩ := varint_lt q 8 0 0
  rw [h] at hlt
  have hw := written_putVarint v
  generalize sqlite3PutVarint v = z at hw
  generalize (varint q 8 0 0).2 = n at hpos hle hlt
  have hmono : ∀ {m : Nat}, n ≤ m → 2 ^ (7 * (n - 0)) ≤ 2 ^ (7 * m) := fun hnm =>
    Nat.pow_le_pow_right (by decide) (by omega)
  cases hw with
  | short m c hm hcount hc =>
    rw [List.length_append, length_varintBytes, List.length_singleton]
    rcases hcount.ge with rfl | hge
    · omega
    · refine Nat.lt_of_not_le fun hnm => ?_
      have hpow := hmono hnm
      have hshort := hlt (by omega)
      omega
  | long hge =>
    rw [List.length_append, length_varintBytes, List.length_singleton]
    refine Nat.lt_of_not_le fun hnm => ?_
    have hpow := hmono hnm
    have hshort := hlt (by omega)
    omega

/-- On any bytes both readers do what a loop over the bytes does, and `sqlite3GetVarint32` stops at the greatest number
of 32 bits. -/
theorem getVarint_reads_bytes (p : Memory) :
    ((sqlite3GetVarint p).1.toNat, (sqlite3GetVarint p).2) = varint p 8 0 0 ∧
      ((sqlite3GetVarint32 p).1.toNat, (sqlite3GetVarint32 p).2) =
        (min (varint p 8 0 0).1 (2 ^ 32 - 1), (varint p 8 0 0).2) := by
  obtain ⟨hvalue, hsize⟩ := sqlite3GetVarint_eq p
  obtain ⟨hvalue32, hsize32⟩ := sqlite3GetVarint32_eq p
  exact ⟨Prod.ext hvalue hsize, Prod.ext hvalue32 hsize32⟩

/-- A number that is written is read back with its length, no varint of it is shorter, and `sqlite3VarintLen` gives this
length except where the highest bit is set. -/
theorem putVarint_read_back {p : Memory} {v : UInt64} (h : Holds p 0 (sqlite3PutVarint v)) :
    sqlite3GetVarint p = (v, (sqlite3PutVarint v).length) ∧
      (∀ q, (sqlite3GetVarint q).1 = v → (sqlite3PutVarint v).length ≤ (sqlite3GetVarint q).2) ∧
      (sqlite3VarintLen v = (sqlite3PutVarint v).length ↔ v.toNat < 2 ^ 63) := by
  refine ⟨sqlite3GetVarint_putVarint h, fun q hq => ?_, sqlite3VarintLen_eq_iff v⟩
  obtain ⟨hvalue, hsize⟩ := sqlite3GetVarint_eq q
  rw [hq] at hvalue
  rw [hsize]
  exact length_putVarint_le hvalue.symm

theorem putVarint_read_back_300 : sqlite3GetVarint (fun i => [0x82, 0x2c, 0x07].getD i 0) = (300, 2) :=
  (putVarint_read_back (show Holds (fun i => [0x82, 0x2c, 0x07].getD i 0) 0 (sqlite3PutVarint 300) by
    unfold Holds
    decide)).1

end Sqlite4a
