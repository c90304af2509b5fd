import Mathlib.Data.List.Basic
import Mathlib.Tactic.Common

/-!
# Modified UTF-8

Strings of 16-bit code units are written in modified UTF-8: one byte for the units from 1 to 0x7F, two for 0 and those
up to 0x7FF, three for the others, a surrogate being a unit like any other.  No byte of the encoding is zero
(`encode_nonzero`), and `decode` accepts exactly the encodings and gives their strings back (`decode_eq_some_iff`).

Standard UTF-8, `String.utf8EncodeChar`, writes a code point the same way unless it is 0, which it writes as one zero
byte, or lies above 0xFFFF, where it writes four bytes and modified UTF-8 a pair of surrogates; a text in standard UTF-8
is a prefix of the same text in modified UTF-8 only where it has no such code point (`utf8_prefix_iff`).
-/

namespace Mutf8

/-! ### The encoding -/

def encodeUnit (u : UInt16) : List UInt8 :=
  let v := u.toNat
  if 0 < v ∧ v ≤ 0x7f then [.ofNat v]
  else if v ≤ 0x7ff then [.ofNat (v / 64 % 0x20 + 0xc0), .ofNat (v % 0x40 + 0x80)]
  else [.ofNat (v / 4096 % 0x10 + 0xe0), .ofNat (v / 64 % 0x40 + 0x80), .ofNat (v % 0x40 + 0x80)]

def encode (s : List UInt16) : List UInt8 := s.flatMap encodeUnit

@[simp] theorem encode_nil : encode [] = [] := rfl

@[simp] theorem encode_cons (u : UInt16) (s : List UInt16) : encode (u :: s) = encodeUnit u ++ encode s := rfl

@[simp] theorem encode_append (s t : List UInt16) : encode (s ++ t) = encode s ++ encode t := List.flatMap_append

/-- A byte `10xxxxxx`. -/
def IsTail (b : UInt8) : Prop := 0x80 ≤ b.toNat ∧ b.toNat ≤ 0xbf

instance (b : UInt8) : Decidable (IsTail b) := inferInstanceAs (Decidable (_ ∧ _))

/-- Reads units of one, two and three bytes, and refuses a form longer than its unit needs. -/
def decode : List UInt8 → Option (List UInt16)
  | [] => some []
  | a :: rest =>
    if 0 < a.toNat ∧ a.toNat ≤ 0x7f then (decode rest).map (.ofNat a.toNat :: ·)
    else
      match rest with
      | [] => none
      | b :: rest =>
        if 0xc0 ≤ a.toNat ∧ a.toNat ≤ 0xdf then
          let v := (a.toNat - 0xc0) * 64 + (b.toNat - 0x80)
          if IsTail b ∧ (v = 0 ∨ 0x80 ≤ v) then (decode rest).map (.ofNat v :: ·) else none
        else
          match rest with
          | [] => none
          | c :: rest =>
            let v := (a.toNat - 0xe0) * 4096 + (b.toNat - 0x80) * 64 + (c.toNat - 0x80)
            if 0xe0 ≤ a.toNat ∧ a.toNat ≤ 0xef ∧ IsTail b ∧ IsTail c ∧ 0x800 ≤ v then
              (decode rest).map (.ofNat v :: ·)
            else none

private theorem toNat_ofNat8 {n : Nat} (h : n < 256) : (UInt8.ofNat n).toNat = n := UInt8.toNat_ofNat_of_lt' h

private theorem toNat_ofNat16 {n : Nat} (h : n < 65536) : (UInt16.ofNat n).toNat = n := UInt16.toNat_ofNat_of_lt' h

/-- A unit is read back from the front of a text. -/
theorem decode_encodeUnit_append (u : UInt16) (rest : List UInt8) :
    decode (encodeUnit u ++ rest) = (decode rest).map (u :: ·) := by
  have hu : u.toNat < 65536 := u.toNat_lt
  unfold encodeUnit
  dsimp only
  split
  · rename_i h
    have ha := toNat_ofNat8 (n := u.toNat) (by omega)
    rw [List.singleton_append, decode.eq_def]
    dsimp only
    rw [ha, if_pos h, UInt16.ofNat_toNat]
  · rename_i h1
    split
    · rename_i h2
      have ha := toNat_ofNat8 (n := u.toNat / 64 % 0x20 + 0xc0) (by omega)
      have hb := toNat_ofNat8 (n := u.toNat % 0x40 + 0x80) (by omega)
      have hv : (u.toNat / 64 % 0x20 + 0xc0 - 0xc0) * 64 + (u.toNat % 0x40 + 0x80 - 0x80) = u.toNat := by omega
      rw [List.cons_append, decode.eq_def]
      simp only [List.cons_append, List.nil_append, IsTail, ha, hb, hv, UInt16.ofNat_toNat]
      rw [if_neg (by omega), if_pos (by omega), if_pos (by omega)]
    · rename_i h2
      have ha := toNat_ofNat8 (n := u.toNat / 4096 % 0x10 + 0xe0) (by omega)
      have hb := toNat_ofNat8 (n := u.toNat / 64 % 0x40 + 0x80) (by omega)
      have hc := toNat_ofNat8 (n := u.toNat % 0x40 + 0x80) (by omega)
      have hv : (u.toNat / 4096 % 0x10 + 0xe0 - 0xe0) * 4096 + (u.toNat / 64 % 0x40 + 0x80 - 0x80) * 64 +
          (u.toNat % 0x40 + 0x80 - 0x80) = u.toNat := by omega
      rw [List.cons_append, decode.eq_def]
      simp only [List.cons_append, List.nil_append, IsTail, ha, hb, hc, hv, UInt16.ofNat_toNat]
      rw [if_neg (by omega), if_neg (by omega), if_pos (by omega)]

@[simp] theorem decode_encode (s : List UInt16) : decode (encode s) = some s := by
  induction s with
  | nil => rfl
  | cons u s ih => rw [encode_cons, decode_encodeUnit_append, ih, Option.map_some]

private theorem encodeUnit_one {v : Nat} (hpos : 0 < v) (hle : v ≤ 0x7f) : encodeUnit (.ofNat v) = [.ofNat v] := by
  simp only [encodeUnit, toNat_ofNat16 (n := v) (by omega)]
  rw [if_pos ⟨hpos, hle⟩]

private theorem encodeUnit_two {v : Nat} (hlo : v = 0 ∨ 0x80 ≤ v) (hle : v ≤ 0x7ff) :
    encodeUnit (.ofNat v) = [.ofNat (v / 64 % 0x20 + 0xc0), .ofNat (v % 0x40 + 0x80)] := by
  simp only [encodeUnit, toNat_ofNat16 (n := v) (by omega)]
  rw [if_neg (by omega), if_pos hle]

private theorem encodeUnit_three {v : Nat} (hlo : 0x800 ≤ v) (hlt : v < 65536) :
    encodeUnit (.ofNat v) =
      [.ofNat (v / 4096 % 0x10 + 0xe0), .ofNat (v / 64 % 0x40 + 0x80), .ofNat (v % 0x40 + 0x80)] := by
  simp only [encodeUnit, toNat_ofNat16 (n := v) hlt]
  rw [if_neg (by omega), if_neg (by omega)]

private theorem ofNat8_eq {a : UInt8} {n : Nat} (h : n = a.toNat) : UInt8.ofNat n = a := by
  rw [h, UInt8.ofNat_toNat]

/-- Only encodings are accepted. -/
theorem encode_of_decode {z : List UInt8} {s : List UInt16} (h : decode z = some s) : encode s = z := by
  fun_induction decode z generalizing s with
  | case1 => cases h; rfl
  | case2 a rest ha ih =>
    obtain ⟨s, hs, rfl⟩ := Option.map_eq_some_iff.1 h
    rw [encode_cons, ih hs, encodeUnit_one ha.1 ha.2, UInt8.ofNat_toNat, List.singleton_append]
  | case4 a ha b rest hlead v hb =>
    rename_i ih
    obtain ⟨s, hs, rfl⟩ := Option.map_eq_some_iff.1 h
    have hval : v = (a.toNat - 0xc0) * 64 + (b.toNat - 0x80) := rfl
    obtain ⟨⟨hlo, hhi⟩, hv⟩ := hb
    rw [encode_cons, ih hs, encodeUnit_two hv (by omega), ofNat8_eq (a := a) (by omega), ofNat8_eq (a := b) (by omega)]
    rfl
  | case7 a ha b hlead c rest v hc =>
    rename_i ih
    obtain ⟨s, hs, rfl⟩ := Option.map_eq_some_iff.1 h
    have hval : v = (a.toNat - 0xe0) * 4096 + (b.toNat - 0x80) * 64 + (c.toNat - 0x80) := rfl
    obtain ⟨halo, hahi, ⟨hblo, hbhi⟩, ⟨hclo, hchi⟩, hv⟩ := hc
    rw [encode_cons, ih hs, encodeUnit_three hv (by omega), ofNat8_eq (a := a) (by omega),
      ofNat8_eq (a := b) (by omega), ofNat8_eq (a := c) (by omega)]
    rfl
  | _ => cases h

theorem decode_eq_some_iff {z : List UInt8} {s : List UInt16} : decode z = some s ↔ encode s = z := by
  constructor
  · exact encode_of_decode
  · rintro rfl
    exact decode_encode s

private theorem ofNat8_ne_zero {n : Nat} (hpos : 0 < n) (hlt : n < 256) : UInt8.ofNat n ≠ 0 := by
  intro h
  have hnat := congrArg UInt8.toNat h
  rw [toNat_ofNat8 hlt] at hnat
  exact Nat.ne_of_gt hpos hnat

theorem encodeUnit_nonzero {u : UInt16} {b : UInt8} (h : b ∈ encodeUnit u) : b ≠ 0 := by
  have hu : u.toNat < 65536 := u.toNat_lt
  unfold encodeUnit at h
  dsimp only at h
  split at h
  · obtain rfl := List.mem_singleton.1 h
    exact ofNat8_ne_zero (by omega) (by omega)
  · split at h <;> simp only [List.mem_cons, List.not_mem_nil, or_false] at h
    · rcases h with rfl | rfl <;> exact ofNat8_ne_zero (by omega) (by omega)
    · rcases h with rfl | rfl | rfl <;> exact ofNat8_ne_zero (by omega) (by omega)

theorem encode_nonzero {s : List UInt16} {b : UInt8} (h : b ∈ encode s) : b ≠ 0 := by
  obtain ⟨u, -, hb⟩ := List.mem_flatMap.1 h
  exact encodeUnit_nonzero hb

/-! ### Standard UTF-8 -/

/-- The code units of a code point: itself, or a pair of surrogates. -/
def utf16Char (c : Char) : List UInt16 :=
  let v := c.toNat
  if v ≤ 0xffff then [.ofNat v]
  else [.ofNat (0xd800 + (v - 0x10000) / 0x400), .ofNat (0xdc00 + (v - 0x10000) % 0x400)]

def utf16 (cs : List Char) : List UInt16 := cs.flatMap utf16Char

def utf8 (cs : List Char) : List UInt8 := cs.flatMap String.utf8EncodeChar

@[simp] theorem utf16_cons (c : Char) (cs : List Char) : utf16 (c :: cs) = utf16Char c ++ utf16 cs := rfl

@[simp] theorem utf8_cons (c : Char) (cs : List Char) : utf8 (c :: cs) = String.utf8EncodeChar c ++ utf8 cs := rfl

/-- A code point that both encodings write the same way. -/
def IsPlain (c : Char) : Prop := c.toNat ≠ 0 ∧ c.toNat ≤ 0xffff

theorem encode_utf16Char_of_isPlain {c : Char} (h : IsPlain c) : encode (utf16Char c) = String.utf8EncodeChar c := by
  obtain ⟨hne, hle⟩ := h
  have hv := toNat_ofNat16 (n := c.toNat) (by omega)
  have hval : c.val.toNat = c.toNat := rfl
  simp only [utf16Char, if_pos hle, encode_cons, encode_nil, List.append_nil, encodeUnit, hv, String.utf8EncodeChar,
    hval]
  by_cases h1 : c.toNat ≤ 0x7f
  · rw [if_pos ⟨by omega, h1⟩, if_pos h1]
  · rw [if_neg (by omega), if_neg h1]

private theorem encode_utf16Char_ne_nil (c : Char) : encode (utf16Char c) ≠ [] := by
  have hunit : ∀ u s, encode (u :: s) ≠ [] := by
    intro u s h
    rw [encode_cons, List.append_eq_nil_iff] at h
    unfold encodeUnit at h
    dsimp only at h
    split at h
    · cases h.1
    · split at h <;> cases h.1
  unfold utf16Char
  dsimp only
  split <;> exact hunit _ _

/-- Otherwise the two differ in the first byte. -/
theorem head_ne_of_not_isPlain {c : Char} (h : ¬ IsPlain c) :
    (String.utf8EncodeChar c).head? ≠ (encode (utf16Char c)).head? := by
  have hval : c.val.toNat = c.toNat := rfl
  have hlt : c.toNat < 0x110000 := by
    rcases c.valid with hc | hc <;> rw [hval] at * <;> omega
  unfold IsPlain at h
  by_cases hz : c.toNat = 0
  · -- one byte 0 against the form 0xC0 0x80
    simp only [utf16Char, hz, String.utf8EncodeChar, hval]
    decide
  · have hbig : 0xffff < c.toNat := by omega
    -- four bytes from 0xF0 on against a surrogate from 0xED on
    simp only [utf16Char, String.utf8EncodeChar, hval]
    rw [if_neg (by omega), if_neg (by omega), if_neg (by omega), if_neg (by omega), encode_cons,
      encodeUnit_three (by omega) (by omega)]
    simp only [List.cons_append, List.head?_cons, ne_eq, Option.some.injEq]
    intro he
    have hnat := congrArg UInt8.toNat he
    rw [toNat_ofNat8 (by omega), toNat_ofNat8 (by omega)] at hnat
    omega

theorem utf8_prefix_iff (cs : List Char) : utf8 cs <+: encode (utf16 cs) ↔ ∀ c ∈ cs, IsPlain c := by
  induction cs with
  | nil => simp [utf8]
  | cons c cs ih =>
    rw [List.forall_mem_cons, ← ih, utf8_cons, utf16_cons, encode_append]
    by_cases hc : IsPlain c
    · rw [encode_utf16Char_of_isPlain hc, List.prefix_append_right_inj]
      exact (and_iff_right hc).symm
    · refine iff_of_false ?_ fun h => hc h.1
      rintro ⟨t, ht⟩
      have hhead := congrArg List.head? ht
      rw [List.append_assoc, List.head?_append_of_ne_nil _ String.utf8EncodeChar_ne_nil,
        List.head?_append_of_ne_nil _ (encode_utf16Char_ne_nil c)] at hhead
      exact head_ne_of_not_isPlain hc hhead

theorem encode_utf16_of_isPlain {cs : List Char} (h : ∀ c ∈ cs, IsPlain c) : encode (utf16 cs) = utf8 cs := by
  induction cs with
  | nil => rfl
  | cons c cs ih =>
    rw [List.forall_mem_cons] at h
    rw [utf16_cons, encode_append, utf8_cons, encode_utf16Char_of_isPlain h.1, ih h.2]

/-- A text in standard UTF-8 is read as its own code points only where it is modified UTF-8 as well. -/
theorem decode_utf8_iff (cs : List Char) : decode (utf8 cs) = some (utf16 cs) ↔ ∀ c ∈ cs, IsPlain c := by
  rw [decode_eq_some_iff]
  constructor
  · intro h
    have hpre : utf8 cs <+: encode (utf16 cs) := h ▸ List.prefix_rfl
    exact (utf8_prefix_iff cs).1 hpre
  · exact encode_utf16_of_isPlain

private theorem utf8EncodeChar_nonzero {c : Char} (hc : c.toNat ≠ 0) {b : UInt8} (hb : b ∈ String.utf8EncodeChar c) :
    b ≠ 0 := by
  have hval : c.val.toNat = c.toNat := rfl
  unfold String.utf8EncodeChar at hb
  simp only [hval] at hb
  split at hb
  · obtain rfl := List.mem_singleton.1 hb
    exact ofNat8_ne_zero (by omega) (by omega)
  · split at hb
    · simp only [List.mem_cons, List.not_mem_nil, or_false] at hb
      rcases hb with rfl | rfl <;> exact ofNat8_ne_zero (by omega) (by omega)
    · split at hb <;> simp only [List.mem_cons, List.not_mem_nil, or_false] at hb
      · rcases hb with rfl | rfl | rfl <;> exact ofNat8_ne_zero (by omega) (by omega)
      · rcases hb with rfl | rfl | rfl | rfl <;> exact ofNat8_ne_zero (by omega) (by omega)

theorem utf8_nonzero {cs : List Char} (h : ∀ c ∈ cs, c.toNat ≠ 0) {b : UInt8} (hb : b ∈ utf8 cs) : b ≠ 0 := by
  obtain ⟨c, hc, hm⟩ := List.mem_flatMap.1 hb
  exact utf8EncodeChar_nonzero (h c hc) hm

end Mutf8
