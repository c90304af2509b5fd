import Mathlib

/-!
# Integers in the binary64 format

The conversions of a 64-bit integer to a binary64 number and back, in exact arithmetic.  The format and its operations
are those of `Float.Model`.  On the way there a magnitude is rounded to 53 significant bits, a tie to the even
significand (`round53`); on the way back nothing is lost but what does not fit into the range (`toInt64_ofInt64`).  So
exactly the integers with at most 53 significant bits come back, and the greatest one, which is rounded up and then
clamped (`toInt64_ofInt64_eq_iff`).
-/

namespace Binary64

open Float.Model (Format totalExponent)
open Float.Model.UnpackedFloat

/-! ### Exact arithmetic -/

/-- The integer nearest to `m / p`; of two that are equally near, the even one. -/
def nearest (m p : Nat) : Nat :=
  if 2 * (m % p) < p ∨ 2 * (m % p) = p ∧ m / p % 2 = 0 then m / p else m / p + 1

/-- How many bits of `m` come after the first 53. -/
def excess (m : Nat) : Nat := m.log2 - 52

/-- The number with at most 53 significant bits that is nearest to `m`. -/
def round53 (m : Nat) : Nat := nearest m (2 ^ excess m) * 2 ^ excess m

/-- At most 53 significant bits. -/
def Exact (m : Nat) : Prop := ∃ c e, c < 2 ^ 53 ∧ m = c * 2 ^ e

theorem nearest_of_dvd {m p : Nat} (hp : 0 < p) (h : p ∣ m) : nearest m p = m / p := by
  rw [nearest, Nat.mod_eq_zero_of_dvd h, if_pos (.inl hp)]

theorem nearest_le (m p : Nat) : m / p ≤ nearest m p ∧ nearest m p ≤ m / p + 1 := by
  unfold nearest
  split <;> omega

/-- Without the excess there are at most 53 bits, and exactly 53 where there was one. -/
theorem div_excess_lt (m : Nat) : m / 2 ^ excess m < 2 ^ 53 := by
  rw [Nat.div_lt_iff_lt_mul (Nat.two_pow_pos _), ← Nat.pow_add]
  refine Nat.lt_of_lt_of_le Nat.lt_log2_self (Nat.pow_le_pow_right (by decide) ?_)
  unfold excess
  omega

theorem le_div_excess {m : Nat} (h : 52 ≤ m.log2) : 2 ^ 52 ≤ m / 2 ^ excess m := by
  have hm : m ≠ 0 := by
    rintro rfl
    simp at h
  rw [Nat.le_div_iff_mul_le (Nat.two_pow_pos _), ← Nat.pow_add]
  refine Nat.le_trans (Nat.pow_le_pow_right (by decide) ?_) (Nat.log2_self_le hm)
  unfold excess
  omega

theorem exact_round53 (m : Nat) : Exact (round53 m) := by
  have hlt := div_excess_lt m
  have hle := (nearest_le m (2 ^ excess m)).2
  by_cases hr : nearest m (2 ^ excess m) < 2 ^ 53
  · exact ⟨_, _, hr, rfl⟩
  · -- the carry into the next binade
    have he : nearest m (2 ^ excess m) = 2 ^ 53 := by omega
    refine ⟨1, 53 + excess m, by decide, ?_⟩
    rw [round53, he, Nat.one_mul, Nat.pow_add]

theorem round53_of_exact {m : Nat} (h : Exact m) : round53 m = m := by
  obtain ⟨c, e, hc, rfl⟩ := h
  have hdvd : 2 ^ excess (c * 2 ^ e) ∣ c * 2 ^ e := by
    refine Nat.dvd_trans (Nat.pow_dvd_pow 2 ?_) (Nat.dvd_mul_left _ _)
    by_cases h0 : c * 2 ^ e = 0
    · simp [excess, h0]
    · have hlt : c * 2 ^ e < 2 ^ (53 + e) := by
        rw [Nat.pow_add]
        exact Nat.mul_lt_mul_of_pos_right hc (Nat.two_pow_pos e)
      have hlog := (Nat.log2_lt h0).2 hlt
      unfold excess
      omega
  rw [round53, nearest_of_dvd (Nat.two_pow_pos _) hdvd, Nat.div_mul_cancel hdvd]

theorem round53_eq_iff {m : Nat} : round53 m = m ↔ Exact m := by
  constructor
  · intro h
    rw [← h]
    exact exact_round53 m
  · exact round53_of_exact

theorem round53_le_two_pow {m k : Nat} (h : m ≤ 2 ^ k) : round53 m ≤ 2 ^ k := by
  rcases Nat.lt_or_eq_of_le h with hlt | rfl
  · by_cases hk : m.log2 ≤ 52
    · have he : excess m = 0 := by
        unfold excess
        omega
      rw [round53_of_exact]
      · exact h
      · refine ⟨m, 0, ?_, by simp⟩
        exact Nat.lt_of_lt_of_le Nat.lt_log2_self (Nat.pow_le_pow_right (by decide) (by omega))
    · have hm : m ≠ 0 := by
        rintro rfl
        simp at hk
      have hlog := (Nat.log2_lt hm).2 hlt
      have hle : nearest m (2 ^ excess m) ≤ 2 ^ 53 :=
        Nat.le_trans (nearest_le m _).2 (div_excess_lt m)
      calc round53 m ≤ 2 ^ 53 * 2 ^ excess m := Nat.mul_le_mul_right _ hle
        _ = 2 ^ (53 + excess m) := (Nat.pow_add ..).symm
        _ ≤ 2 ^ k := Nat.pow_le_pow_right (by decide) (by unfold excess; omega)
  · rw [round53_of_exact ⟨1, k, by decide, (Nat.one_mul _).symm⟩]

/-! ### Rounding -/

/-- The two residual bits of a shifted mantissa compare the bits shifted out with half a unit. -/
theorem shiftRight_residual (m k : Nat) :
    let em := (⟨m, false, false⟩ : ExtendedMantissa) >>> k
    em.mantissa = m / 2 ^ k ∧ (em.roundBit = true ↔ 2 ^ k ≤ 2 * (m % 2 ^ k)) ∧
      (em.stickyBit = true ↔ m % 2 ^ k ≠ 0 ∧ 2 * (m % 2 ^ k) ≠ 2 ^ k) := by
  induction k with
  | zero =>
    refine ⟨?_, ?_, ?_⟩
    · exact (Nat.div_one m).symm
    all_goals simp [HShiftRight.hShiftRight, Nat.repeat, Nat.mod_one]
  | succ k ih =>
    intro em
    have hem : em = ((⟨m, false, false⟩ : ExtendedMantissa) >>> k).shiftRightOne := rfl
    generalize (⟨m, false, false⟩ : ExtendedMantissa) >>> k = em' at ih hem
    obtain ⟨hmant, hround, hsticky⟩ := ih
    have hlt : m % 2 ^ k < 2 ^ k := Nat.mod_lt _ (Nat.two_pow_pos k)
    have hpow : 2 ^ (k + 1) = 2 * 2 ^ k := by rw [Nat.pow_succ, Nat.mul_comm]
    have hmod : m % 2 ^ (k + 1) = m % 2 ^ k + 2 ^ k * (m / 2 ^ k % 2) := by rw [Nat.pow_succ, Nat.mod_mul]
    have hbit : m / 2 ^ k % 2 = 0 ∨ m / 2 ^ k % 2 = 1 := by omega
    rw [hem]
    refine ⟨?_, ?_, ?_⟩
    · rw [Nat.pow_succ, ← Nat.div_div_eq_div_mul, ← hmant]
      rfl
    · have hnew : em'.shiftRightOne.roundBit = true ↔ m / 2 ^ k % 2 = 1 := by
        rw [← hmant]
        simp [ExtendedMantissa.shiftRightOne]
      rw [hnew, hmod, hpow]
      generalize 2 ^ k = p at *
      rcases hbit with hb | hb <;> rw [hb] <;> omega
    · have hnew : em'.shiftRightOne.stickyBit = true ↔ em'.roundBit = true ∨ em'.stickyBit = true := by
        simp [ExtendedMantissa.shiftRightOne]
      rw [hnew, hround, hsticky, hmod, hpow]
      generalize 2 ^ k = p at *
      rcases hbit with hb | hb <;> rw [hb] <;> omega

theorem roundedMantissa_shiftRight (m k : Nat) :
    ((⟨m, false, false⟩ : ExtendedMantissa) >>> k).roundedMantissa = nearest m (2 ^ k) := by
  obtain ⟨hmant, hround, hsticky⟩ := shiftRight_residual m k
  have hpos := Nat.two_pow_pos k
  revert hmant hround hsticky
  generalize (⟨m, false, false⟩ : ExtendedMantissa) >>> k = em
  generalize 2 ^ k = p at *
  rcases em with ⟨q, b, t⟩
  rintro rfl hround hsticky
  unfold nearest
  cases b <;> cases t <;>
    simp only [ExtendedMantissa.roundedMantissa, ExtendedMantissa.accuracy, Accuracy.roundToNearestEven] <;>
    simp at hround hsticky <;> split <;> omega

theorem targetExponent_eq {m : Nat} {e : Int} (h : -1022 ≤ m.log2 + e) :
    Format.binary64.targetExponent (totalExponent m e) = m.log2 - 52 + e := by
  simp only [Format.targetExponent, totalExponent, Format.mantissaBits, Format.minExponent]
  omega

/-- A mantissa of 53 bits or more is shifted by its excess. -/
theorem shiftToTargetExponent_eq {m : Nat} {e : Int} (hm : 52 ≤ m.log2) (he : -1074 ≤ e) :
    shiftToTargetExponent Format.binary64 m e .exact =
      ((⟨m, false, false⟩ : ExtendedMantissa) >>> excess m, e + excess m) := by
  have hk : (m.log2 - 52 + e - e : Int).toNat = excess m := by
    unfold excess
    omega
  rw [shiftToTargetExponent, targetExponent_eq (by omega), shiftToExponent, hk]
  rfl

theorem roundWithAccuracy_of_shift {spec : Format} {s : Sign} {m : Nat} {e e₁ e₂ : Int} {em₁ em₂ : ExtendedMantissa}
    (h₁ : shiftToTargetExponent spec m e .exact = (em₁, e₁))
    (h₂ : shiftToTargetExponent spec em₁.roundedMantissa e₁ .exact = (em₂, e₂)) (hpos : 0 < em₂.mantissa) :
    roundWithAccuracy spec s m e .exact = .finite s em₂.mantissa e₂ hpos := by
  simp [roundWithAccuracy, h₁, h₂, Nat.ne_of_gt hpos]

/-- A rounded mantissa is exact, also where the rounding has carried into a 54th bit. -/
theorem excess_rounded {r : Nat} (hlo : 2 ^ 52 ≤ r) (hhi : r ≤ 2 ^ 53) :
    52 ≤ r.log2 ∧ excess r ≤ 1 ∧ r / 2 ^ excess r * 2 ^ excess r = r := by
  rcases Nat.lt_or_eq_of_le hhi with hr | rfl
  · have hlog : r.log2 = 52 := (Nat.log2_eq_iff (by omega)).2 ⟨hlo, hr⟩
    have he : excess r = 0 := by
      unfold excess
      omega
    refine ⟨by omega, by omega, ?_⟩
    rw [he]
    simp
  · exact ⟨by decide, by decide, by decide⟩

theorem roundWithAccuracy_eq {s : Sign} {m : Nat} {e : Int} (hm : 52 ≤ m.log2) (he : -1074 ≤ e) :
    ∃ (c : Nat) (x : Nat) (hc : 0 < c), roundWithAccuracy Format.binary64 s m e .exact = .finite s c (e + x) hc ∧
      c.log2 = 52 ∧ x ≤ excess m + 1 ∧ c * 2 ^ x = round53 m := by
  have hlo : 2 ^ 52 ≤ nearest m (2 ^ excess m) := Nat.le_trans (le_div_excess hm) (nearest_le m _).1
  have hhi : nearest m (2 ^ excess m) ≤ 2 ^ 53 := Nat.le_trans (nearest_le m _).2 (div_excess_lt m)
  have hround : round53 m = nearest m (2 ^ excess m) * 2 ^ excess m := rfl
  have hshift := shiftToTargetExponent_eq hm he
  have hmant := roundedMantissa_shiftRight m (excess m)
  obtain ⟨hlog, hone, hexact⟩ := excess_rounded hlo hhi
  rw [← hmant] at hlog hone hexact hround
  generalize (⟨m, false, false⟩ : ExtendedMantissa) >>> excess m = em at *
  have hshift' := shiftToTargetExponent_eq hlog (by omega : -1074 ≤ e + excess m)
  have hc := (shiftRight_residual em.roundedMantissa (excess em.roundedMantissa)).1
  have hlo' := le_div_excess hlog
  have hhi' := div_excess_lt em.roundedMantissa
  rw [← hc] at hlo' hhi' hexact
  have hpos : 0 < ((⟨em.roundedMantissa, false, false⟩ : ExtendedMantissa) >>> excess em.roundedMantissa).mantissa := by
    omega
  refine ⟨_, excess m + excess em.roundedMantissa, hpos, ?_, (Nat.log2_eq_iff (by omega)).2 ⟨hlo', hhi'⟩, by omega,
    ?_⟩
  · rw [roundWithAccuracy_of_shift hshift hshift' hpos]
    rw [Int.natCast_add, Int.add_assoc]
  · rw [hround, Nat.add_comm, Nat.pow_add, ← Nat.mul_assoc, hexact]

/-! ### Integers -/

/-- The places by which a short mantissa is shifted up. -/
def lift (m : Nat) : Nat := 52 - m.log2

theorem log2_shiftLeft_lift {m : Nat} (hm : m ≠ 0) : (m <<< lift m).log2 = m.log2 + lift m := by
  have hlo := Nat.log2_self_le hm
  have hhi := Nat.lt_log2_self (n := m)
  rw [Nat.shiftLeft_eq, Nat.log2_eq_iff (Nat.mul_ne_zero hm (Nat.ne_of_gt (Nat.two_pow_pos _)))]
  constructor
  · rw [Nat.pow_add]
    exact Nat.mul_le_mul_right _ hlo
  · rw [Nat.add_right_comm, Nat.pow_add]
    exact Nat.mul_lt_mul_of_pos_right hhi (Nat.two_pow_pos _)

/-- Only an exact number is shifted up. -/
theorem round53_shiftLeft_lift (m : Nat) : round53 (m <<< lift m) = round53 m * 2 ^ lift m := by
  rw [Nat.shiftLeft_eq]
  by_cases h : lift m = 0
  · rw [h, Nat.pow_zero, Nat.mul_one, Nat.mul_one]
  · have hlt : m < 2 ^ 53 := by
      refine Nat.lt_of_lt_of_le Nat.lt_log2_self (Nat.pow_le_pow_right (by decide) ?_)
      unfold lift at h
      omega
    rw [round53_of_exact ⟨m, lift m, hlt, rfl⟩, round53_of_exact ⟨m, 0, hlt, by rw [Nat.pow_zero, Nat.mul_one]⟩]

theorem round_nat_eq {s : Sign} {m : Nat} (hm : m ≠ 0) :
    ∃ (c x : Nat) (hc : 0 < c), Float.Model.UnpackedFloat.round Format.binary64 s m 0 = .finite s c (x - lift m) hc ∧
      c.log2 = 52 ∧ x ≤ excess m + 1 ∧ c * 2 ^ x = round53 m * 2 ^ lift m := by
  have hlog := log2_shiftLeft_lift hm
  have hlift : m.log2 + lift m = 52 + excess m := by
    unfold lift excess
    omega
  have hamount : (0 - ((m.log2 : Int) - 52 + 0)).toNat = lift m := by
    unfold lift
    omega
  obtain ⟨c, x, hc, hround, hclog, hx, hval⟩ :=
    roundWithAccuracy_eq (s := s) (m := m <<< lift m) (e := 0 - lift m) (by omega) (by unfold lift; omega)
  have hexcess : excess (m <<< lift m) = excess m := by
    unfold excess
    rw [hlog, hlift]
    unfold excess
    omega
  refine ⟨c, x, hc, ?_, hclog, by omega, by rw [hval, round53_shiftLeft_lift]⟩
  simp only [Float.Model.UnpackedFloat.round, targetExponent_eq (show -1022 ≤ (m.log2 : Int) + 0 by omega),
    decreaseExponent, hamount]
  rw [hround]
  congr 1
  omega

theorem roundToInt_eq {s : Sign} {c x l r : Nat} (h : c * 2 ^ x = r * 2 ^ l) :
    roundToInt s c ((x : Int) - l) = s.apply r := by
  have hup : ((x : Int) - l - 0).toNat = x - l := by omega
  have hdown : (0 - ((x : Int) - l - (x - l : Nat))).toNat = l - x := by omega
  simp only [roundToInt, decreaseExponent, shiftToExponent, hup, hdown, ExtendedMantissa.ofMantissaAndAccuracy]
  rw [(shiftRight_residual _ _).1, Nat.shiftLeft_eq]
  congr 2
  rcases Nat.le_total l x with hle | hle
  · have hx : c * 2 ^ (x - l) = r := by
      refine Nat.eq_of_mul_eq_mul_right (Nat.two_pow_pos l) ?_
      rw [Nat.mul_assoc, ← Nat.pow_add, Nat.sub_add_cancel hle, h]
    rw [hx, Nat.sub_eq_zero_of_le hle, Nat.pow_zero, Nat.div_one]
  · have hc : c = r * 2 ^ (l - x) := by
      refine Nat.eq_of_mul_eq_mul_right (Nat.two_pow_pos x) ?_
      rw [Nat.mul_assoc, ← Nat.pow_add, Nat.sub_add_cancel hle, h]
    rw [Nat.sub_eq_zero_of_le hle, Nat.pow_zero, Nat.mul_one, hc, Nat.mul_div_cancel _ (Nat.two_pow_pos _)]

/-! ### The pattern of 64 bits -/

theorem toNat_significand {c : Nat} (hc : c.log2 = 52) : (1#1 ++ BitVec.ofNat 52 c).toNat = c := by
  have hne : c ≠ 0 := by
    rintro rfl
    cases hc
  obtain ⟨hlo, hhi⟩ := (Nat.log2_eq_iff hne).1 hc
  have hadd : 1 <<< 52 ||| c % 2 ^ 52 = 1 <<< 52 + c % 2 ^ 52 :=
    (Nat.shiftLeft_add_eq_or_of_lt (Nat.mod_lt c (Nat.two_pow_pos 52)) 1).symm
  rw [BitVec.toNat_append, BitVec.toNat_ofNat]
  show 1 <<< 52 ||| c % 2 ^ 52 = c
  rw [hadd, Nat.shiftLeft_eq]
  omega

/-- A normal number comes back from its pattern. -/
theorem unpack_pack {s : Sign} {c : Nat} {e : Int} {hc : 0 < c} (hlog : c.log2 = 52) (hlo : -1074 ≤ e) (hhi : e ≤ 971) :
    unpack Format.binary64 (pack Format.binary64 (.finite s c e hc)) = .finite s c e hc := by
  have hbias :
      ((e + Format.binary64.exponentBias + Format.binary64.mantissaBitsWithoutImplicit).toNat : Int) = e + 1075 := by
    show ((e + 1023 + 52).toNat : Int) = e + 1075
    omega
  generalize hb : (e + Format.binary64.exponentBias + Format.binary64.mantissaBitsWithoutImplicit).toNat = b at hbias
  have hpack : pack Format.binary64 (.finite s c e hc) =
      packComponents Format.binary64 s (BitVec.ofNat 11 b) (BitVec.ofNat 52 c) := by
    have hfin : ¬ 2 ^ Format.binary64.exponentBits ≤ b + 1 := by
      show ¬ 2048 ≤ b + 1
      omega
    have hnormal : c.log2 + 1 = Format.binary64.mantissaBits := by rw [hlog]; rfl
    simp only [pack, hb, if_neg hfin, if_pos hnormal]
  have hnat : (BitVec.ofNat 11 b).toNat = b := by
    rw [BitVec.toNat_ofNat]
    exact Nat.mod_eq_of_lt (show b < 2048 by omega)
  have hne : ∀ x : BitVec 11, x.toNat ≠ b → BitVec.ofNat 11 b ≠ x := by
    rintro x hx rfl
    exact hx hnat
  have hinf : BitVec.ofNat 11 b ≠ -1#11 := hne _ (show 2047 ≠ b by omega)
  have hzero : BitVec.ofNat 11 b ≠ 0#11 := hne _ (show 0 ≠ b by omega)
  rw [hpack]
  simp only [unpack, unpackMantissa_packComponents, unpackExponent_packComponents, unpackSign_packComponents]
  rw [if_neg hinf, if_neg hzero, Float.Model.UnpackedFloat.finite.injEq]
  refine ⟨Sign.ofBitVec_toBitVec s, toNat_significand hlog, ?_⟩
  rw [hnat]
  show (b : Int) - (1023 + 52) = e
  omega

/-! ### There and back -/

/-- The conversion of a 64-bit integer to binary64. -/
def ofInt64 (n : Int64) : BitVec 64 := (Float.Model.ofInt64 n).toBits.toBitVec

/-- The conversion back: truncates, clamps to the range, and sends `NaN` to `0`. -/
def toInt64 (r : BitVec 64) : Int64 := (unpack Format.binary64 r).toInt64

/-- A magnitude of at most 64 bits comes back rounded. -/
theorem toInt_unpack_pack {s : Sign} {m : Nat} (hm : m ≠ 0) (hlt : m.log2 ≤ 63) (lo hi : Int) :
    (unpack Format.binary64
      (pack Format.binary64 (Float.Model.UnpackedFloat.round Format.binary64 s m 0))).toInt lo hi =
      s.apply (round53 m) := by
  obtain ⟨c, x, hc, hround, hlog, hx, hval⟩ := round_nat_eq (s := s) hm
  have hexp : -1074 ≤ (x : Int) - lift m ∧ (x : Int) - lift m ≤ 971 := by
    unfold excess at hx
    unfold lift
    omega
  rw [hround, unpack_pack hlog hexp.1 hexp.2]
  exact roundToInt_eq hval

/-- The integer that comes back, before it is clamped. -/
def roundTrip (i : Int) : Int := if i < 0 then -round53 i.natAbs else round53 i.natAbs

theorem toInt64_ofInt64 (n : Int64) : toInt64 (ofInt64 n) = Int64.ofIntClamp (roundTrip n.toInt) := by
  have hlo := Int64.le_toInt n
  have hhi := Int64.toInt_lt n
  have hlog : ∀ m, m ≠ 0 → m ≤ 2 ^ 63 → m.log2 ≤ 63 := by
    intro m hm hle
    have := (Nat.log2_lt hm).2 (Nat.lt_of_le_of_lt hle (by decide : 2 ^ 63 < 2 ^ 64))
    omega
  unfold toInt64 Float.Model.UnpackedFloat.toInt64
  congr 1
  have hval : (Float.Model.ofInt64 n).toBits.toBitVec =
      pack Format.binary64 (Float.Model.UnpackedFloat.normalize Format.binary64 n.toInt 0 .positive) := rfl
  unfold ofInt64
  rw [hval]
  generalize n.toInt = i at hlo hhi ⊢
  rcases Int.lt_trichotomy i 0 with hneg | rfl | hpos
  · have hn : Float.Model.UnpackedFloat.normalize Format.binary64 i 0 .positive =
        Float.Model.UnpackedFloat.round Format.binary64 .negative (-i).toNat 0 := by
      simp only [Float.Model.UnpackedFloat.normalize, Int.compare_eq_lt.2 hneg]
    have habs : (-i).toNat = i.natAbs := by omega
    rw [hn, habs, toInt_unpack_pack (by omega) (hlog _ (by omega) (by omega)), roundTrip, if_pos hneg]
    rfl
  · decide
  · have hn : Float.Model.UnpackedFloat.normalize Format.binary64 i 0 .positive =
        Float.Model.UnpackedFloat.round Format.binary64 .positive i.toNat 0 := by
      simp only [Float.Model.UnpackedFloat.normalize, Int.compare_eq_gt.2 hpos]
    have habs : i.toNat = i.natAbs := by omega
    rw [hn, habs, toInt_unpack_pack (by omega) (hlog _ (by omega) (by omega)), roundTrip, if_neg (by omega)]
    rfl

/-- The integers that come back unchanged: those with at most 53 significant bits, and the greatest one. -/
theorem toInt64_ofInt64_eq_iff {n : Int64} :
    toInt64 (ofInt64 n) = n ↔ Exact n.toInt.natAbs ∨ n = Int64.maxValue := by
  have hlo := Int64.le_toInt n
  have hhi := Int64.toInt_lt n
  have hbound : round53 n.toInt.natAbs ≤ 2 ^ 63 := round53_le_two_pow (by omega)
  have hge : Int64.minValue.toInt ≤ roundTrip n.toInt := by
    show -9223372036854775808 ≤ roundTrip n.toInt
    unfold roundTrip
    split <;> omega
  have hexact : roundTrip n.toInt = n.toInt ↔ Exact n.toInt.natAbs := by
    rw [← round53_eq_iff]
    unfold roundTrip
    split <;> omega
  rw [toInt64_ofInt64]
  by_cases hle : roundTrip n.toInt ≤ Int64.maxValue.toInt
  · rw [← Int64.toInt_inj, Int64.toInt_ofIntClamp hge hle, hexact]
    refine ⟨.inl, fun h => h.resolve_right ?_⟩
    rintro rfl
    exact absurd hle (by decide)
  · have hclamp : Int64.ofIntClamp (roundTrip n.toInt) = Int64.maxValue := by
      rw [Int64.ofIntClamp, dif_pos hge, dif_neg hle]
    rw [hclamp]
    refine ⟨fun h => .inr h.symm, fun h => (h.resolve_left fun he => ?_).symm⟩
    rw [hexact.2 he] at hle
    exact hle (Int64.toInt_le n)

end Binary64
