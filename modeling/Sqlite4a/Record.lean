import Sqlite4a.Varint
import Sqlite4a.Value

/-!
# The record format

A record starts with the size of its header and the serial types of its fields, as varints, and the data of the fields
follow.  `sqlite3VdbeRecordUnpack` reads the fields back that `OP_MakeRecord` has written (`recordUnpack_makeRecord`).
-/

namespace Sqlite4a

/-! ### Serial types -/

def MAX_6BYTE : UInt64 := (0x00008000 : UInt64) <<< 32 - 1

/-- The serial type of a value, and the number of bytes of its data. -/
def sqlite3VdbeSerialType (m : Value) (file_format : Nat) : UInt32 × Nat :=
  match m with
  | .null => (0, 0)
  | .integer i =>
    let u : UInt64 := if i < 0 then (~~~ i).toUInt64 else i.toUInt64
    if u ≤ 127 then
      if i &&& 1 = i ∧ 4 ≤ file_format then (8 + u.toUInt32, 0) else (1, 1)
    else if u ≤ 32767 then (2, 2)
    else if u ≤ 8388607 then (3, 3)
    else if u ≤ 2147483647 then (4, 4)
    else if u ≤ MAX_6BYTE then (5, 6)
    else (6, 8)
  | .real _ => (7, 8)
  | .blob z => (UInt32.ofNat z.length * 2 + 12, z.length)
  | .text z => (UInt32.ofNat z.length * 2 + 12 + 1, z.length)

/-- The sizes for serial types less than 128. -/
def sqlite3SmallTypeSizes : List UInt8 :=
  [0, 1, 2, 3, 4, 6, 8, 8, 0, 0,
    0, 0, 0, 0, 1, 1, 2, 2, 3, 3,
    4, 4, 5, 5, 6, 6, 7, 7, 8, 8,
    9, 9, 10, 10, 11, 11, 12, 12, 13, 13,
    14, 14, 15, 15, 16, 16, 17, 17, 18, 18,
    19, 19, 20, 20, 21, 21, 22, 22, 23, 23,
    24, 24, 25, 25, 26, 26, 27, 27, 28, 28,
    29, 29, 30, 30, 31, 31, 32, 32, 33, 33,
    34, 34, 35, 35, 36, 36, 37, 37, 38, 38,
    39, 39, 40, 40, 41, 41, 42, 42, 43, 43,
    44, 44, 45, 45, 46, 46, 47, 47, 48, 48,
    49, 49, 50, 50, 51, 51, 52, 52, 53, 53,
    54, 54, 55, 55, 56, 56, 57, 57]

def sqlite3VdbeOneByteSerialTypeLen (serial_type : UInt32) : Nat :=
  (sqlite3SmallTypeSizes.getD serial_type.toNat 0).toNat

def sqlite3VdbeSerialTypeLen (serial_type : UInt32) : Nat :=
  if 128 ≤ serial_type then ((serial_type - 12) / 2).toNat else sqlite3VdbeOneByteSerialTypeLen serial_type

/-! ### The data of a field -/

/-- The loop of `sqlite3VdbeSerialPut`: the low `n` bytes of `v`, the highest first. -/
def bigEndian : Nat → UInt64 → List UInt8
  | 0, _ => []
  | n + 1, v => bigEndian n (v >>> 8) ++ [(v &&& 0xff).toUInt8]

/-- The number in `pMem->u`: `u.i`, or the bytes of `u.r`. -/
def Value.u : Value → UInt64
  | .integer i => i.toUInt64
  | .real r => UInt64.ofBitVec r
  | _ => 0

/-- The bytes at `pMem->z`. -/
def Value.z : Value → List UInt8
  | .text z => z
  | .blob z => z
  | _ => []

def sqlite3VdbeSerialPut (m : Value) (serial_type : UInt32) : List UInt8 :=
  if serial_type ≤ 7 ∧ 0 < serial_type then bigEndian (sqlite3VdbeOneByteSerialTypeLen serial_type) m.u
  else if 12 ≤ serial_type then m.z
  else []

/-- The memory at `&p[k]`. -/
def Memory.at (p : Memory) (k : Nat) : Memory := fun i => p (k + i)

def ONE_BYTE_INT (x : Memory) : Int32 := (x 0).toInt8.toInt32
def TWO_BYTE_INT (x : Memory) : Int32 := (256 : Int32) * (x 0).toInt8.toInt32 ||| (x 1).toUInt32.toInt32
def THREE_BYTE_INT (x : Memory) : Int32 :=
  (65536 : Int32) * (x 0).toInt8.toInt32 ||| ((x 1).toUInt32 <<< 8).toInt32 ||| (x 2).toUInt32.toInt32
def FOUR_BYTE_UINT (x : Memory) : UInt32 :=
  (x 0).toUInt32 <<< 24 ||| (x 1).toUInt32 <<< 16 ||| (x 2).toUInt32 <<< 8 ||| (x 3).toUInt32
def FOUR_BYTE_INT (x : Memory) : Int32 :=
  (16777216 : Int32) * (x 0).toInt8.toInt32 ||| ((x 1).toUInt32 <<< 16).toInt32 ||| ((x 2).toUInt32 <<< 8).toInt32 |||
    (x 3).toUInt32.toInt32

/-- The eight bytes of an integer or a floating point number; `NaN` is read as `NULL`. -/
def serialGet (buf : Memory) (serial_type : UInt32) : Value × Nat :=
  let x := FOUR_BYTE_UINT buf
  let y := FOUR_BYTE_UINT (buf.at 4)
  let x := x.toUInt64 <<< 32 + y.toUInt64
  if serial_type = 6 then (.integer x.toInt64, 8)
  else (if sqlite3IsNaN x.toBitVec then .null else .real x.toBitVec, 8)

/-- The `n` bytes at `buf`. -/
def Memory.bytes (buf : Memory) (n : Nat) : List UInt8 := (List.range n).map buf

/-- The value of a serial type whose data are at `buf`, and the number of bytes read. -/
def sqlite3VdbeSerialGet (buf : Memory) (serial_type : UInt32) : Value × Nat :=
  if serial_type = 10 ∨ serial_type = 11 ∨ serial_type = 0 then (.null, 0)
  else if serial_type = 1 then (.integer (ONE_BYTE_INT buf).toInt64, 1)
  else if serial_type = 2 then (.integer (TWO_BYTE_INT buf).toInt64, 2)
  else if serial_type = 3 then (.integer (THREE_BYTE_INT buf).toInt64, 3)
  else if serial_type = 4 then (.integer (FOUR_BYTE_INT buf).toInt64, 4)
  else if serial_type = 5 then
    (.integer ((FOUR_BYTE_UINT (buf.at 2)).toUInt64.toInt64 + (1 : Int64) <<< 32 * (TWO_BYTE_INT buf).toInt64), 6)
  else if serial_type = 6 ∨ serial_type = 7 then serialGet buf serial_type
  else if serial_type = 8 ∨ serial_type = 9 then (.integer (serial_type - 8).toUInt64.toInt64, 0)
  else
    let n := ((serial_type - 12) / 2).toNat
    (if serial_type &&& 1 = 0 then .blob (buf.bytes n) else .text (buf.bytes n), n)

/-! ### Records -/

/-- The macro `putVarint32`. -/
def putVarint32 (v : UInt32) : List UInt8 := if v < 0x80 then [v.toUInt8] else sqlite3PutVarint v.toUInt64

/-- The number of bytes of the serial types and of the data of the fields. -/
def headerAndDataSize (fields : List Value) (file_format : Nat) : Nat × Nat :=
  fields.foldr (fun m s =>
    let t := sqlite3VdbeSerialType m file_format
    (s.1 + (if t.1 ≤ 127 then 1 else sqlite3VarintLen t.1.toUInt64), s.2 + t.2)) (0, 0)

/-- The size of the header with the varint that holds it. -/
def headerSize (nHdr : Nat) : Nat :=
  if nHdr ≤ 126 then nHdr + 1
  else
    let nVarint := sqlite3VarintLen (UInt64.ofNat nHdr)
    let n := nHdr + nVarint
    if nVarint < sqlite3VarintLen (UInt64.ofNat n) then n + 1 else n

/-- `OP_MakeRecord`; `none` for `too_big`. -/
def makeRecord (fields : List Value) (file_format limit : Nat) : Option (List UInt8) :=
  let s := headerAndDataSize fields file_format
  let nHdr := headerSize s.1
  if limit < nHdr + s.2 then none
  else
    some (putVarint32 (UInt32.ofNat nHdr)
      ++ fields.flatMap (fun m => putVarint32 (sqlite3VdbeSerialType m file_format).1)
      ++ fields.flatMap (fun m => sqlite3VdbeSerialPut m (sqlite3VdbeSerialType m file_format).1))

/-- The loop of `sqlite3VdbeRecordUnpack`, which reads at most `n + 1` fields. -/
def recordUnpackLoop (aKey : Memory) (nKey szHdr : Nat) : Nat → Nat → Nat → List Value
  | n, idx, d =>
    if idx < szHdr ∧ d ≤ nKey then
      let t := sqlite3GetVarint32 (aKey.at idx)
      let v := sqlite3VdbeSerialGet (aKey.at d) t.1
      v.1 :: match n with
        | 0 => []
        | n + 1 => recordUnpackLoop aKey nKey szHdr n (idx + t.2) (d + v.2)
    else []

/-- The fields of the `nKey` bytes at `aKey`, at most `nField + 1`. -/
def sqlite3VdbeRecordUnpack (nField nKey : Nat) (aKey : Memory) : List Value :=
  let h := sqlite3GetVarint32 aKey
  recordUnpackLoop aKey nKey h.1.toNat nField h.2 h.1.toNat

/-! ### Numbers of several bytes -/

/-- The number in the `n` bytes at `p`, the highest byte first. -/
def ofBytes (p : Memory) : Nat → Nat
  | 0 => 0
  | n + 1 => ofBytes p n * 2 ^ 8 + (p n).toNat

theorem ofBytes_lt (p : Memory) (n : Nat) : ofBytes p n < 2 ^ (8 * n) := by
  induction n with
  | zero => exact Nat.zero_lt_one
  | succ n ih =>
    have hp := (p n).toNat_lt
    rw [ofBytes, Nat.mul_succ, Nat.pow_add]
    omega

theorem bigEndian_succ (n : Nat) (v : UInt64) :
    bigEndian (n + 1) v = bigEndian n (v >>> 8) ++ [(v &&& 0xff).toUInt8] := rfl

@[simp] theorem length_bigEndian (n : Nat) (v : UInt64) : (bigEndian n v).length = n := by
  induction n generalizing v with
  | zero => rfl
  | succ n ih => simp [bigEndian_succ, ih]

theorem ofBytes_bigEndian {p : Memory} {k n : Nat} {v : UInt64} (h : Holds p k (bigEndian n v)) :
    ofBytes (p.at k) n = v.toNat % 2 ^ (8 * n) := by
  induction n generalizing v with
  | zero => simp [ofBytes, Nat.mod_one]
  | succ n ih =>
    obtain ⟨hhigh, hlow⟩ := holds_append.1 h
    rw [length_bigEndian] at hlow
    have hand : (v &&& 0xff).toNat = v.toNat % 2 ^ 8 := by
      rw [UInt64.toNat_and]
      exact Nat.and_two_pow_sub_one_eq_mod v.toNat 8
    have hbyte : (p.at k n).toNat = v.toNat % 2 ^ 8 := by
      show (p (k + n)).toNat = _
      rw [hlow.head, UInt64.toNat_toUInt8, hand, Nat.mod_mod]
    have hshift : (v >>> 8).toNat = v.toNat / 2 ^ 8 := Nat.shiftRight_eq_div_pow _ _
    rw [ofBytes, ih hhigh, hbyte, hshift, Nat.mul_succ, Nat.add_comm (8 * n), Nat.pow_add, Nat.mod_mul, Nat.mul_comm,
      Nat.add_comm]

theorem toInt_eq_bmod (a : Int32) : a.toInt = (a.toUInt32.toNat : Int).bmod (2 ^ 32) := BitVec.toInt_eq_toNat_bmod _

/-- Digits below a signed number. -/
theorem toInt_or_low {k : Nat} (hk : k < 31) (h : Int32) {l : UInt32} (hl : l.toNat < 2 ^ k) :
    (Int32.ofNat (2 ^ k) * h ||| l.toInt32).toInt = (2 ^ k * h.toInt + l.toNat).bmod (2 ^ 32) := by
  have hpow : 2 ^ k < 2 ^ 32 := Nat.pow_lt_pow_right (by decide) (by omega)
  have hsplit : 2 ^ 32 = 2 ^ (32 - k) * 2 ^ k := by rw [← Nat.pow_add]; congr 1; omega
  have hmul : (Int32.ofNat (2 ^ k) * h).toUInt32.toNat = h.toUInt32.toNat % 2 ^ (32 - k) * 2 ^ k := by
    show 2 ^ k % 2 ^ 32 * h.toUInt32.toNat % 2 ^ 32 = _
    rw [Nat.mod_eq_of_lt hpow, hsplit, Nat.mul_comm, Nat.mul_mod_mul_right]
  have hor : (Int32.ofNat (2 ^ k) * h ||| l.toInt32).toUInt32.toNat =
      h.toUInt32.toNat % 2 ^ (32 - k) * 2 ^ k + l.toNat := by
    show (Int32.ofNat (2 ^ k) * h).toUInt32.toNat ||| l.toNat = _
    rw [hmul, Radix.or_low hl]
  have hmod : h.toUInt32.toNat % 2 ^ (32 - k) * 2 ^ k = h.toUInt32.toNat * 2 ^ k % 2 ^ 32 := by
    rw [hsplit, Nat.mul_mod_mul_right]
  rw [toInt_eq_bmod, hor, hmod, Int.natCast_add, Int.natCast_mod, Int.emod_add_bmod, Int.natCast_mul, Int.natCast_pow,
    toInt_eq_bmod h]
  conv => rhs; rw [← Int.bmod_add_bmod, Int.mul_bmod_bmod, Int.bmod_add_bmod]
  rw [Int.mul_comm]
  rfl

theorem toInt_high (c : UInt8) : c.toInt8.toInt32.toInt = (c.toNat : Int).bmod (2 ^ 8) := by
  rw [Int8.toInt_toInt32]
  exact BitVec.toInt_eq_toNat_bmod _

theorem toInt_ONE_BYTE_INT (x : Memory) : (ONE_BYTE_INT x).toInt = (ofBytes x 1 : Int).bmod (2 ^ 8) := by
  rw [ONE_BYTE_INT, toInt_high]
  simp [ofBytes]

theorem toInt_TWO_BYTE_INT (x : Memory) : (TWO_BYTE_INT x).toInt = (ofBytes x 2 : Int).bmod (2 ^ 16) := by
  have h0 := (x 0).toNat_lt
  have h1 := (x 1).toNat_lt
  have hor := toInt_or_low (k := 8) (by decide) (x 0).toInt8.toInt32 (l := (x 1).toUInt32) h1
  rw [toInt_high, UInt8.toNat_toUInt32] at hor
  refine hor.trans ?_
  simp only [ofBytes, Int.bmod_def]
  split <;> split <;> split <;> omega

theorem toNat_shiftLeft_or {k : Nat} {a b : UInt32} (hk : k < 32) (ha : a.toNat * 2 ^ k < 2 ^ 32)
    (hb : b.toNat < 2 ^ k) :
    (a <<< UInt32.ofNat k ||| b).toNat = a.toNat * 2 ^ k + b.toNat := by
  have hshift : (a <<< UInt32.ofNat k).toNat = a.toNat * 2 ^ k := by
    rw [UInt32.toNat_shiftLeft, UInt32.toNat_ofNat_of_lt' (Nat.lt_trans hk (by decide)), Nat.mod_eq_of_lt hk,
      Nat.shiftLeft_eq, Nat.mod_eq_of_lt ha]
  rw [UInt32.toNat_or, hshift, Radix.or_low hb]

theorem toInt_THREE_BYTE_INT (x : Memory) : (THREE_BYTE_INT x).toInt = (ofBytes x 3 : Int).bmod (2 ^ 24) := by
  have h0 := (x 0).toNat_lt
  have h1 := (x 1).toNat_lt
  have h2 := (x 2).toNat_lt
  have hlow : ((x 1).toUInt32 <<< 8 ||| (x 2).toUInt32).toNat = (x 1).toNat * 2 ^ 8 + (x 2).toNat :=
    toNat_shiftLeft_or (k := 8) (by decide) (by rw [UInt8.toNat_toUInt32]; omega) h2
  have hor := toInt_or_low (k := 16) (by decide) (x 0).toInt8.toInt32
    (l := (x 1).toUInt32 <<< 8 ||| (x 2).toUInt32) (by omega)
  rw [toInt_high, hlow] at hor
  rw [THREE_BYTE_INT, Int32.or_assoc]
  refine hor.trans ?_
  simp only [ofBytes, Int.bmod_def]
  split <;> split <;> split <;> omega

theorem toNat_FOUR_BYTE_UINT (x : Memory) : (FOUR_BYTE_UINT x).toNat = ofBytes x 4 := by
  have h0 := (x 0).toNat_lt
  have h1 := (x 1).toNat_lt
  have h2 := (x 2).toNat_lt
  have h3 := (x 3).toNat_lt
  have hlow : ((x 2).toUInt32 <<< 8 ||| (x 3).toUInt32).toNat = (x 2).toNat * 2 ^ 8 + (x 3).toNat :=
    toNat_shiftLeft_or (k := 8) (by decide) (by rw [UInt8.toNat_toUInt32]; omega) h3
  have hmid : ((x 1).toUInt32 <<< 16 ||| ((x 2).toUInt32 <<< 8 ||| (x 3).toUInt32)).toNat = (x 1).toNat * 2 ^ 16 + _ :=
    toNat_shiftLeft_or (k := 16) (by decide) (by rw [UInt8.toNat_toUInt32]; omega) (by omega)
  have hhigh : ((x 0).toUInt32 <<< 24 ||| ((x 1).toUInt32 <<< 16 ||| ((x 2).toUInt32 <<< 8 ||| (x 3).toUInt32))).toNat =
      (x 0).toNat * 2 ^ 24 + _ :=
    toNat_shiftLeft_or (k := 24) (by decide) (by rw [UInt8.toNat_toUInt32]; omega) (by omega)
  rw [FOUR_BYTE_UINT, UInt32.or_assoc, UInt32.or_assoc, hhigh, hmid, hlow]
  simp only [ofBytes]
  omega

theorem toInt_FOUR_BYTE_INT (x : Memory) : (FOUR_BYTE_INT x).toInt = (ofBytes x 4 : Int).bmod (2 ^ 32) := by
  have h0 := (x 0).toNat_lt
  have h1 := (x 1).toNat_lt
  have h2 := (x 2).toNat_lt
  have h3 := (x 3).toNat_lt
  have hlow : ((x 2).toUInt32 <<< 8 ||| (x 3).toUInt32).toNat = (x 2).toNat * 2 ^ 8 + (x 3).toNat :=
    toNat_shiftLeft_or (k := 8) (by decide) (by rw [UInt8.toNat_toUInt32]; omega) h3
  have hmid : ((x 1).toUInt32 <<< 16 ||| ((x 2).toUInt32 <<< 8 ||| (x 3).toUInt32)).toNat = (x 1).toNat * 2 ^ 16 + _ :=
    toNat_shiftLeft_or (k := 16) (by decide) (by rw [UInt8.toNat_toUInt32]; omega) (by omega)
  have hor := toInt_or_low (k := 24) (by decide) (x 0).toInt8.toInt32
    (l := (x 1).toUInt32 <<< 16 ||| ((x 2).toUInt32 <<< 8 ||| (x 3).toUInt32)) (by omega)
  rw [toInt_high, hmid, hlow] at hor
  rw [FOUR_BYTE_INT, Int32.or_assoc, Int32.or_assoc]
  refine hor.trans ?_
  simp only [ofBytes, Int.bmod_def]
  split <;> split <;> split <;> omega

theorem ofBytes_at (x : Memory) (k n : Nat) : ofBytes x (k + n) = ofBytes x k * 2 ^ (8 * n) + ofBytes (x.at k) n := by
  induction n with
  | zero => simp [ofBytes]
  | succ n ih =>
    rw [← Nat.add_assoc, ofBytes, ih, ofBytes, Nat.mul_succ, Nat.pow_add]
    show _ + (x (k + n)).toNat = _ + (_ + (x (k + n)).toNat)
    rw [Nat.add_mul, Nat.mul_assoc, Nat.add_assoc]

theorem toNat_toInt (i : Int64) : i.toInt = (i.toUInt64.toNat : Int).bmod (2 ^ 64) := BitVec.toInt_eq_toNat_bmod _

/-- The low bytes of an integer that fits in them. -/
theorem bmod_low {i : Int64} {n : Nat} (hn : n ≤ 8) (hlo : -2 ^ (8 * n) ≤ i.toInt * 2)
    (hhi : i.toInt * 2 < 2 ^ (8 * n)) :
    ((i.toUInt64.toNat % 2 ^ (8 * n) : Nat) : Int).bmod (2 ^ (8 * n)) = i.toInt := by
  have hdvd : 2 ^ (8 * n) ∣ 2 ^ 64 := Nat.pow_dvd_pow 2 (by omega)
  rw [Int.natCast_mod, Int.emod_bmod, ← Int.bmod_bmod_of_dvd hdvd, ← toNat_toInt]
  refine Int.bmod_eq_of_le_mul_two ?_ ?_
  · push_cast
    exact hlo
  · push_cast
    exact hhi

theorem toNat_magnitude (i : Int64) : ((if i < 0 then (~~~ i).toUInt64 else i.toUInt64).toNat : Int) =
    if i.toInt < 0 then -i.toInt - 1 else i.toInt := by
  have hlt := i.toUInt64.toNat_lt
  have hi := toNat_toInt i
  have hzero : (i < 0) = (i.toInt < 0) := propext Int64.lt_iff_toInt_lt
  simp only [hzero]
  rw [Int.bmod_def] at hi
  split
  · have hnot : (~~~ i).toUInt64.toNat = 2 ^ 64 - 1 - i.toUInt64.toNat := UInt64.toNat_not _
    rw [hnot]
    split at hi <;> omega
  · split at hi <;> omega

theorem eq_zero_or_one {i : Int64} (h : i &&& 1 = i) : i = 0 ∨ i = 1 := by
  have hand : (i.toUInt64 &&& 1).toNat = i.toUInt64.toNat := congrArg (fun j : Int64 => j.toUInt64.toNat) h
  have hmod : (i.toUInt64 &&& 1).toNat = i.toUInt64.toNat % 2 := by
    rw [UInt64.toNat_and]
    exact Nat.and_two_pow_sub_one_eq_mod _ 1
  have hcases : i.toUInt64.toNat = 0 ∨ i.toUInt64.toNat = 1 := by omega
  rcases hcases with h0 | h1
  · left
    have hi : i.toUInt64 = (0 : Int64).toUInt64 := UInt64.toNat_inj.1 h0
    rw [← Int64.toInt64_toUInt64 i, hi]
    rfl
  · right
    have hi : i.toUInt64 = (1 : Int64).toUInt64 := UInt64.toNat_inj.1 h1
    rw [← Int64.toInt64_toUInt64 i, hi]
    rfl

/-- The serial types of an integer, with the number of bytes it fits in. -/
inductive IntegerType (i : Int64) : UInt32 × Nat → Prop
  | zero (h : i = 0) : IntegerType i (8, 0)
  | one (h : i = 1) : IntegerType i (9, 0)
  | bytes1 (hlo : -2 ^ 7 ≤ i.toInt) (hhi : i.toInt < 2 ^ 7) : IntegerType i (1, 1)
  | bytes2 (hlo : -2 ^ 15 ≤ i.toInt) (hhi : i.toInt < 2 ^ 15) : IntegerType i (2, 2)
  | bytes3 (hlo : -2 ^ 23 ≤ i.toInt) (hhi : i.toInt < 2 ^ 23) : IntegerType i (3, 3)
  | bytes4 (hlo : -2 ^ 31 ≤ i.toInt) (hhi : i.toInt < 2 ^ 31) : IntegerType i (4, 4)
  | bytes6 (hlo : -2 ^ 47 ≤ i.toInt) (hhi : i.toInt < 2 ^ 47) : IntegerType i (5, 6)
  | bytes8 : IntegerType i (6, 8)

theorem integerType (i : Int64) (file_format : Nat) :
    IntegerType i (sqlite3VdbeSerialType (.integer i) file_format) := by
  have hu := toNat_magnitude i
  rw [sqlite3VdbeSerialType]
  generalize hudef : (if i < 0 then (~~~ i).toUInt64 else i.toUInt64) = u at hu
  split
  · rename_i h1
    have h1' : u.toNat ≤ 127 := UInt64.le_iff_toNat_le.1 h1
    split
    · rename_i h01
      rcases eq_zero_or_one h01.1 with rfl | rfl
      · rw [← hudef]
        exact .zero rfl
      · rw [← hudef]
        exact .one rfl
    · refine .bytes1 ?_ ?_ <;> split at hu <;> omega
  split
  · rename_i h2
    have h2' : u.toNat ≤ 32767 := UInt64.le_iff_toNat_le.1 h2
    refine .bytes2 ?_ ?_ <;> split at hu <;> omega
  split
  · rename_i h3
    have h3' : u.toNat ≤ 8388607 := UInt64.le_iff_toNat_le.1 h3
    refine .bytes3 ?_ ?_ <;> split at hu <;> omega
  split
  · rename_i h4
    have h4' : u.toNat ≤ 2147483647 := UInt64.le_iff_toNat_le.1 h4
    refine .bytes4 ?_ ?_ <;> split at hu <;> omega
  split
  · rename_i h6
    have h6' : u.toNat ≤ 2 ^ 47 - 1 := UInt64.le_iff_toNat_le.1 h6
    refine .bytes6 ?_ ?_ <;> split at hu <;> omega
  · exact .bytes8

/-! ### Reading a field back -/

/-- What a value is read back as: a `NaN` as `NULL`. -/
def Value.stored : Value → Value
  | .real r => if sqlite3IsNaN r then .null else .real r
  | m => m

/-- The data of a value take `len` bytes and are read back. -/
structure SerialField (m : Value) (t : UInt32) (len : Nat) : Prop where
  length : (sqlite3VdbeSerialPut m t).length = len
  typeLen : sqlite3VdbeSerialTypeLen t = len
  get : ∀ {p k}, Holds p k (sqlite3VdbeSerialPut m t) → sqlite3VdbeSerialGet (p.at k) t = (m.stored, len)

theorem integer_ext {i j : Int64} (h : i.toInt = j.toInt) : Value.integer i = .integer j := by
  rw [Int64.toInt_inj.1 h]

/-- The bytes of an integer that fits in `n` bytes, with its sign. -/
theorem bmod_ofBytes {i : Int64} {p : Memory} {k n : Nat} (hn : n ≤ 8) (h : Holds p k (bigEndian n i.toUInt64))
    (hlo : -2 ^ (8 * n) ≤ i.toInt * 2) (hhi : i.toInt * 2 < 2 ^ (8 * n)) :
    (ofBytes (p.at k) n : Int).bmod (2 ^ (8 * n)) = i.toInt := by
  rw [ofBytes_bigEndian h, bmod_low hn hlo hhi]

theorem ofBytes_8 (buf : Memory) : ((FOUR_BYTE_UINT buf).toUInt64 <<< 32 + (FOUR_BYTE_UINT (buf.at 4)).toUInt64).toNat =
    ofBytes buf 8 := by
  have hhigh := toNat_FOUR_BYTE_UINT buf
  have hlow := toNat_FOUR_BYTE_UINT (buf.at 4)
  have hlt := ofBytes_lt buf 4
  have hlt' := ofBytes_lt (buf.at 4) 4
  have hshift : ((FOUR_BYTE_UINT buf).toUInt64 <<< 32).toNat = ofBytes buf 4 * 2 ^ 32 := by
    show (FOUR_BYTE_UINT buf).toUInt64.toNat <<< 32 % 2 ^ 64 = _
    rw [UInt32.toNat_toUInt64, hhigh, Nat.shiftLeft_eq]
    omega
  rw [UInt64.toNat_add, hshift, UInt32.toNat_toUInt64, hlow, ofBytes_at buf 4 4]
  omega

theorem toInt_six (buf : Memory) :
    ((FOUR_BYTE_UINT (buf.at 2)).toUInt64.toInt64 + (1 : Int64) <<< 32 * (TWO_BYTE_INT buf).toInt64).toInt =
      (ofBytes buf 6 : Int).bmod (2 ^ 48) := by
  have hhigh := toInt_TWO_BYTE_INT buf
  have hlow := toNat_FOUR_BYTE_UINT (buf.at 2)
  have hlt := ofBytes_lt buf 2
  have hlt' := ofBytes_lt (buf.at 2) 4
  have hlow' : (FOUR_BYTE_UINT (buf.at 2)).toUInt64.toInt64.toInt = ofBytes (buf.at 2) 4 := by
    rw [toNat_toInt, ← hlow]
    show ((FOUR_BYTE_UINT (buf.at 2)).toUInt64.toNat : Int).bmod (2 ^ 64) = _
    rw [UInt32.toNat_toUInt64, hlow]
    exact Int.bmod_eq_of_le_mul_two (by omega) (by omega)
  have hshift : ((1 : Int64) <<< 32).toInt = 2 ^ 32 := by decide
  rw [Int64.toInt_add, Int64.toInt_mul, hlow', hshift, Int32.toInt_toInt64, hhigh, ofBytes_at buf 2 4]
  simp only [Int.bmod_def]
  push_cast
  split <;> split <;> split <;> split <;> omega

theorem serialField_integer (i : Int64) (file_format : Nat) : SerialField (.integer i)
    (sqlite3VdbeSerialType (.integer i) file_format).1 (sqlite3VdbeSerialType (.integer i) file_format).2 := by
  have htype := integerType i file_format
  generalize sqlite3VdbeSerialType (.integer i) file_format = t at htype ⊢
  cases htype with
  | zero h =>
    subst h
    exact ⟨rfl, rfl, fun _ => rfl⟩
  | one h =>
    subst h
    exact ⟨rfl, rfl, fun _ => rfl⟩
  | bytes1 hlo hhi =>
    refine ⟨length_bigEndian 1 _, rfl, fun {p k} h => ?_⟩
    have hnumber := bmod_ofBytes (n := 1) (by decide) h (by omega) (by omega)
    have hint : (ONE_BYTE_INT (p.at k)).toInt64.toInt = i.toInt := by
      rw [Int32.toInt_toInt64, toInt_ONE_BYTE_INT]
      exact hnumber
    exact Prod.ext (integer_ext hint) rfl
  | bytes2 hlo hhi =>
    refine ⟨length_bigEndian 2 _, rfl, fun {p k} h => ?_⟩
    have hnumber := bmod_ofBytes (n := 2) (by decide) h (by omega) (by omega)
    have hint : (TWO_BYTE_INT (p.at k)).toInt64.toInt = i.toInt := by
      rw [Int32.toInt_toInt64, toInt_TWO_BYTE_INT]
      exact hnumber
    exact Prod.ext (integer_ext hint) rfl
  | bytes3 hlo hhi =>
    refine ⟨length_bigEndian 3 _, rfl, fun {p k} h => ?_⟩
    have hnumber := bmod_ofBytes (n := 3) (by decide) h (by omega) (by omega)
    have hint : (THREE_BYTE_INT (p.at k)).toInt64.toInt = i.toInt := by
      rw [Int32.toInt_toInt64, toInt_THREE_BYTE_INT]
      exact hnumber
    exact Prod.ext (integer_ext hint) rfl
  | bytes4 hlo hhi =>
    refine ⟨length_bigEndian 4 _, rfl, fun {p k} h => ?_⟩
    have hnumber := bmod_ofBytes (n := 4) (by decide) h (by omega) (by omega)
    have hint : (FOUR_BYTE_INT (p.at k)).toInt64.toInt = i.toInt := by
      rw [Int32.toInt_toInt64, toInt_FOUR_BYTE_INT]
      exact hnumber
    exact Prod.ext (integer_ext hint) rfl
  | bytes6 hlo hhi =>
    refine ⟨length_bigEndian 6 _, rfl, fun {p k} h => ?_⟩
    have hnumber := bmod_ofBytes (n := 6) (by decide) h (by omega) (by omega)
    exact Prod.ext (integer_ext ((toInt_six (p.at k)).trans hnumber)) rfl
  | bytes8 =>
    refine ⟨length_bigEndian 8 _, rfl, fun {p k} h => ?_⟩
    have hbytes : Holds p k (bigEndian 8 i.toUInt64) := h
    have hnumber := ofBytes_8 (p.at k)
    rw [ofBytes_bigEndian hbytes, Nat.mod_eq_of_lt i.toUInt64.toNat_lt] at hnumber
    have hint := congrArg UInt64.toInt64 (UInt64.toNat_inj.1 hnumber)
    exact Prod.ext (congrArg Value.integer hint) rfl

theorem serialField_real (r : Double) (file_format : Nat) : SerialField (.real r)
    (sqlite3VdbeSerialType (.real r) file_format).1 (sqlite3VdbeSerialType (.real r) file_format).2 := by
  refine ⟨length_bigEndian 8 _, rfl, fun {p k} h => ?_⟩
  have hbytes : Holds p k (bigEndian 8 (UInt64.ofBitVec r)) := h
  have hnumber := ofBytes_8 (p.at k)
  rw [ofBytes_bigEndian hbytes, Nat.mod_eq_of_lt (UInt64.toNat_lt _)] at hnumber
  have hbits := congrArg UInt64.toBitVec (UInt64.toNat_inj.1 hnumber)
  show (if sqlite3IsNaN _ then Value.null else .real _, 8) = _
  rw [hbits]
  rfl

theorem bytes_of_holds {p : Memory} {k : Nat} {z : List UInt8} (h : Holds p k z) : (p.at k).bytes z.length = z := by
  apply List.ext_getElem
  · simp [Memory.bytes]
  · intro i hi hi'
    simp only [Memory.bytes, List.getElem_map, List.getElem_range]
    exact h i hi'

/-- The types of blobs and texts. -/
theorem serialTypeLen_large {t : UInt32} {n : Nat} (hlo : 12 + 2 * n ≤ t.toNat) (hhi : t.toNat ≤ 13 + 2 * n) :
    ((t - 12) / 2).toNat = n ∧ sqlite3VdbeSerialTypeLen t = n := by
  have h12 : (12 : UInt32) ≤ t := UInt32.le_iff_toNat_le.2 (show 12 ≤ _ by omega)
  have hdiv : ((t - 12) / 2).toNat = n := by
    rw [UInt32.toNat_div, UInt32.toNat_sub_of_le _ _ h12]
    show (t.toNat - 12) / 2 = n
    omega
  refine ⟨hdiv, ?_⟩
  rw [sqlite3VdbeSerialTypeLen]
  split
  · exact hdiv
  · rename_i hlt
    have hsmall : t.toNat < 128 := Nat.lt_of_not_le fun h => hlt (UInt32.le_iff_toNat_le.2 h)
    have htable : ∀ j < 116, (sqlite3SmallTypeSizes.getD (12 + j) 0).toNat = j / 2 := by decide
    have hj := htable (t.toNat - 12) (by omega)
    rw [Nat.add_sub_cancel' (by omega)] at hj
    rw [sqlite3VdbeOneByteSerialTypeLen, hj]
    omega

theorem sqlite3VdbeSerialGet_large {t : UInt32} (h : 12 ≤ t.toNat) (buf : Memory) :
    sqlite3VdbeSerialGet buf t = (if t &&& 1 = 0 then .blob (buf.bytes ((t - 12) / 2).toNat)
      else .text (buf.bytes ((t - 12) / 2).toNat), ((t - 12) / 2).toNat) := by
  have hne : ∀ s : UInt32, s.toNat < 12 → t ≠ s := by
    intro s hs he
    rw [he] at h
    omega
  have h0 := hne 0 (by decide)
  have h1 := hne 1 (by decide)
  have h2 := hne 2 (by decide)
  have h3 := hne 3 (by decide)
  have h4 := hne 4 (by decide)
  have h5 := hne 5 (by decide)
  have h6 := hne 6 (by decide)
  have h7 := hne 7 (by decide)
  have h8 := hne 8 (by decide)
  have h9 := hne 9 (by decide)
  have h10 := hne 10 (by decide)
  have h11 := hne 11 (by decide)
  simp only [sqlite3VdbeSerialGet, h0, h1, h2, h3, h4, h5, h6, h7, h8, h9, h10, h11, or_self, if_false]

theorem sqlite3VdbeSerialPut_large {t : UInt32} (h : 12 ≤ t.toNat) (m : Value) : sqlite3VdbeSerialPut m t = m.z := by
  have h7 : ¬ t ≤ 7 := fun hle => by
    have := UInt32.le_iff_toNat_le.1 hle
    have : (7 : UInt32).toNat = 7 := rfl
    omega
  have h12 : (12 : UInt32) ≤ t := UInt32.le_iff_toNat_le.2 h
  rw [sqlite3VdbeSerialPut, if_neg (fun hc => h7 hc.1), if_pos h12]

theorem and_one_eq_zero_iff (t : UInt32) : t &&& 1 = 0 ↔ t.toNat % 2 = 0 := by
  have hand : (t &&& 1).toNat = t.toNat % 2 := by
    rw [UInt32.toNat_and]
    exact Nat.and_two_pow_sub_one_eq_mod _ 1
  rw [← UInt32.toNat_inj, hand]
  rfl

theorem toNat_blobType {n : Nat} (h : n ≤ 1000000000) : (UInt32.ofNat n * 2 + 12).toNat = 2 * n + 12 := by
  have hn : (UInt32.ofNat n).toNat = n := UInt32.toNat_ofNat_of_lt' (show n < 2 ^ 32 by omega)
  rw [UInt32.toNat_add, UInt32.toNat_mul, hn]
  show (n * 2 % 2 ^ 32 + 12) % 2 ^ 32 = _
  omega

theorem toNat_textType {n : Nat} (h : n ≤ 1000000000) : (UInt32.ofNat n * 2 + 12 + 1).toNat = 2 * n + 13 := by
  rw [UInt32.toNat_add, toNat_blobType h]
  show (2 * n + 12 + 1) % 2 ^ 32 = _
  omega

theorem serialField_blob {z : List UInt8} (h : z.length ≤ 1000000000) (file_format : Nat) : SerialField (.blob z)
    (sqlite3VdbeSerialType (.blob z) file_format).1 (sqlite3VdbeSerialType (.blob z) file_format).2 := by
  have ht := toNat_blobType h
  show SerialField (.blob z) (UInt32.ofNat z.length * 2 + 12) z.length
  generalize UInt32.ofNat z.length * 2 + 12 = t at ht ⊢
  obtain ⟨hdiv, hlen⟩ := serialTypeLen_large (t := t) (n := z.length) (by omega) (by omega)
  have hput : sqlite3VdbeSerialPut (.blob z) t = z := sqlite3VdbeSerialPut_large (by omega) (.blob z)
  refine ⟨by rw [hput], hlen, fun {p k} hp => ?_⟩
  rw [hput] at hp
  have hbytes := bytes_of_holds hp
  rw [sqlite3VdbeSerialGet_large (by omega), if_pos ((and_one_eq_zero_iff t).2 (by omega)), hdiv, hbytes]
  rfl

theorem serialField_text {z : List UInt8} (h : z.length ≤ 1000000000) (file_format : Nat) : SerialField (.text z)
    (sqlite3VdbeSerialType (.text z) file_format).1 (sqlite3VdbeSerialType (.text z) file_format).2 := by
  have ht := toNat_textType h
  show SerialField (.text z) (UInt32.ofNat z.length * 2 + 12 + 1) z.length
  generalize UInt32.ofNat z.length * 2 + 12 + 1 = t at ht ⊢
  obtain ⟨hdiv, hlen⟩ := serialTypeLen_large (t := t) (n := z.length) (by omega) (by omega)
  have hput : sqlite3VdbeSerialPut (.text z) t = z := sqlite3VdbeSerialPut_large (by omega) (.text z)
  have hodd : ¬ t &&& 1 = 0 := fun h0 => by
    have := (and_one_eq_zero_iff t).1 h0
    omega
  refine ⟨by rw [hput], hlen, fun {p k} hp => ?_⟩
  rw [hput] at hp
  have hbytes := bytes_of_holds hp
  rw [sqlite3VdbeSerialGet_large (by omega), if_neg hodd, hdiv, hbytes]
  rfl

/-- The data that are written are read back. -/
theorem serialField {m : Value} (h : m.z.length ≤ 1000000000) (file_format : Nat) :
    SerialField m (sqlite3VdbeSerialType m file_format).1 (sqlite3VdbeSerialType m file_format).2 := by
  cases m with
  | null => exact ⟨rfl, rfl, fun _ => rfl⟩
  | integer i => exact serialField_integer i file_format
  | real r => exact serialField_real r file_format
  | text z => exact serialField_text h file_format
  | blob z => exact serialField_blob h file_format

/-! ### Reading a record back -/

theorem putVarint32_eq (v : UInt32) : putVarint32 v = sqlite3PutVarint v.toUInt64 := by
  unfold putVarint32
  split
  · rename_i h
    have hlt : v.toNat < 2 ^ 7 := UInt32.lt_iff_toNat_lt.1 h
    have hle : v.toUInt64 ≤ 0x7f := UInt64.le_iff_toNat_le.2 (Nat.le_of_lt_succ hlt)
    have hand : (v.toUInt64 &&& 0x7f).toUInt8.toNat = v.toNat := by
      rw [toNat_and_0x7f, UInt32.toNat_toUInt64, Nat.mod_eq_of_lt hlt]
    rw [sqlite3PutVarint, if_pos hle]
    congr 1
    rw [← UInt8.toNat_inj, hand, UInt32.toNat_toUInt8]
    omega
  · rfl

theorem length_putVarint32 (v : UInt32) : (putVarint32 v).length = sqlite3VarintLen v.toUInt64 := by
  have hv := v.toNat_lt
  rw [putVarint32_eq]
  refine ((sqlite3VarintLen_eq_iff _).2 ?_).symm
  rw [UInt32.toNat_toUInt64]
  omega

theorem length_putVarint32_of_le {v : UInt32} (h : v ≤ 127) : (putVarint32 v).length = 1 := by
  have hlt : v < 0x80 := UInt32.lt_iff_toNat_lt.2 (Nat.lt_succ_of_le (UInt32.le_iff_toNat_le.1 h))
  rw [putVarint32, if_pos hlt]
  rfl

theorem le_varintLenLoop (n i : Nat) (v : UInt64) : i ≤ varintLenLoop n i v := by
  induction n generalizing i v with
  | zero => exact Nat.le_refl i
  | succ n ih =>
    rw [varintLenLoop]
    split
    · exact Nat.le_refl i
    · exact Nat.le_trans (Nat.le_succ i) (ih _ _)

theorem varintLen_pos (v : UInt64) : 0 < sqlite3VarintLen v := le_varintLenLoop 10 1 v

theorem Memory.at_zero (p : Memory) : p.at 0 = p := funext fun i => congrArg p (Nat.zero_add i)

theorem holds_at {p : Memory} {k : Nat} {z : List UInt8} : Holds (p.at k) 0 z ↔ Holds p k z := by
  simp [Holds, Memory.at]

theorem sqlite3GetVarint32_putVarint32 {p : Memory} {k : Nat} {v : UInt32} (h : Holds p k (putVarint32 v)) :
    sqlite3GetVarint32 (p.at k) = (v, (putVarint32 v).length) := by
  obtain ⟨hvalue, hsize⟩ := sqlite3GetVarint32_eq (p.at k)
  have hv := v.toNat_lt
  rw [putVarint32_eq] at h ⊢
  rw [varint_putVarint (holds_at.2 h)] at hvalue hsize
  dsimp only at hvalue
  rw [UInt32.toNat_toUInt64] at hvalue
  have hmin : min v.toNat (2 ^ 32 - 1) = v.toNat := by omega
  exact Prod.ext (UInt32.toNat_inj.1 (hvalue.trans hmin)) hsize

theorem DigitCount.exists (k : Nat) {v : Nat} (h : v < 2 ^ (7 * (k + 1))) : ∃ m ≤ k, DigitCount v m := by
  induction k generalizing v with
  | zero => exact ⟨0, Nat.le_refl 0, h, .inl rfl⟩
  | succ k ih =>
    by_cases hlt : v < 2 ^ 7
    · exact ⟨0, Nat.zero_le _, hlt, .inl rfl⟩
    · have hdiv : v / 2 ^ 7 < 2 ^ (7 * (k + 1)) := by
        rw [Nat.mul_succ 7 (k + 1), Nat.pow_add, Nat.mul_comm] at h
        exact Nat.div_lt_of_lt_mul h
      obtain ⟨m, hm, hcount⟩ := ih hdiv
      exact ⟨m + 1, by omega, hcount.succ (by omega)⟩

theorem varintLen_eq {v m : Nat} (hm : m < 9) (h : DigitCount v m) : sqlite3VarintLen (UInt64.ofNat v) = m + 1 := by
  have hpow : 2 ^ (7 * (m + 1)) ≤ 2 ^ 63 := Nat.pow_le_pow_right (by decide) (by omega)
  have hlt := h.lt
  have hnat : (UInt64.ofNat v).toNat = v := UInt64.toNat_ofNat_of_lt' (show v < 2 ^ 64 by omega)
  rw [sqlite3VarintLen, varintLenLoop_eq (by omega) (hnat.symm ▸ h), Nat.add_comm]

/-- The size of the header counts the varint it is written in. -/
theorem headerSize_eq {n : Nat} (h : n < 2 ^ 31) :
    headerSize n = n + sqlite3VarintLen (UInt64.ofNat (headerSize n)) := by
  unfold headerSize
  split
  · have hcount : DigitCount (n + 1) 0 := ⟨by omega, .inl rfl⟩
    rw [varintLen_eq (by decide) hcount]
  · rename_i hlarge
    obtain ⟨m, hm, hlt, hge⟩ := DigitCount.exists 4 (v := n) (by omega)
    have hpow : m + 1 < 2 ^ (7 * (m + 1)) :=
      Nat.lt_of_lt_of_le Nat.lt_two_pow_self (Nat.pow_le_pow_right (by decide) (by omega))
    have hnext : 2 ^ (7 * (m + 1 + 1)) = 2 ^ 7 * 2 ^ (7 * (m + 1)) := by rw [← Nat.pow_add]; congr 1; omega
    have hn : sqlite3VarintLen (UInt64.ofNat n) = m + 1 := varintLen_eq (by omega) ⟨hlt, hge⟩
    simp only [hn]
    by_cases hfits : n + (m + 1) < 2 ^ (7 * (m + 1))
    · have hcount : DigitCount (n + (m + 1)) m := ⟨hfits, hge.imp id (fun hge => by omega)⟩
      have hsame := varintLen_eq (by omega) hcount
      rw [hsame, if_neg (Nat.lt_irrefl _), hsame]
    · have hcount : DigitCount (n + (m + 1)) (m + 1) := ⟨by omega, .inr (by omega)⟩
      have hcount' : DigitCount (n + (m + 1) + 1) (m + 1) := ⟨by omega, .inr (by omega)⟩
      have hmore := varintLen_eq (by omega) hcount
      have hmore' := varintLen_eq (by omega) hcount'
      rw [hmore, if_pos (Nat.lt_succ_self _), hmore']
      omega

theorem lt_headerSize (n : Nat) : n < headerSize n := by
  unfold headerSize
  split
  · exact Nat.lt_succ_self n
  · have hlen := varintLen_pos (UInt64.ofNat n)
    dsimp only
    split <;> omega

variable {fields : List Value} {file_format : Nat}

/-- The serial types of the fields, as they are written in the header. -/
def typeBytes (fields : List Value) (file_format : Nat) : List UInt8 :=
  fields.flatMap fun m => putVarint32 (sqlite3VdbeSerialType m file_format).1

/-- The data of the fields. -/
def dataBytes (fields : List Value) (file_format : Nat) : List UInt8 :=
  fields.flatMap fun m => sqlite3VdbeSerialPut m (sqlite3VdbeSerialType m file_format).1

theorem headerAndDataSize_fst (fields : List Value) (file_format : Nat) : (headerAndDataSize fields file_format).1 =
    (typeBytes fields file_format).length := by
  induction fields with
  | nil => rfl
  | cons m fields ih =>
    simp only [headerAndDataSize, typeBytes, List.foldr_cons, List.flatMap_cons, List.length_append] at ih ⊢
    rw [ih, Nat.add_comm]
    congr 1
    split
    · rename_i hle
      rw [length_putVarint32_of_le hle]
    · rw [length_putVarint32]

theorem length_z_le (m : Value) (file_format : Nat) : m.z.length ≤ (sqlite3VdbeSerialType m file_format).2 := by
  cases m with
  | text z => exact Nat.le_refl _
  | blob z => exact Nat.le_refl _
  | _ => exact Nat.zero_le _

theorem headerAndDataSize_snd (h : (headerAndDataSize fields file_format).2 ≤ 1000000000) :
    (∀ m ∈ fields, m.z.length ≤ 1000000000) ∧
      (headerAndDataSize fields file_format).2 = (dataBytes fields file_format).length := by
  induction fields with
  | nil => exact ⟨fun m hm => by simp at hm, rfl⟩
  | cons m fields ih =>
    have hcons : (headerAndDataSize (m :: fields) file_format).2 =
      (headerAndDataSize fields file_format).2 + (sqlite3VdbeSerialType m file_format).2 := rfl
    obtain ⟨hall, hsum⟩ := ih (by omega)
    have hm := length_z_le m file_format
    have hlength := (serialField (m := m) (by omega) file_format).length
    refine ⟨?_, ?_⟩
    · intro m' hm'
      rcases List.mem_cons.1 hm' with rfl | hm'
      · omega
      · exact hall m' hm'
    · rw [hcons, hsum, dataBytes, dataBytes, List.flatMap_cons, List.length_append, hlength, Nat.add_comm]

/-- What `OP_MakeRecord` has written: the size of the header, the serial types and the data. -/
structure IsRecord (fields : List Value) (file_format : Nat) (z : List UInt8) (szHdr : UInt32) : Prop where
  bytes : z = putVarint32 szHdr ++ typeBytes fields file_format ++ dataBytes fields file_format
  header : szHdr.toNat = (putVarint32 szHdr).length + (typeBytes fields file_format).length
  fits : ∀ m ∈ fields, m.z.length ≤ 1000000000
  small : z.length ≤ 1000000000

theorem isRecord_makeRecord {limit : Nat} {z : List UInt8} (hlimit : limit ≤ 1000000000)
    (h : makeRecord fields file_format limit = some z) :
    z.length ≤ limit ∧ ∃ szHdr, IsRecord fields file_format z szHdr := by
  simp only [makeRecord] at h
  split at h
  · cases h
  · rename_i hle
    have hz := Option.some.inj h
    have hn := lt_headerSize (headerAndDataSize fields file_format).1
    have hfull : (headerAndDataSize fields file_format).2 ≤ 1000000000 := by omega
    obtain ⟨hfits, hdata⟩ := headerAndDataSize_snd hfull
    have htypes := headerAndDataSize_fst fields file_format
    have hsize := headerSize_eq (n := (headerAndDataSize fields file_format).1) (by omega)
    generalize headerSize (headerAndDataSize fields file_format).1 = nHdr at hle hz hn hsize
    have hnat : (UInt32.ofNat nHdr).toNat = nHdr := UInt32.toNat_ofNat_of_lt' (show nHdr < 2 ^ 32 by omega)
    have hword : (UInt32.ofNat nHdr).toUInt64 = UInt64.ofNat nHdr := by
      rw [← UInt64.toNat_inj, UInt32.toNat_toUInt64, hnat]
      exact (UInt64.toNat_ofNat_of_lt' (show nHdr < 2 ^ 64 by omega)).symm
    have hlen := length_putVarint32 (UInt32.ofNat nHdr)
    rw [hword] at hlen
    have hz' : z = putVarint32 (UInt32.ofNat nHdr) ++ typeBytes fields file_format ++ dataBytes fields file_format :=
      hz.symm
    have hheader : (UInt32.ofNat nHdr).toNat =
      (putVarint32 (UInt32.ofNat nHdr)).length + (typeBytes fields file_format).length := by omega
    have hzlen : z.length = nHdr + (headerAndDataSize fields file_format).2 := by
      rw [hz', List.length_append, List.length_append]
      omega
    exact ⟨by omega, _, hz', hheader, hfits, by omega⟩

/-- The loop reads the fields one after the other. -/
theorem recordUnpackLoop_eq {aKey : Memory} {nKey szHdr idx d : Nat} (n : Nat)
    (hfits : ∀ m ∈ fields, m.z.length ≤ 1000000000)
    (htypes : Holds aKey idx (typeBytes fields file_format))
    (hidx : idx + (typeBytes fields file_format).length = szHdr)
    (hdata : Holds aKey d (dataBytes fields file_format)) (hd : d + (dataBytes fields file_format).length ≤ nKey) :
    recordUnpackLoop aKey nKey szHdr n idx d = (fields.map Value.stored).take (n + 1) := by
  induction fields generalizing n idx d with
  | nil =>
    have hend : idx = szHdr := hidx
    rw [recordUnpackLoop, if_neg (by omega)]
    rfl
  | cons m fields ih =>
    have hm := serialField (hfits m (List.mem_cons_self ..)) file_format
    have hpos := varintLen_pos (sqlite3VdbeSerialType m file_format).1.toUInt64
    have hlen := length_putVarint32 (sqlite3VdbeSerialType m file_format).1
    simp only [typeBytes, dataBytes, List.flatMap_cons, List.length_append] at htypes hdata hidx hd
    obtain ⟨htype, htypes⟩ := holds_append.1 htypes
    obtain ⟨hvalue, hdata⟩ := holds_append.1 hdata
    rw [recordUnpackLoop, if_pos (by omega), sqlite3GetVarint32_putVarint32 htype]
    dsimp only
    rw [hm.get hvalue, List.map_cons, List.take_succ_cons]
    congr 1
    cases n with
    | zero => rfl
    | succ n =>
      rw [hm.length] at hdata hd
      exact ih n (fun m' hm' => hfits m' (List.mem_cons_of_mem m hm')) htypes (by rw [← hidx, Nat.add_assoc]; rfl) hdata
        (by rw [Nat.add_assoc]; exact hd)

/-- `sqlite3VdbeRecordUnpack` reads the fields of a record back, as far as there is room for them. -/
theorem recordUnpack_eq {z : List UInt8} {szHdr : UInt32} (h : IsRecord fields file_format z szHdr) {aKey : Memory}
    (hz : Holds aKey 0 z) (nField : Nat) :
    sqlite3VdbeRecordUnpack nField z.length aKey = (fields.map Value.stored).take (nField + 1) := by
  obtain ⟨rfl, hheader, hfits, -⟩ := h
  obtain ⟨hhdr, hdata⟩ := holds_append.1 hz
  obtain ⟨hsize, htypes⟩ := holds_append.1 hhdr
  have hget := sqlite3GetVarint32_putVarint32 hsize
  rw [Memory.at_zero] at hget
  rw [Nat.zero_add] at htypes hdata
  rw [List.length_append, ← hheader] at hdata
  simp only [sqlite3VdbeRecordUnpack, hget]
  exact recordUnpackLoop_eq nField hfits htypes hheader.symm hdata
    (by rw [List.length_append, List.length_append, ← hheader])

/-- What `OP_MakeRecord` writes, `sqlite3VdbeRecordUnpack` reads back from any memory that holds it: the fields, a `NaN`
as `NULL`, up to the number of fields there is room for. -/
theorem recordUnpack_makeRecord {limit : Nat} {z : List UInt8} (hlimit : limit ≤ 1000000000)
    (h : makeRecord fields file_format limit = some z) {aKey : Memory} (hz : Holds aKey 0 z) (nField : Nat) :
    z.length ≤ limit ∧ sqlite3VdbeRecordUnpack nField z.length aKey = (fields.map Value.stored).take (nField + 1) := by
  obtain ⟨hle, szHdr, hrec⟩ := isRecord_makeRecord hlimit h
  exact ⟨hle, recordUnpack_eq hrec hz nField⟩

theorem recordUnpack_makeRecord_two :
    makeRecord [.integer 300, .text [97]] 4 1000 = some [3, 2, 15, 1, 44, 97] ∧
      sqlite3VdbeRecordUnpack 5 6 (fun i => [3, 2, 15, 1, 44, 97, 9].getD i 0) = [.integer 300, .text [97]] :=
  have hmake : makeRecord [.integer 300, .text [97]] 4 1000 = some [3, 2, 15, 1, 44, 97] := by decide
  have hz : Holds (fun i => [3, 2, 15, 1, 44, 97, 9].getD i 0) 0 [3, 2, 15, 1, 44, 97] := by
    unfold Holds
    decide
  ⟨hmake, (recordUnpack_makeRecord (by decide) hmake hz 5).2⟩

end Sqlite4a
