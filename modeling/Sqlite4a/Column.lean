import Mathlib.Logic.Function.Basic
import Sqlite4a.Record

/-!
# Reading columns

`OP_Column` parses the header of the row its cursor is on only as far as it needs, keeps what it has found in the
cursor, and reads the content from the page of the row or from its overflow pages.  Whatever columns are read, in
whatever order, the values are those of the record (`columns_eq`).
-/

namespace Sqlite4a

def OPFLAG_LENGTHARG : UInt16 := 0x40
def OPFLAG_TYPEOFARG : UInt16 := 0x80

def SQLITE_MAX_COLUMN : Nat := 2000

/-- The ways `OP_Column` fails. -/
inductive ColumnError
  | tooBig
  | corrupt
  deriving DecidableEq

/-- The row a cursor is on: none, the content of a register, or an entry of a b-tree, of whose bytes the first `avail`
are on the page of the entry. -/
inductive RowSource
  | nullRow
  | pseudo (reg : Memory) (n : Nat)
  | btree (payload : Memory) (payloadSize : Nat) (page : Memory) (avail : Nat)

/-- The cache of a `VdbeCursor`; `valid` is `cacheStatus == p->cacheCtr`. -/
structure VdbeCursor where
  valid : Bool
  payloadSize : Nat
  szRow : Nat
  aRow : Option Memory
  iHdrOffset : Nat
  nHdrParsed : Nat
  aType : Nat → UInt32
  aOffset : Nat → Nat

/-- The variables of the loop that parses the header. -/
structure HeaderScan where
  i : Nat
  zHdr : Nat
  offset64 : Nat
  aType : Nat → UInt32
  aOffset : Nat → Nat

def VdbeCursor.scan (pC : VdbeCursor) : HeaderScan :=
  ⟨pC.nHdrParsed, pC.iHdrOffset, pC.aOffset pC.nHdrParsed, pC.aType, pC.aOffset⟩

/-- One round: the type of the next field. -/
def headerRound (zData : Memory) (s : HeaderScan) : HeaderScan :=
  let t := (zData s.zHdr).toUInt32
  if t < 0x80 then
    let offset64 := s.offset64 + sqlite3VdbeOneByteSerialTypeLen t
    ⟨s.i + 1, s.zHdr + 1, offset64, Function.update s.aType s.i t,
      Function.update s.aOffset (s.i + 1) (offset64 % 2 ^ 32)⟩
  else
    let r := sqlite3GetVarint32 (zData.at s.zHdr)
    let offset64 := s.offset64 + sqlite3VdbeSerialTypeLen r.1
    ⟨s.i + 1, s.zHdr + r.2, offset64, Function.update s.aType s.i r.1,
      Function.update s.aOffset (s.i + 1) (offset64 % 2 ^ 32)⟩

/-- The loop, with `n = p2 - i`. -/
def headerLoop (zData : Memory) (zEndHdr : Nat) : Nat → HeaderScan → HeaderScan
  | 0, s => headerRound zData s
  | n + 1, s =>
    let s := headerRound zData s
    if s.zHdr < zEndHdr then headerLoop zData zEndHdr n s else s

/-- `op_column_read_header`. -/
def readHeader (zData : Memory) (pC : VdbeCursor) (p2 : Nat) : Except ColumnError VdbeCursor :=
  let zEndHdr := pC.aOffset 0
  let s := headerLoop zData zEndHdr (p2 - pC.nHdrParsed) pC.scan
  if zEndHdr ≤ s.zHdr ∧ (zEndHdr < s.zHdr ∨ s.offset64 ≠ pC.payloadSize) ∨ pC.payloadSize < s.offset64 then
    .error .corrupt
  else .ok { pC with nHdrParsed := s.i, iHdrOffset := s.zHdr, aType := s.aType, aOffset := s.aOffset }

/-- The cache for a new row, and whether the header can be parsed in `aRow`. -/
def loadRow (pC : VdbeCursor) (payloadSize szRow avail : Nat) (aRow : Memory) :
    Except ColumnError (VdbeCursor × Bool) :=
  let h := sqlite3GetVarint32 aRow
  let offset := h.1.toNat
  let pC := { pC with
    valid := true, payloadSize := payloadSize, szRow := szRow, aRow := some aRow, iHdrOffset := h.2, nHdrParsed := 0,
    aOffset := Function.update pC.aOffset 0 offset }
  if avail < offset then
    if 98307 < offset ∨ payloadSize < offset then .error .corrupt
    else .ok ({ pC with aRow := none, szRow := 0 }, false)
  else .ok (pC, 0 < offset)

/-- What is in the record from a place on: the row on its page, or the payload. -/
def RowSource.payload : RowSource → Memory
  | .nullRow => fun _ => 0
  | .pseudo reg _ => reg
  | .btree payload _ _ _ => payload

/-- The content of field `p2`, whose type and offsets are known. -/
def columnContent (src : RowSource) (pC : VdbeCursor) (p2 : Nat) (p5 : UInt16) : Value :=
  let t := pC.aType p2
  if pC.aOffset (p2 + 1) ≤ pC.szRow then
    (sqlite3VdbeSerialGet ((pC.aRow.getD fun _ => 0).at (pC.aOffset p2)) t).1
  else if p5 &&& (OPFLAG_LENGTHARG ||| OPFLAG_TYPEOFARG) ≠ 0 ∧ (12 ≤ t ∧ t &&& 1 = 0 ∨ p5 &&& OPFLAG_TYPEOFARG ≠ 0) ∨
      sqlite3VdbeSerialTypeLen t = 0 then
    -- the content is not looked at: `aZero`
    (sqlite3VdbeSerialGet (fun _ => 0) t).1
  else (sqlite3VdbeSerialGet (src.payload.at (pC.aOffset p2)) t).1

/-- The rest of `OP_Column` for a cursor whose header has been parsed; `p4` is the value of `P4_MEM`. -/
def columnResult (src : RowSource) (pC : VdbeCursor) (p2 : Nat) (p4 : Option Value) (p5 : UInt16) : Value :=
  if pC.nHdrParsed ≤ p2 then p4.getD .null else columnContent src pC p2 p5

/-- `OP_Column` on a valid cache. -/
def columnCached (src : RowSource) (pC : VdbeCursor) (p2 : Nat) (p4 : Option Value) (p5 : UInt16) :
    Except ColumnError (VdbeCursor × Value) :=
  if pC.nHdrParsed ≤ p2 ∧ pC.iHdrOffset < pC.aOffset 0 then
    match readHeader (pC.aRow.getD src.payload) pC p2 with
    | .error e => .error e
    | .ok pC => .ok (pC, columnResult src pC p2 p4 p5)
  else .ok (pC, columnResult src pC p2 p4 p5)

/-- `OP_Column` after a new row has been loaded. -/
def columnLoaded (src : RowSource) (aRow : Memory) (p2 : Nat) (p4 : Option Value) (p5 : UInt16) :
    Except ColumnError (VdbeCursor × Bool) → Except ColumnError (VdbeCursor × Value)
  | .error e => .error e
  | .ok (pC, false) => columnCached src pC p2 p4 p5
  | .ok (pC, true) =>
    match readHeader aRow pC p2 with
    | .error e => .error e
    | .ok pC => .ok (pC, columnResult src pC p2 p4 p5)

/-- `OP_Column`; `limit` is `SQLITE_LIMIT_LENGTH`. -/
def column (src : RowSource) (limit : Nat) (pC : VdbeCursor) (p2 : Nat) (p4 : Option Value) (p5 : UInt16) :
    Except ColumnError (VdbeCursor × Value) :=
  if pC.valid then columnCached src pC p2 p4 p5
  else
    match src with
    | .nullRow => .ok (pC, .null)
    | .pseudo reg n => columnLoaded src reg p2 p4 p5 (loadRow pC n n n reg)
    | .btree _ payloadSize page avail =>
      if payloadSize ≤ avail then columnLoaded src page p2 p4 p5 (loadRow pC payloadSize payloadSize avail page)
      else if limit < payloadSize then .error .tooBig
      else columnLoaded src page p2 p4 p5 (loadRow pC payloadSize avail avail page)

/-- An `OP_Column` with its operands. -/
structure ColumnOp where
  p2 : Nat
  p4 : Option Value
  p5 : UInt16

/-- Column after column of one row. -/
def columns (src : RowSource) (limit : Nat) : VdbeCursor → List ColumnOp → Except ColumnError (List Value)
  | _, [] => .ok []
  | pC, op :: ops =>
    match column src limit pC op.p2 op.p4 op.p5 with
    | .error e => .error e
    | .ok (pC, v) => (columns src limit pC ops).map (v :: ·)

/-! ### The header -/

variable {fields : List Value} {file_format : Nat} {szHdr : UInt32}

theorem split_field {k : Nat} (h : k < fields.length) : fields = fields.take k ++ fields[k] :: fields.drop (k + 1) := by
  rw [← List.drop_eq_getElem_cons h, List.take_append_drop]

theorem length_typeBytes_succ (file_format : Nat) {k : Nat} (h : k < fields.length) :
    (typeBytes (fields.take (k + 1)) file_format).length = (typeBytes (fields.take k) file_format).length +
      (putVarint32 (sqlite3VdbeSerialType fields[k] file_format).1).length := by
  rw [List.take_succ_eq_append_getElem h]
  simp only [typeBytes, List.flatMap_append, List.flatMap_cons, List.flatMap_nil, List.append_nil, List.length_append]

theorem length_dataBytes_succ (file_format : Nat) {k : Nat} (h : k < fields.length) :
    (dataBytes (fields.take (k + 1)) file_format).length = (dataBytes (fields.take k) file_format).length +
      (sqlite3VdbeSerialPut fields[k] (sqlite3VdbeSerialType fields[k] file_format).1).length := by
  rw [List.take_succ_eq_append_getElem h]
  simp only [dataBytes, List.flatMap_append, List.flatMap_cons, List.flatMap_nil, List.append_nil, List.length_append]

/-- The header ends after the last field, not before. -/
theorem length_typeBytes_take_lt (file_format : Nat) {k : Nat} (h : k < fields.length) :
    (typeBytes (fields.take k) file_format).length < (typeBytes fields file_format).length := by
  have hlen := length_putVarint32 (sqlite3VdbeSerialType fields[k] file_format).1
  have hpos := varintLen_pos (sqlite3VdbeSerialType fields[k] file_format).1.toUInt64
  conv => rhs; rw [split_field h]
  simp only [typeBytes, List.flatMap_append, List.flatMap_cons, List.length_append]
  omega

theorem length_dataBytes_take_le (fields : List Value) (file_format k : Nat) :
    (dataBytes (fields.take k) file_format).length ≤ (dataBytes fields file_format).length := by
  conv => rhs; rw [← List.take_append_drop k fields]
  simp only [dataBytes, List.flatMap_append, List.length_append]
  exact Nat.le_add_right _ _

theorem holds_type {p : Memory} {a k : Nat} (h : Holds p a (typeBytes fields file_format)) (hk : k < fields.length) :
    Holds p (a + (typeBytes (fields.take k) file_format).length)
      (putVarint32 (sqlite3VdbeSerialType fields[k] file_format).1) := by
  rw [split_field hk] at h
  simp only [typeBytes, List.flatMap_append, List.flatMap_cons] at h
  exact (holds_append.1 (holds_append.1 h).2).1

theorem holds_data {p : Memory} {a k : Nat} (h : Holds p a (dataBytes fields file_format)) (hk : k < fields.length) :
    Holds p (a + (dataBytes (fields.take k) file_format).length)
      (sqlite3VdbeSerialPut fields[k] (sqlite3VdbeSerialType fields[k] file_format).1) := by
  rw [split_field hk] at h
  simp only [dataBytes, List.flatMap_append, List.flatMap_cons] at h
  exact (holds_append.1 (holds_append.1 h).2).1

/-- The short way for types of one byte does what the long way does. -/
theorem headerRound_eq {zData : Memory} {s : HeaderScan} {t : UInt32} (h : Holds zData s.zHdr (putVarint32 t)) :
    headerRound zData s = ⟨s.i + 1, s.zHdr + (putVarint32 t).length, s.offset64 + sqlite3VdbeSerialTypeLen t,
      Function.update s.aType s.i t,
      Function.update s.aOffset (s.i + 1) ((s.offset64 + sqlite3VdbeSerialTypeLen t) % 2 ^ 32)⟩ := by
  have hget := sqlite3GetVarint32_putVarint32 h
  simp only [headerRound]
  split
  · rename_i hshort
    have hlt : (zData s.zHdr).toNat < 2 ^ 7 := UInt32.lt_iff_toNat_lt.1 hshort
    have hbyte : (zData.at s.zHdr 0).toUInt32 &&& 0x80 = 0 := (continues_byte _).2 hlt
    rw [sqlite3GetVarint32, if_pos hbyte] at hget
    have ht : (zData s.zHdr).toUInt32 = t := congrArg Prod.fst hget
    have hone : 1 = (putVarint32 t).length := congrArg Prod.snd hget
    have hsmall : ¬ (128 : UInt32) ≤ t := by
      rw [← ht, UInt32.le_iff_toNat_le, UInt8.toNat_toUInt32]
      exact Nat.not_le_of_lt hlt
    rw [ht, ← hone, sqlite3VdbeSerialTypeLen, if_neg hsmall]
  · rw [hget]

/-- The variables of the loop after `s.i` fields. -/
structure Scanned (fields : List Value) (file_format : Nat) (szHdr : UInt32) (s : HeaderScan) : Prop where
  le : s.i ≤ fields.length
  zHdr : s.zHdr = (putVarint32 szHdr).length + (typeBytes (fields.take s.i) file_format).length
  offset64 : s.offset64 = szHdr.toNat + (dataBytes (fields.take s.i) file_format).length
  aType : ∀ j < s.i, ∀ h : j < fields.length, s.aType j = (sqlite3VdbeSerialType fields[j] file_format).1
  aOffset : ∀ j ≤ s.i, s.aOffset j = szHdr.toNat + (dataBytes (fields.take j) file_format).length

theorem scanned_headerRound {z : List UInt8} (hrec : IsRecord fields file_format z szHdr) {zData : Memory}
    (hhdr : Holds zData (putVarint32 szHdr).length (typeBytes fields file_format)) {s : HeaderScan}
    (hs : Scanned fields file_format szHdr s) (hi : s.i < fields.length) :
    Scanned fields file_format szHdr (headerRound zData s) ∧ (headerRound zData s).i = s.i + 1 := by
  have hm := serialField (hrec.fits _ (List.getElem_mem hi)) file_format
  have htype := holds_type hhdr hi
  have hdata := length_dataBytes_succ file_format hi
  have htypes := length_typeBytes_succ file_format hi
  have hle := length_dataBytes_take_le fields file_format (s.i + 1)
  have hsmall := hrec.small
  have hheader := hrec.header
  rw [← hs.zHdr] at htype
  rw [hrec.bytes, List.length_append, List.length_append] at hsmall
  have hoffset := hs.offset64
  have hzHdr := hs.zHdr
  rw [hm.length] at hdata
  rw [headerRound_eq htype, hm.typeLen]
  refine ⟨⟨hi, ?_, ?_, ?_, ?_⟩, rfl⟩
  · dsimp only
    omega
  · dsimp only
    omega
  · intro j hj h
    dsimp only at hj ⊢
    by_cases hji : j = s.i
    · subst hji
      rw [Function.update_self]
    · rw [Function.update_of_ne hji, hs.aType j (by omega) h]
  · intro j hj
    dsimp only at hj ⊢
    by_cases hji : j = s.i + 1
    · subst hji
      rw [Function.update_self]
      omega
    · rw [Function.update_of_ne hji, hs.aOffset j (by omega)]

theorem scanned_headerLoop {z : List UInt8} (hrec : IsRecord fields file_format z szHdr) {zData : Memory}
    (hhdr : Holds zData (putVarint32 szHdr).length (typeBytes fields file_format)) (n : Nat) {s : HeaderScan}
    (hs : Scanned fields file_format szHdr s) (hi : s.i < fields.length) :
    Scanned fields file_format szHdr (headerLoop zData szHdr.toNat n s) ∧
      (headerLoop zData szHdr.toNat n s).i = min (s.i + n + 1) fields.length := by
  induction n generalizing s with
  | zero =>
    obtain ⟨hround, hnext⟩ := scanned_headerRound hrec hhdr hs hi
    refine ⟨hround, ?_⟩
    rw [headerLoop, hnext]
    omega
  | succ n ih =>
    obtain ⟨hround, hnext⟩ := scanned_headerRound hrec hhdr hs hi
    have hheader := hrec.header
    have hzHdr := hround.zHdr
    rw [hnext] at hzHdr
    simp only [headerLoop]
    by_cases hlast : s.i + 1 < fields.length
    · have hlt := length_typeBytes_take_lt file_format hlast
      rw [if_pos (by omega)]
      obtain ⟨hloop, hend⟩ := ih hround (by omega)
      refine ⟨hloop, ?_⟩
      rw [hend, hnext]
      omega
    · rw [List.take_of_length_le (Nat.le_of_not_lt hlast)] at hzHdr
      rw [if_neg (by omega)]
      refine ⟨hround, ?_⟩
      rw [hnext]
      omega

/-! ### The values of a row -/

/-- `sqlite3_value_type`. -/
def sqlite3ValueType : Value → Nat
  | .integer _ => 1
  | .real _ => 2
  | .text _ => 3
  | .blob _ => 4
  | .null => 5

/-- What a column may be read as where only its length or its type is looked at. -/
def SameFor (p5 : UInt16) (v m : Value) : Prop :=
  if p5 &&& OPFLAG_TYPEOFARG ≠ 0 then sqlite3ValueType v = sqlite3ValueType m
  else if p5 &&& OPFLAG_LENGTHARG ≠ 0 then v = m ∨ ∃ y z, v = .blob y ∧ m = .blob z ∧ y.length = z.length
  else v = m

theorem SameFor.refl (p5 : UInt16) (m : Value) : SameFor p5 m m := by
  unfold SameFor
  split
  · rfl
  · split
    · exact .inl rfl
    · rfl

/-- The value of column `op.p2`. -/
def columnValue (fields : List Value) (op : ColumnOp) : Value := fields.getD op.p2 (op.p4.getD .null)

/-- A b-tree entry that holds a record. -/
structure RowOf (fields : List Value) (file_format limit : Nat) (szHdr : UInt32) (z : List UInt8)
    (payload page : Memory)
    (avail : Nat) : Prop where
  record : IsRecord fields file_format z szHdr
  nonempty : 0 < fields.length
  columns : fields.length ≤ SQLITE_MAX_COLUMN
  plain : ∀ m ∈ fields, m.stored = m
  holds : Holds payload 0 z
  onPage : ∀ i < avail, i < z.length → page i = payload i
  nine : min z.length 9 ≤ avail
  short : z.length ≤ limit

/-- What the cache of the cursor holds while the cursor is on the row. -/
structure Cached (fields : List Value) (file_format : Nat) (szHdr : UInt32) (z : List UInt8) (payload : Memory)
    (pC : VdbeCursor) : Prop where
  payloadSize : pC.payloadSize = z.length
  szRow : pC.szRow ≤ z.length
  aRow : ∀ p, pC.aRow = some p → szHdr.toNat ≤ pC.szRow ∧ ∀ i < pC.szRow, p i = payload i
  noRow : pC.aRow = none → pC.szRow = 0
  scan : Scanned fields file_format szHdr pC.scan

variable {limit avail : Nat} {z : List UInt8} {payload page : Memory} {pC : VdbeCursor}

theorem Cached.aOffset_zero (h : Cached fields file_format szHdr z payload pC) : pC.aOffset 0 = szHdr.toNat :=
  h.scan.aOffset 0 (Nat.zero_le _)

theorem holds_of_eq {p q : Memory} {k n : Nat} {z : List UInt8} (h : Holds p k z) (heq : ∀ i < n, q i = p i)
    (hn : k + z.length ≤ n) : Holds q k z := by
  intro i hi
  rw [heq (k + i) (by omega), h i hi]

theorem RowOf.holds_types (hrow : RowOf fields file_format limit szHdr z payload page avail) :
    Holds payload 0 (putVarint32 szHdr) ∧ Holds payload (putVarint32 szHdr).length (typeBytes fields file_format) ∧
      Holds payload szHdr.toNat (dataBytes fields file_format) := by
  have hz := hrow.holds
  rw [hrow.record.bytes] at hz
  obtain ⟨hhdr, hdata⟩ := holds_append.1 hz
  obtain ⟨hsize, htypes⟩ := holds_append.1 hhdr
  rw [Nat.zero_add] at htypes hdata
  rw [List.length_append, ← hrow.record.header] at hdata
  exact ⟨hsize, htypes, hdata⟩

theorem IsRecord.length_eq (h : IsRecord fields file_format z szHdr) :
    z.length = szHdr.toNat + (dataBytes fields file_format).length := by
  rw [h.bytes, List.length_append, List.length_append, ← h.header]

/-- Parsing more of the header. -/
theorem readHeader_eq (hrow : RowOf fields file_format limit szHdr z payload page avail)
    (hcached : Cached fields file_format szHdr z payload pC) {p2 : Nat} (hp2 : pC.nHdrParsed ≤ p2)
    (hmore : pC.nHdrParsed < fields.length) {zData : Memory} (hzData : ∀ i < szHdr.toNat, zData i = payload i) :
    ∃ pC', readHeader zData pC p2 = .ok pC' ∧ Cached fields file_format szHdr z payload pC' ∧
      pC'.nHdrParsed = min (p2 + 1) fields.length ∧ pC'.valid = pC.valid := by
  have hheader := hrow.record.header
  have hlength := hrow.record.length_eq
  obtain ⟨-, htypes, -⟩ := hrow.holds_types
  have htypes' : Holds zData (putVarint32 szHdr).length (typeBytes fields file_format) :=
    holds_of_eq htypes hzData (by omega)
  obtain ⟨hscan, hend⟩ := scanned_headerLoop hrow.record htypes' (p2 - pC.nHdrParsed) hcached.scan hmore
  have hend' : pC.scan.i + (p2 - pC.nHdrParsed) + 1 = p2 + 1 := by
    show pC.nHdrParsed + (p2 - pC.nHdrParsed) + 1 = p2 + 1
    omega
  rw [hend'] at hend
  simp only [readHeader, hcached.aOffset_zero, hcached.payloadSize]
  generalize headerLoop zData szHdr.toNat (p2 - pC.nHdrParsed) pC.scan = s at hscan hend
  have hzHdr := hscan.zHdr
  have hoffset := hscan.offset64
  have hle := length_dataBytes_take_le fields file_format s.i
  have hok : ¬ (szHdr.toNat ≤ s.zHdr ∧ (szHdr.toNat < s.zHdr ∨ s.offset64 ≠ z.length) ∨ z.length < s.offset64) := by
    by_cases hall : s.i < fields.length
    · have hlt := length_typeBytes_take_lt file_format hall
      omega
    · rw [List.take_of_length_le (Nat.le_of_not_lt hall)] at hzHdr hoffset
      omega
  rw [if_neg hok]
  refine ⟨_, rfl, ⟨rfl, hcached.szRow, hcached.aRow, hcached.noRow, ?_⟩, hend, rfl⟩
  exact ⟨hscan.le, hscan.zHdr, (hscan.aOffset s.i (Nat.le_refl _)), hscan.aType, hscan.aOffset⟩

/-- The content `aZero` read as a blob. -/
theorem zeroBlob {z : List UInt8} (hz : z.length ≤ 1000000000) (file_format : Nat) :
    ∃ y, y.length = z.length ∧
      (sqlite3VdbeSerialGet (fun _ => 0) (sqlite3VdbeSerialType (.blob z) file_format).1).1 = .blob y := by
  have ht : (sqlite3VdbeSerialType (.blob z) file_format).1.toNat = 2 * z.length + 12 := toNat_blobType hz
  generalize (sqlite3VdbeSerialType (.blob z) file_format).1 = t at ht ⊢
  obtain ⟨hdiv, -⟩ := serialTypeLen_large (t := t) (n := z.length) (by omega) (by omega)
  rw [sqlite3VdbeSerialGet_large (by omega), if_pos ((and_one_eq_zero_iff t).2 (by omega)), hdiv]
  exact ⟨_, by simp [Memory.bytes], rfl⟩

theorem IntegerType.get {i : Int64} {t : UInt32 × Nat} (h : IntegerType i t) (buf : Memory) :
    ∃ j n, sqlite3VdbeSerialGet buf t.1 = (.integer j, n) := by
  cases h <;> exact ⟨_, _, rfl⟩

/-- The type of a value does not depend on its content. -/
theorem valueType_zero {m : Value} (hfits : m.z.length ≤ 1000000000) (file_format : Nat) :
    sqlite3ValueType (sqlite3VdbeSerialGet (fun _ => 0) (sqlite3VdbeSerialType m file_format).1).1 =
      sqlite3ValueType m := by
  cases m with
  | null => rfl
  | integer i =>
    obtain ⟨j, n, hget⟩ := (integerType i file_format).get fun _ => 0
    rw [hget]
    rfl
  | real r => rfl
  | text z =>
    rw [Value.z] at hfits
    have ht : (sqlite3VdbeSerialType (.text z) file_format).1.toNat = 2 * z.length + 13 := toNat_textType hfits
    generalize (sqlite3VdbeSerialType (.text z) file_format).1 = t at ht ⊢
    have hodd : ¬ t &&& 1 = 0 := fun h0 => by
      have := (and_one_eq_zero_iff t).1 h0
      omega
    rw [sqlite3VdbeSerialGet_large (by omega), if_neg hodd]
    rfl
  | blob z =>
    rw [Value.z] at hfits
    obtain ⟨y, -, hy⟩ := zeroBlob (z := z) hfits file_format
    rw [hy]
    rfl

/-- The content `aZero` stands for a value of the same type, and a blob of the same length. -/
theorem sameFor_zero {m : Value} (hfits : m.z.length ≤ 1000000000) (file_format : Nat) {p5 : UInt16}
    (h : p5 &&& OPFLAG_TYPEOFARG ≠ 0 ∨ p5 &&& OPFLAG_LENGTHARG ≠ 0 ∧ ∃ z, m = .blob z) :
    SameFor p5 (sqlite3VdbeSerialGet (fun _ => 0) (sqlite3VdbeSerialType m file_format).1).1 m := by
  by_cases htypeof : p5 &&& OPFLAG_TYPEOFARG ≠ 0
  · rw [SameFor, if_pos htypeof]
    exact valueType_zero hfits file_format
  · obtain ⟨hlength, z, rfl⟩ := h.resolve_left htypeof
    obtain ⟨y, hlen, hy⟩ := zeroBlob (z := z) hfits file_format
    rw [SameFor, if_neg htypeof, if_pos hlength, hy]
    exact .inr ⟨y, z, rfl, rfl, hlen⟩

/-- A type that is even and at least twelve is that of a blob. -/
theorem blob_of_type {m : Value} (hfits : m.z.length ≤ 1000000000) {t : UInt32}
    (ht : t = (sqlite3VdbeSerialType m file_format).1) (h12 : 12 ≤ t) (heven : t &&& 1 = 0) : ∃ z, m = .blob z := by
  have h12' : 12 ≤ t.toNat := UInt32.le_iff_toNat_le.1 h12
  have heven' := (and_one_eq_zero_iff t).1 heven
  cases m with
  | null =>
    subst ht
    exact absurd h12' (by decide : ¬ 12 ≤ (0 : UInt32).toNat)
  | integer i =>
    have htype := integerType i file_format
    subst ht
    generalize sqlite3VdbeSerialType (.integer i) file_format = t at htype h12'
    cases htype <;> exact absurd h12' (by decide)
  | real r =>
    subst ht
    exact absurd h12' (by decide : ¬ 12 ≤ (7 : UInt32).toNat)
  | text z =>
    have hodd : (sqlite3VdbeSerialType (.text z) file_format).1.toNat = 2 * z.length + 13 := toNat_textType hfits
    rw [← ht] at hodd
    omega
  | blob z => exact ⟨z, rfl⟩

theorem and_flags_eq_zero {p5 : UInt16} (hlength : p5 &&& OPFLAG_LENGTHARG = 0)
    (htypeof : p5 &&& OPFLAG_TYPEOFARG = 0) :
    p5 &&& (OPFLAG_LENGTHARG ||| OPFLAG_TYPEOFARG) = 0 := by
  rw [← UInt16.toBitVec_inj] at hlength htypeof ⊢
  rw [UInt16.toBitVec_and] at hlength htypeof ⊢
  rw [UInt16.toBitVec_or, BitVec.and_or_distrib_left, hlength, htypeof]
  rfl

/-- The content of a field, from the page or from the overflow pages. -/
theorem columnContent_eq (hrow : RowOf fields file_format limit szHdr z payload page avail)
    (hcached : Cached fields file_format szHdr z payload pC) {p2 : Nat} (hp2 : p2 < pC.nHdrParsed) {size : Nat}
    (hfield : p2 < fields.length) (p5 : UInt16) :
    SameFor p5 (columnContent (.btree payload size page avail) pC p2 p5) fields[p2] := by
  have hmem := List.getElem_mem hfield
  have hfits := hrow.record.fits _ hmem
  have hm := serialField hfits file_format
  have htype : pC.aType p2 = _ := hcached.scan.aType p2 hp2 hfield
  have hstart : pC.aOffset p2 = _ := hcached.scan.aOffset p2 hp2.le
  have hend : pC.aOffset (p2 + 1) = _ := hcached.scan.aOffset (p2 + 1) hp2
  have hdata := length_dataBytes_succ file_format hfield
  obtain ⟨-, -, hbytes⟩ := hrow.holds_types
  have hput := holds_data hbytes hfield
  rw [← hstart] at hput
  have hread : ∀ p : Memory, Holds p (pC.aOffset p2) (sqlite3VdbeSerialPut fields[p2] (pC.aType p2)) →
      SameFor p5 (sqlite3VdbeSerialGet (p.at (pC.aOffset p2)) (pC.aType p2)).1 fields[p2] := by
    intro p hp
    rw [htype] at hp ⊢
    rw [hm.get hp, hrow.plain _ hmem]
    exact SameFor.refl p5 _
  simp only [columnContent]
  split
  · rename_i hlocal
    have hsome : ∃ p, pC.aRow = some p := by
      rw [← Option.isSome_iff_exists, Option.isSome_iff_ne_none]
      intro hnone
      have hzero := hcached.noRow hnone
      have hpos := hrow.record.header
      have hlen := length_putVarint32 szHdr
      have hvar := varintLen_pos szHdr.toUInt64
      omega
    obtain ⟨p, hp⟩ := hsome
    obtain ⟨-, hagree⟩ := hcached.aRow p hp
    rw [hp]
    refine hread p (holds_of_eq (htype ▸ hput) hagree ?_)
    rw [htype]
    omega
  · split
    · rename_i hbogus
      rcases hbogus with ⟨hflags, hkind⟩ | hempty
      · rw [htype]
        apply sameFor_zero hfits
        rcases hkind with ⟨h12, heven⟩ | htypeof
        · by_cases htypeof : p5 &&& OPFLAG_TYPEOFARG ≠ 0
          · exact .inl htypeof
          · refine .inr ⟨fun hlength => ?_, blob_of_type hfits htype h12 heven⟩
            rw [not_not] at htypeof
            exact hflags (and_flags_eq_zero hlength htypeof)
        · exact .inl htypeof
      · have hnil : sqlite3VdbeSerialPut fields[p2] (pC.aType p2) = [] := by
          rw [htype, hm.typeLen] at hempty
          rw [htype]
          exact List.eq_nil_of_length_eq_zero (hm.length.trans hempty)
        have hget := hm.get (p := fun _ => 0) (k := 0) (by
          rw [← htype, hnil]
          intro i hi
          exact absurd hi (Nat.not_lt_zero _))
        rw [Memory.at_zero] at hget
        rw [htype, hget, hrow.plain _ hmem]
        exact SameFor.refl p5 _
    · exact hread payload (htype ▸ hput)

/-- The value that is returned once the header has been parsed as far as column `p2` needs. -/
theorem columnResult_eq (hrow : RowOf fields file_format limit szHdr z payload page avail)
    (hcached : Cached fields file_format szHdr z payload pC) {op : ColumnOp} {size : Nat}
    (hparsed : op.p2 < pC.nHdrParsed ∨ pC.nHdrParsed = fields.length) :
    SameFor op.p5 (columnResult (.btree payload size page avail) pC op.p2 op.p4 op.p5) (columnValue fields op) := by
  have hle : pC.nHdrParsed ≤ fields.length := hcached.scan.le
  unfold columnResult columnValue
  split
  · rename_i hbeyond
    rw [List.getD_eq_default _ _ (by omega)]
    exact SameFor.refl _ _
  · rename_i hin
    rw [List.getD_eq_getElem _ _ (by omega)]
    exact columnContent_eq hrow hcached (by omega) (by omega) op.p5

/-! ### Column after column -/

theorem length_putVarint32_le (v : UInt32) : (putVarint32 v).length ≤ 5 := by
  have hv := v.toNat_lt
  obtain ⟨m, hm, hcount⟩ := DigitCount.exists 4 (v := v.toNat) (by omega)
  have hword : UInt64.ofNat v.toNat = v.toUInt64 := by
    rw [← UInt64.toNat_inj, UInt32.toNat_toUInt64]
    exact UInt64.toNat_ofNat_of_lt' (show v.toNat < 2 ^ 64 by omega)
  have hlen := varintLen_eq (by omega) hcount
  rw [length_putVarint32, ← hword, hlen]
  omega

theorem length_typeBytes_le (fields : List Value) (file_format : Nat) :
    (typeBytes fields file_format).length ≤ 5 * fields.length := by
  induction fields with
  | nil => exact Nat.le_refl 0
  | cons m fields ih =>
    have hm := length_putVarint32_le (sqlite3VdbeSerialType m file_format).1
    simp only [typeBytes, List.flatMap_cons, List.length_append, List.length_cons] at ih ⊢
    omega

/-- The header is not longer than `OP_Column` accepts. -/
theorem RowOf.szHdr_le (hrow : RowOf fields file_format limit szHdr z payload page avail) : szHdr.toNat ≤ 98307 := by
  have hheader := hrow.record.header
  have hsize := length_putVarint32_le szHdr
  have htypes := length_typeBytes_le fields file_format
  have hcolumns := hrow.columns
  rw [SQLITE_MAX_COLUMN] at hcolumns
  omega

theorem columnCached_eq (hrow : RowOf fields file_format limit szHdr z payload page avail) (hvalid : pC.valid = true)
    (hcached : Cached fields file_format szHdr z payload pC) (op : ColumnOp) (size : Nat) :
    ∃ pC' v, columnCached (.btree payload size page avail) pC op.p2 op.p4 op.p5 = .ok (pC', v) ∧ pC'.valid = true ∧
      Cached fields file_format szHdr z payload pC' ∧ SameFor op.p5 v (columnValue fields op) := by
  have hzero := hcached.aOffset_zero
  have hle : pC.nHdrParsed ≤ fields.length := hcached.scan.le
  have hzHdr : pC.iHdrOffset = _ := hcached.scan.zHdr
  have hheader := hrow.record.header
  unfold columnCached
  by_cases hmore : pC.nHdrParsed ≤ op.p2 ∧ pC.iHdrOffset < pC.aOffset 0
  · have hlt : pC.nHdrParsed < fields.length := by
      rcases Nat.lt_or_ge pC.nHdrParsed fields.length with hlt | hge
      · exact hlt
      · have hall : (fields.take pC.scan.i) = fields := List.take_of_length_le hge
        rw [hall] at hzHdr
        omega
    have hzData : ∀ i < szHdr.toNat, (pC.aRow.getD payload) i = payload i := by
      intro i hi
      cases haRow : pC.aRow with
      | none => rfl
      | some p =>
        obtain ⟨hin, hagree⟩ := hcached.aRow p haRow
        exact hagree i (by omega)
    obtain ⟨pC', hread, hcached', hparsed, hvalid'⟩ := readHeader_eq hrow hcached hmore.1 hlt hzData
    rw [if_pos hmore]
    show ∃ pC' v, (match readHeader (pC.aRow.getD payload) pC op.p2 with
      | .error e => .error e
      | .ok pC => .ok (pC, columnResult _ pC op.p2 op.p4 op.p5)) = Except.ok (pC', v) ∧ _
    rw [hread]
    exact ⟨pC', _, rfl, hvalid'.trans hvalid, hcached', columnResult_eq hrow hcached' (by omega)⟩
  · rw [if_neg hmore]
    refine ⟨pC, _, rfl, hvalid, hcached, columnResult_eq hrow hcached ?_⟩
    by_cases hp2 : pC.nHdrParsed ≤ op.p2
    · right
      rcases Nat.lt_or_ge pC.nHdrParsed fields.length with hlt | hge
      · have htypes := length_typeBytes_take_lt file_format hlt
        have hshort : pC.iHdrOffset < szHdr.toNat := by
          rw [hzHdr, hheader]
          exact Nat.add_lt_add_left htypes _
        exact absurd ⟨hp2, by omega⟩ hmore
      · omega
    · left
      omega

/-- A row that has just been loaded. -/
theorem columnLoaded_eq (hrow : RowOf fields file_format limit szHdr z payload page avail) (pC : VdbeCursor)
    (op : ColumnOp) {szRow size : Nat} (hszRow : szRow = min avail z.length) :
    ∃ pC' v, columnLoaded (.btree payload size page avail) page op.p2 op.p4 op.p5
        (loadRow pC z.length szRow avail page) = .ok (pC', v) ∧ pC'.valid = true ∧
      Cached fields file_format szHdr z payload pC' ∧ SameFor op.p5 v (columnValue fields op) := by
  have hheader := hrow.record.header
  have hlength := hrow.record.length_eq
  have hnine := hrow.nine
  have hsmall := hrow.szHdr_le
  have hfive := length_putVarint32_le szHdr
  have hagree : ∀ i < szRow, page i = payload i := fun i hi => hrow.onPage i (by omega) (by omega)
  obtain ⟨hsize, -, -⟩ := hrow.holds_types
  have hget := sqlite3GetVarint32_putVarint32 (holds_of_eq hsize hagree (by omega))
  have hpos := length_putVarint32 szHdr
  have hvar := varintLen_pos szHdr.toUInt64
  rw [Memory.at_zero] at hget
  have hscan : ∀ pC' : VdbeCursor, pC'.nHdrParsed = 0 → pC'.iHdrOffset = (putVarint32 szHdr).length →
      pC'.aOffset 0 = szHdr.toNat → Scanned fields file_format szHdr pC'.scan := by
    intro pC' hn hi ho
    have hi0 : pC'.scan.i = 0 := hn
    refine ⟨by omega, ?_, ?_, fun j hj => by omega, fun j hj => ?_⟩
    · rw [hi0]
      exact hi
    · rw [hi0]
      show pC'.aOffset pC'.nHdrParsed = _
      rw [hn]
      exact ho
    · have hj0 : j = 0 := by omega
      subst hj0
      exact ho
  simp only [loadRow, hget]
  by_cases hpage : avail < szHdr.toNat
  · rw [if_pos hpage, if_neg (by omega)]
    refine columnCached_eq hrow rfl ⟨rfl, Nat.zero_le _, ?_, fun _ => rfl,
      hscan _ rfl rfl (Function.update_self 0 szHdr.toNat pC.aOffset)⟩ op size
    intro p hp
    cases hp
  · have hoffset : decide (0 < szHdr.toNat) = true := decide_eq_true (by omega)
    rw [if_neg hpage, hoffset]
    have hloaded : Cached fields file_format szHdr z payload { pC with
        valid := true, payloadSize := z.length, szRow := szRow, aRow := some page,
        iHdrOffset := (putVarint32 szHdr).length, nHdrParsed := 0
        aOffset := Function.update pC.aOffset 0 szHdr.toNat } :=
      ⟨rfl, by show szRow ≤ _; omega,
        fun p hp => ⟨by show _ ≤ szRow; omega, fun i hi => Option.some.inj hp ▸ hagree i hi⟩,
        (fun h => by cases h), hscan _ rfl rfl (Function.update_self 0 szHdr.toNat pC.aOffset)⟩
    have hpage' : ∀ i < szHdr.toNat, page i = payload i := fun i hi => hagree i (by omega)
    obtain ⟨pC', hread, hcached', hparsed, hvalid'⟩ := readHeader_eq hrow hloaded
      (Nat.zero_le op.p2) hrow.nonempty hpage'
    simp only [columnLoaded, hread]
    exact ⟨pC', _, rfl, hvalid', hcached', columnResult_eq hrow hcached' (by omega)⟩

/-- One `OP_Column` gives the value of its column and keeps the cache. -/
theorem column_eq (hrow : RowOf fields file_format limit szHdr z payload page avail)
    (hcached : pC.valid = true → Cached fields file_format szHdr z payload pC) (op : ColumnOp) :
    ∃ pC' v, column (.btree payload z.length page avail) limit pC op.p2 op.p4 op.p5 = .ok (pC', v) ∧
      pC'.valid = true ∧ Cached fields file_format szHdr z payload pC' ∧ SameFor op.p5 v (columnValue fields op) := by
  unfold column
  by_cases hvalid : pC.valid = true
  · rw [if_pos hvalid]
    exact columnCached_eq hrow hvalid (hcached hvalid) op _
  · have hlimit := hrow.short
    rw [if_neg hvalid]
    dsimp only
    by_cases hin : z.length ≤ avail
    · rw [if_pos hin]
      exact columnLoaded_eq hrow pC op (by omega)
    · rw [if_neg hin, if_neg (by omega)]
      exact columnLoaded_eq hrow pC op (by omega)

/-- Whatever columns of a row are read, and in whatever order, the values are those of the record. -/
theorem columns_eq (hrow : RowOf fields file_format limit szHdr z payload page avail)
    (hcached : pC.valid = true → Cached fields file_format szHdr z payload pC) (ops : List ColumnOp) :
    ∃ vs, columns (.btree payload z.length page avail) limit pC ops = .ok vs ∧
      List.Forall₂ (fun v op => SameFor op.p5 v (columnValue fields op)) vs ops := by
  induction ops generalizing pC with
  | nil => exact ⟨[], rfl, .nil⟩
  | cons op ops ih =>
    obtain ⟨pC', v, hcolumn, -, hcached', hv⟩ := column_eq hrow hcached op
    obtain ⟨vs, hvs, hall⟩ := ih (fun _ => hcached')
    refine ⟨v :: vs, ?_, .cons hv hall⟩
    rw [columns, hcolumn]
    show Except.map _ (columns _ limit pC' ops) = _
    rw [hvs]
    rfl

/-- Whatever columns are read from an entry that holds what `OP_MakeRecord` wrote, in whatever order, however often, and
wherever the entry goes on in overflow pages, the values are the fields of the record. -/
theorem columns_makeRecord (hlimit : limit ≤ 1000000000) (h : makeRecord fields file_format limit = some z)
    (hnonempty : 0 < fields.length) (hcolumns : fields.length ≤ SQLITE_MAX_COLUMN) (hplain : ∀ m ∈ fields, m.stored = m)
    (hz : Holds payload 0 z) (honPage : ∀ i < avail, i < z.length → page i = payload i)
    (havail : min z.length 9 ≤ avail)
    (hinvalid : pC.valid = false) (ops : List ColumnOp) :
    ∃ vs, columns (.btree payload z.length page avail) limit pC ops = .ok vs ∧
      List.Forall₂ (fun v op => SameFor op.p5 v (columnValue fields op)) vs ops := by
  obtain ⟨hle, szHdr, hrec⟩ := isRecord_makeRecord hlimit h
  have hrow : RowOf fields file_format limit szHdr z payload page avail :=
    ⟨hrec, hnonempty, hcolumns, hplain, hz, honPage, havail, hle⟩
  refine columns_eq hrow (fun hvalid => ?_) ops
  rw [hinvalid] at hvalid
  cases hvalid

/-- A row of two fields whose text is on an overflow page. -/
theorem columns_makeRecord_two : ∃ vs, columns (.btree (fun i => [3, 2, 31, 1, 44, 97, 98, 99, 100, 101, 102, 103, 104,
      105].getD i 0) 14 (fun i => [3, 2, 31, 1, 44, 97, 98, 99, 100].getD i 0) 9) 1000
      ⟨false, 0, 0, none, 0, 0, fun _ => 0, fun _ => 0⟩ [⟨1, none, 0⟩, ⟨0, none, 0⟩, ⟨2, none, 0⟩] = .ok vs ∧
    List.Forall₂ (fun v op => SameFor op.p5 v (columnValue
      [.integer 300, .text [97, 98, 99, 100, 101, 102, 103, 104, 105]] op)) vs
      [⟨1, none, 0⟩, ⟨0, none, 0⟩, ⟨2, none, 0⟩] :=
  have hz : Holds (fun i => [3, 2, 31, 1, 44, 97, 98, 99, 100, 101, 102, 103, 104, 105].getD i 0) 0
      [3, 2, 31, 1, 44, 97, 98, 99, 100, 101, 102, 103, 104, 105] := by
    unfold Holds
    decide
  have hmake : makeRecord [.integer 300, .text [97, 98, 99, 100, 101, 102, 103, 104, 105]] 4 1000 =
      some [3, 2, 31, 1, 44, 97, 98, 99, 100, 101, 102, 103, 104, 105] := by decide
  columns_makeRecord (by decide) hmake (by decide) (by decide) (by decide) hz (by decide) (by decide) rfl _

end Sqlite4a
