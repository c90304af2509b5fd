import Mathlib.Data.List.TakeDrop
import Sqlite4a.Func
import Sqlite4a.Mutf8

/-!
# Java strings as SQL text

A Java string is a sequence of 16-bit code units; `GetStringUTFChars` writes it in modified UTF-8, and `NewStringUTF`
reads modified UTF-8 up to the first zero byte.  What a virtual machine makes of bytes that are not modified UTF-8 is
left open by JNI; it is the parameter `Jvm` here.

The encoding has no zero byte and is read back by `NewStringUTF`, so every string survives each of the paths through
SQLite (`text_survives`).  But SQLite takes the bytes as standard UTF-8, which they are only for strings without U+0000
and without code points above U+FFFF (`standard_iff_plain`), and a text with a zero byte reaches Java as the part before
it (`distinct_iff_beforeZero`).
-/

namespace Sqlite4a

abbrev JavaString := List UInt16

/-- What `NewStringUTF` makes of bytes that are not modified UTF-8. -/
abbrev Jvm := List UInt8 → JavaString

/-- The code units that `NewStringUTF` reads in bytes without a zero byte. -/
def Jvm.read (vm : Jvm) (z : List UInt8) : JavaString := (Mutf8.decode z).getD (vm z)

/-- The form that JNI gives a string. -/
def JString.ofUnits (s : JavaString) : JString := ⟨Mutf8.encode s, fun _ hb => Mutf8.encode_nonzero hb⟩

def JString.units (vm : Jvm) (s : JString) : JavaString := vm.read s.utf

@[simp] theorem JString.units_ofUnits (vm : Jvm) (s : JavaString) : (JString.ofUnits s).units vm = s := by
  simp only [units, ofUnits, Jvm.read, Mutf8.decode_encode, Option.getD_some]

/-- The string that reaches Java of bytes in memory. -/
def Jvm.stringOf (vm : Jvm) (z : Option (List UInt8)) : Option JavaString := (newStringUTF z).map (JString.units vm)

theorem Jvm.stringOf_some (vm : Jvm) (z : List UInt8) :
    vm.stringOf (some z) = some (vm.read (z.takeWhile (· ≠ 0))) := rfl

theorem Jvm.stringOf_encode (vm : Jvm) (s : JavaString) : vm.stringOf (some (Mutf8.encode s)) = some s := by
  have hz : (Mutf8.encode s).takeWhile (· ≠ 0) = Mutf8.encode s := takeWhile_nonzero fun _ hb => Mutf8.encode_nonzero hb
  rw [stringOf_some, hz, Jvm.read, Mutf8.decode_encode, Option.getD_some]

variable {Db : Type*} (c : Casts)

/-! ### The way there and back -/

/-- The strings among the arguments of a comparator. -/
def comparedStrings (vm : Jvm) : JavaCall → Option (Option JavaString × Option JavaString)
  | .compare _ lhs rhs => some (lhs.map (JString.units vm), rhs.map (JString.units vm))
  | _ => none

theorem comparedStrings_javaCompare (vm : Jvm) (ret : JavaReturn) (data : Nat) (lhs rhs : List UInt8) (env : JniEnv) :
    (javaCompare ret (some data) lhs rhs env).2.calls.getLast?.bind (comparedStrings vm) =
      some (vm.stringOf (some lhs), vm.stringOf (some rhs)) := by
  have hcalls : (javaCompare ret (some data) lhs rhs env).2.calls =
      env.calls ++ [.compare data (newStringUTF (some lhs)) (newStringUTF (some rhs))] := rfl
  rw [hcalls, List.getLast?_append, List.getLast?_singleton, Option.some_or]
  rfl

/-- `bindString` and `resultString` store the whole string as `m`, and every way from `m` back to Java gives the string:
`getColumnString`, `stringValue`, and either argument of a comparator. -/
structure TextSurvives (Db : Type*) (vm : Jvm) (s : JavaString) (m : Value) : Prop where
  bound : ∀ (v : Vdbe Db) (i : Int), v.phase = .fresh → 1 ≤ i → i ≤ v.aVar.length →
    bind i (.string (some (.ofUnits s))) v = (.ok (), v.setVar i m)
  result : ∀ ctx : SQLiteContext, ctx.isError = false → (ctx.result (.string (some (.ofUnits s)))).value c = .ok m
  column : ∀ (v : Vdbe Db) (i : Int), v.columnMem i = m →
    (nativeGetColumnString c v i).map (JString.units vm) = some s
  argument : (readValue c m).stringValue.map (JString.units vm) = some s
  compared : ∀ ret data other env z, m = .text z →
    (javaCompare ret (some data) z other env).2.calls.getLast?.bind (comparedStrings vm) =
        some (some s, vm.stringOf (some other)) ∧
      (javaCompare ret (some data) other z env).2.calls.getLast?.bind (comparedStrings vm) =
        some (vm.stringOf (some other), some s)

/-- Every string whose modified UTF-8 form is not too long survives. -/
theorem text_survives (vm : Jvm) (s : JavaString) (h : (Mutf8.encode s).length ≤ SQLITE_MAX_LENGTH) :
    TextSurvives c Db vm s (.text (Mutf8.encode s)) := by
  have hout : (BindArg.string (some (.ofUnits s))).outcome = some (.ok (.text (Mutf8.encode s))) :=
    string_outcome_of_le h
  refine ⟨?_, ?_, ?_, ?_, ?_⟩
  · intro v i hv hlo hhi
    exact bind_fresh_of_ok hout hv hlo hhi
  · intro ctx hctx
    rw [SQLiteContext.result_eq, hout]
    simp only [SQLiteContext.value, hctx, Bool.false_eq_true, if_false]
  · intro v i hm
    simp only [nativeGetColumnString, Vdbe.columnText, hm, sqlite3ValueText]
    exact vm.stringOf_encode s
  · exact vm.stringOf_encode s
  · intro ret data other env z hz
    cases hz
    rw [comparedStrings_javaCompare, comparedStrings_javaCompare, vm.stringOf_encode]
    exact ⟨rfl, rfl⟩

/-- `"a"`, U+0000 and an unpaired surrogate. -/
theorem text_survives_sample :
    TextSurvives Casts.ofIntegers Unit (fun _ => []) [0x61, 0, 0xd800] (.text (Mutf8.encode [0x61, 0, 0xd800])) :=
  text_survives Casts.ofIntegers (fun _ => []) [0x61, 0, 0xd800] (by decide)

/-! ### Standard UTF-8 -/

/-- The bytes that SQLite takes from the pointer and the length that `bindString` and `resultString` hand to it. -/
def takenBytes (s : JString) : List UInt8 :=
  let z := getStringUTFChars s
  z.take (Vdbe.memSetStrBytes z (Int.bmod (strlen z) 0x100000000)).toNat

/-- They are what the two methods store, unless it is too big. -/
theorem outcome_takenBytes {s : JString} (h : ¬ (BindArg.string (some s)).TooBig) :
    (BindArg.string (some s)).outcome = some (.ok (.text (takenBytes s))) := by
  have hfits : ¬ SQLITE_MAX_LENGTH < Vdbe.memSetStrBytes s.utf (Int.bmod (strlen s.utf) 0x100000000) := by
    intro hlong
    apply h
    simp only [BindArg.TooBig, BindArg.outcome, Option.map_some, textOutcome, if_pos hlong]
  simp only [BindArg.outcome, Option.map_some, textOutcome, if_neg hfits]
  rfl

theorem takenBytes_prefix (s : JString) : takenBytes s <+: s.utf := List.take_prefix _ _

/-- From 2 ^ 31 bytes on the cast of the length to `int` loses some. -/
theorem takenBytes_eq_iff (s : JString) : takenBytes s = s.utf ↔ s.utf.length < 0x80000000 := by
  have hlen : takenBytes s = s.utf ↔
      s.utf.length ≤ (Vdbe.memSetStrBytes s.utf (Int.bmod s.utf.length 0x100000000)).toNat := by
    simp only [takenBytes, getStringUTFChars, strlen_utf]
    exact List.take_eq_self_iff _
  rw [hlen, Vdbe.memSetStrBytes, strlen_utf, Int.bmod_def]
  unfold SQLITE_MAX_LENGTH
  dsimp only
  split <;> split <;> omega

/-- The strings that reach Java of a text in standard UTF-8 have its code points. -/
structure ReadsStandard (Db : Type*) (vm : Jvm) (cs : List Char) : Prop where
  column : ∀ (v : Vdbe Db) (i : Int), v.columnMem i = .text (Mutf8.utf8 cs) →
    (nativeGetColumnString c v i).map (JString.units vm) = some (Mutf8.utf16 cs)
  argument : (readValue c (.text (Mutf8.utf8 cs))).stringValue.map (JString.units vm) = some (Mutf8.utf16 cs)

theorem taken_standard_iff (cs : List Char) :
    takenBytes (.ofUnits (Mutf8.utf16 cs)) = Mutf8.utf8 cs ↔
      (∀ ch ∈ cs, Mutf8.IsPlain ch) ∧ (Mutf8.utf8 cs).length < 0x80000000 := by
  constructor
  · intro h
    have hplain : ∀ ch ∈ cs, Mutf8.IsPlain ch := by
      rw [← Mutf8.utf8_prefix_iff, ← h]
      exact takenBytes_prefix _
    have hutf : (JString.ofUnits (Mutf8.utf16 cs)).utf = Mutf8.utf8 cs := Mutf8.encode_utf16_of_isPlain hplain
    rw [← hutf] at h ⊢
    exact ⟨hplain, (takenBytes_eq_iff _).1 h⟩
  · intro ⟨hplain, hlen⟩
    have hutf : (JString.ofUnits (Mutf8.utf16 cs)).utf = Mutf8.utf8 cs := Mutf8.encode_utf16_of_isPlain hplain
    rw [← hutf] at hlen ⊢
    exact (takenBytes_eq_iff _).2 hlen

theorem reads_standard_iff {cs : List Char} (hz : ∀ ch ∈ cs, ch.toNat ≠ 0) :
    (∀ vm, ReadsStandard c Db vm cs) ↔ ∀ ch ∈ cs, ch.toNat ≤ 0xffff := by
  have hread : ∀ vm : Jvm, vm.stringOf (some (Mutf8.utf8 cs)) = some (vm.read (Mutf8.utf8 cs)) := by
    intro vm
    rw [Jvm.stringOf_some, takeWhile_nonzero fun _ hb => Mutf8.utf8_nonzero hz hb]
  constructor
  · intro h
    have hall : ∀ vm : Jvm, vm.read (Mutf8.utf8 cs) = Mutf8.utf16 cs := by
      intro vm
      have harg : vm.stringOf (some (Mutf8.utf8 cs)) = some (Mutf8.utf16 cs) := (h vm).argument
      rw [hread] at harg
      exact Option.some.inj harg
    -- a machine that reads anything else as another string
    have hother := hall fun _ => 0 :: Mutf8.utf16 cs
    unfold Jvm.read at hother
    cases hd : Mutf8.decode (Mutf8.utf8 cs) with
    | none =>
      rw [hd, Option.getD_none] at hother
      exact absurd hother (List.cons_ne_self _ _)
    | some s =>
      rw [hd, Option.getD_some] at hother
      rw [hother, Mutf8.decode_utf8_iff] at hd
      exact fun ch hm => (hd ch hm).2
  · intro hle vm
    have hdecode := (Mutf8.decode_utf8_iff cs).2 fun ch hm => ⟨hz ch hm, hle ch hm⟩
    have hstring : vm.stringOf (some (Mutf8.utf8 cs)) = some (Mutf8.utf16 cs) := by
      rw [hread, Jvm.read, hdecode, Option.getD_some]
    refine ⟨fun v i hm => ?_, hstring⟩
    simp only [nativeGetColumnString, Vdbe.columnText, hm, sqlite3ValueText]
    exact hstring

/-- Text is handed over in standard UTF-8 exactly where it has no U+0000, no code point above U+FFFF and fewer than
2 ^ 31 bytes, and text without U+0000 is read as standard UTF-8 by every virtual machine exactly where it has no code
point above U+FFFF. -/
theorem standard_iff_plain :
    (∀ cs : List Char, takenBytes (.ofUnits (Mutf8.utf16 cs)) = Mutf8.utf8 cs ↔
      (∀ ch ∈ cs, ch.toNat ≠ 0 ∧ ch.toNat ≤ 0xffff) ∧ (Mutf8.utf8 cs).length < 0x80000000) ∧
    ∀ cs : List Char, (∀ ch ∈ cs, ch.toNat ≠ 0) →
      ((∀ vm, ReadsStandard c Db vm cs) ↔ ∀ ch ∈ cs, ch.toNat ≤ 0xffff) :=
  ⟨taken_standard_iff, fun _ hz => reads_standard_iff c hz⟩

/-- An emoji is handed over as two surrogates of three bytes each. -/
theorem not_standard_emoji : takenBytes (.ofUnits (Mutf8.utf16 ['😀'])) ≠ Mutf8.utf8 ['😀'] := by
  decide

theorem standard_iff_plain_letters :
    takenBytes (.ofUnits (Mutf8.utf16 ['a', 'я'])) = Mutf8.utf8 ['a', 'я'] ∧
      ∀ vm, ReadsStandard Casts.ofIntegers Unit vm ['a', 'я'] :=
  have hlen : (Mutf8.utf8 ['a', 'я']).length = 3 := rfl
  ⟨((@standard_iff_plain Unit Casts.ofIntegers).1 ['a', 'я']).2 ⟨by simp, by rw [hlen]; decide⟩,
    ((@standard_iff_plain Unit Casts.ofIntegers).2 ['a', 'я'] (by simp)).2 (by simp)⟩

/-! ### Zero bytes -/

/-- What a C string keeps of a text. -/
def beforeZero (z : List UInt8) : List UInt8 := z.takeWhile (· ≠ 0)

/-- The characters of a whole text value, its zero bytes being U+0000. -/
def Jvm.chars (vm : Jvm) (z : List UInt8) : JavaString := [0].intercalate ((z.splitOn 0).map vm.read)

/-- `java_compare` with a comparator that is a function of the two strings. -/
def collate (vm : Jvm) (comparator : JavaString → JavaString → Int32) (data : Nat) (lhs rhs : List UInt8)
    (env : JniEnv) : Int × JniEnv :=
  let compare := fun l r => (comparator l r).toInt
  let value := (vm.stringOf (some lhs)).elim 0 fun l => (vm.stringOf (some rhs)).elim 0 fun r => compare l r
  javaCompare { value := value } (some data) lhs rhs env

theorem collate_eq (vm : Jvm) (comparator : JavaString → JavaString → Int32) (data : Nat) (lhs rhs : List UInt8)
    (env : JniEnv) :
    (collate vm comparator data lhs rhs env).1 =
      (comparator (vm.read (beforeZero lhs)) (vm.read (beforeZero rhs))).toInt := rfl

/-- Two texts reach Java as different strings: as arguments of a comparator, through `getColumnString` and through
`stringValue`; and a comparator that tells different strings apart tells the texts apart. -/
structure StaysDistinct (Db : Type*) (vm : Jvm) (a b : List UInt8) : Prop where
  compared : ∀ ret data env l r, (javaCompare ret (some data) a b env).2.calls.getLast?.bind (comparedStrings vm) =
    some (l, r) → l ≠ r
  column : ∀ (v w : Vdbe Db) (i j : Int), v.columnMem i = .text a → w.columnMem j = .text b →
    (nativeGetColumnString c v i).map (JString.units vm) ≠ (nativeGetColumnString c w j).map (JString.units vm)
  argument : (readValue c (.text a)).stringValue.map (JString.units vm) ≠
    (readValue c (.text b)).stringValue.map (JString.units vm)
  collated : ∀ comparator : JavaString → JavaString → Int32, (∀ x y, comparator x y = 0 → x = y) → ∀ data env,
    (collate vm comparator data a b env).1 ≠ 0

theorem staysDistinct_iff (vm : Jvm) (a b : List UInt8) :
    StaysDistinct c Db vm a b ↔ vm.read (beforeZero a) ≠ vm.read (beforeZero b) := by
  have hstring : ∀ z, vm.stringOf (some z) = some (vm.read (beforeZero z)) := fun _ => rfl
  constructor
  · intro h he
    apply h.argument
    show vm.stringOf (some a) = vm.stringOf (some b)
    rw [hstring, hstring, he]
  · intro hne
    have hstrings : vm.stringOf (some a) ≠ vm.stringOf (some b) := by
      rw [hstring, hstring]
      exact fun he => hne (Option.some.inj he)
    refine ⟨?_, ?_, hstrings, ?_⟩
    · intro ret data env l r h
      rw [comparedStrings_javaCompare] at h
      cases h
      exact hstrings
    · intro v w i j hv hw
      simp only [nativeGetColumnString, Vdbe.columnText, hv, hw, sqlite3ValueText]
      exact hstrings
    · intro comparator hzero data env he
      rw [collate_eq] at he
      exact hne (hzero _ _ (Int32.toInt_inj.1 he))

theorem read_injective {vm : Jvm} {y z : List UInt8} (hy : (Mutf8.decode y).isSome) (hz : (Mutf8.decode z).isSome)
    (h : vm.read y = vm.read z) : y = z := by
  obtain ⟨s, hs⟩ := Option.isSome_iff_exists.1 hy
  obtain ⟨t, ht⟩ := Option.isSome_iff_exists.1 hz
  simp only [Jvm.read, hs, ht, Option.getD_some] at h
  rw [← Mutf8.encode_of_decode hs, ← Mutf8.encode_of_decode ht, h]

theorem staysDistinct_of_decode {vm : Jvm} {a b : List UInt8} (ha : (Mutf8.decode (beforeZero a)).isSome)
    (hb : (Mutf8.decode (beforeZero b)).isSome) : StaysDistinct c Db vm a b ↔ beforeZero a ≠ beforeZero b := by
  rw [staysDistinct_iff]
  exact not_congr ⟨read_injective ha hb, fun he => by rw [he]⟩

/-- A virtual machine may read what is not modified UTF-8 as any string, so also as the other one. -/
theorem decode_of_read_ne {y z : List UInt8} (h : ∀ vm : Jvm, vm.read y ≠ vm.read z) :
    (Mutf8.decode y).isSome ∧ (Mutf8.decode z).isSome := by
  cases hy : Mutf8.decode y with
  | none =>
    refine absurd ?_ (h fun _ => (Mutf8.decode z).getD [])
    simp only [Jvm.read, hy, Option.getD_none]
    cases Mutf8.decode z <;> rfl
  | some s =>
    cases hz : Mutf8.decode z with
    | none =>
      refine absurd ?_ (h fun _ => s)
      simp only [Jvm.read, hy, hz, Option.getD_some, Option.getD_none]
    | some t => exact ⟨rfl, rfl⟩

/-- Texts whose parts before the first zero byte are modified UTF-8 stay distinct exactly where these parts differ.  No
other texts stay distinct whatever the virtual machine. -/
theorem distinct_iff_beforeZero (a b : List UInt8) :
    (∀ vm : Jvm, (Mutf8.decode (beforeZero a)).isSome → (Mutf8.decode (beforeZero b)).isSome →
      (StaysDistinct c Db vm a b ↔ beforeZero a ≠ beforeZero b)) ∧
    ((∀ vm : Jvm, StaysDistinct c Db vm a b) ↔
      (Mutf8.decode (beforeZero a)).isSome ∧ (Mutf8.decode (beforeZero b)).isSome ∧ beforeZero a ≠ beforeZero b) := by
  refine ⟨fun vm ha hb => staysDistinct_of_decode c ha hb, ?_⟩
  constructor
  · intro h
    obtain ⟨ha, hb⟩ := decode_of_read_ne fun vm => (staysDistinct_iff c vm a b).1 (h vm)
    exact ⟨ha, hb, (staysDistinct_of_decode c ha hb).1 (h fun _ => [])⟩
  · intro ⟨ha, hb, hne⟩ vm
    exact (staysDistinct_of_decode c ha hb).2 hne

/-- The texts that `char(97, 0, 98)` and `char(97, 0, 99)` make both reach Java as `"a"`. -/
theorem not_distinct_afterZero :
    Jvm.chars (fun _ => []) [97, 0, 98] ≠ Jvm.chars (fun _ => []) [97, 0, 99] ∧
      ¬ StaysDistinct Casts.ofIntegers Unit (fun _ => []) [97, 0, 98] [97, 0, 99] := by
  refine ⟨by decide, fun h => h.argument rfl⟩

end Sqlite4a
