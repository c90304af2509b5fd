import Sqlite4a.Tokenize
import Sqlite4a.Value

/-!
# Parameters in SQL text

The parser numbers the parameters of a text (`sqlite3ExprAssignVarNumber`), and `sqlite3VdbeExpandSql` puts the bound
values into the text.  It numbers the parameters on its own while it scans the text, a `?` as one more than the
parameter before it, where the parser takes one more than the greatest number so far.  So the two agree where no `?`
follows a parameter with less than the greatest number (`InOrder`), and there the result is the text with the values in
place of the parameters, or `NULL` if that is too long (`sqlite3VdbeExpandSql_eq`).
-/

namespace Sqlite4a

def SQLITE_MAX_VARIABLE_NUMBER : Nat := 999

/-! ### Numbers of parameters -/

/-- A name and its number in a `VList`. -/
structure VListEntry where
  zName : List UInt8
  iValue : Nat
  pos : 0 < iValue
  deriving DecidableEq

/-- 0 if there is no such name. -/
def sqlite3VListNameToNum (pIn : List VListEntry) (zName : List UInt8) : Nat :=
  ((pIn.find? (·.zName = zName)).map VListEntry.iValue).getD 0

def sqlite3VListNumToName (pIn : List VListEntry) (iVal : Nat) : Option (List UInt8) :=
  (pIn.find? (·.iValue = iVal)).map VListEntry.zName

/-- The greatest number of a parameter so far, and the numbers of the named ones. -/
structure Parse where
  nVar : Nat := 0
  pVList : List VListEntry := []
  bounded : ∀ e ∈ pVList, e.iValue ≤ nVar
  deriving DecidableEq

def Parse.empty : Parse where
  bounded := fun _ he => absurd he List.not_mem_nil

/-- `sqlite3VListAdd`, with the greatest number raised to that of the entry. -/
def Parse.add (p : Parse) (zName : List UInt8) (x : Nat) (pos : 0 < x) : Parse where
  nVar := max p.nVar x
  pVList := p.pVList ++ [⟨zName, x, pos⟩]
  bounded := fun e he => by
    rcases List.mem_append.1 he with he | he
    · exact (p.bounded e he).trans (Nat.le_max_left _ _)
    · obtain rfl := List.mem_singleton.1 he
      exact Nat.le_max_right _ _

/-- The value of a string of digits. -/
def decimal (digits : List UInt8) : Nat := digits.foldl (fun v d => 10 * v + (d.toNat - 0x30)) 0

/-- The number of the parameter `z`; `none` for an error. -/
def sqlite3ExprAssignVarNumber (p : Parse) (z : List UInt8) : Option (Nat × Parse) :=
  let numbered : Option (Nat × Parse) :=
    if z = [byte '?'] then
      some (p.nVar + 1, { p with nVar := p.nVar + 1, bounded := fun e he => Nat.le_succ_of_le (p.bounded e he) })
    else if byteAt z 0 = byte '?' then
      let x := decimal (z.drop 1)
      if h : x < 1 ∨ SQLITE_MAX_VARIABLE_NUMBER < x then none
      else if p.nVar < x ∨ sqlite3VListNumToName p.pVList x = none then some (x, p.add z x (by omega))
      else some (x, p)
    else
      let x := sqlite3VListNameToNum p.pVList z
      if x = 0 then some (p.nVar + 1, p.add z (p.nVar + 1) (Nat.succ_pos _)) else some (x, p)
  numbered.filter (·.1 ≤ SQLITE_MAX_VARIABLE_NUMBER)

/-- `expr ::= VARIABLE`: a register such as `#1` is for nested parses only. -/
def exprVariable (p : Parse) (z : List UInt8) : Option (Nat × Parse) :=
  if byteAt z 0 = byte '#' ∧ sqlite3Isdigit (byteAt z 1) then none else sqlite3ExprAssignVarNumber p z

/-- The parameters of a text are numbered in their order. -/
def assignVarNumbers : Parse → List SqlToken → Option Parse
  | p, [] => some p
  | p, t :: ts =>
    if t.kind.isVariable then (exprVariable p t.text).bind fun r => assignVarNumbers r.2 ts
    else assignVarNumbers p ts

/-! ### Values as text -/

/-- `%q`. -/
def sqlEscape (z : List UInt8) : List UInt8 :=
  (z.takeWhile (· ≠ 0)).flatMap fun c => if c = 0x27 then [c, c] else [c]

def hexDigit (n : Nat) : UInt8 := if n < 10 then .ofNat (0x30 + n) else .ofNat (0x57 + n)

/-- `%02x`. -/
def hexByte (c : UInt8) : List UInt8 := [hexDigit (c.toNat / 16), hexDigit (c.toNat % 16)]

variable (c : Casts)

/-- The literal that `sqlite3VdbeExpandSql` writes for a value. -/
def literal : Value → List UInt8
  | .null => ascii "NULL"
  | .integer i => c.intText i
  | .real r => c.realText r
  | .text z => 0x27 :: sqlEscape z ++ [0x27]
  | .blob z => byte 'x' :: 0x27 :: z.flatMap hexByte ++ [0x27]

/-- The value bound to parameter `i`. -/
def boundValue (aVar : List Value) (i : Nat) : Value := aVar.getD (i - 1) .null

/-- The value of one parameter, which has a number unless the text has an error. -/
def boundStep (aVar : List Value) (p : Parse) (z : List UInt8) : Parse × List UInt8 :=
  match exprVariable p z with
  | some (x, p) => (p, literal c (boundValue aVar x))
  | none => (p, literal c .null)

/-- The text of the tokens with the value of every parameter in its place. -/
def boundText (aVar : List Value) : Parse → List SqlToken → List UInt8 :=
  Lexing.substitute TokenType.isVariable (boundStep c aVar)

/-! ### The expansion -/

/-- The text collected so far, until it has become too long for `mxAlloc`. -/
structure StrAccum where
  zText : List UInt8 := []
  accError : Bool := false
  fits : zText.length < SQLITE_MAX_LENGTH

namespace StrAccum

def init : StrAccum where
  fits := by decide

/-- `sqlite3StrAccumAppend`. -/
def append (z : List UInt8) (p : StrAccum) : StrAccum :=
  if h : p.accError = false ∧ (p.zText ++ z).length < SQLITE_MAX_LENGTH then
    { zText := p.zText ++ z, accError := false, fits := h.2 }
  else { p with accError := true }

/-- `sqlite3StrAccumFinish`, after a reset where there has been an error. -/
def finish (p : StrAccum) : Option (List UInt8) := if p.accError then none else some p.zText

end StrAccum

/-- The number of bytes before the next parameter, and the length of the parameter. -/
def findNextHostParameter (zSql : List UInt8) : Nat × Nat :=
  Lexing.find sqlite3GetToken TokenType.isVariable zSql.length zSql

/-- The number the expansion gives to the parameter `z`; its digits, if it has any, are read by `sqlite3GetInt32`. -/
def hostParameterIndex (pVList : List VListEntry) (nextIndex : Nat) (z : List UInt8) : Nat :=
  if byteAt z 0 = byte '?' then (if 1 < z.length then decimal (z.drop 1) else nextIndex)
  else sqlite3VListNameToNum pVList z

/-- The loop of `sqlite3VdbeExpandSql`, of at most `n` rounds. -/
def expandLoop (pVList : List VListEntry) (aVar : List Value) : Nat → Nat → List UInt8 → StrAccum → StrAccum
  | 0, _, _, out => out
  | _ + 1, _, [], out => out
  | n + 1, nextIndex, a :: z, out =>
    let (nRaw, nToken) := findNextHostParameter (a :: z)
    let out := out.append ((a :: z).take nRaw)
    let zRawSql := (a :: z).drop nRaw
    if nToken = 0 then out
    else
      let idx := hostParameterIndex pVList nextIndex (zRawSql.take nToken)
      expandLoop pVList aVar n (idx + 1) (zRawSql.drop nToken) (out.append (literal c (boundValue aVar idx)))

/-- Every line with `-- ` before it. -/
def commentLines : Bool → List UInt8 → List UInt8
  | _, [] => []
  | start, a :: z => (if start then ascii "-- " else []) ++ a :: commentLines (a = byte '\n') z

/-- The parameters and their values are those of the statement that is traced. -/
def sqlite3VdbeExpandSql (nVdbeExec : Nat) (p : Parse) (aVar : List Value) (zRawSql : List UInt8) :
    Option (List UInt8) :=
  let out :=
    if 1 < nVdbeExec then StrAccum.init.append (commentLines true zRawSql)
    else if p.nVar = 0 then StrAccum.init.append zRawSql
    else expandLoop c p.pVList aVar zRawSql.length 1 zRawSql .init
  out.finish

/-! ### What has been collected -/

/-- What comes of a text that has been collected. -/
def StrAccum.fit (z : List UInt8) : Option (List UInt8) := if z.length < SQLITE_MAX_LENGTH then some z else none

theorem StrAccum.eq_of_fit {t z : List UInt8} (h : fit z = some t) : t = z := by
  unfold fit at h
  split at h
  · exact (Option.some.inj h).symm
  · cases h

theorem StrAccum.finish_init : StrAccum.init.finish = fit [] := rfl

theorem StrAccum.finish_append {p : StrAccum} {t : List UInt8} (h : p.finish = fit t) (z : List UInt8) :
    (p.append z).finish = fit (t ++ z) := by
  unfold finish fit at h
  have hlen : (t ++ z).length = t.length + z.length := List.length_append
  by_cases herr : p.accError = true
  · rw [if_pos herr] at h
    have ht : ¬ t.length < SQLITE_MAX_LENGTH := by
      intro hlt
      rw [if_pos hlt] at h
      cases h
    have happ : p.append z = { p with accError := true } := dif_neg fun hand => by
      rw [herr] at hand
      exact Bool.noConfusion hand.1
    rw [happ, finish, if_pos rfl, fit, if_neg (by omega)]
  · rw [if_neg herr] at h
    have ht : p.zText = t := by
      split at h
      · exact Option.some.inj h
      · cases h
    subst ht
    rw [fit]
    by_cases hfit : (p.zText ++ z).length < SQLITE_MAX_LENGTH
    · have happ : p.append z = ⟨p.zText ++ z, false, hfit⟩ := dif_pos ⟨Bool.eq_false_iff.2 herr, hfit⟩
      rw [happ, finish, if_neg Bool.false_ne_true, if_pos hfit]
    · have happ : p.append z = { p with accError := true } := dif_neg fun hand => hfit hand.2
      rw [happ, finish, if_pos rfl, if_neg hfit]

/-- One parameter of the loop. -/
def expandStep (pVList : List VListEntry) (aVar : List Value) (nextIndex : Nat) (z : List UInt8) : Nat × List UInt8 :=
  let idx := hostParameterIndex pVList nextIndex z
  (idx + 1, literal c (boundValue aVar idx))

/-- The text that the loop collects, token by token. -/
def expandedText (pVList : List VListEntry) (aVar : List Value) : Nat → List SqlToken → List UInt8 :=
  Lexing.substitute TokenType.isVariable (expandStep c pVList aVar)

theorem findNextHostParameter_cases (z : List UInt8) :
    Lexing.FindsNone sqlite3GetToken TokenType.isVariable z (findNextHostParameter z) ∨
      ∃ before kind,
        Lexing.FindsToken sqlite3GetToken TokenType.isVariable z (findNextHostParameter z) before kind :=
  Lexing.find_cases sqlite3GetToken TokenType.isVariable (Nat.le_refl z.length)

/-- Each round of the loop takes the tokens up to the next parameter, and the parameter. -/
theorem expandLoop_finish {pVList : List VListEntry} {aVar : List Value} {n nextIndex : Nat} {z t : List UInt8}
    {out : StrAccum} (hn : z.length ≤ n) (hout : out.finish = StrAccum.fit t) :
    (expandLoop c pVList aVar n nextIndex z out).finish =
      StrAccum.fit (t ++ expandedText c pVList aVar nextIndex (tokenize z)) := by
  induction n generalizing nextIndex z t out with
  | zero =>
    obtain rfl : z = [] := List.length_eq_zero_iff.1 (by omega)
    show out.finish = StrAccum.fit (t ++ [])
    rw [List.append_nil]
    exact hout
  | succ n ih =>
    cases z with
    | nil =>
      show out.finish = StrAccum.fit (t ++ [])
      rw [List.append_nil]
      exact hout
    | cons a z =>
      rw [expandLoop]
      dsimp only
      have hfind := findNextHostParameter_cases (a :: z)
      generalize findNextHostParameter (a :: z) = r at hfind ⊢
      have hraw := StrAccum.finish_append hout ((a :: z).take r.1)
      rcases hfind with hnone | ⟨before, kind, hsome⟩
      · have htext : expandedText c pVList aVar nextIndex (tokenize (a :: z)) = (a :: z).take r.1 := by
          rw [expandedText, tokenize, Lexing.substitute_plain hnone.plain, Lexing.flatMap_text_tokens,
            List.take_of_length_le hnone.all]
        rw [htext, if_pos hnone.token]
        exact hraw
      · have htoken := hsome.token
        have hlen : (((a :: z).drop r.1).drop r.2).length ≤ n := by
          rw [List.length_drop, List.length_drop]
          omega
        rw [if_neg (by omega), expandedText, tokenize, hsome.split, Lexing.substitute_plain_append hsome.plain,
          hsome.text, Lexing.substitute_cons_found hsome.found, ← List.append_assoc, ← List.append_assoc]
        exact ih hlen (StrAccum.finish_append hraw _)

/-- Outside callbacks the loop runs unless there is no parameter. -/
theorem sqlite3VdbeExpandSql_eq_fit (p : Parse) (aVar : List Value) (z : List UInt8) :
    sqlite3VdbeExpandSql c 1 p aVar z =
      StrAccum.fit (if p.nVar = 0 then z else expandedText c p.pVList aVar 1 (tokenize z)) := by
  unfold sqlite3VdbeExpandSql
  rw [if_neg (Nat.lt_irrefl 1)]
  by_cases hzero : p.nVar = 0
  · rw [if_pos hzero, if_pos hzero]
    exact StrAccum.finish_append StrAccum.finish_init z
  · have hloop : (expandLoop c p.pVList aVar z.length 1 z .init).finish =
        StrAccum.fit ([] ++ expandedText c p.pVList aVar 1 (tokenize z)) :=
      expandLoop_finish c (Nat.le_refl _) StrAccum.finish_init
    rw [if_neg hzero, if_neg hzero, hloop, List.nil_append]

/-! ### The two numberings -/

/-- A name that is found is found again when the table has grown. -/
theorem sqlite3VListNameToNum_append {l : List VListEntry} {zName : List UInt8}
    (h : sqlite3VListNameToNum l zName ≠ 0) (m : List VListEntry) :
    sqlite3VListNameToNum (l ++ m) zName = sqlite3VListNameToNum l zName := by
  unfold sqlite3VListNameToNum at h ⊢
  rw [List.find?_append]
  cases hfind : l.find? (·.zName = zName) with
  | none =>
    rw [hfind] at h
    exact absurd rfl h
  | some e => rfl

/-- A name that is not in the table is found where it is added. -/
theorem sqlite3VListNameToNum_snoc {l : List VListEntry} {zName : List UInt8}
    (h : sqlite3VListNameToNum l zName = 0) {x : Nat} (pos : 0 < x) :
    sqlite3VListNameToNum (l ++ [⟨zName, x, pos⟩]) zName = x := by
  unfold sqlite3VListNameToNum at h ⊢
  rw [List.find?_append]
  cases hfind : l.find? (·.zName = zName) with
  | none => simp
  | some e =>
    have hpos := e.pos
    rw [hfind] at h
    exact absurd h (by simp; omega)

/-- The parameter `z` is given the number `x`. -/
structure Assigned (p : Parse) (z : List UInt8) (x : Nat) (p' : Parse) : Prop where
  pos : 0 < x
  le : x ≤ p'.nVar
  mono : p.nVar ≤ p'.nVar
  keeps : p.pVList <+: p'.pVList
  plain : z = [byte '?'] → x = p.nVar + 1 ∧ p'.nVar = x
  numeric : z ≠ [byte '?'] → byteAt z 0 = byte '?' → decimal (z.drop 1) = x
  named : byteAt z 0 ≠ byte '?' → sqlite3VListNameToNum p'.pVList z = x

theorem Assigned.add {p : Parse} {z : List UInt8} {x : Nat} (pos : 0 < x) (hplain : z ≠ [byte '?'])
    (hnumeric : byteAt z 0 = byte '?' → decimal (z.drop 1) = x)
    (hnamed : byteAt z 0 ≠ byte '?' → sqlite3VListNameToNum p.pVList z = 0) : Assigned p z x (p.add z x pos) where
  pos := pos
  le := Nat.le_max_right _ _
  mono := Nat.le_max_left _ _
  keeps := List.prefix_append _ _
  plain := fun h => absurd h hplain
  numeric := fun _ => hnumeric
  named := fun h => sqlite3VListNameToNum_snoc (hnamed h) pos

/-- A number in the table is at most the greatest one. -/
theorem Parse.nameToNum_le (p : Parse) (zName : List UInt8) : sqlite3VListNameToNum p.pVList zName ≤ p.nVar := by
  unfold sqlite3VListNameToNum
  cases hfind : p.pVList.find? (·.zName = zName) with
  | none => exact Nat.zero_le _
  | some e => exact p.bounded e (List.mem_of_find?_eq_some hfind)

theorem assigned_of_exprVariable {p p' : Parse} {z : List UInt8} {x : Nat} (h : exprVariable p z = some (x, p')) :
    Assigned p z x p' := by
  unfold exprVariable at h
  split at h
  · cases h
  · unfold sqlite3ExprAssignVarNumber at h
    dsimp only at h
    rw [Option.filter_eq_some_iff] at h
    obtain ⟨h, -⟩ := h
    split at h
    · rename_i hplain
      cases h
      exact ⟨Nat.succ_pos _, Nat.le_refl _, Nat.le_succ _, List.prefix_refl _, fun _ => ⟨rfl, rfl⟩,
        fun hne => absurd hplain hne, fun hne => absurd (by rw [hplain]; rfl) hne⟩
    · rename_i hplain
      split at h
      · rename_i hmark
        split at h
        · cases h
        · split at h
          · cases h
            exact .add _ hplain (fun _ => rfl) (fun hne => absurd hmark hne)
          · rename_i hrange hknown
            cases h
            exact ⟨by omega, by omega, Nat.le_refl _, List.prefix_refl _, fun hz => absurd hz hplain,
              fun _ _ => rfl, fun hne => absurd hmark hne⟩
      · rename_i hmark
        split at h
        · rename_i hnew
          cases h
          have hadd : Assigned p z (p.nVar + 1) (p.add z (p.nVar + 1) (Nat.succ_pos _)) :=
            .add _ hplain (fun heq => absurd heq hmark) (fun _ => hnew)
          exact hadd
        · rename_i hold
          cases h
          exact ⟨Nat.pos_of_ne_zero hold, p.nameToNum_le z, Nat.le_refl _, List.prefix_refl _,
            fun hz => absurd hz hplain, fun _ heq => absurd heq hmark, fun _ => rfl⟩

/-- No number is taken back by the rest of the text. -/
theorem assignVarNumbers_grows {p q : Parse} {ts : List SqlToken} (h : assignVarNumbers p ts = some q) :
    p.nVar ≤ q.nVar ∧ p.pVList <+: q.pVList := by
  induction ts generalizing p with
  | nil =>
    cases h
    exact ⟨Nat.le_refl _, List.prefix_refl _⟩
  | cons t ts ih =>
    rw [assignVarNumbers] at h
    split at h
    · obtain ⟨⟨x, p'⟩, hx, hrest⟩ := Option.bind_eq_some_iff.1 h
      have hassigned := assigned_of_exprVariable hx
      obtain ⟨hle, hkeeps⟩ := ih hrest
      exact ⟨hassigned.mono.trans hle, hassigned.keeps.trans hkeeps⟩
    · exact ih h

/-- A text with a parameter has a number greater than 0. -/
theorem plain_of_nVar_eq_zero {p q : Parse} {ts : List SqlToken} (h : assignVarNumbers p ts = some q)
    (hzero : q.nVar = 0) : ∀ t ∈ ts, t.kind.isVariable = false := by
  induction ts generalizing p with
  | nil => exact fun t ht => absurd ht List.not_mem_nil
  | cons t ts ih =>
    rw [assignVarNumbers] at h
    split at h
    · obtain ⟨⟨x, p'⟩, hx, hrest⟩ := Option.bind_eq_some_iff.1 h
      have hassigned := assigned_of_exprVariable hx
      have hpos := hassigned.pos
      have hx := hassigned.le
      have hle := (assignVarNumbers_grows hrest).1
      dsimp only at hle
      omega
    · rename_i hplain
      exact List.forall_mem_cons.2 ⟨Bool.eq_false_iff.2 hplain, ih h⟩

/-- Every `?` comes where the parameter before it has the greatest number so far; `last` is the number of the parameter
before the text. -/
def InOrder : Nat → Parse → List SqlToken → Prop
  | _, _, [] => True
  | last, p, t :: ts =>
    if t.kind.isVariable then
      (t.text = [byte '?'] → last = p.nVar) ∧ ∀ r ∈ exprVariable p t.text, InOrder r.1 r.2 ts
    else InOrder last p ts

instance InOrder.decidable : (last : Nat) → (p : Parse) → (ts : List SqlToken) → Decidable (InOrder last p ts)
  | _, _, [] => isTrue trivial
  | last, p, t :: ts =>
    have : DecidablePred fun r : Nat × Parse => InOrder r.1 r.2 ts := fun r => InOrder.decidable r.1 r.2 ts
    have := InOrder.decidable last p ts
    inferInstanceAs (Decidable (if t.kind.isVariable then
      (t.text = [byte '?'] → last = p.nVar) ∧ ∀ r ∈ exprVariable p t.text, InOrder r.1 r.2 ts
    else InOrder last p ts))

theorem hostParameterIndex_eq {p p' : Parse} {z : List UInt8} {x last : Nat} {l : List VListEntry}
    (h : Assigned p z x p') (hl : p'.pVList <+: l) (hlast : z = [byte '?'] → last = p.nVar) :
    hostParameterIndex l (last + 1) z = x := by
  unfold hostParameterIndex
  by_cases hmark : byteAt z 0 = byte '?'
  · rw [if_pos hmark]
    by_cases hplain : z = [byte '?']
    · have hx := (h.plain hplain).1
      have hn := hlast hplain
      rw [if_neg (by rw [hplain]; decide)]
      omega
    · have hlong : 1 < z.length := by
        rcases z with _ | ⟨a, _ | ⟨b, z⟩⟩
        · exact absurd hmark (by decide)
        · exact absurd (congrArg (fun a => [a]) hmark) hplain
        · exact Nat.succ_lt_succ (Nat.succ_pos _)
      rw [if_pos hlong]
      exact h.numeric hplain hmark
  · rw [if_neg hmark]
    obtain ⟨m, rfl⟩ := hl
    have hx := h.named hmark
    rw [sqlite3VListNameToNum_append (by rw [hx]; exact Nat.pos_iff_ne_zero.1 h.pos), hx]

/-- The expansion takes the numbers of the parser. -/
theorem expandedText_eq_boundText (aVar : List Value) {last : Nat} {p q : Parse} {ts : List SqlToken}
    (h : assignVarNumbers p ts = some q) (hord : InOrder last p ts) :
    expandedText c q.pVList aVar (last + 1) ts = boundText c aVar p ts := by
  induction ts generalizing last p with
  | nil => rfl
  | cons t ts ih =>
    rw [assignVarNumbers] at h
    rw [InOrder] at hord
    by_cases hvar : t.kind.isVariable = true
    · rw [if_pos hvar] at h hord
      obtain ⟨⟨x, p'⟩, hx, hrest⟩ := Option.bind_eq_some_iff.1 h
      have hidx := hostParameterIndex_eq (assigned_of_exprVariable hx) (assignVarNumbers_grows hrest).2 hord.1
      rw [expandedText, Lexing.substitute_cons_found hvar, boundText, Lexing.substitute_cons_found hvar, boundStep, hx]
      dsimp only [expandStep]
      rw [hidx]
      exact congrArg (literal c (boundValue aVar x) ++ ·) (ih hrest (hord.2 (x, p') hx))
    · rw [if_neg hvar] at h hord
      rw [expandedText, boundText, Lexing.substitute, Lexing.substitute, if_neg hvar, if_neg hvar]
      exact congrArg (t.text ++ ·) (ih h hord)

/-- Outside callbacks the expansion is the text with the bound values, unless it is too long. -/
theorem sqlite3VdbeExpandSql_eq (aVar : List Value) {p : Parse} {z : List UInt8}
    (h : assignVarNumbers .empty (tokenize z) = some p) (hord : InOrder 0 .empty (tokenize z)) :
    sqlite3VdbeExpandSql c 1 p aVar z = StrAccum.fit (boundText c aVar .empty (tokenize z)) := by
  rw [sqlite3VdbeExpandSql_eq_fit]
  by_cases hzero : p.nVar = 0
  · rw [if_pos hzero, boundText, Lexing.substitute_plain (plain_of_nVar_eq_zero h hzero), tokenize,
      Lexing.flatMap_text_tokens]
  · rw [if_neg hzero, expandedText_eq_boundText c aVar h hord]

set_option maxRecDepth 4000 in
/-- In `?2,?1,?` the last parameter is the third one, and the expansion takes it for the second. -/
example : (boundText .ofIntegers [.null, .null, .blob []] .empty (tokenize (ascii "?2,?1,?")),
      (assignVarNumbers .empty (tokenize (ascii "?2,?1,?"))).bind fun p =>
        sqlite3VdbeExpandSql .ofIntegers 1 p [.null, .null, .blob []] (ascii "?2,?1,?")) =
    (ascii "NULL,NULL,x''", some (ascii "NULL,NULL,NULL")) := by
  decide

/-! ### Texts without parameters -/

/-- The text of a number begins with a digit, a sign or a letter, not like a parameter, and has no zero byte. -/
structure IsNumeral (z : List UInt8) : Prop where
  head : ∃ a u, z = a :: u ∧ ¬ BeginsVariable a
  nonzero : ∀ b ∈ z, b ≠ 0

/-- `%lld` and `%!.15g` print numerals. -/
structure Casts.Prints (c : Casts) : Prop where
  int : ∀ i, IsNumeral (c.intText i)
  real : ∀ r, IsNumeral (c.realText r)

variable {c}

theorem literal_head (hc : c.Prints) (m : Value) : ∃ a z, literal c m = a :: z ∧ ¬ BeginsVariable a := by
  cases m with
  | null => exact ⟨byte 'N', ascii "ULL", rfl, by decide⟩
  | integer i => exact (hc.int i).head
  | real r => exact (hc.real r).head
  | text z => exact ⟨0x27, sqlEscape z ++ [0x27], rfl, by decide⟩
  | blob z => exact ⟨byte 'x', 0x27 :: z.flatMap hexByte ++ [0x27], rfl, by decide⟩

theorem hexDigit_nonzero {n : Nat} (h : n < 16) : hexDigit n ≠ 0 := by
  have hall : ∀ m ∈ List.range 16, hexDigit m ≠ 0 := by decide
  exact hall n (List.mem_range.2 h)

theorem nonzero_of_zero_notMem {z : List UInt8} (h : 0 ∉ z) : ∀ b ∈ z, b ≠ 0 := by
  intro b hb hzero
  rw [hzero] at hb
  exact h hb

theorem literal_nonzero (hc : c.Prints) (m : Value) : ∀ b ∈ literal c m, b ≠ 0 := by
  cases m with
  | null =>
    show ∀ b ∈ ascii "NULL", b ≠ 0
    exact nonzero_of_zero_notMem (by decide)
  | integer i => exact (hc.int i).nonzero
  | real r => exact (hc.real r).nonzero
  | text z =>
    have hescape : ∀ b ∈ sqlEscape z, b ≠ 0 := by
      intro b hb
      obtain ⟨a, ha, hba⟩ := List.mem_flatMap.1 hb
      have hne : a ≠ 0 := by simpa using List.mem_takeWhile_imp ha
      split at hba <;> simp_all
    intro b hb
    simp only [literal, List.cons_append, List.mem_cons, List.mem_append, List.not_mem_nil, or_false] at hb
    rcases hb with rfl | hb | rfl
    · decide
    · exact hescape b hb
    · decide
  | blob z =>
    have hhex : ∀ b ∈ z.flatMap hexByte, b ≠ 0 := by
      intro b hb
      obtain ⟨a, -, hba⟩ := List.mem_flatMap.1 hb
      have hlt : a.toNat < 256 := a.toNat_lt
      simp only [hexByte, List.mem_cons, List.not_mem_nil, or_false] at hba
      rcases hba with rfl | rfl
      · exact hexDigit_nonzero (by omega)
      · exact hexDigit_nonzero (by omega)
    intro b hb
    simp only [literal, List.cons_append, List.mem_cons, List.mem_append, List.not_mem_nil, or_false] at hb
    rcases hb with rfl | rfl | hb | rfl
    · decide
    · decide
    · exact hhex b hb
    · decide

theorem boundStep_literal (aVar : List Value) (p : Parse) (z : List UInt8) :
    ∃ m, (boundStep c aVar p z).2 = literal c m := by
  unfold boundStep
  cases exprVariable p z with
  | none => exact ⟨.null, rfl⟩
  | some r => exact ⟨boundValue aVar r.1, rfl⟩

/-- A parameter and the literal for it begin differently. -/
theorem boundStep_head (hc : c.Prints) (aVar : List Value) {z : List UInt8} {t : SqlToken} (ht : t ∈ tokenize z)
    (hvar : t.kind.isVariable = true) (p : Parse) :
    ∃ a u b v, t.text = a :: u ∧ (boundStep c aVar p t.text).2 = b :: v ∧ a ≠ b := by
  obtain ⟨a, u, rfl⟩ := Lexing.of_mem_tokens sqlite3GetToken ht
  have hbegin : BeginsVariable a := beginsVariable_of_kind (of_decide_eq_true hvar)
  obtain ⟨m, hm⟩ := boundStep_literal aVar p (a :: u.take (sqlite3GetToken a u).more)
  obtain ⟨b, v, hlit, hb⟩ := literal_head hc m
  refine ⟨a, _, b, v, rfl, hm.trans hlit, ?_⟩
  rintro rfl
  exact hb hbegin

/-- Putting the values in changes every text that has a parameter. -/
theorem boundText_eq_iff (hc : c.Prints) (aVar : List Value) (z : List UInt8) :
    boundText c aVar .empty (tokenize z) = z ↔ ∀ t ∈ tokenize z, t.kind.isVariable = false := by
  have hiff : boundText c aVar .empty (tokenize z) = (tokenize z).flatMap Lexing.Token.text ↔ _ :=
    Lexing.substitute_eq_text_iff _ fun t ht hvar p => boundStep_head hc aVar ht hvar p
  rwa [tokenize, Lexing.flatMap_text_tokens] at hiff

theorem nonzero_of_mem_tokenize {z : List UInt8} (hz : ∀ b ∈ z, b ≠ 0) {t : SqlToken} (ht : t ∈ tokenize z)
    {b : UInt8} (hb : b ∈ t.text) : b ≠ 0 := by
  refine hz b ?_
  rw [← Lexing.flatMap_text_tokens sqlite3GetToken z]
  exact List.mem_flatMap.2 ⟨t, ht, hb⟩

theorem boundText_nonzero (hc : c.Prints) (aVar : List Value) {z : List UInt8} (hz : ∀ b ∈ z, b ≠ 0) :
    ∀ b ∈ boundText c aVar .empty (tokenize z), b ≠ 0 := by
  refine Lexing.forall_mem_substitute (fun t ht b hb => nonzero_of_mem_tokenize hz ht hb) (fun p z b hb => ?_) _
  obtain ⟨m, hm⟩ := boundStep_literal (c := c) aVar p z
  rw [hm] at hb
  exact literal_nonzero hc m b hb

theorem sqlite3VdbeExpandSql_nonzero (hc : c.Prints) {p : Parse} {aVar : List Value} {z t : List UInt8}
    (hz : ∀ b ∈ z, b ≠ 0) (h : sqlite3VdbeExpandSql c 1 p aVar z = some t) : ∀ b ∈ t, b ≠ 0 := by
  rw [sqlite3VdbeExpandSql_eq_fit] at h
  rw [StrAccum.eq_of_fit h]
  split
  · exact hz
  · exact Lexing.forall_mem_substitute (fun u hu b hb => nonzero_of_mem_tokenize hz hu hb)
      (fun n u b hb => literal_nonzero hc _ b hb) _

/-- `%lld`. -/
def decimalText (i : Int64) : List UInt8 :=
  (if i < 0 then [byte '-'] else []) ++ (Nat.toDigits 10 i.toInt.natAbs).map byte

/-- The texts of integers; a statement without `double` parameters needs no others. -/
def Casts.ofDecimals : Casts := { Casts.ofIntegers with intText := decimalText, realText := fun _ => ascii "0.0" }

theorem byte_digit {ch : Char} (h : ch.isDigit = true) : ¬ BeginsVariable (byte ch) ∧ byte ch ≠ 0 := by
  have hall : ∀ n ∈ List.range 58, 48 ≤ n → ¬ BeginsVariable (.ofNat n) ∧ UInt8.ofNat n ≠ 0 := by decide
  obtain ⟨hlo, hhi⟩ := Char.isDigit_iff_toNat.1 h
  exact hall ch.toNat (List.mem_range.2 (Nat.lt_succ_of_le hhi)) hlo

theorem isNumeral_digits (n : Nat) : IsNumeral ((Nat.toDigits 10 n).map byte) := by
  have hdigit : ∀ ch ∈ Nat.toDigits 10 n, ch.isDigit = true := fun ch hch =>
    Nat.isDigit_of_mem_toDigits (by decide) (by decide) hch
  constructor
  · obtain ⟨ch, rest, hdigits⟩ := List.exists_cons_of_ne_nil (Nat.toDigits_ne_nil : Nat.toDigits 10 n ≠ [])
    rw [hdigits]
    exact ⟨byte ch, rest.map byte, rfl, (byte_digit (hdigit ch (by rw [hdigits]; exact List.mem_cons_self))).1⟩
  · intro b hb
    obtain ⟨ch, hch, rfl⟩ := List.mem_map.1 hb
    exact (byte_digit (hdigit ch hch)).2

theorem prints_ofDecimals : Casts.ofDecimals.Prints where
  int i := by
    have hdigits := isNumeral_digits i.toInt.natAbs
    show IsNumeral ((if i < 0 then [byte '-'] else []) ++ (Nat.toDigits 10 i.toInt.natAbs).map byte)
    split
    · refine ⟨⟨byte '-', _, rfl, by decide⟩, ?_⟩
      exact List.forall_mem_cons.2 ⟨by decide, hdigits.nonzero⟩
    · exact hdigits
  real r := by
    show IsNumeral (ascii "0.0")
    exact ⟨⟨byte '0', ascii ".0", rfl, by decide⟩, nonzero_of_zero_notMem (by decide)⟩

end Sqlite4a
