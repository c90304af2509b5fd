import Sqlite4a.Lexing

/-!
# The tokens of SQL

`sqlite3GetToken`, which the parser and the expansion of parameters share.  A text is a list of bytes that ends where
the terminating zero byte stands, so a byte read behind the end is 0.
-/

namespace Sqlite4a

open Lexing (Munch)

def byte (ch : Char) : UInt8 := .ofNat ch.toNat

def ascii (s : String) : List UInt8 := s.toList.map byte

/-- `z[i]`. -/
def byteAt (z : List UInt8) (i : Nat) : UInt8 := z.getD i 0

/-! ### Character classes -/

def sqlite3Isspace (c : UInt8) : Bool := 0x09 ≤ c && c ≤ 0x0d || c == 0x20

def sqlite3Isalpha (c : UInt8) : Bool := byte 'A' ≤ c && c ≤ byte 'Z' || byte 'a' ≤ c && c ≤ byte 'z'

def sqlite3Isdigit (c : UInt8) : Bool := byte '0' ≤ c && c ≤ byte '9'

def sqlite3Isxdigit (c : UInt8) : Bool :=
  sqlite3Isdigit c || byte 'A' ≤ c && c ≤ byte 'F' || byte 'a' ≤ c && c ≤ byte 'f'

def idChar (c : UInt8) : Bool := sqlite3Isalpha c || sqlite3Isdigit c || c == byte '_' || c == byte '$' || 0x80 ≤ c

@[match_pattern] abbrev CC_X : Nat := 0
@[match_pattern] abbrev CC_KYWD : Nat := 1
@[match_pattern] abbrev CC_ID : Nat := 2
@[match_pattern] abbrev CC_DIGIT : Nat := 3
@[match_pattern] abbrev CC_DOLLAR : Nat := 4
@[match_pattern] abbrev CC_VARALPHA : Nat := 5
@[match_pattern] abbrev CC_VARNUM : Nat := 6
@[match_pattern] abbrev CC_SPACE : Nat := 7
@[match_pattern] abbrev CC_QUOTE : Nat := 8
@[match_pattern] abbrev CC_QUOTE2 : Nat := 9
@[match_pattern] abbrev CC_PIPE : Nat := 10
@[match_pattern] abbrev CC_MINUS : Nat := 11
@[match_pattern] abbrev CC_LT : Nat := 12
@[match_pattern] abbrev CC_GT : Nat := 13
@[match_pattern] abbrev CC_EQ : Nat := 14
@[match_pattern] abbrev CC_BANG : Nat := 15
@[match_pattern] abbrev CC_SLASH : Nat := 16
@[match_pattern] abbrev CC_LP : Nat := 17
@[match_pattern] abbrev CC_RP : Nat := 18
@[match_pattern] abbrev CC_SEMI : Nat := 19
@[match_pattern] abbrev CC_PLUS : Nat := 20
@[match_pattern] abbrev CC_STAR : Nat := 21
@[match_pattern] abbrev CC_PERCENT : Nat := 22
@[match_pattern] abbrev CC_COMMA : Nat := 23
@[match_pattern] abbrev CC_AND : Nat := 24
@[match_pattern] abbrev CC_TILDA : Nat := 25
@[match_pattern] abbrev CC_DOT : Nat := 26
@[match_pattern] abbrev CC_ILLEGAL : Nat := 27

/-- The classes of the ASCII characters; all others are `CC_ID`. -/
def aiClassAscii : List Nat :=
  [27, 27, 27, 27, 27, 27, 27, 27, 27,  7,  7, 27,  7,  7, 27, 27,
   27, 27, 27, 27, 27, 27, 27, 27, 27, 27, 27, 27, 27, 27, 27, 27,
    7, 15,  8,  5,  4, 22, 24,  8, 17, 18, 21, 20, 23, 11, 26, 16,
    3,  3,  3,  3,  3,  3,  3,  3,  3,  3,  5, 19, 12, 14, 13,  6,
    5,  1,  1,  1,  1,  1,  1,  1,  1,  1,  1,  1,  1,  1,  1,  1,
    1,  1,  1,  1,  1,  1,  1,  1,  0,  1,  1,  9, 27, 27, 27,  1,
    8,  1,  1,  1,  1,  1,  1,  1,  1,  1,  1,  1,  1,  1,  1,  1,
    1,  1,  1,  1,  1,  1,  1,  1,  0,  1,  1, 27, 10, 27, 25, 27]

def aiClass (c : UInt8) : Nat := aiClassAscii.getD c.toNat CC_ID

/-- `?`, `$`, `@`, `#` and `:`. -/
def BeginsVariable (c : UInt8) : Prop := aiClass c = CC_VARNUM ∨ aiClass c = CC_DOLLAR ∨ aiClass c = CC_VARALPHA

instance (c : UInt8) : Decidable (BeginsVariable c) := inferInstanceAs (Decidable (_ ∨ _ ∨ _))

/-! ### Tokens -/

/-- The `TK_` codes that `sqlite3GetToken` gives; the keywords that `keywordCode` tells apart count as `id`. -/
inductive TokenType
  | space
  | minus
  | lp
  | rp
  | semi
  | plus
  | star
  | slash
  | rem
  | eq
  | le
  | ne
  | lshift
  | lt
  | ge
  | rshift
  | gt
  | bitOr
  | concat
  | comma
  | bitAnd
  | bitNot
  | string
  | id
  | dot
  | integer
  | float
  | blob
  | variable
  | illegal
  deriving DecidableEq

/-- The bytes of a comment behind the first three, the last of which is `c`. -/
def skipComment (c : UInt8) : List UInt8 → Nat
  | [] => 0
  | d :: z => if c = byte '*' ∧ d = byte '/' then 1 else if d = 0 then 0 else skipComment d z + 1

/-- The bytes behind the opening quote, and whether the last of them is the closing one; a doubled quote is not. -/
def skipQuoted (delim : UInt8) : List UInt8 → Nat × Bool
  | [] => (0, false)
  | c :: z =>
    if c = 0 then (0, false)
    else if c = delim then
      match z with
      | [] => (1, true)
      | d :: z => if d = delim then ((skipQuoted delim z).1 + 2, (skipQuoted delim z).2) else (1, true)
    else ((skipQuoted delim z).1 + 1, (skipQuoted delim z).2)

/-- The bytes behind the first of a parameter's name, with `n` identifier characters before them; whether there is any
such character, and whether a parenthesis is closed. -/
def skipName (n : Nat) : List UInt8 → Nat × Bool
  | [] => (0, 0 < n)
  | c :: z =>
    if c = 0 then (0, 0 < n)
    else if idChar c then ((skipName (n + 1) z).1 + 1, (skipName (n + 1) z).2)
    else if c = byte '(' ∧ 0 < n then
      let m := (z.takeWhile fun c => c != 0 && !sqlite3Isspace c && c != byte ')').length
      if byteAt z m = byte ')' then (m + 2, true) else (m + 1, false)
    else if c = byte ':' then
      match z with
      | [] => (0, 0 < n)
      | d :: z => if d = byte ':' then ((skipName n z).1 + 2, (skipName n z).2) else (0, 0 < n)
    else (0, 0 < n)

/-- The number at the front of `z`, with the identifier characters that make it illegal. -/
def number (z : List UInt8) : TokenType × Nat :=
  if byteAt z 0 = byte '0' ∧ (byteAt z 1 = byte 'x' ∨ byteAt z 1 = byte 'X') ∧ sqlite3Isxdigit (byteAt z 2) then
    (.integer, 3 + ((z.drop 3).takeWhile sqlite3Isxdigit).length)
  else
    let digits (i : Nat) := ((z.drop i).takeWhile sqlite3Isdigit).length
    let i := digits 0
    let (type, i) := if byteAt z i = byte '.' then (TokenType.float, i + 1 + digits (i + 1)) else (.integer, i)
    let exponent : Bool :=
      (byteAt z i = byte 'e' || byteAt z i = byte 'E') &&
        (sqlite3Isdigit (byteAt z (i + 1)) ||
          (byteAt z (i + 1) = byte '+' || byteAt z (i + 1) = byte '-') && sqlite3Isdigit (byteAt z (i + 2)))
    let (type, i) := if exponent then (TokenType.float, i + 2 + digits (i + 2)) else (type, i)
    let m := ((z.drop i).takeWhile idChar).length
    (if 0 < m then .illegal else type, i + m)

/-- `sqlite3GetToken` on the text of `a` and `z`. -/
def sqlite3GetToken (a : UInt8) (z : List UInt8) : Munch TokenType :=
  match aiClass a with
  | CC_SPACE => ⟨.space, (z.takeWhile sqlite3Isspace).length⟩
  | CC_MINUS =>
    if byteAt z 0 = byte '-' then ⟨.space, 1 + ((z.drop 1).takeWhile fun c => c != 0 && c != byte '\n').length⟩
    else ⟨.minus, 0⟩
  | CC_LP => ⟨.lp, 0⟩
  | CC_RP => ⟨.rp, 0⟩
  | CC_SEMI => ⟨.semi, 0⟩
  | CC_PLUS => ⟨.plus, 0⟩
  | CC_STAR => ⟨.star, 0⟩
  | CC_SLASH =>
    if byteAt z 0 ≠ byte '*' ∨ byteAt z 1 = 0 then ⟨.slash, 0⟩ else ⟨.space, 2 + skipComment (byteAt z 1) (z.drop 2)⟩
  | CC_PERCENT => ⟨.rem, 0⟩
  | CC_EQ => ⟨.eq, if byteAt z 0 = byte '=' then 1 else 0⟩
  | CC_LT =>
    if byteAt z 0 = byte '=' then ⟨.le, 1⟩
    else if byteAt z 0 = byte '>' then ⟨.ne, 1⟩
    else if byteAt z 0 = byte '<' then ⟨.lshift, 1⟩
    else ⟨.lt, 0⟩
  | CC_GT =>
    if byteAt z 0 = byte '=' then ⟨.ge, 1⟩
    else if byteAt z 0 = byte '>' then ⟨.rshift, 1⟩
    else ⟨.gt, 0⟩
  | CC_BANG => if byteAt z 0 ≠ byte '=' then ⟨.illegal, 0⟩ else ⟨.ne, 1⟩
  | CC_PIPE => if byteAt z 0 ≠ byte '|' then ⟨.bitOr, 0⟩ else ⟨.concat, 1⟩
  | CC_COMMA => ⟨.comma, 0⟩
  | CC_AND => ⟨.bitAnd, 0⟩
  | CC_TILDA => ⟨.bitNot, 0⟩
  | CC_QUOTE =>
    let (n, closed) := skipQuoted a z
    ⟨if closed then (if a = 0x27 then .string else .id) else .illegal, n⟩
  | CC_DOT =>
    if !sqlite3Isdigit (byteAt z 0) then ⟨.dot, 0⟩ else ⟨(number (a :: z)).1, (number (a :: z)).2 - 1⟩
  | CC_DIGIT => ⟨(number (a :: z)).1, (number (a :: z)).2 - 1⟩
  | CC_QUOTE2 =>
    let n := (z.takeWhile fun c => c != 0 && c != byte ']').length
    if byteAt z n = byte ']' then ⟨.id, n + 1⟩ else ⟨.illegal, n⟩
  | CC_VARNUM => ⟨.variable, (z.takeWhile sqlite3Isdigit).length⟩
  | CC_DOLLAR | CC_VARALPHA =>
    let (n, named) := skipName 0 z
    ⟨if named then .variable else .illegal, n⟩
  | CC_KYWD =>
    -- an identifier character that no keyword has makes it an identifier
    let n := (z.takeWhile fun c => aiClass c ≤ CC_KYWD).length
    if idChar (byteAt z n) then ⟨.id, n + 1 + ((z.drop (n + 1)).takeWhile idChar).length⟩ else ⟨.id, n⟩
  | CC_X =>
    if byteAt z 0 = 0x27 then
      let n := ((z.drop 1).takeWhile sqlite3Isxdigit).length
      if byteAt z (n + 1) ≠ 0x27 ∨ n % 2 = 1 then
        let m := n + 1 + ((z.drop (n + 1)).takeWhile fun c => c != 0 && c != 0x27).length
        ⟨.illegal, if byteAt z m ≠ 0 then m + 1 else m⟩
      else ⟨.blob, n + 2⟩
    else ⟨.id, (z.takeWhile idChar).length⟩
  | CC_ID => ⟨.id, (z.takeWhile idChar).length⟩
  | _ => ⟨.illegal, 0⟩

abbrev SqlToken := Lexing.Token UInt8 TokenType

/-- The tokens of a text, one after the other. -/
def tokenize (z : List UInt8) : List SqlToken := Lexing.tokens sqlite3GetToken z

def TokenType.isVariable (t : TokenType) : Bool := t = .variable

theorem number_not_variable (z : List UInt8) : (number z).1 ≠ .variable := by
  unfold number
  split
  · exact TokenType.noConfusion
  · dsimp only
    split_ifs <;> exact TokenType.noConfusion

/-- A parameter is told by its first byte. -/
theorem beginsVariable_of_kind {a : UInt8} {z : List UInt8} (h : (sqlite3GetToken a z).kind = .variable) :
    BeginsVariable a := by
  have hnum := number_not_variable (a :: z)
  unfold sqlite3GetToken at h
  split at h
  case h_22 hc => exact .inl hc
  case h_23 hc => exact .inr (.inl hc)
  case h_24 hc => exact .inr (.inr hc)
  all_goals grind

end Sqlite4a
