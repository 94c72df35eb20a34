import Elasto.Tensor.Error
import Elasto.Float64.Read

/-! # Formula tokens

A formula is read byte by byte, each byte taken as the character of the same code, and
ASCII blanks between tokens are skipped. A number is a run of digits and points, followed
by an exponent only when a digit comes after the `e` and its sign; an identifier is a
letter or underscore followed by letters, digits and underscores. Every other byte is an
error at its offset. -/

namespace Elasto.Formula

open Elasto.Tensor

inductive Token where
  | number (v : Float)
  | ident (name : String)
  | plus
  | minus
  | star
  | slash
  | caret
  | lparen
  | rparen
  | comma
  deriving BEq

/-- A token with the byte offset where it starts. -/
structure Lexeme where
  offset : Nat
  token : Token

/-- Characters skipped between tokens: space, tab, line feed, form feed, carriage return. -/
def isBlank (c : Char) : Bool :=
  c == ' ' || c == '\t' || c == '\n' || c == '\x0c' || c == '\r'

/-- The tokens that are one character long. -/
def single : Char → Option Token
  | '+' => some .plus
  | '-' => some .minus
  | '*' => some .star
  | '/' => some .slash
  | '^' => some .caret
  | '(' => some .lparen
  | ')' => some .rparen
  | ',' => some .comma
  | _ => none

def isIdentChar (c : Char) : Bool := c.isAlphanum || c == '_'

/-- Length of the number at the front: digits and points, then `e` or `E`, an optional
sign and digits, the exponent only when at least one digit follows. -/
def numberSpan (cs : List Char) : Nat :=
  let body := (cs.takeWhile fun c => c.isDigit || c == '.').length
  match cs.drop body with
  | e :: r =>
    if e == 'e' || e == 'E' then
      let signed := match r with
        | s :: _ => s == '+' || s == '-'
        | [] => false
      let r := if signed then r.drop 1 else r
      let digits := (r.takeWhile Char.isDigit).length
      if 0 < digits then body + 1 + (if signed then 1 else 0) + digits else body
    else body
  | [] => body

/-- The characters of a byte string, one per byte. -/
def bytesAsChars (s : String) : List Char :=
  s.toUTF8.toList.map fun b => Char.ofNat b.toNat

/-- The token at the front of `c :: rest`, none for a blank, and how many characters it
takes; `pos` is its offset. -/
def lexOne (c : Char) (rest : List Char) (pos : Nat) :
    Except ExprError (Option Token × {n : Nat // 0 < n}) :=
  if isBlank c then .ok (none, ⟨1, Nat.one_pos⟩)
  else match single c with
  | some t => .ok (some t, ⟨1, Nat.one_pos⟩)
  | none =>
    if c.isDigit || c == '.' then
      let n := max 1 (numberSpan (c :: rest))
      let text := String.ofList ((c :: rest).take n)
      match Float64.readDecimal? text with
      | some v => .ok (some (.number v), ⟨n, by omega⟩)
      | none => .error (.parse pos (.invalidNumber text))
    else if c.isAlpha || c == '_' then
      let n := 1 + (rest.takeWhile isIdentChar).length
      .ok (some (.ident (String.ofList ((c :: rest).take n))), ⟨n, by omega⟩)
    else .error (.parse pos (.unexpectedChar c))

/-- The tokens of the characters `cs`, the first at offset `pos`. -/
def scan (cs : List Char) (pos : Nat) : Except ExprError (List Lexeme) :=
  match cs with
  | [] => .ok []
  | c :: rest =>
    match lexOne c rest pos with
    | .error e => .error e
    | .ok (t, ⟨n, _hn⟩) =>
      let tail := scan ((c :: rest).drop n) (pos + n)
      match t with
      | some t => (⟨pos, t⟩ :: ·) <$> tail
      | none => tail
termination_by cs.length
decreasing_by simp only [List.length_drop, List.length_cons]; omega

/-- The tokens of a formula, with byte offsets. -/
def tokenize (src : String) : Except ExprError (List Lexeme) := scan (bytesAsChars src) 0

end Elasto.Formula
