import Elasto.Json.Value
import Elasto.Json.Numeral

/-! # Reading JSON text

A strict reader of JSON text: blanks are space, tab, line feed and carriage return; a
string may not hold a raw control character; `\u` escapes of surrogate halves must pair
up; a number follows the JSON grammar; nothing but blanks may follow the value. Each step
returns the rest of the input, never longer than what it was given. -/

namespace Elasto.Json

/-- A value read from a prefix of the input, with the rest of it. -/
abbrev Step (α : Type) (cs : List Char) :=
  Except String (α × {r : List Char // r.length ≤ cs.length})

def isBlank (c : Char) : Bool := c == ' ' || c == '\t' || c == '\n' || c == '\r'

def skipBlank (cs : List Char) : {r : List Char // r.length ≤ cs.length} :=
  match cs with
  | c :: rest =>
    if isBlank c then
      let ⟨r, h⟩ := skipBlank rest
      ⟨r, by simp only [List.length_cons]; omega⟩
    else ⟨c :: rest, Nat.le_refl _⟩
  | [] => ⟨[], Nat.le_refl _⟩

def hexValue? (c : Char) : Option Nat :=
  if c.isDigit then some (c.toNat - 48)
  else if 'a' ≤ c && c ≤ 'f' then some (c.toNat - 87)
  else if 'A' ≤ c && c ≤ 'F' then some (c.toNat - 55)
  else none

/-- Four hexadecimal digits at the front. -/
def hex4? : List Char → Option Nat
  | [a, b, c, d] => do
    let a ← hexValue? a
    let b ← hexValue? b
    let c ← hexValue? c
    let d ← hexValue? d
    pure (((a * 16 + b) * 16 + c) * 16 + d)
  | _ => none

/-- The character of a simple escape `\x`. -/
def simpleEscape? : Char → Option Char
  | '"' => some '"'
  | '\\' => some '\\'
  | '/' => some '/'
  | 'b' => some '\x08'
  | 'f' => some '\x0c'
  | 'n' => some '\n'
  | 'r' => some '\r'
  | 't' => some '\t'
  | _ => none

/-- The code point of `\uXXXX`, or of a surrogate pair `\uXXXX\uXXXX`, at the front of the
input after the first `\u`, with the number of characters it takes there. -/
def unicodeEscape? (cs : List Char) : Option (Nat × Nat) := do
  let hi ← hex4? (cs.take 4)
  if hi < 0xD800 || 0xDFFF < hi then pure (hi, 4)
  else if 0xDC00 ≤ hi then none
  else match cs.drop 4 with
    | '\\' :: 'u' :: rest =>
      let lo ← hex4? (rest.take 4)
      if 0xDC00 ≤ lo && lo ≤ 0xDFFF then
        pure (0x10000 + (hi - 0xD800) * 0x400 + (lo - 0xDC00), 10)
      else none
    | _ => none

/-- The rest of a string after its opening quote. -/
def readString (cs : List Char) (acc : List Char) : Step String cs :=
  match cs with
  | [] => throw "unterminated string"
  | '"' :: rest => pure (String.ofList acc.reverse, ⟨rest, by simp only [List.length_cons]; omega⟩)
  | '\\' :: 'u' :: rest =>
    match unicodeEscape? rest with
    | some (code, n) => do
      let (s, ⟨r, h⟩) ← readString (rest.drop n) (Char.ofNat code :: acc)
      pure (s, ⟨r, by simp only [List.length_cons, List.length_drop] at *; omega⟩)
    | none => throw "invalid unicode escape"
  | '\\' :: e :: rest =>
    match simpleEscape? e with
    | some c => do
      let (s, ⟨r, h⟩) ← readString rest (c :: acc)
      pure (s, ⟨r, by simp only [List.length_cons] at *; omega⟩)
    | none => throw "invalid escape"
  | c :: rest =>
    if c.toNat < 32 then throw "control character in string"
    else do
      let (s, ⟨r, h⟩) ← readString rest (c :: acc)
      pure (s, ⟨r, by simp only [List.length_cons] at *; omega⟩)
termination_by cs.length
decreasing_by all_goals (simp only [List.length_cons, List.length_drop]; omega)

def isNumberChar (c : Char) : Bool :=
  c.isDigit || c == '-' || c == '+' || c == '.' || c == 'e' || c == 'E'

/-- What is left after the blanks is no longer than the input; stated on the projection so
that the readers below match on the rest of the input as a plain list. -/
theorem length_le_of_skipBlank_eq {cs s : List Char} (h : (skipBlank cs).1 = s) :
    s.length ≤ cs.length :=
  h ▸ (skipBlank cs).2

mutual

def value (cs : List Char) : Step Json cs :=
  match hr : (skipBlank cs).1 with
  | 'n' :: 'u' :: 'l' :: 'l' :: rest =>
    have h := length_le_of_skipBlank_eq hr
    pure (.null, ⟨rest, by simp only [List.length_cons] at h; omega⟩)
  | 't' :: 'r' :: 'u' :: 'e' :: rest =>
    have h := length_le_of_skipBlank_eq hr
    pure (.bool true, ⟨rest, by simp only [List.length_cons] at h; omega⟩)
  | 'f' :: 'a' :: 'l' :: 's' :: 'e' :: rest =>
    have h := length_le_of_skipBlank_eq hr
    pure (.bool false, ⟨rest, by simp only [List.length_cons] at h; omega⟩)
  | '"' :: rest => do
    have h := length_le_of_skipBlank_eq hr
    let (s, ⟨r, h'⟩) ← readString rest []
    pure (.str s, ⟨r, by simp only [List.length_cons] at h; omega⟩)
  | '[' :: rest =>
    have h := length_le_of_skipBlank_eq hr
    match hs : (skipBlank rest).1 with
    | ']' :: r =>
      have h' := length_le_of_skipBlank_eq hs
      pure (.arr [], ⟨r, by simp only [List.length_cons] at h h'; omega⟩)
    | _ => do
      let (items, ⟨r, h'⟩) ← elements [] rest
      pure (.arr items, ⟨r, by simp only [List.length_cons] at h; omega⟩)
  | '{' :: rest =>
    have h := length_le_of_skipBlank_eq hr
    match hs : (skipBlank rest).1 with
    | '}' :: r =>
      have h' := length_le_of_skipBlank_eq hs
      pure (.obj [], ⟨r, by simp only [List.length_cons] at h h'; omega⟩)
    | _ => do
      let (fields, ⟨r, h'⟩) ← members [] rest
      pure (.obj fields, ⟨r, by simp only [List.length_cons] at h; omega⟩)
  | c :: rest =>
    have h := length_le_of_skipBlank_eq hr
    if c.isDigit || c == '-' then
      let n := 1 + (rest.takeWhile isNumberChar).length
      let text := String.ofList ((c :: rest).take n)
      if (Numeral.read? text).isSome then
        pure (.num text, ⟨(c :: rest).drop n, by simp only [List.length_drop]; omega⟩)
      else throw "invalid number"
    else throw "expected a value"
  | [] => throw "unexpected end of input"
termination_by (cs.length, 0)
decreasing_by all_goals (rw [Prod.lex_def]; dsimp only [List.length_cons] at *; omega)

def elements (acc : List Json) (cs : List Char) : Step (List Json) cs := do
  let (v, ⟨r, hr⟩) ← value cs
  match hs : (skipBlank r).1 with
  | ',' :: rest => do
    have h := length_le_of_skipBlank_eq hs
    let (vs, ⟨r', h'⟩) ← elements (acc ++ [v]) rest
    pure (vs, ⟨r', by simp only [List.length_cons] at h; omega⟩)
  | ']' :: rest =>
    have h := length_le_of_skipBlank_eq hs
    pure (acc ++ [v], ⟨rest, by simp only [List.length_cons] at h; omega⟩)
  | _ => throw "expected ',' or ']'"
termination_by (cs.length, 1)
decreasing_by all_goals (rw [Prod.lex_def]; dsimp only [List.length_cons] at *; omega)

def members (acc : List (String × Json)) (cs : List Char) : Step (List (String × Json)) cs :=
  match hs : (skipBlank cs).1 with
  | '"' :: rest => do
    have h := length_le_of_skipBlank_eq hs
    let (key, ⟨r, hr⟩) ← readString rest []
    match hs2 : (skipBlank r).1 with
    | ':' :: r => do
      have h2 := length_le_of_skipBlank_eq hs2
      let (v, ⟨r, h3⟩) ← value r
      match hs4 : (skipBlank r).1 with
      | ',' :: r => do
        have h4 := length_le_of_skipBlank_eq hs4
        let (fs, ⟨r', h5⟩) ← members (acc ++ [(key, v)]) r
        pure (fs, ⟨r', by simp only [List.length_cons] at h h2 h4; omega⟩)
      | '}' :: r =>
        have h4 := length_le_of_skipBlank_eq hs4
        pure (acc ++ [(key, v)], ⟨r, by simp only [List.length_cons] at h h2 h4; omega⟩)
      | _ => throw "expected ',' or '\x7d'"
    | _ => throw "expected ':'"
  | _ => throw "expected a key"
termination_by (cs.length, 1)
decreasing_by all_goals (rw [Prod.lex_def]; dsimp only [List.length_cons] at *; omega)

end

/-- The document written by a JSON text. -/
def parse (s : String) : Except String Json := do
  let (j, ⟨r, _⟩) ← value s.toList
  if (skipBlank r).1.isEmpty then pure j else throw "trailing characters"

end Elasto.Json
