import Elasto.Document.Node
import Elasto.Float64.Read

/-! # Plain YAML scalars

A plain scalar read where any value may stand is resolved by its text: the null words and
the empty text are null, `true` and `false` in three casings are booleans, decimal,
hexadecimal (`0x`), octal (`0o`) and binary (`0b`) integers are integers, `.inf`, `.nan`
and finite decimal numbers are reals, and everything else is a string. Digits after a
leading zero (`0127`, `-007`) are a string, neither an integer nor a real. A tag of the
core schema (`!!int`, `!!float`, `!!bool`, `!!null`) asks for its type instead. -/

namespace Elasto.Document

/-- What a plain scalar stands for. -/
inductive PlainValue where
  | null
  | bool (b : Bool)
  /-- An integer of the unsigned 64-bit range. -/
  | unsigned (n : Nat)
  /-- An integer of the signed 64-bit range that is not unsigned. -/
  | signed (i : Int)
  /-- An integer of the 128-bit ranges only. -/
  | wide
  | real (x : Float)
  | text (s : String)

/-- The value of a run of digits in a radix, if every character is one. -/
def digitsValue (radix : Nat) (cs : List Char) : Option Nat :=
  if cs.isEmpty then none
  else cs.foldlM (fun n c =>
    let d := if c.isDigit then c.toNat - '0'.toNat
      else if 'a' ≤ c && c ≤ 'z' then c.toNat - 'a'.toNat + 10
      else if 'A' ≤ c && c ≤ 'Z' then c.toNat - 'A'.toNat + 10
      else radix
    if d < radix then some (radix * n + d) else none) 0

/-- An unsigned integer below `bound` in a radix, with an optional leading `+`. -/
def readUnsignedRadix (s : String) (radix bound : Nat) : Option Nat :=
  let cs := match s.toList with
    | '+' :: rest => rest
    | cs => cs
  (digitsValue radix cs).bind fun n => if n < bound then some n else none

/-- A signed integer in `[-bound, bound)` in a radix, with an optional sign. -/
def readSignedRadix (s : String) (radix bound : Nat) : Option Int :=
  match s.toList with
  | '-' :: rest => (digitsValue radix rest).bind fun n =>
      if n ≤ bound then some (-(n : Int)) else none
  | '+' :: rest => (digitsValue radix rest).bind fun n => if n < bound then some n else none
  | cs => (digitsValue radix cs).bind fun n => if n < bound then some n else none

def startsWithSign (s : String) : Bool := s.startsWith "+" || s.startsWith "-"

/-- Leading zeros followed by digits: a string, not a number. -/
def digitsButNotNumber (s : String) : Bool :=
  let cs := match s.toList with
    | '-' :: rest | '+' :: rest => rest
    | cs => cs
  cs.length > 1 && cs.head? == some '0' && cs.tail.all Char.isDigit

/-- The radix prefixes of integers. -/
def radixPrefixes : List (String × Nat) := [("0x", 16), ("0o", 8), ("0b", 2)]

/-- A non-negative integer below `bound`, with an optional `+` and a radix prefix. -/
def readPlainUnsigned (s : String) (bound : Nat) : Option Nat :=
  let unpositive := if s.startsWith "+" then (s.drop 1).toString else s
  let rec prefixed : List (String × Nat) → Option (Option Nat)
    | [] => none
    | (p, radix) :: rest =>
      if unpositive.startsWith p then
        let digits := (unpositive.drop 2).toString
        if startsWithSign digits then some none
        else match readUnsignedRadix digits radix bound with
          | some n => some (some n)
          | none => prefixed rest
      else prefixed rest
  match prefixed radixPrefixes with
  | some r => r
  | none =>
    if startsWithSign unpositive || digitsButNotNumber s then none
    else readUnsignedRadix unpositive 10 bound

/-- An integer in `[-bound, bound)`, with a sign or a negative radix prefix. -/
def readPlainSigned (s : String) (bound : Nat) : Option Int :=
  let rec prefixed : List (String × Nat) → Option Int
    | [] => none
    | (p, radix) :: rest =>
      if s.startsWith ("-" ++ p) then
        match readSignedRadix ("-" ++ (s.drop 3).toString) radix bound with
        | some i => some i
        | none => prefixed rest
      else prefixed rest
  match prefixed radixPrefixes with
  | some i => some i
  | none => if digitsButNotNumber s then none else readSignedRadix s 10 bound

/-- A real: an infinity or NaN in YAML spelling, or a finite decimal number. -/
def readPlainReal (s : String) : Option Float :=
  let unpositive := if s.startsWith "+" then (s.drop 1).toString else s
  if s.startsWith "+" && startsWithSign unpositive then none
  else if unpositive == ".inf" || unpositive == ".Inf" || unpositive == ".INF" then
    some (Float64.Word.infinity false)
  else if s == "-.inf" || s == "-.Inf" || s == "-.INF" then some (Float64.Word.infinity true)
  else if s == ".nan" || s == ".NaN" || s == ".NAN" then some (0.0 / 0.0)
  else match Float64.readDecimal? unpositive with
    | some x => if x.isNaN || x.isInf then none else some x
    | none => none

/-- The words for null. -/
def isNullWord (s : String) : Bool := s == "~" || s == "null" || s == "Null" || s == "NULL"

/-- A boolean in one of its three casings. -/
def readBool? (s : String) : Option Bool :=
  if s == "true" || s == "True" || s == "TRUE" then some true
  else if s == "false" || s == "False" || s == "FALSE" then some false
  else none

/-- An integer: of the unsigned, then the signed 64-bit range, else of a 128-bit range. -/
def readPlainInteger (s : String) : Option PlainValue :=
  match readPlainUnsigned s (Nat.pow 2 64) with
  | some n => some (.unsigned n)
  | none => match readPlainSigned s (Nat.pow 2 63) with
    | some i => some (.signed i)
    | none =>
      if (readPlainUnsigned s (Nat.pow 2 128)).isSome || (readPlainSigned s (Nat.pow 2 127)).isSome then
        some .wide
      else none

/-- What a plain scalar stands for where any value may stand. -/
def resolvePlain (s : String) : PlainValue :=
  if s.isEmpty || isNullWord s then .null
  else match readBool? s with
    | some b => .bool b
    | none => match readPlainInteger s with
      | some v => v
      | none =>
        if digitsButNotNumber s then .text s
        else match readPlainReal s with
          | some x => .real x
          | none => .text s

/-- What a scalar with a tag stands for, when the tag names no variant: the core schema's
`bool`, `int`, `float` and `null` read the text as that type, and `none` when it is not. A
plain scalar under any other local tag, which can only be one whose bytes are not text, is
resolved as if it had no tag; any other tag makes the text a string. -/
def resolveTagged (tag : Tag) (style : ScalarStyle) (text : String) : Option PlainValue :=
  if tag == Tag.core "bool" then (readBool? text).map .bool
  else if tag == Tag.core "int" then readPlainInteger text
  else if tag == Tag.core "float" then (readPlainReal text).map .real
  else if tag == Tag.core "null" then if isNullWord text then some .null else none
  else if tag.isLocal && style == .plain then some (resolvePlain text)
  else some (.text text)

end Elasto.Document
