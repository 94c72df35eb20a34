import Elasto.Float64.Word

/-! # Reading decimal text

`readDecimal?` accepts an optional sign followed by digits with an optional point and an
optional exponent, at least one digit before the exponent, or one of the words `inf`,
`infinity` and `nan` in any case. The value is the double nearest to the exact decimal. -/

namespace Elasto.Float64

/-- The digits at the front of a list, as a number and a count, with the rest. -/
def takeDigits (cs : List Char) : Nat × Nat × List Char :=
  let ds := cs.takeWhile Char.isDigit
  (ds.foldl (fun n c => 10 * n + (c.toNat - '0'.toNat)) 0, ds.length, cs.dropWhile Char.isDigit)

/-- Splits a leading sign off; `true` for minus. -/
def takeSign (cs : List Char) : Bool × List Char :=
  match cs with
  | '-' :: rest => (true, rest)
  | '+' :: rest => (false, rest)
  | _ => (false, cs)

/-- The exponent part `(e|E)[+-]digits` of a number, which must end the text. -/
def readExponent? : List Char → Option Int
  | [] => some 0
  | c :: rest =>
    if c = 'e' ∨ c = 'E' then
      let (neg, rest) := takeSign rest
      let (n, count, rest) := takeDigits rest
      if count = 0 ∨ !rest.isEmpty then none
      else some (if neg then -(n : Int) else n)
    else none

/-- The significand and decimal exponent of `digits[.digits][exponent]`. -/
def readUnsigned? (cs : List Char) : Option (Nat × Int) :=
  let (whole, wcount, rest) := takeDigits cs
  let (frac, fcount, rest) := match rest with
    | '.' :: r => takeDigits r
    | r => (0, 0, r)
  if wcount + fcount = 0 then none
  else (readExponent? rest).map fun e => (whole * Nat.pow 10 fcount + frac, e - fcount)

/-- A special value spelled out in words, in any case. -/
def readWord? (neg : Bool) (cs : List Char) : Option Float :=
  match String.ofList (cs.map Char.toLower) with
  | "inf" | "infinity" => some (Word.infinity neg)
  | "nan" => some (0.0 / 0.0)
  | _ => none

/-- The double written by a decimal text, if the text is one. -/
def readDecimal? (s : String) : Option Float :=
  let (neg, rest) := takeSign s.toList
  match readWord? neg rest with
  | some x => some x
  | none => (readUnsigned? rest).map fun (m, e) => ofDecimal neg m e

end Elasto.Float64
