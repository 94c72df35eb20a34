import Elasto.Float64.Word

/-! # JSON numerals

The grammar of a JSON number is `-?(0|[1-9][0-9]*)(.[0-9]+)?([eE][+-]?[0-9]+)?`. A numeral
written without fraction and exponent is an integer; the others are reals, read as the
nearest double. -/

namespace Elasto.Json

/-- A JSON number: `(-1)^neg · mant · 10^exp10`, and whether it was written as an
integer. -/
structure Numeral where
  neg : Bool
  mant : Nat
  exp10 : Int
  integral : Bool

private def digitRun (cs : List Char) : Nat × Nat × List Char :=
  let ds := cs.takeWhile Char.isDigit
  (ds.foldl (fun n c => 10 * n + (c.toNat - '0'.toNat)) 0, ds.length, cs.dropWhile Char.isDigit)

/-- The numeral written by a text, if it follows the grammar. -/
def Numeral.read? (text : String) : Option Numeral :=
  let cs := text.toList
  let (neg, cs) := match cs with
    | '-' :: rest => (true, rest)
    | _ => (false, cs)
  let (whole, wcount, cs) := digitRun cs
  let leadingZero := match text.toList.dropWhile (· == '-') with
    | '0' :: d :: _ => d.isDigit
    | _ => false
  if wcount = 0 || leadingZero then none
  else
    let fracPart : Option (Nat × Nat × List Char) := match cs with
      | '.' :: rest =>
        let (f, fcount, rest) := digitRun rest
        if fcount = 0 then none else some (f, fcount, rest)
      | _ => some (0, 0, cs)
    fracPart.bind fun (frac, fcount, cs) =>
      let expPart : Option (Int × Bool × List Char) := match cs with
        | e :: rest =>
          if e == 'e' || e == 'E' then
            let (eneg, rest) := match rest with
              | '-' :: r => (true, r)
              | '+' :: r => (false, r)
              | r => (false, r)
            let (n, ecount, rest) := digitRun rest
            if ecount = 0 then none else some (if eneg then -(n : Int) else n, true, rest)
          else some (0, false, cs)
        | [] => some (0, false, [])
      expPart.bind fun (ex, hasExp, cs) =>
        if cs.isEmpty then
          some ⟨neg, whole * Nat.pow 10 fcount + frac, ex - fcount, fcount = 0 && !hasExp⟩
        else none

/-- The nearest double. -/
def Numeral.toFloat (n : Numeral) : Float := Float64.ofDecimal n.neg n.mant n.exp10

/-- The integer value of a numeral written as an integer. -/
def Numeral.toInt? (n : Numeral) : Option Int :=
  if n.integral then some (if n.neg then -(n.mant : Int) else n.mant) else none

end Elasto.Json
