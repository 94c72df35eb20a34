import Elasto.Float64.Shortest

/-! # Text of doubles

A double is written with its shortest decimal digits, either positionally or in scientific
notation. A `Layout` holds the two decisions a format makes: which magnitudes are written
positionally, and how many fraction digits a positional integer keeps. Two layouts are in
use: `Layout.general` for values in data and generated code, `Layout.plain` for values in
messages. -/

namespace Elasto.Float64

/-- The decisions of a format. -/
structure Layout where
  /-- Whether a value is written positionally rather than in scientific notation. -/
  positional : Float → Bool
  /-- Least number of fraction digits of a positional value. -/
  minFraction : Nat

/-- Text of a natural number in decimal. -/
def natText (n : Nat) : String := String.ofList (Nat.toDigits 10 n)

private def zeros (n : Nat) : List Char := List.replicate n '0'

/-- `digits · 10^exp10` written positionally, with at least `minFraction` digits after the
point when the value is an integer. -/
def Decimal.positional (d : Decimal) (minFraction : Nat) : String :=
  let s := Nat.toDigits 10 d.digits
  let n := s.length
  let p : Int := n + d.exp10
  if p ≤ 0 then String.ofList (['0', '.'] ++ zeros (-p).toNat ++ s)
  else if p < n then String.ofList (s.take p.toNat ++ ['.'] ++ s.drop p.toNat)
  else
    let frac := if minFraction = 0 then [] else '.' :: zeros minFraction
    String.ofList (s ++ zeros (p - n).toNat ++ frac)

/-- `digits · 10^exp10` as `d.ddd` followed by `e` and the exponent. -/
def Decimal.scientific (d : Decimal) : String :=
  let s := Nat.toDigits 10 d.digits
  let e : Int := s.length + d.exp10 - 1
  let mant := match s with
    | c :: rest@(_ :: _) => c :: '.' :: rest
    | s => s
  String.ofList mant ++ "e" ++ toString e

/-- The text of a double in a layout; the specials are `NaN`, `inf` and `-inf`. -/
def Layout.write (L : Layout) (x : Float) : String :=
  match Word.ofFloat x with
  | .nan => "NaN"
  | .infinite neg => if neg then "-inf" else "inf"
  | .finite neg mant exp =>
    let d : Decimal := if mant = 0 then ⟨0, 0⟩ else shortest mant exp
    let body := if L.positional x then d.positional L.minFraction else d.scientific
    (if neg then "-" else "") ++ body

/-- Positional from `10^-4` up to below `10^16`, and for zero; scientific elsewhere. A
positional integer keeps one fraction digit, so the text always shows a real. -/
def Layout.general : Layout where
  positional x :=
    let m := x.abs
    m == 0 || (Word.round false 1 10000 ≤ m && m < Word.round false (Nat.pow 10 16) 1)
  minFraction := 1

/-- Always positional, an integer without fraction digits. -/
def Layout.plain : Layout where
  positional _ := true
  minFraction := 0

/-- The general text of a double: `0.3`, `1.0`, `1e-5`, `1e16`. -/
def general (x : Float) : String := Layout.general.write x

/-- The plain text of a double: `0.3`, `1`, `0.00001`. -/
def plain (x : Float) : String := Layout.plain.write x

/-- The text of a constant in generated code: an integral value below `10^15` in
magnitude is written as an integer (so `-0.0` as `0`), any other value in general form. -/
def constant (x : Float) : String :=
  match (Word.ofFloat x).toInt? with
  | some n => if n.natAbs < Nat.pow 10 15 then toString n else general x
  | none => general x

end Elasto.Float64
