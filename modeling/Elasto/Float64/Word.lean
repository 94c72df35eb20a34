/-! # Binary64 words as exact numbers

A finite double is `(-1)^neg · mant · 2^exp` with `mant < 2^53`. `Word.ofFloat` reads that
form off the bits of a `Float`, and `Word.round` rounds a positive fraction back to the
nearest double, a tie going to the even significand, so that a decimal text is read with a
single rounding. -/

namespace Elasto.Float64

/-- What the bits of a double denote. -/
inductive Word where
  | finite (neg : Bool) (mant : Nat) (exp : Int)
  | infinite (neg : Bool)
  | nan
  deriving Repr

namespace Word

/-- Subnormal doubles are the multiples of `2^minExp` below `2^(minExp + 52)`. -/
def minExp : Int := -1074

/-- Largest binary exponent of a finite double: its significand stays below `2^53`. -/
def maxExp : Int := 971

/-- Sign, significand and exponent read off the 64 bits. -/
def ofFloat (x : Float) : Word :=
  let bits := x.toBits.toNat
  let neg := decide (Nat.pow 2 63 ≤ bits)
  let biased : Nat := bits / Nat.pow 2 52 % Nat.pow 2 11
  let frac : Nat := bits % Nat.pow 2 52
  if biased = Nat.pow 2 11 - 1 then
    if frac = 0 then .infinite neg else .nan
  else if biased = 0 then .finite neg frac minExp
  else .finite neg (frac + Nat.pow 2 52) ((biased : Int) - 1075)

/-- The double `(-1)^neg · mant · 2^exp`, for `mant < 2^53` and an exponent in range;
a significand below `2^52` stands for a subnormal. -/
def pack (neg : Bool) (mant : Nat) (exp : Int) : Float :=
  let sign := if neg then Nat.pow 2 63 else 0
  let body := if mant < Nat.pow 2 52 then mant else (exp + 1075).toNat * Nat.pow 2 52 + (mant - Nat.pow 2 52)
  Float.ofBits (sign + body).toUInt64

/-- Infinity of the given sign. -/
def infinity (neg : Bool) : Float :=
  Float.ofBits ((if neg then Nat.pow 2 63 else 0) + 2047 * Nat.pow 2 52 : Nat).toUInt64

/-- Quotient, remainder and divisor of `num / (den · 2^e)`, for an exponent of either sign. -/
def divPow2 (num den : Nat) (e : Int) : Nat × Nat × Nat :=
  let n := num * Nat.pow 2 (-e).toNat
  let d := den * Nat.pow 2 e.toNat
  (n / d, n % d, d)

/-- The double nearest to `num / den`, with sign `neg`; a tie goes to the even significand,
and a value from `2^1024` on becomes infinity. -/
def round (neg : Bool) (num den : Nat) : Float :=
  if num = 0 ∨ den = 0 then pack neg 0 minExp
  else
    let e0 : Int := (num.log2 : Int) - den.log2 - 52
    let e1 := if (divPow2 num den e0).1 < Nat.pow 2 52 then e0 - 1 else e0
    let e := max e1 minExp
    let (q, r, d) := divPow2 num den e
    let up := decide (d < 2 * r) || (2 * r == d && q % 2 == 1)
    let q := if up then q + 1 else q
    let (m, e) := if q = Nat.pow 2 53 then (Nat.pow 2 52, e + 1) else (q, e)
    if maxExp < e then infinity neg else pack neg m e

/-- The integer a double equals, when it is finite and has no fraction. -/
def toInt? : Word → Option Int
  | .finite neg mant exp =>
    let mag : Option Nat :=
      if 0 ≤ exp then some (mant * Nat.pow 2 exp.toNat)
      else if mant % Nat.pow 2 (-exp).toNat = 0 then some (mant / Nat.pow 2 (-exp).toNat) else none
    mag.map fun n => if neg then -(n : Int) else n
  | _ => none

end Word

/-- The nearest double to `mant · 10^exp10`, with sign `neg`. Exponents far outside the
range of doubles are settled before any power of ten is formed. -/
def ofDecimal (neg : Bool) (mant : Nat) (exp10 : Int) : Float :=
  let width : Int := (toString mant).length
  if mant = 0 then Word.pack neg 0 Word.minExp
  else if 310 < width + exp10 then Word.infinity neg
  else if width + exp10 < -330 then Word.pack neg 0 Word.minExp
  else if 0 ≤ exp10 then Word.round neg (mant * Nat.pow 10 exp10.toNat) 1
  else Word.round neg mant (Nat.pow 10 (-exp10).toNat)

end Elasto.Float64
