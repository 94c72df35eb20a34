import Elasto.Float64.Text

/-! # Numeric checks

Guards that stop a computation on a value that makes no sense: a NaN or an infinity, or a
value outside the range a quantity may take. `nearlyEqual` compares doubles with an
absolute and a relative tolerance. -/

namespace Elasto.Numeric

/-- Why a numeric value was refused. -/
inductive NumericError where
  | nonFinite (what : String) (value : Float)
  | outOfRange (what : String) (value : Float) (expected : String)
  | invalidArg (what : String)
  | invariant (what : String)

/-- The text of a numeric error; values are written in plain form. -/
def NumericError.message : NumericError → String
  | .nonFinite what v => "Non-finite numeric value for " ++ what ++ ": " ++ Float64.plain v
  | .outOfRange what v expected =>
    "Value out of range for " ++ what ++ ": " ++ Float64.plain v ++ " (expected " ++ expected ++ ")"
  | .invalidArg what => "Invalid argument: " ++ what
  | .invariant what => "Invariant violated: " ++ what

/-- Whether a double is neither a NaN nor an infinity. -/
def isFinite (v : Float) : Bool := !v.isNaN && !v.isInf

def ensureFinite (v : Float) (what : String) : Except NumericError Float :=
  if isFinite v then .ok v else .error (.nonFinite what v)

/-- A finite value in the half-open interval `(lo, hi]`. -/
def ensureInHalfOpen (v lo hi : Float) (what : String) : Except NumericError Float := do
  let v ← ensureFinite v what
  if lo < v && v ≤ hi then pure v
  else throw (.outOfRange what v ("a value in (" ++ Float64.plain lo ++ ", " ++ Float64.plain hi ++ "]"))

/-- A finite value above zero. -/
def ensurePositive (v : Float) (what : String) : Except NumericError Float := do
  let v ← ensureFinite v what
  if 0 < v then pure v else throw (.outOfRange what v "a strictly positive value")

/-- The greater of two doubles; a NaN operand gives way to the other. -/
def maxNum (x y : Float) : Float :=
  if x.isNaN then y else if y.isNaN then x else if x < y then y else x

/-- An absolute and a relative tolerance. -/
structure Tolerances where
  abs : Float := 1e-12
  rel : Float := 1e-9

/-- Equal up to the absolute tolerance, or up to the relative one measured on the larger
magnitude. -/
def nearlyEqual (a b : Float) (tol : Tolerances) : Bool :=
  let diff := (a - b).abs
  diff ≤ tol.abs || diff ≤ tol.rel * maxNum a.abs b.abs

/-- Lists of the same length, nearly equal entry by entry. -/
def nearlyEqualLists (a b : List Float) (tol : Tolerances) : Bool :=
  a.length == b.length && (a.zip b).all fun (x, y) => nearlyEqual x y tol

/-- Reference temperature of thermal expansion, in kelvin. -/
def referenceTemperature : Float := 293.15

end Elasto.Numeric
