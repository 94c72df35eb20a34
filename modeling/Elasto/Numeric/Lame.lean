/-! # Lamé coefficients

An isotropic elastic material is given by its Young modulus `E` and Poisson ratio `ν`, or
equivalently by the Lamé coefficients `λ = E ν / ((1 + ν)(1 - 2ν))` and the shear modulus
`μ = E / (2 (1 + ν))`. The formulas are written once for any numbers with the four
operations; the program computes them in doubles. -/

namespace Elasto.Numeric

/-- The Lamé coefficients of an isotropic material. -/
structure Lame (α : Type := Float) where
  lambda : α
  mu : α

/-- `λ` and `μ` of a Young modulus and a Poisson ratio. -/
def Lame.ofYoungPoisson {α : Type} [Add α] [Sub α] [Mul α] [Div α] [One α] [NatCast α]
    (e nu : α) : Lame α where
  lambda := e * nu / ((1 + nu) * (1 - (2 : Nat) * nu))
  mu := e / ((2 : Nat) * (1 + nu))

end Elasto.Numeric
