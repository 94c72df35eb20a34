/-! # Tensor expressions

Symbolic expressions of the three kinds met in small-strain mechanics: scalars, symmetric
second-order tensors (`Stensor`) and fourth-order tensors acting on them (`Stensor4`). The
constructors are the plain syntax; the folding builders of `Elasto.Tensor.Build` are how
expressions are normally made. Constants are doubles unless another type of numbers is
named. -/

namespace Elasto.Tensor

/-- Where a symbol lives in generated code: a member of the behaviour, written
`this->name`, or a temporary of the current block, written bare. -/
inductive Scope where
  | member
  | temporary
  deriving DecidableEq, Repr

/-- A named quantity of generated code. -/
structure Symbol where
  name : String
  scope : Scope
  deriving DecidableEq, Repr

/-- The lesser of two doubles; a NaN operand gives way to the other, and of two equal
operands, such as two zeros of either sign, the second is taken. -/
def minNum (x y : Float) : Float :=
  if x.isNaN then y else if y.isNaN then x
  else if x < y then x else y

/-- The numbers expressions hold and evaluate to. Generated code computes with doubles,
which is the default everywhere; the theory of derivatives takes the real numbers. The
folding builders test constants with `isZero` and `isOne`. -/
class Number (α : Type) extends Zero α, One α, NatCast α, Add α, Sub α, Mul α, Div α, Neg α where
  isZero : α → Bool
  isOne : α → Bool
  pow : α → α → α
  /-- The lesser of two numbers, as `min` of generated code takes it. -/
  min : α → α → α
  exp : α → α
  log : α → α
  sqrt : α → α

instance : Number Float where
  zero := 0
  one := 1
  natCast := Float.ofNat
  isZero x := x == 0
  isOne x := x == 1
  pow := Float.pow
  min := minNum
  exp := Float.exp
  log := Float.log
  sqrt := Float.sqrt

/-- The elementary functions of scalar expressions. -/
inductive Fn where
  | exp
  | log
  | sqrt
  deriving DecidableEq, Repr

/-- The name of a function in generated code and formulas. -/
def Fn.name : Fn → String
  | .exp => "exp"
  | .log => "log"
  | .sqrt => "sqrt"

/-- The value of a function: the exponential, the natural logarithm or the square root. -/
def Fn.apply {α : Type} [Number α] : Fn → α → α
  | .exp, x => Number.exp x
  | .log, x => Number.log x
  | .sqrt, x => Number.sqrt x

mutual

/-- Scalar expressions over numbers `α`. -/
inductive Scalar (α : Type := Float) where
  | const (v : α)
  | sym (s : Symbol)
  | neg (a : Scalar α)
  | add (a b : Scalar α)
  | sub (a b : Scalar α)
  | mul (a b : Scalar α)
  | div (a b : Scalar α)
  | pow (a b : Scalar α)
  | min (a b : Scalar α)
  | call (f : Fn) (a : Scalar α)
  /-- Sum of the diagonal components. -/
  | trace (t : Stensor α)
  /-- Double contraction `t : u`. -/
  | contract (t u : Stensor α)

/-- Symmetric second-order tensor expressions. -/
inductive Stensor (α : Type := Float) where
  | zero
  | identity
  | sym (s : Symbol)
  | neg (t : Stensor α)
  | add (t u : Stensor α)
  | sub (t u : Stensor α)
  | scale (s : Scalar α) (t : Stensor α)
  /-- A fourth-order tensor applied to a second-order one. -/
  | apply (c : Stensor4 α) (t : Stensor α)

/-- Fourth-order tensor expressions on symmetric tensors. -/
inductive Stensor4 (α : Type := Float) where
  | zero
  /-- The identity on symmetric tensors. -/
  | id
  /-- `I ⊗ I`, the outer product of the second-order identity with itself. -/
  | ixi
  | sym (s : Symbol)
  | neg (c : Stensor4 α)
  | add (c d : Stensor4 α)
  | sub (c d : Stensor4 α)
  | scale (s : Scalar α) (c : Stensor4 α)
  | product (c d : Stensor4 α)
  | outer (t u : Stensor α)
  | transpose (c : Stensor4 α)

end

/-- The kind of an expression or a value. -/
inductive Kind where
  | scalar
  | stensor
  | stensor4
  deriving DecidableEq, Repr

/-- The name of a kind in messages. -/
def Kind.name : Kind → String
  | .scalar => "scalar"
  | .stensor => "stensor"
  | .stensor4 => "stensor4"

/-- An expression of any kind. -/
inductive Expr (α : Type := Float) where
  | scalar (e : Scalar α)
  | stensor (e : Stensor α)
  | stensor4 (e : Stensor4 α)

/-- The kind of an expression. -/
def Expr.kind {α : Type} : Expr α → Kind
  | .scalar _ => .scalar
  | .stensor _ => .stensor
  | .stensor4 _ => .stensor4

end Elasto.Tensor
