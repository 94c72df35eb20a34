import Elasto.Tensor.Expr
import Elasto.Float64.Text

/-! # Generated-code text of expressions

Expressions are written in the syntax of the generated behaviour code. An operand is put
in parentheses exactly when it binds weaker than its position asks: the right operand of
`+` and `-` must bind at least like a product, the right operand of `*` and `/` at least
like a sign, and a signed operand like an atom. -/

namespace Elasto.Tensor

/-- Binding strengths: sums, products, signs, atoms. -/
def Prec.additive : Nat := 1
def Prec.multiplicative : Nat := 2
def Prec.unary : Nat := 3
def Prec.atom : Nat := 4

/-- Text of an operand of strength `p` at a position asking for `min`. -/
def operand (text : String) (p min : Nat) : String :=
  if p < min then "(" ++ text ++ ")" else text

/-- `this->name` for a member, the bare name for a temporary. -/
def Symbol.render (s : Symbol) : String :=
  match s.scope with
  | .member => "this->" ++ s.name
  | .temporary => s.name

/-- How strongly the top node of a scalar binds; a negative constant counts as signed. -/
def Scalar.prec : Scalar → Nat
  | .const v => if v < 0 then Prec.unary else Prec.atom
  | .add .. | .sub .. => Prec.additive
  | .mul .. | .div .. => Prec.multiplicative
  | .neg _ => Prec.unary
  | _ => Prec.atom

def Stensor.prec : Stensor → Nat
  | .add .. | .sub .. => Prec.additive
  | .scale .. | .apply .. => Prec.multiplicative
  | .neg _ => Prec.unary
  | _ => Prec.atom

def Stensor4.prec : Stensor4 → Nat
  | .add .. | .sub .. => Prec.additive
  | .scale .. | .product .. => Prec.multiplicative
  | .neg _ => Prec.unary
  | _ => Prec.atom

/-- `a op b` for a left-associative infix operator of strength `p`. -/
def infixText (a : String) (pa : Nat) (op : String) (b : String) (pb p : Nat) : String :=
  operand a pa p ++ op ++ operand b pb (p + 1)

mutual

def Scalar.render : Scalar → String
  | .const v => Float64.constant v
  | .sym s => s.render
  | .neg a => "-" ++ operand a.render a.prec Prec.atom
  | .add a b => infixText a.render a.prec " + " b.render b.prec Prec.additive
  | .sub a b => infixText a.render a.prec " - " b.render b.prec Prec.additive
  | .mul a b => infixText a.render a.prec " * " b.render b.prec Prec.multiplicative
  | .div a b => infixText a.render a.prec " / " b.render b.prec Prec.multiplicative
  | .pow a b => "pow(" ++ a.render ++ ", " ++ b.render ++ ")"
  | .min a b => "std::min(" ++ a.render ++ ", " ++ b.render ++ ")"
  | .call f a => f.name ++ "(" ++ a.render ++ ")"
  | .trace t => "trace(" ++ t.render ++ ")"
  | .contract t u =>
    "(" ++ operand t.render t.prec Prec.atom ++ " | " ++ operand u.render u.prec Prec.atom ++ ")"

def Stensor.render : Stensor → String
  | .zero => "Stensor(real(0))"
  | .identity => "Stensor::Id()"
  | .sym s => s.render
  | .neg t => "-" ++ operand t.render t.prec Prec.atom
  | .add t u => infixText t.render t.prec " + " u.render u.prec Prec.additive
  | .sub t u => infixText t.render t.prec " - " u.render u.prec Prec.additive
  | .scale s t => infixText s.render s.prec " * " t.render t.prec Prec.multiplicative
  | .apply c t => infixText c.render c.prec " * " t.render t.prec Prec.multiplicative

def Stensor4.render : Stensor4 → String
  | .zero => "Stensor4(real(0))"
  | .id => "Stensor4::Id()"
  | .ixi => "Stensor4::IxI()"
  | .sym s => s.render
  | .neg c => "-" ++ operand c.render c.prec Prec.atom
  | .add c d => infixText c.render c.prec " + " d.render d.prec Prec.additive
  | .sub c d => infixText c.render c.prec " - " d.render d.prec Prec.additive
  | .scale s c => infixText s.render s.prec " * " c.render c.prec Prec.multiplicative
  | .product c d => infixText c.render c.prec " * " d.render d.prec Prec.multiplicative
  | .outer t u => "((" ++ t.render ++ ") ^ (" ++ u.render ++ "))"
  | .transpose c => "transpose(" ++ c.render ++ ")"

end

def Expr.render : Expr → String
  | .scalar e => e.render
  | .stensor e => e.render
  | .stensor4 e => e.render

end Elasto.Tensor
