import Elasto.Tensor.Build
import Elasto.Tensor.Symbols
import Elasto.Tensor.Error

/-! # Symbolic differentiation

`dScalar x e` is the derivative of `e` with respect to the scalar symbol `x`, of the same
kind as `e`; `dStensor v e` is the derivative with respect to the second-order symbol `v`,
one order higher. The rules are the sum, product, quotient, power and chain rules, with
the results made by the folding builders. Two cases are refused: `min` with an operand
that depends on the variable, and `C : t` with `C` depending on `v`. Operands are
differentiated left to right, so the first refusal met is the one reported. -/

namespace Elasto.Tensor

variable {α : Type} [Number α]

/-- The derivative of a function at `a`. -/
def Fn.deriv (f : Fn) (a : Scalar α) : Scalar α :=
  match f with
  | .exp => Scalar.mkCall .exp a
  | .log => Scalar.mkDiv Scalar.one a
  | .sqrt => Scalar.mkDiv Scalar.one (Scalar.mkMul (Scalar.num 2) (Scalar.mkCall .sqrt a))

mutual

def Scalar.dScalar (x : String) (e : Scalar α) : Except ExprError (Scalar α) :=
  match e with
  | .const _ => pure Scalar.zero
  | .sym s => pure (if s.name = x then Scalar.one else Scalar.zero)
  | .neg a => do pure (Scalar.mkNeg (← Scalar.dScalar x a))
  | .add a b => do
    let da ← Scalar.dScalar x a
    let db ← Scalar.dScalar x b
    pure (Scalar.mkAdd da db)
  | .sub a b => do
    let da ← Scalar.dScalar x a
    let db ← Scalar.dScalar x b
    pure (Scalar.mkSub da db)
  | .mul a b => do
    let da ← Scalar.dScalar x a
    let db ← Scalar.dScalar x b
    pure (Scalar.mkAdd (Scalar.mkMul da b) (Scalar.mkMul a db))
  | .div a b => do
    let da ← Scalar.dScalar x a
    let db ← Scalar.dScalar x b
    pure (Scalar.mkSub (Scalar.mkDiv da b) (Scalar.mkDiv (Scalar.mkMul a db) (Scalar.mkMul b b)))
  | .pow a b => do
    let da ← Scalar.dScalar x a
    let db ← Scalar.dScalar x b
    let powerRule := Scalar.mkMul (Scalar.mkMul b (Scalar.mkPow a (Scalar.mkSub b Scalar.one))) da
    if db.isZero then pure powerRule
    else pure (Scalar.mkAdd powerRule
      (Scalar.mkMul (Scalar.mkMul (Scalar.mkPow a b) (Scalar.mkCall .log a)) db))
  | .min a b => do
    let da ← Scalar.dScalar x a
    if da.isZero then
      let db ← Scalar.dScalar x b
      if db.isZero then pure Scalar.zero else throw (.unsupported .minOfDependent)
    else throw (.unsupported .minOfDependent)
  | .call f a => do pure (Scalar.mkMul (f.deriv a) (← Scalar.dScalar x a))
  | .trace t => do pure (Scalar.mkTrace (← Stensor.dScalar x t))
  | .contract t u => do
    let dt ← Stensor.dScalar x t
    let du ← Stensor.dScalar x u
    pure (Scalar.mkAdd (Scalar.mkContract dt u) (Scalar.mkContract t du))

def Stensor.dScalar (x : String) (e : Stensor α) : Except ExprError (Stensor α) :=
  match e with
  | .zero | .identity | .sym _ => pure .zero
  | .neg t => do pure (Stensor.mkNeg (← Stensor.dScalar x t))
  | .add t u => do
    let dt ← Stensor.dScalar x t
    let du ← Stensor.dScalar x u
    pure (Stensor.mkAdd dt du)
  | .sub t u => do
    let dt ← Stensor.dScalar x t
    let du ← Stensor.dScalar x u
    pure (Stensor.mkSub dt du)
  | .scale s t => do
    let ds ← Scalar.dScalar x s
    let dt ← Stensor.dScalar x t
    pure (Stensor.mkAdd (Stensor.mkScale ds t) (Stensor.mkScale s dt))
  | .apply c t => do
    let dc ← Stensor4.dScalar x c
    let dt ← Stensor.dScalar x t
    pure (Stensor.mkAdd (Stensor.mkApply dc t) (Stensor.mkApply c dt))

def Stensor4.dScalar (x : String) (e : Stensor4 α) : Except ExprError (Stensor4 α) :=
  match e with
  | .zero | .id | .ixi | .sym _ => pure .zero
  | .neg c => do pure (Stensor4.mkNeg (← Stensor4.dScalar x c))
  | .add c d => do
    let dc ← Stensor4.dScalar x c
    let dd ← Stensor4.dScalar x d
    pure (Stensor4.mkAdd dc dd)
  | .sub c d => do
    let dc ← Stensor4.dScalar x c
    let dd ← Stensor4.dScalar x d
    pure (Stensor4.mkSub dc dd)
  | .scale s c => do
    let ds ← Scalar.dScalar x s
    let dc ← Stensor4.dScalar x c
    pure (Stensor4.mkAdd (Stensor4.mkScale ds c) (Stensor4.mkScale s dc))
  | .product c d => do
    let dc ← Stensor4.dScalar x c
    let dd ← Stensor4.dScalar x d
    pure (Stensor4.mkAdd (Stensor4.mkProduct dc d) (Stensor4.mkProduct c dd))
  | .outer t u => do
    let dt ← Stensor.dScalar x t
    let du ← Stensor.dScalar x u
    pure (Stensor4.mkAdd (Stensor4.mkOuter dt u) (Stensor4.mkOuter t du))
  | .transpose c => do pure (Stensor4.mkTranspose (← Stensor4.dScalar x c))

end

mutual

/-- The gradient of a scalar with respect to a second-order symbol. -/
def Scalar.dStensor (v : String) (e : Scalar α) : Except ExprError (Stensor α) :=
  match e with
  | .const _ | .sym _ => pure .zero
  | .neg a => do pure (Stensor.mkNeg (← Scalar.dStensor v a))
  | .add a b => do
    let ga ← Scalar.dStensor v a
    let gb ← Scalar.dStensor v b
    pure (Stensor.mkAdd ga gb)
  | .sub a b => do
    let ga ← Scalar.dStensor v a
    let gb ← Scalar.dStensor v b
    pure (Stensor.mkSub ga gb)
  | .mul a b => do
    let ga ← Scalar.dStensor v a
    let gb ← Scalar.dStensor v b
    pure (Stensor.mkAdd (Stensor.mkScale b ga) (Stensor.mkScale a gb))
  | .div a b => do
    let ga ← Scalar.dStensor v a
    let gb ← Scalar.dStensor v b
    pure (Stensor.mkSub (Stensor.mkScale (Scalar.mkDiv Scalar.one b) ga)
      (Stensor.mkScale (Scalar.mkDiv a (Scalar.mkMul b b)) gb))
  | .pow a b => do
    let ga ← Scalar.dStensor v a
    let powerRule :=
      Stensor.mkScale (Scalar.mkMul b (Scalar.mkPow a (Scalar.mkSub b Scalar.one))) ga
    let gb ← Scalar.dStensor v b
    if gb.isZero then pure powerRule
    else pure (Stensor.mkAdd powerRule
      (Stensor.mkScale (Scalar.mkMul (Scalar.mkPow a b) (Scalar.mkCall .log a)) gb))
  | .min a b => do
    let ga ← Scalar.dStensor v a
    if ga.isZero then
      let gb ← Scalar.dStensor v b
      if gb.isZero then pure .zero else throw (.unsupported .minOfDependent)
    else throw (.unsupported .minOfDependent)
  | .call f a => do pure (Stensor.mkScale (f.deriv a) (← Scalar.dStensor v a))
  | .trace t => do
    pure (Stensor.mkApply (Stensor4.mkTranspose (← Stensor.dStensor v t)) .identity)
  | .contract t u => do
    let gt ← Stensor.dStensor v t
    let gu ← Stensor.dStensor v u
    pure (Stensor.mkAdd (Stensor.mkApply (Stensor4.mkTranspose gt) u)
      (Stensor.mkApply (Stensor4.mkTranspose gu) t))

/-- The derivative of a second-order tensor with respect to a second-order symbol. -/
def Stensor.dStensor (v : String) (e : Stensor α) : Except ExprError (Stensor4 α) :=
  match e with
  | .zero | .identity => pure .zero
  | .sym s => pure (if s.name = v then .id else .zero)
  | .neg t => do pure (Stensor4.mkNeg (← Stensor.dStensor v t))
  | .add t u => do
    let gt ← Stensor.dStensor v t
    let gu ← Stensor.dStensor v u
    pure (Stensor4.mkAdd gt gu)
  | .sub t u => do
    let gt ← Stensor.dStensor v t
    let gu ← Stensor.dStensor v u
    pure (Stensor4.mkSub gt gu)
  | .scale s t => do
    let gt ← Stensor.dStensor v t
    let gs ← Scalar.dStensor v s
    pure (Stensor4.mkAdd (Stensor4.mkScale s gt) (Stensor4.mkOuter t gs))
  | .apply c t =>
    if c.dependsOn v then throw (.unsupported .dependentStiffness)
    else do pure (Stensor4.mkProduct c (← Stensor.dStensor v t))

end

/-- The derivative of an expression of any kind with respect to a scalar symbol. -/
def Expr.dScalar (x : String) : Expr α → Except ExprError (Expr α)
  | .scalar e => .scalar <$> e.dScalar x
  | .stensor e => .stensor <$> e.dScalar x
  | .stensor4 e => .stensor4 <$> e.dScalar x

end Elasto.Tensor
