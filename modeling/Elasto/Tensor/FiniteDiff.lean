import Elasto.Tensor.Eval

/-! # Central differences

Numerical derivatives of a second-order expression, to check symbolic ones against. The
step for a component `x` is `ε · max(|x|, 1)`, and the derivative is
`(f(x + h) - f(x - h)) / (2h)`, refused when a component is not finite. -/

namespace Elasto.Tensor

open Elasto.Mandel Elasto.Numeric

/-- The step for a component of value `x`. -/
def fdStep (epsilon x : Float) : Float := epsilon * maxNum x.abs 1.0

/-- `(plus - minus) / (2h)`, component by component. -/
def centralQuotient (plus minus : Vec6) (h : Float) : Vec6 :=
  Vector.ofFn fun i => (plus.get i - minus.get i) / (2.0 * h)

/-- Every component finite, checked in order. -/
def checkFinite (v : Vec6) : Except ExprError Vec6 := do
  for x in v.toList do
    match ensureFinite x "finite difference" with
    | .ok _ => pure ()
    | .error e => throw (.numeric e)
  pure v

def liftNumeric {α : Type} (r : Except NumericError α) : Except ExprError α :=
  match r with
  | .ok a => .ok a
  | .error e => .error (.numeric e)

/-- The derivative of `e` with respect to the scalar `x` of the environment. -/
def fdScalar (e : Stensor) (env : Env) (x : String) (epsilon : Float) : Except ExprError Vec6 := do
  let _ ← liftNumeric (ensurePositive epsilon "finite difference step")
  let x0 ← match env.get? x with
    | some (.scalar v) => pure v
    | some v => throw (.typeMismatch x .scalar v.kind)
    | none => throw (.unbound x)
  let h := fdStep epsilon x0
  let plus ← e.eval (env.set x (.scalar (x0 + h)))
  let minus ← e.eval (env.set x (.scalar (x0 - h)))
  checkFinite (centralQuotient plus minus h)

/-- Column `j` of the derivative with respect to the second-order `v`, whose value is `v0`. -/
def fdColumn (e : Stensor) (env : Env) (v : String) (epsilon : Float) (v0 : Vec6) (j : Fin 6) :
    Except ExprError Vec6 := do
  let h := fdStep epsilon (v0.get j)
  let plus ← e.eval (env.set v (.stensor (Vec6.setComponent v0 j (v0.get j + h))))
  let minus ← e.eval (env.set v (.stensor (Vec6.setComponent v0 j (v0.get j - h))))
  checkFinite (centralQuotient plus minus h)

/-- The derivative of `e` with respect to the second-order `v` of the environment, column
by column. -/
def fdStensor (e : Stensor) (env : Env) (v : String) (epsilon : Float) : Except ExprError Mat6 := do
  let _ ← liftNumeric (ensurePositive epsilon "finite difference step")
  let v0 ← match env.get? v with
    | some (.stensor s) => pure s
    | some w => throw (.typeMismatch v .stensor w.kind)
    | none => throw (.unbound v)
  let cols ← (List.finRange 6).mapM (fdColumn e env v epsilon v0)
  let cols : Vector Vec6 6 :=
    if h : cols.length = 6 then ⟨cols.toArray, by simp [h]⟩ else Mat6.zero
  pure (Mat6.transpose cols)

end Elasto.Tensor
