import Elasto.Brick.State
import Elasto.Tensor.Deriv
import Elasto.Behaviour.Types

/-! # Stress derivatives

The derivatives of the mid-step stress with respect to the increments of the integration
variables it depends on: the elastic strain, the damage, and the state variables the
elastic properties involve, the last through the chain rule on the Lamé coefficients. -/

namespace Elasto.Brick

open Elasto.Behaviour Elasto.Tensor

/-- `∂σ/∂Δv` for one integration variable `v`. -/
structure DerivativeEntry (α : Type := Float) where
  variable_ : String
  expression : Expr α
  flag : TypeFlag

namespace DerivativeEntry

/-- The rank of the derivative: two for the stress, plus the rank of the variable. -/
def rank {α : Type} (e : DerivativeEntry α) : Nat := 2 + e.flag.rank

def display (e : DerivativeEntry) : String :=
  "dsig_dd" ++ e.variable_ ++ " = " ++ e.expression.render

end DerivativeEntry

namespace Config

variable {α : Type} [Number α]

/-- `∂σ/∂Δx` through the Lamé coefficients, by the chain rule: zero unless the elastic
properties involve the state variable `x`. -/
def throughProperties (c : Config α) (sigma : Stensor α) (x : String) :
    Except BrickError (Stensor α) :=
  if !c.stateDependencies.contains x then pure .zero else
  match c.lame .midStep with
  | none => pure .zero
  | some (l, m) => do
    let dx := increment x
    let dl ← liftExpr (l.dScalar dx)
    let sl ← liftExpr (sigma.dScalar Ident.lambda)
    let dm ← liftExpr (m.dScalar dx)
    let sm ← liftExpr (sigma.dScalar Ident.mu)
    pure (dl * sl + dm * sm)

/-- The stress derivatives of a configuration, taken on the mid-step stress: the elastic
strain first, then the damage variable, then the other state variables the elastic
properties involve, each flagged by its type in the description. -/
def derivativeEntries (c : Config α) (d : Description) :
    Except BrickError (List (DerivativeEntry α)) := do
  let sigma := c.midStepStress
  let through := c.throughProperties sigma
  let eel ← liftExpr (sigma.dStensor (increment Ident.elasticStrain))
  let first : DerivativeEntry α := ⟨Ident.elasticStrain, .stensor4 eel, .stensor⟩
  let damage := c.degradation.damage?
  let damaged ← match damage with
    | some v => do
      let a ← liftExpr (sigma.dScalar (increment v))
      let t ← through v
      pure [(⟨v, .stensor (a + t), .scalar⟩ : DerivativeEntry α)]
    | none => pure []
  let rest ← (c.stateDependencies.filter (some · != damage)).mapM fun x => do
    let flag := ((d.declared? x).bind fun (_, v) => v.type.flag).getD .scalar
    let t ← through x
    pure (⟨x, .stensor t, flag⟩ : DerivativeEntry α)
  pure (first :: damaged ++ rest)

end Config

/-- The stress derivatives of an initialized brick. -/
def stressDerivatives (b : Brick) (d : Description) :
    Except BrickError (List DerivativeEntry) := do
  b.tracker.requireInitialized "stress_derivatives"
  let c ← b.getConfig
  c.derivativeEntries d

end Elasto.Brick
