import Elasto.Brick.Derivatives

/-! # Jacobian blocks of implicit equations

An implicit equation `f<x>` whose residual depends on the stress gets, for each variable
`v` the stress depends on, `df<x>_dd<v> += (∂f<x>/∂σ) (∂σ/∂Δv)`. The second factor is
the stress derivative, written out, or computed by central differences in the generated
code. -/

namespace Elasto.Brick

open Elasto.Behaviour Elasto.Tensor

inductive JacobianMode where
  | analytical
  | numerical (epsilon : Float)

/-- The code adding the stress contribution to the Jacobian block of `equation` and
`target`; empty when the stress does not depend on `target`. -/
def equationDerivative (d : Description) (entries : List DerivativeEntry) (stress : Stensor)
    (equation target placeholder : String) (mode : JacobianMode) : Except BrickError String := do
  let some residual := d.residualVariable? equation
    | throw (.configuration equation "no integration variable has this residual")
  let some entry := entries.find? (·.variable_ == target)
    | pure ""
  let dv := increment target
  let block := "d" ++ equation ++ "_d" ++ dv
  let op := if residual.type.isScalar && entry.flag == .scalar then "|" else "*"
  let contribution (value : String) : String :=
    block ++ " += (" ++ placeholder ++ ") " ++ op ++ " (" ++ value ++ ");"
  match mode with
  | .analytical => pure (contribution entry.expression.render)
  | .numerical epsilon =>
    let epsilon ← match Numeric.ensurePositive epsilon "finite difference step" with
      | .ok e => pure e
      | .error e => throw (.configuration "epsilon" e.message)
    let head := ["\x7b", "  const real nd_epsilon = " ++ Float64.general epsilon ++ ";"]
    let body := if entry.flag == .scalar then
        let eps := Scalar.temp "nd_epsilon"
        let x := Scalar.member dv
        let plus := stress.substScalar dv (x + eps)
        let minus := stress.substScalar dv (x - eps)
        ["  const auto sig_p = " ++ plus.render ++ ";",
          "  const auto sig_m = " ++ minus.render ++ ";",
          "  const auto nd_dsig = (sig_p - sig_m) / (2 * nd_epsilon);"]
      else
        let p := dv ++ "_p"
        let m := dv ++ "_m"
        let plus := stress.substStensor dv (Stensor.temp p)
        let minus := stress.substStensor dv (Stensor.temp m)
        ["  StiffnessTensor nd_dsig;",
          "  for (unsigned short i = 0; i != StensorSize; ++i) \x7b",
          "    auto " ++ p ++ " = this->" ++ dv ++ ";",
          "    auto " ++ m ++ " = this->" ++ dv ++ ";",
          "    " ++ p ++ "[i] += nd_epsilon;",
          "    " ++ m ++ "[i] -= nd_epsilon;",
          "    const auto sig_p = " ++ plus.render ++ ";",
          "    const auto sig_m = " ++ minus.render ++ ";",
          "    for (unsigned short j = 0; j != StensorSize; ++j) \x7b",
          "      nd_dsig(j, i) = (sig_p(j) - sig_m(j)) / (2 * nd_epsilon);",
          "    \x7d",
          "  \x7d"]
    pure ("\n".intercalate (head ++ body ++ ["  " ++ contribution "nd_dsig", "\x7d"]))

/-- The Jacobian code of an initialized brick for an equation and a variable. -/
def equationDerivatives (b : Brick) (d : Description)
    (equation target placeholder : String) (mode : JacobianMode) : Except BrickError String := do
  b.tracker.requireInitialized "generate_implicit_equation_derivatives"
  let entries ← b.stressDerivatives d
  let c ← b.getConfig
  equationDerivative d entries c.explicitMidStepStress equation target placeholder mode

end Elasto.Brick
