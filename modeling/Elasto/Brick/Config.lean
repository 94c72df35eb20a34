import Elasto.Brick.Degradation
import Elasto.Code.Block
import Elasto.Numeric.Lame
import Elasto.Tensor.Subst

/-! # Hooke law configuration

What a Hooke brick resolves from its options: how the elasticity is given, whether it
evolves during the step, thermal expansion, plane stress support, the operators exposed to
solvers and the degradation. From it follow the expressions of the generated code: the
stress at mid step, the Lamé coefficients at each stage, the thermal strain increment. -/

namespace Elasto.Brick

open Elasto.Behaviour Elasto.Tensor Elasto.Code

/-- The elasticity: a Young modulus and a Poisson ratio, or a stiffness tensor that the
solver supplies. -/
inductive Representation (α : Type := Float) where
  | lame (young poisson : Scalar α)
  | stiffnessTensor

def Representation.name {α : Type} : Representation α → String
  | .lame _ _ => "lame"
  | .stiffnessTensor => "stiffness_tensor"

def Representation.isLame {α : Type} : Representation α → Bool
  | .lame _ _ => true
  | .stiffnessTensor => false

structure ThermalExpansion (α : Type := Float) where
  coefficient : Scalar α
  referenceTemperature : α

/-- How the stress of a step is computed, once a hook has said. -/
inductive StressPath where
  | stiffnessTensor
  | isotropic
  deriving DecidableEq, Repr

def StressPath.name : StressPath → String
  | .stiffnessTensor => "StiffnessTensor"
  | .isotropic => "Isotropic"

/-- A stiffness in the form the code uses: a tensor, or Lamé coefficients. -/
inductive Stiffness (α : Type := Float) where
  | tensor (c : Stensor4 α)
  | lame (lambda mu : Scalar α)

section

variable {α : Type} [Number α]

namespace Stiffness

/-- The stress of a strain: `C : e`, or `λ tr(e) I + 2μ e`. -/
def apply : Stiffness α → Stensor α → Stensor α
  | .tensor c, e => c * e
  | .lame l m, e => (l * Scalar.mkTrace e) * Stensor.identity + (Scalar.num 2 * m) * e

def toTensor : Stiffness α → Stensor4 α
  | .tensor c => c
  | .lame l m => Stensor4.isotropic l m

end Stiffness

/-- `λ` and `μ` of a Young modulus and a Poisson ratio; two constants are folded. -/
def lameCoefficients (e nu : Scalar α) : Scalar α × Scalar α :=
  match e, nu with
  | .const e, .const nu =>
    let l := Numeric.Lame.ofYoungPoisson e nu
    (.const l.lambda, .const l.mu)
  | _, _ =>
    let two := Scalar.num 2
    (Scalar.mkDiv (e * nu) ((Scalar.one + nu) * (Scalar.one - two * nu)),
      Scalar.mkDiv e (two * (Scalar.one + nu)))

end

/-- A statement `this->name = value;`. -/
def setMember {α : Type} (name : String) (value : Expr α) : Statement α :=
  .assign ⟨name, .member⟩ .set value

/-- A statement `name = value;` for a temporary. -/
def setTemp {α : Type} (name : String) (value : Expr α) : Statement α :=
  .assign ⟨name, .temporary⟩ .set value

structure Config (α : Type := Float) where
  representation : Representation α
  storage : Storage
  fieldDependent : Bool
  stateDependencies : List String
  thermalExpansion : Option (ThermalExpansion α)
  planeStress : Bool
  genericTangentOperator : Bool
  genericPredictionOperator : Bool
  degradation : Degradation α
  implicit : Bool
  /-- The evolving variables the elastic properties involve, with their category. -/
  evolving : List (String × Category)

namespace Config

section

variable {α : Type} [Number α]

/-- The weight of the increment at mid step: `θ` in implicit schemes, else zero. -/
def weight (c : Config α) : Scalar α := if c.implicit then Scalar.member thetaName else Scalar.zero

/-- An expression with the evolving variables taken at a stage: at mid step each `x`
becomes `x + θ Δx`; at the end of the step only external variables move, to `x + Δx`. -/
def atStage (c : Config α) (e : Scalar α) (stage : Stage) : Scalar α :=
  c.evolving.foldl (fun out (name, category) =>
    let x := Scalar.member name
    let dx := Scalar.member (increment name)
    match stage, category with
    | .beginningOfStep, _ => out
    | .midStep, _ => out.substScalar name (x + c.weight * dx)
    | .endOfStep, .externalStateVariable => out.substScalar name (x + dx)
    | .endOfStep, _ => out) e

/-- The Lamé coefficients at a stage, when the elasticity is given by properties. -/
def lame (c : Config α) (stage : Stage) : Option (Scalar α × Scalar α) :=
  match c.representation with
  | .lame young poisson => some (lameCoefficients (c.atStage young stage) (c.atStage poisson stage))
  | .stiffnessTensor => none

/-- The Ident.stiffness held in members of the behaviour. -/
def memberStiffness (c : Config α) : Stiffness α :=
  match c.representation with
  | .lame _ _ => .lame (Scalar.member Ident.lambda) (Scalar.member Ident.mu)
  | .stiffnessTensor => .tensor (Stensor4.member Ident.stiffness)

/-- `x + θ Δx` for a tensor member. -/
def midStep (c : Config α) (name : String) : Stensor α :=
  Stensor.member name + c.weight * Stensor.member (increment name)

def degradationFactor (c : Config α) (stage : Stage) : Scalar α :=
  c.degradation.factor stage c.weight

/-- The stress at mid step as the stress derivatives see it: members for the stiffness. -/
def midStepStress (c : Config α) : Stensor α :=
  c.degradationFactor .midStep * (c.memberStiffness.toTensor * c.midStep Ident.elasticStrain)

/-- The stress at mid step with evolving elastic properties written out. -/
def explicitMidStepStress (c : Config α) : Stensor α :=
  let s := match c.lame .midStep with
    | some (l, m) => if c.fieldDependent then Stiffness.lame l m else c.memberStiffness
    | none => c.memberStiffness
  c.degradationFactor .midStep * (s.toTensor * c.midStep Ident.elasticStrain)

/-- `α(t + Δt) (T + ΔT - T₀) - α(t) (T - T₀)`. -/
def thermalStrain (c : Config α) : Option (Scalar α) := do
  let th ← c.thermalExpansion
  let t := Scalar.member temperatureName
  let dt := Scalar.member (increment temperatureName)
  let tref := Scalar.const th.referenceTemperature
  let ets := c.atStage th.coefficient .endOfStep
  let bts := c.atStage th.coefficient .beginningOfStep
  pure (ets * (t + dt - tref) - bts * (t - tref))

/-- The stiffness at the beginning of the step: evolving Lamé coefficients are computed
into temporaries by statements added to the block. -/
def beginningOfStepStiffness (c : Config α) (b : Block α) : Block α × Stiffness α :=
  match c.lame .beginningOfStep with
  | some (l, m) =>
    if c.fieldDependent then
      ((b.push (.define Ident.lambdaBeginningOfStep (.scalar l))).push
          (.define Ident.muBeginningOfStep (.scalar m)),
        .lame (Scalar.temp Ident.lambdaBeginningOfStep) (Scalar.temp Ident.muBeginningOfStep))
    else (b, c.memberStiffness)
  | none => (b, c.memberStiffness)

/-- The statements computing the degraded stress of a strain. With `scratch` the factor is
computed into a temporary first. -/
def degradedStress (c : Config α) (stage : Stage) (s : Stiffness α) (e : Stensor α)
    (scratch : Bool) : List (Statement α) :=
  match c.degradation with
  | .none => [setMember Ident.stress (.stensor (s.apply e))]
  | .isotropic _ _ =>
    if scratch then
      [setTemp Ident.degradationFactor (.scalar (c.degradationFactor stage)),
        setMember Ident.stress (.stensor (Scalar.temp Ident.degradationFactor * s.apply e))]
    else [setMember Ident.stress (.stensor (c.degradationFactor stage * s.apply e))]

/-- The statements setting the Lamé coefficient members once, before the step, when the
elastic properties do not evolve during it. -/
def initialLame (c : Config α) : List (Statement α) :=
  match c.lame .beginningOfStep with
  | some (l, m) =>
    if c.fieldDependent then [] else [setMember Ident.lambda (.scalar l), setMember Ident.mu (.scalar m)]
  | none => []

/-- The statement computing the stiffness tensor `D` once from the members. -/
def storedStiffness (c : Config α) : Statement α :=
  setMember Ident.stiffness (.stensor4 c.memberStiffness.toTensor)

/-- The elastic strain a stress is computed from: `eel + θ Δeel` at mid step, and the
elastic strain itself, already updated, at the end of the step. -/
def strainAt (c : Config α) (stage : Stage) : Stensor α :=
  if stage = .midStep then c.midStep Ident.elasticStrain else Stensor.member Ident.elasticStrain

/-- The statements of the stress through the stiffness tensor `D` stored once. -/
def tensorStress (c : Config α) (stage : Stage) : List (Statement α) :=
  c.degradedStress stage (.tensor (Stensor4.member Ident.stiffness)) (c.strainAt stage) false

/-- The statements of the stress by the isotropic law, given the Lamé coefficients `l`, `m`
at the stage. Evolving coefficients are stored first: in the members at mid step, in
temporaries at the end of the step; otherwise the members hold them already. -/
def isotropicStress (c : Config α) (stage : Stage) (l m : Scalar α) : List (Statement α) :=
  let (coefficients, s) : List (Statement α) × Stiffness α :=
    if !c.fieldDependent then ([], c.memberStiffness)
    else if stage = .midStep then
      ([setMember Ident.lambda (.scalar l), setMember Ident.mu (.scalar m)], c.memberStiffness)
    else
      ([setTemp Ident.lambdaEndOfStep (.scalar l), setTemp Ident.muEndOfStep (.scalar m)],
        .lame (Scalar.temp Ident.lambdaEndOfStep) (Scalar.temp Ident.muEndOfStep))
  coefficients ++ c.degradedStress stage s (c.strainAt stage) true

end

/-- The integrator: the elastic strain residual, less the thermal strain and, under plane
stress, the axial strain. -/
def integratorBlock (c : Config) (origin : String) : Block :=
  let feel : Symbol := ⟨"f" ++ Ident.elasticStrain, .member⟩
  let b : Block := { origin, statements :=
    [.assign feel .subAssign (.stensor (Stensor.member Ident.totalStrainIncrement))] }
  let b := match c.thermalStrain with
    | some dets =>
      (b.push (.define Ident.thermalStrainIncrement (.scalar dets))).push
        (.assign feel .addAssign (.stensor (Scalar.temp Ident.thermalStrainIncrement * Stensor.identity)))
    | none => b
  match c.planeStress, c.representation with
  | true, .lame young _ =>
    let young := c.atStage young .midStep
    [Statement.raw "if (hypothesis == ModellingHypothesis::PLANESTRESS) \x7b",
      .raw ("  this->f" ++ Ident.elasticStrain ++ "(2) -= this->" ++ increment Ident.axialStrain ++ ";"),
      .raw ("  this->f" ++ Ident.axialStrain ++ " = this->" ++ Ident.stress ++ "(2) / (" ++ young.render ++ ");"),
      .raw "\x7d"].foldl Block.push b
  | _, _ => b

end Config

end Elasto.Brick
