import Elasto.Brick.Initialize

/-! # Hooks

The hooks through which an initialized brick adds its code: the elastic prediction, the
stress by a stored stiffness tensor or by the isotropic law, and the tangent and
prediction operators exposed to solvers. Each hook runs at most once; `finalize` runs
them in order, choosing the stress computation by the stiffness storage. -/

namespace Elasto.Brick

open Elasto.Behaviour Elasto.Tensor Elasto.Code

/-- The brick's configuration, once the hook may run. -/
def Build.enter (h : Hook) : Build (Brick × Config) := do
  let b ← Build.brick
  Build.ofExcept (b.tracker.checkHook h)
  let c ← Build.ofExcept b.getConfig
  pure (b, c)

/-- Marks the hook done, with the stress path it chose if any. -/
def Build.complete (h : Hook) (path : Option StressPath := none) : Build Unit := do
  let b ← Build.brick
  let stressPath := if path.isSome then path else b.stressPath
  Build.setBrick { b with tracker := b.tracker.complete h, stressPath := stressPath }

/-- The stress of the elastic prediction, at the beginning of the step with the total
strain increment, less the thermal strain. -/
def declareElasticPrediction : Build Unit := do
  let (b, c) ← Build.enter .elasticPrediction
  let (block, s) := c.beginningOfStepStiffness { origin := b.origin }
  let strain := Stensor.member Ident.elasticStrain + Stensor.member Ident.totalStrainIncrement
  let (block, strain) := match c.thermalStrain with
    | some dets =>
      (block.push (.define Ident.thermalStrainIncrement (.scalar dets)),
        strain - Scalar.temp Ident.thermalStrainIncrement * Stensor.identity)
    | none => (block, strain)
  let block := block.push
    (setMember Ident.stress (.stensor (c.degradationFactor .beginningOfStep * s.apply strain)))
  Build.appendBlock .computeElasticPrediction block
  Build.complete .elasticPrediction

/-- The stress through a stiffness tensor stored once; it needs constant storage. -/
def declareStressWithStiffnessTensor : Build Unit := do
  let (b, c) ← Build.enter .stressWithStiffnessTensor
  if c.storage != .constant then
    throw (.configuration Opt.stiffnessTensorStorage
      "the stiffness tensor stress computation requires constant storage")
  if c.representation.isLame then
    Build.edit (declareIfAbsent · .localVariable
      { type := .stiffnessTensor, name := Ident.stiffness,
        description := "stiffness tensor computed once" })
    Build.appendBlock .initializeLocalVariables
      { origin := b.origin, statements := [c.storedStiffness] }
  Build.appendBlock .computeStress { origin := b.origin, statements := c.tensorStress .midStep }
  Build.appendBlock .computeFinalStress
    { origin := b.origin, statements := c.tensorStress .endOfStep }
  Build.complete .stressWithStiffnessTensor (some .stiffnessTensor)

/-- The stress by the isotropic law; evolving Lamé coefficients are computed at mid step
into the members and at the end of the step into local data. -/
def declareIsotropicStress : Build Unit := do
  let (b, c) ← Build.enter .isotropicStress
  let (some (lmts, mmts), some (lets, mets)) := (c.lame .midStep, c.lame .endOfStep)
    | throw (.configuration Opt.youngModulus
        "the isotropic stress computation requires young_modulus and poisson_ratio")
  if c.degradation.damage?.isSome then
    Build.addLocal .real Ident.degradationFactor
  if c.fieldDependent then
    Build.addLocal .stress Ident.lambdaEndOfStep
    Build.addLocal .stress Ident.muEndOfStep
  Build.appendBlock .computeStress
    { origin := b.origin, statements := c.isotropicStress .midStep lmts mmts }
  Build.appendBlock .computeFinalStress
    { origin := b.origin, statements := c.isotropicStress .endOfStep lets mets }
  Build.complete .isotropicStress (some .isotropic)

/-- The closing lines of an operator block: any other request is refused. -/
def refuseOtherRequests : List Statement :=
  [.raw "\x7d else \x7b", .raw "  return false;", .raw "\x7d"]

/-- The tangent operator: the secant stiffness with the damage capped, and in implicit
schemes the consistent tangent through the inverse of the Jacobian. -/
def addTangentOperatorSupport : Build Unit := do
  let (b, c) ← Build.enter .tangentOperator
  if !c.genericTangentOperator then
    Build.complete .tangentOperator
    return
  let stiffness ← match c.representation, b.stressPath with
    | .stiffnessTensor, _ | _, some .stiffnessTensor => pure (Stensor4.member Ident.stiffness)
    | .lame _ _, path =>
      if !c.fieldDependent then pure c.memberStiffness.toTensor
      else match path with
        | some .isotropic =>
          pure (Stensor4.isotropic (Scalar.temp Ident.lambdaEndOfStep) (Scalar.temp Ident.muEndOfStep))
        | _ => throw (.state ("the tangent operator of field dependent elastic properties " ++
            "needs declare_isotropic_stress first"))
  let consistent : List Statement := if c.implicit then
      let ijEel := Stensor4.temp Ident.inverseJacobianEel
      [.raw "\x7d else if (smt == CONSISTENTTANGENTOPERATOR) \x7b",
        .raw ("StiffnessTensor " ++ Ident.inverseJacobianEel ++ ";")] ++
      match c.degradation.damage? with
      | none =>
        [.raw ("getPartialJacobianInvert(" ++ Ident.inverseJacobianEel ++ ");"),
          setMember Ident.tangentOperator (.stensor4 (stiffness * ijEel))]
      | some v =>
        let ijD := "iJ_" ++ v ++ "_" ++ Ident.elasticStrain
        [.raw ("Stensor " ++ ijD ++ ";"),
          .raw ("getPartialJacobianInvert(" ++ Ident.inverseJacobianEel ++ ", " ++ ijD ++ ");"),
          setMember Ident.tangentOperator (.stensor4
            (c.degradationFactor .endOfStep * (stiffness * ijEel) -
              Stensor4.mkOuter (stiffness * Stensor.member Ident.elasticStrain) (Stensor.temp ijD)))]
    else []
  Build.appendBlock .tangentOperator
    { origin := b.origin,
      statements := [.raw elasticBranch,
        setMember Ident.tangentOperator (.stensor4 (c.degradation.boundedFactor * stiffness))] ++
        consistent ++ refuseOtherRequests }
  Build.complete .tangentOperator

/-- The prediction operator: the stiffness at the beginning of the step, damage capped. -/
def addPredictionOperatorSupport : Build Unit := do
  let (b, c) ← Build.enter .predictionOperator
  if !c.genericPredictionOperator then
    Build.complete .predictionOperator
    return
  let (block, s) := c.beginningOfStepStiffness { origin := b.origin, statements := [.raw elasticBranch] }
  let block := block.push
    (setMember Ident.tangentOperator (.stensor4 (c.degradation.boundedFactor * s.toTensor)))
  Build.appendBlock .predictionOperator (refuseOtherRequests.foldl Block.push block)
  Build.complete .predictionOperator

/-- Runs every hook of the brick, in order. -/
def finalize : Build Unit := do
  declareElasticPrediction
  let b ← Build.brick
  match ← Build.ofExcept b.storage with
  | .constant => declareStressWithStiffnessTensor
  | .fieldDependent => declareIsotropicStress
  addTangentOperatorSupport
  addPredictionOperatorSupport

end Elasto.Brick
