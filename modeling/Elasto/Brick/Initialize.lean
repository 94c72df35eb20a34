import Elasto.Brick.State

/-! # Initialization of a Hooke brick

Initialization reads the options once: the elasticity, thermal expansion, plane stress
support and the exposed operators. It checks that every variable and attribute it will
declare is free or already what it needs, and only then declares them and adds the code
that sets the Lamé coefficients and the integrator. -/

namespace Elasto.Brick

open Elasto.Behaviour Elasto.Tensor Elasto.Code

/-- The Young modulus and the Poisson ratio the options give. When the behaviour declares its
elastic properties and the brick is told so, they are those members; otherwise each property
given is resolved against the declarations. -/
def elasticProperties (d : Description) (r : Reader) (alreadyConfigured : Bool) :
    Except BrickError (Option Scalar × Option Scalar) := do
  let declared := if alreadyConfigured then d.elasticMaterialProperties else none
  match declared with
  | some (e, nu) => pure (some (Scalar.member e), some (Scalar.member nu))
  | none => do
    let resolve (name : String) : Except BrickError (Option Scalar) := do
      match ← r.property name with
      | some p => some <$> liftBehaviour (d.resolveProperty name p)
      | none => pure none
    let y ← resolve Opt.youngModulus
    let p ← resolve Opt.poissonRatio
    pure (y, p)

/-- The elasticity of a Young modulus and a Poisson ratio, given together or not at all;
constant properties must be physical. -/
def representationOf (d : Description) (storage : Storage) :
    Option Scalar → Option Scalar → Except BrickError Representation
  | some y, some p => do
    if let .const e := y then
      if let .error err := Numeric.ensurePositive e "Young modulus" then
        throw (.configuration Opt.youngModulus err.message)
    if let .const nu := p then
      if !(nu > -1.0 && nu < 0.5) then
        throw (.configuration Opt.poissonRatio
          ("expected a value in (-1, 0.5), got " ++ Float64.plain nu))
    if d.symmetry = .orthotropic then
      throw (.configuration Opt.youngModulus
        "isotropic elastic properties given for an orthotropic behaviour")
    pure (.lame y p)
  | some _, none => throw (.configuration Opt.poissonRatio "must be given together with young_modulus")
  | none, some _ => throw (.configuration Opt.youngModulus "must be given together with poisson_ratio")
  | none, none =>
    if storage = .constant then pure .stiffnessTensor
    else throw (.configuration Opt.youngModulus ("missing required option; a solver supplied " ++
      "stiffness tensor needs stiffness_tensor_storage: constant"))

/-- The elasticity the options give. -/
def resolveRepresentation (d : Description) (r : Reader) (alreadyConfigured : Bool)
    (storage : Storage) : Except BrickError Representation := do
  let (young, poisson) ← elasticProperties d r alreadyConfigured
  representationOf d storage young poisson

/-- The evolving variables of some expressions, each once, in order of first appearance. -/
def evolvingSymbols (d : Description) (exprs : List Scalar) : List (String × Category) :=
  exprs.foldl (fun out e => e.symbols.foldl (fun out name =>
    match d.declared? name with
    | some (c, _) => if c.evolves && !out.any (·.1 == name) then out ++ [(name, c)] else out
    | none => out) out) []

/-- The attributes an initialized brick sets. -/
def Config.attributes (c : Config) (origin : String) : List (String × Attribute) :=
  (if c.representation.isLame then [] else [("requires_stiffness_tensor", .bool true)]) ++
  (if c.planeStress then [(Opt.planeStressSupport, .bool true)] else []) ++
  [("stress_potential", .str origin), ("elastic_representation", .str c.representation.name),
    (Opt.stiffnessTensorStorage, .str c.storage.name)] ++
  (if c.thermalExpansion.isSome then [(Opt.thermalExpansion, .bool true)] else [])

/-- The configuration the options give, before anything is declared. -/
def Config.resolve (d : Description) (r : Reader) (alreadyConfigured : Bool)
    (degradation : Degradation) : Except BrickError Config := do
  let storage ← r.storage
  let representation ← resolveRepresentation d r alreadyConfigured storage
  let thermal : Option ThermalExpansion ← match ← r.property Opt.thermalExpansion with
    | some p => do
      let coefficient ← liftBehaviour (d.resolveProperty Opt.thermalExpansion p)
      let t ← r.real Opt.thermalExpansionReferenceTemperature
      match Numeric.ensurePositive t "reference temperature" with
      | .ok t => pure (some { coefficient, referenceTemperature := t : ThermalExpansion })
      | .error e => throw (.configuration Opt.thermalExpansionReferenceTemperature e.message)
    | none => pure none
  let (fieldDependent, stateDependencies, evolving) := match representation with
    | .lame young poisson =>
      let both := young + poisson
      let exprs := [young, poisson] ++ (thermal.map ThermalExpansion.coefficient).toList
      (d.isFieldDependent both, d.stateDependencies both, evolvingSymbols d exprs)
    | .stiffnessTensor =>
      (false, [], match thermal with
        | some th => evolvingSymbols d [th.coefficient]
        | none => [])
  if storage = Storage.constant && fieldDependent then
    throw (.configuration Opt.stiffnessTensorStorage
      "constant storage requested but the elastic properties evolve during the step")
  let planeStress ← r.boolean Opt.planeStressSupport
  let planeStress ← if planeStress then
      if representation.isLame then pure d.hasPlaneStressHypothesis
      else throw (.configuration Opt.planeStressSupport "requires young_modulus and poisson_ratio")
    else pure false
  let tangent ← r.boolean Opt.genericTangentOperator
  let prediction ← r.boolean Opt.genericPredictionOperator
  pure
    { representation := representation, storage := storage, fieldDependent := fieldDependent,
      stateDependencies := stateDependencies, thermalExpansion := thermal,
      planeStress := planeStress, genericTangentOperator := tangent,
      genericPredictionOperator := prediction, degradation := degradation,
      implicit := d.scheme = Scheme.implicit, evolving := evolving }

/-- Every variable and attribute the brick declares is free or already as needed. -/
def Config.checkDeclarations (c : Config) (d : Description) (origin : String) :
    Except BrickError Unit := do
  checkReusable d .stateVariable .strainStensor Ident.elasticStrain
  c.degradation.check d
  let fresh ← match c.representation with
    | .lame _ _ => pure [Ident.lambda, Ident.mu]
    | .stiffnessTensor => do
      checkReusable d .localVariable .stiffnessTensor Ident.stiffness
      pure []
  let fresh := fresh ++ (if c.planeStress then [Ident.axialStrain] else [])
  if let some name := fresh.find? d.hasVariable then
    throw (.behaviour (.duplicateVariable name))
  checkAttributes d (c.attributes origin)

/-- Declares the variables and sets the attributes of the brick. -/
def Config.declare (c : Config) (origin : String) : Build Unit := do
  Build.edit (declareIfAbsent · .stateVariable
    { type := .strainStensor, name := Ident.elasticStrain, entryName := some "ElasticStrain",
      description := "elastic strain" })
  Build.edit c.degradation.declare
  match c.representation with
  | .lame _ _ =>
    Build.edit fun d => liftBehaviour (d.declare .localVariable
      { type := .stress, name := Ident.lambda, description := "first Lamé coefficient" })
    Build.edit fun d => liftBehaviour (d.declare .localVariable
      { type := .stress, name := Ident.mu, description := "shear modulus" })
  | .stiffnessTensor =>
    Build.edit (declareIfAbsent · .localVariable
      { type := .stiffnessTensor, name := Ident.stiffness,
        description := "stiffness tensor supplied by the solver" })
  if c.planeStress then
    Build.edit fun d => liftBehaviour (d.declare .stateVariable
      { type := .strain, name := Ident.axialStrain, entryName := some "AxialStrain",
        description := "axial strain under plane stress" })
  for (name, a) in c.attributes origin do
    Build.edit fun d => liftBehaviour (d.setAttribute name a)

/-- Initializes the brick with a reader of its options. -/
def configureWith (r : Reader) (alreadyConfigured : Bool) (degradation : Degradation) :
    Build Unit := do
  let b ← Build.brick
  Build.ofExcept b.tracker.checkNotInitialized
  let d ← Build.description
  let c ← Build.ofExcept (Config.resolve d r alreadyConfigured degradation)
  Build.ofExcept (c.checkDeclarations d b.origin)
  c.declare b.origin
  if !c.initialLame.isEmpty then
    Build.appendBlock .initializeLocalVariables { origin := b.origin, statements := c.initialLame }
  Build.appendBlock .integrator (c.integratorBlock b.origin)
  Build.setBrick { b with config := some c, tracker := { b.tracker with initialized := true } }

/-- Initializes the brick with an option map, checked against its options. -/
def configure (data : DataMap) : Build Unit := do
  let b ← Build.brick
  Build.ofExcept b.tracker.checkNotInitialized
  let d ← Build.description
  let alreadyConfigured := d.elasticMaterialProperties.isSome
  let r ← Build.ofExcept (Reader.make (b.potential.options alreadyConfigured) data)
  let degradation ← match b.potential with
    | .hooke => pure .none
    | .isotropicDamageHooke => Build.ofExcept (Degradation.ofOptions r)
  configureWith r alreadyConfigured degradation

end Elasto.Brick
