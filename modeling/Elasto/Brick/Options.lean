import Elasto.Behaviour.Options
import Elasto.Behaviour.Property
import Elasto.Brick.Error

/-! # Brick options

The options of the two stress potentials, and typed reading of an option map checked
against them: a value read is the one given or the schema's default. -/

namespace Elasto.Brick

open Elasto.Behaviour

/-- Whether the stiffness is computed once or at each step. -/
inductive Storage where
  | constant
  | fieldDependent
  deriving DecidableEq, Repr

def Storage.name : Storage → String
  | .constant => "constant"
  | .fieldDependent => "field_dependent"

def Storage.ofName? : String → Option Storage
  | "constant" => some .constant
  | "field_dependent" => some .fieldDependent
  | _ => none

namespace Opt

def youngModulus : String := "young_modulus"
def poissonRatio : String := "poisson_ratio"
def stiffnessTensorStorage : String := "stiffness_tensor_storage"
def thermalExpansion : String := "thermal_expansion"
def thermalExpansionReferenceTemperature : String := "thermal_expansion_reference_temperature"
def planeStressSupport : String := "plane_stress_support"
def genericTangentOperator : String := "generic_tangent_operator"
def genericPredictionOperator : String := "generic_prediction_operator"
def damageVariable : String := "damage_variable"
def damageUpperBound : String := "damage_upper_bound"

end Opt

open Opt

/-- The options of the Hooke law; the elastic properties are left out when the behaviour
already declares them. -/
def hookeOptions (alreadyConfigured : Bool) : List OptionSpec :=
  let elastic : List OptionSpec :=
    [{ name := youngModulus, description := "Young modulus", type := .materialProperty },
     { name := poissonRatio, description := "Poisson ratio", type := .materialProperty }]
  (if alreadyConfigured then [] else elastic) ++
  [{ name := stiffnessTensorStorage,
     description := "whether the stiffness is a known constant or is re-evaluated each step",
     type := .enumeration [Storage.constant.name, Storage.fieldDependent.name],
     default := some (.str Storage.fieldDependent.name) },
   { name := thermalExpansion, description := "mean linear thermal expansion coefficient",
     type := .materialProperty },
   { name := thermalExpansionReferenceTemperature,
     description := "reference temperature of the thermal expansion", type := .real,
     default := some (.real Numeric.referenceTemperature), requires := [thermalExpansion] },
   { name := planeStressSupport,
     description := "add plane stress support through an axial strain integration variable",
     type := .boolean, default := some (.bool false) },
   { name := genericTangentOperator,
     description := "expose the tangent operator through the generic operator interface",
     type := .boolean, default := some (.bool true) },
   { name := genericPredictionOperator,
     description := "expose the prediction operator through the generic operator interface",
     type := .boolean, default := some (.bool true) }]

/-- The options a damage variable adds. -/
def damageOptions : List OptionSpec :=
  [{ name := damageVariable, description := "name of the damage state variable",
     type := .string, default := some (.str "d") },
   { name := damageUpperBound,
     description := "maximum damage used by the degradation factor of predictions",
     type := .real, default := some (.real 0.99) }]

/-- An option map checked against a schema. -/
structure Reader where
  schema : List OptionSpec
  data : DataMap

namespace Reader

/-- A reader of the map, once the map passes the schema. -/
def make (schema : List OptionSpec) (data : DataMap) : Except BrickError Reader := do
  liftBehaviour (validateDataMap schema data)
  pure ⟨schema, data⟩

def value (r : Reader) (name : String) : Except BrickError Data :=
  match valueOrDefault r.schema r.data name with
  | some d => .ok d
  | none => .error (.configuration name "missing required option")

def boolean (r : Reader) (name : String) : Except BrickError Bool := do
  let v ← r.value name
  match v.asBool? with
  | some b => pure b
  | none => throw (.configuration name ("expected a boolean, got " ++ v.display))

def real (r : Reader) (name : String) : Except BrickError Float := do
  let v ← r.value name
  match v.asReal? with
  | some x => pure x
  | none => throw (.configuration name ("expected a real number, got " ++ v.display))

def string (r : Reader) (name : String) : Except BrickError String := do
  let v ← r.value name
  match v.asStr? with
  | some s => pure s
  | none => throw (.configuration name ("expected a string, got " ++ v.display))

/-- The property given for an option; a default does not count. -/
def property (r : Reader) (name : String) : Except BrickError (Option Property) :=
  match r.data.get? name with
  | some v => liftBehaviour ((Property.ofData name v).map some)
  | none => .ok none

def storage (r : Reader) : Except BrickError Storage := do
  let s ← r.string stiffnessTensorStorage
  match Storage.ofName? s with
  | some st => pure st
  | none => throw (.configuration stiffnessTensorStorage
      ("expected one of constant, field_dependent, got '" ++ s ++ "'"))

end Reader

end Elasto.Brick
