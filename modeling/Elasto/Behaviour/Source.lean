import Elasto.Behaviour.Decode
import Elasto.Behaviour.Description
import Elasto.Document.Yaml
import Elasto.Json.Read

/-! # Behaviour sources

A behaviour source names the behaviour, its integration scheme, modelling hypotheses and
elastic symmetry, declares its variables by category, and names its stress potential with
the potential's options. It is read from YAML or JSON; a source whose name is blank or
that has no hypothesis is refused. Its description declares the variables in the order
material properties, parameters, state variables, auxiliary and external state variables. -/

namespace Elasto.Behaviour

open Elasto.Document

structure PotentialSource where
  name : String
  options : DataMap := []

structure Source where
  name : String
  scheme : Scheme := .implicit
  hypotheses : List Hypothesis := [.tridimensional]
  symmetry : Symmetry := .isotropic
  materialProperties : List Variable := []
  parameters : List Variable := []
  stateVariables : List Variable := []
  auxiliaryStateVariables : List Variable := []
  externalStateVariables : List Variable := []
  stressPotential : PotentialSource

/-- A variable declaration of a source. -/
def readVariable (room : Nat) (n : Node) : Decode Variable := do
  let fs ← record ["type", "name", "array_size", "description", "entry_name"] room n
  let type ← fs.required "type" (Node.variant VarType.all VarType.name)
  let name ← fs.required "name" fun _ => Node.text
  let arraySize ← fs.optional "array_size" 1 fun _ => Node.count
  let description ← fs.optional "description" "" fun _ => Node.text
  let entryName ← fs.optional "entry_name" none fun _ => Node.optText
  pure { type, name, arraySize, description, entryName }

def readVariables (room : Nat) (n : Node) : Decode (List Variable) := do
  let (r, items) ← Node.items room n
  items.mapM (readVariable r)

def readPotential (room : Nat) (n : Node) : Decode PotentialSource := do
  let fs ← record ["name", "options"] room n
  let name ← fs.required "name" fun _ => Node.text
  let options ← fs.optional "options" [] Node.dataMap
  pure { name, options }

/-- The fields of a source, in order. -/
def sourceFields : List String :=
  ["name", "scheme", "hypotheses", "symmetry", "material_properties", "parameters",
    "state_variables", "auxiliary_state_variables", "external_state_variables",
    "stress_potential"]

/-- A source read from a document tree. -/
def readSource (room : Nat) (n : Node) : Decode Source := do
  let fs ← record sourceFields room n
  let name ← fs.required "name" fun _ => Node.text
  let scheme ← fs.optional "scheme" .implicit
    (Node.variant [.implicit, .explicit, .specific] Scheme.name)
  let hypotheses ← fs.optional "hypotheses" [.tridimensional] fun room n => do
    let (r, items) ← Node.items room n
    items.mapM (Node.variant Hypothesis.all Hypothesis.name r)
  let symmetry ← fs.optional "symmetry" .isotropic
    (Node.variant [.isotropic, .orthotropic] Symmetry.name)
  let mp ← fs.optional "material_properties" [] readVariables
  let ps ← fs.optional "parameters" [] readVariables
  let sv ← fs.optional "state_variables" [] readVariables
  let asv ← fs.optional "auxiliary_state_variables" [] readVariables
  let esv ← fs.optional "external_state_variables" [] readVariables
  let sp ← fs.required "stress_potential" readPotential
  pure
    { name := name, scheme := scheme, hypotheses := hypotheses, symmetry := symmetry,
      materialProperties := mp, parameters := ps, stateVariables := sv,
      auxiliaryStateVariables := asv, externalStateVariables := esv, stressPotential := sp }

/-- Whether a character is white space in the Unicode sense. -/
def isWhiteSpace (c : Char) : Bool :=
  let n := c.toNat
  (9 ≤ n && n ≤ 13) || n == 32 || n == 0x85 || n == 0xa0 || n == 0x1680 ||
    (0x2000 ≤ n && n ≤ 0x200a) || n == 0x2028 || n == 0x2029 || n == 0x202f || n == 0x205f ||
    n == 0x3000

namespace Source

/-- A source has a name that is not blank and at least one hypothesis. -/
def validate (s : Source) : Except BehaviourError Source :=
  if s.name.all isWhiteSpace then .error (.invalidSource "behaviour name is empty")
  else if s.hypotheses.isEmpty then .error (.invalidSource "at least one modelling hypothesis is required")
  else .ok s

/-- The source written by a YAML text. -/
def ofYaml (text : String) : Except BehaviourError Source :=
  match readYaml text >>= fun t => decodeYaml t readSource with
  | .ok s => s.validate
  | .error _ => .error .yaml

/-- The source written by a JSON text. -/
def ofJson (text : String) : Except BehaviourError Source :=
  match Json.parse text >>= fun j => decodeJson j readSource with
  | .ok s => s.validate
  | .error _ => .error .json

/-- The variable declarations by category, in declaration order. -/
def groups (s : Source) : List (Category × List Variable) :=
  [(.materialProperty, s.materialProperties), (.parameter, s.parameters),
    (.stateVariable, s.stateVariables), (.auxiliaryStateVariable, s.auxiliaryStateVariables),
    (.externalStateVariable, s.externalStateVariables)]

/-- The description of the behaviour, before any brick. -/
def toDescription (s : Source) : Except BehaviourError Description :=
  let d := { Description.new s.name s.scheme with hypotheses := s.hypotheses, symmetry := s.symmetry }
  s.groups.foldlM (fun d (c, vs) => vs.foldlM (fun d v => d.declare c v) d) d

end Source

end Elasto.Behaviour
