import Elasto.Behaviour.Variable
import Elasto.Behaviour.Error
import Elasto.Code.Block
import Elasto.Tensor.Symbols

/-! # Behaviour descriptions

A description gathers what is known of a behaviour while bricks are compiled into it: its
variables in declaration order, attributes set once each, code blocks in the order they
were appended, and contributions to the blocks of the implicit Jacobian. Nothing is ever
removed: declarations, blocks and contributions only grow, and an attribute, once set,
keeps its value. -/

namespace Elasto.Behaviour

open Elasto.Code Elasto.Tensor

/-- The type of a name; any other name is not a type a source may use. -/
def VarType.parse (s : String) : Except BehaviourError VarType :=
  match VarType.ofName? s with
  | some t => .ok t
  | none => .error (.invalidSource ("unsupported type '" ++ s ++ "'"))

inductive Scheme where
  | implicit
  | explicit
  | specific
  deriving DecidableEq, Repr

def Scheme.name : Scheme → String
  | .implicit => "Implicit"
  | .explicit => "Explicit"
  | .specific => "Specific"

def Scheme.ofName? : String → Option Scheme
  | "Implicit" => some .implicit
  | "Explicit" => some .explicit
  | "Specific" => some .specific
  | _ => none

inductive Hypothesis where
  | tridimensional
  | planeStrain
  | generalisedPlaneStrain
  | planeStress
  | axisymmetrical
  | axisymmetricalGeneralisedPlaneStrain
  | axisymmetricalGeneralisedPlaneStress
  deriving DecidableEq, Repr

namespace Hypothesis

def all : List Hypothesis :=
  [.tridimensional, .planeStrain, .generalisedPlaneStrain, .planeStress, .axisymmetrical,
    .axisymmetricalGeneralisedPlaneStrain, .axisymmetricalGeneralisedPlaneStress]

def name : Hypothesis → String
  | .tridimensional => "Tridimensional"
  | .planeStrain => "PlaneStrain"
  | .generalisedPlaneStrain => "GeneralisedPlaneStrain"
  | .planeStress => "PlaneStress"
  | .axisymmetrical => "Axisymmetrical"
  | .axisymmetricalGeneralisedPlaneStrain => "AxisymmetricalGeneralisedPlaneStrain"
  | .axisymmetricalGeneralisedPlaneStress => "AxisymmetricalGeneralisedPlaneStress"

def ofName? (s : String) : Option Hypothesis := all.find? (·.name == s)

def isPlaneStress : Hypothesis → Bool
  | .planeStress | .axisymmetricalGeneralisedPlaneStress => true
  | _ => false

end Hypothesis

inductive Symmetry where
  | isotropic
  | orthotropic
  deriving DecidableEq, Repr

def Symmetry.name : Symmetry → String
  | .isotropic => "Isotropic"
  | .orthotropic => "Orthotropic"

def Symmetry.ofName? : String → Option Symmetry
  | "Isotropic" => some .isotropic
  | "Orthotropic" => some .orthotropic
  | _ => none

inductive Attribute where
  | bool (b : Bool)
  | real (x : Float)
  | str (s : String)

namespace Attribute

/-- Text of an attribute in messages: reals in plain form, strings in single quotes. -/
def display : Attribute → String
  | .bool b => if b then "true" else "false"
  | .real x => Float64.plain x
  | .str s => "'" ++ s ++ "'"

/-- Equality of attributes; a NaN real equals nothing, itself included. -/
def same : Attribute → Attribute → Bool
  | .bool a, .bool b => a == b
  | .real x, .real y => x == y
  | .str s, .str t => s == t
  | _, _ => false

end Attribute

/-- A piece of code a brick adds to a block of the implicit Jacobian. -/
structure Contribution where
  owner : String
  code : String

/-- The lines of a text: split at line feeds, a carriage return before a line feed
dropped, no empty line after a final line feed. -/
def textLines (s : String) : List String :=
  let pieces := s.splitOn "\n"
  let body := if pieces.getLast? == some "" then pieces.dropLast else pieces
  let n := body.length
  body.zipIdx.map fun (line, i) =>
    if i + 1 < n || pieces.length > n then
      (if line.endsWith "\r" then String.ofList (line.toList.dropLast) else line)
    else line

/-- Temperature, declared by every behaviour. -/
def temperatureName : String := "T"

/-- Weight of the end of the step in implicit schemes. -/
def thetaName : String := "theta"

structure Description where
  name : String
  scheme : Scheme
  hypotheses : List Hypothesis := [.tridimensional]
  symmetry : Symmetry := .isotropic
  declarations : List (Category × Variable) := []
  /-- Attributes sorted by name. -/
  attributes : List (String × Attribute) := []
  /-- Code blocks in the order they were appended. -/
  blocks : List (BlockKind × Block) := []
  /-- Jacobian contributions by `(equation, variable)`, sorted. -/
  jacobian : List ((String × String) × List Contribution) := []

namespace Description

/-- A new description: the temperature is an external state variable, and an implicit
scheme has the parameter `theta`. -/
def new (name : String) (scheme : Scheme) : Description :=
  let temperature : Variable :=
    { type := .temperature, name := temperatureName, entryName := some "Temperature" }
  let theta : Variable :=
    { type := .real, name := thetaName, description := "implicit weighting of the time step" }
  { name := name, scheme := scheme,
    declarations := (.externalStateVariable, temperature) ::
      (if scheme = .implicit then [(.parameter, theta)] else []) }

def declared? (d : Description) (name : String) : Option (Category × Variable) :=
  d.declarations.find? (·.2.name == name)

def hasVariable (d : Description) (name : String) : Bool := d.declarations.any (·.2.name == name)

/-- Declares a variable; a name is declared once in all categories. -/
def declare (d : Description) (c : Category) (v : Variable) : Except BehaviourError Description :=
  if d.hasVariable v.name then .error (.duplicateVariable v.name)
  else .ok { d with declarations := d.declarations ++ [(c, v)] }

theorem hasVariable_eq_isSome_declared? (d : Description) (name : String) :
    d.hasVariable name = (d.declared? name).isSome := by
  simp [hasVariable, declared?, List.isSome_find?]

theorem declare_eq_ok_iff {d d' : Description} {c : Category} {v : Variable} :
    d.declare c v = .ok d' ↔
      d.hasVariable v.name = false ∧ d' = { d with declarations := d.declarations ++ [(c, v)] } := by
  unfold declare
  by_cases h : d.hasVariable v.name <;> simp [h, eq_comm]

theorem declare_eq_error_iff {d : Description} {c : Category} {v : Variable} {e : BehaviourError} :
    d.declare c v = .error e ↔ d.hasVariable v.name = true ∧ e = .duplicateVariable v.name := by
  unfold declare
  by_cases h : d.hasVariable v.name <;> simp [h, eq_comm]

/-- A declaration adds the variable at the end of the declarations. -/
theorem declarations_of_declare {d d' : Description} {c : Category} {v : Variable}
    (h : d.declare c v = .ok d') : d'.declarations = d.declarations ++ [(c, v)] := by
  obtain ⟨-, rfl⟩ := declare_eq_ok_iff.mp h
  rfl

def variablesOf (d : Description) (c : Category) : List Variable :=
  (d.declarations.filter (·.1 == c)).map (·.2)

def hasPlaneStressHypothesis (d : Description) : Bool := d.hypotheses.any Hypothesis.isPlaneStress

/-- The state variable whose residual is `equation`, that is `f` followed by its name. -/
def residualVariable? (d : Description) (equation : String) : Option Variable :=
  match equation.toList with
  | 'f' :: rest => (d.variablesOf .stateVariable).find? (·.name == String.ofList rest)
  | _ => none

/-- The material properties known to solvers as the Young modulus and the Poisson
ratio, when both are declared. -/
def elasticMaterialProperties (d : Description) : Option (String × String) := do
  let find (entry : String) := ((d.variablesOf .materialProperty).find?
    (·.entryName == some entry)).map (·.name)
  pure (← find "YoungModulus", ← find "PoissonRatio")

/-- Whether an expression involves a quantity that evolves during the step. -/
def isFieldDependent (d : Description) (e : Scalar) : Bool :=
  e.symbols.any fun n => match d.declared? n with
    | some (c, _) => c.evolves
    | none => false

/-- The state variables an expression involves, in declaration order. -/
def stateDependencies (d : Description) (e : Scalar) : List String :=
  let names := e.symbols
  ((d.variablesOf .stateVariable).filter (names.contains ·.name)).map (·.name)

def attribute? (d : Description) (name : String) : Option Attribute :=
  (d.attributes.find? (·.1 == name)).map (·.2)

def insertAttribute (name : String) (a : Attribute) :
    List (String × Attribute) → List (String × Attribute)
  | [] => [(name, a)]
  | (k, b) :: rest =>
    if name < k then (name, a) :: (k, b) :: rest
    else if name = k then (name, a) :: rest
    else (k, b) :: insertAttribute name a rest

/-- Sets an attribute; setting it again to the same value changes nothing, to another
value is refused. -/
def setAttribute (d : Description) (name : String) (a : Attribute) :
    Except BehaviourError Description :=
  match d.attribute? name with
  | some existing =>
    if existing.same a then .ok d
    else .error (.attributeConflict name existing.display a.display)
  | none => .ok { d with attributes := insertAttribute name a d.attributes }

/-- Whether the attribute is the boolean `true`. -/
def flag (d : Description) (name : String) : Bool :=
  match d.attribute? name with
  | some (.bool true) => true
  | _ => false

def appendBlock (d : Description) (kind : BlockKind) (b : Block) : Description :=
  { d with blocks := d.blocks ++ [(kind, b)] }

def blocksOf (d : Description) (kind : BlockKind) : List Block :=
  (d.blocks.filter (·.1 == kind)).map (·.2)

def contributions (d : Description) (key : String × String) : Option (List Contribution) :=
  (d.jacobian.find? (·.1 == key)).map (·.2)

def putContributions (key : String × String) (cs : List Contribution) :
    List ((String × String) × List Contribution) → List ((String × String) × List Contribution)
  | [] => [(key, cs)]
  | (k, ds) :: rest =>
    if key.1 < k.1 || (key.1 = k.1 && key.2 < k.2) then (key, cs) :: (k, ds) :: rest
    else if key = k then (key, cs) :: rest
    else (k, ds) :: putContributions key cs rest

/-- The Jacobian block `key` made present, with no contribution when it had none. -/
def jacobianEntry (d : Description) (key : String × String) : Description :=
  match d.contributions key with
  | some _ => d
  | none => { d with jacobian := putContributions key [] d.jacobian }

/-- Adds an owner's code to the Jacobian block `(equation, target)`. The block is made present
first (`jacobianEntry`), before the owner is checked, so that a refused contribution leaves
it made present; empty code adds nothing, and an owner contributes once per block. -/
def addJacobianContribution (d : Description) (owner equation target code : String) :
    Except BehaviourError Description :=
  let key := (equation, target)
  let d := d.jacobianEntry key
  let existing := (d.contributions key).getD []
  if existing.any (·.owner == owner) then
    .error (.duplicateJacobianContribution owner equation target)
  else
    let cs := if code.isEmpty then existing else existing ++ [⟨owner, code⟩]
    .ok { d with jacobian := putContributions key cs d.jacobian }

/-- The code of a Jacobian block, contributions joined by line breaks. -/
def jacobianContribution (d : Description) (equation target : String) : String :=
  "\n".intercalate (((d.contributions (equation, target)).getD []).map (·.code))

/-- A block of generated code: a header naming the block and its origin, the lines
indented by two spaces, a closing brace. -/
def section_ (header : String) (origin : String) (text : String) : String :=
  header ++ " \x7b // " ++ origin ++ "\n" ++
    String.join ((textLines text).map fun l => "  " ++ l ++ "\n") ++ "\x7d\n"

/-- All generated code: the blocks by kind in code order, then the Jacobian blocks. -/
def renderCode (d : Description) : String :=
  let blocks := BlockKind.all.flatMap fun k =>
    (d.blocksOf k).map fun b => section_ ("@" ++ k.name) b.origin b.text
  let jac := d.jacobian.flatMap fun ((eq, v), cs) =>
    cs.map fun c => section_ ("@Jacobian(" ++ eq ++ ", " ++ v ++ ")") c.owner c.code
  String.join (blocks ++ jac)

end Description

end Elasto.Behaviour
