import Elasto.Behaviour.Types

/-! # Variables

A behaviour declares its variables by category. State variables and external state
variables evolve during a time step; a state variable `x` has the increment `dx` and the
residual `fx`. -/

namespace Elasto.Behaviour

inductive Category where
  | materialProperty
  | parameter
  | stateVariable
  | auxiliaryStateVariable
  | externalStateVariable
  | localVariable
  deriving DecidableEq, Repr

namespace Category

def all : List Category :=
  [.materialProperty, .parameter, .stateVariable, .auxiliaryStateVariable,
    .externalStateVariable, .localVariable]

def name : Category → String
  | .materialProperty => "MaterialProperty"
  | .parameter => "Parameter"
  | .stateVariable => "StateVariable"
  | .auxiliaryStateVariable => "AuxiliaryStateVariable"
  | .externalStateVariable => "ExternalStateVariable"
  | .localVariable => "LocalVariable"

def ofName? (s : String) : Option Category := all.find? (·.name == s)

/-- Whether variables of the category change during a time step. -/
def evolves : Category → Bool
  | .stateVariable | .externalStateVariable => true
  | _ => false

end Category

structure Variable where
  type : VarType
  name : String
  arraySize : Nat := 1
  description : String := ""
  /-- The name under which calling solvers know the variable. -/
  entryName : Option String := none

namespace Variable

def increment (v : Variable) : String := "d" ++ v.name
def residual (v : Variable) : String := "f" ++ v.name
def externalName (v : Variable) : String := v.entryName.getD v.name

end Variable

end Elasto.Behaviour
