/-! # Variable types

The types a behaviour variable may have, with their tensor rank and physical dimension:
four scalar types, two symmetric second-order tensors and the fourth-order stiffness. -/

namespace Elasto.Behaviour

/-- Shape of a variable's value. -/
inductive TypeFlag where
  | scalar
  | tvector
  | stensor
  | tensor
  deriving DecidableEq, Repr

def TypeFlag.name : TypeFlag → String
  | .scalar => "Scalar"
  | .tvector => "TVector"
  | .stensor => "Stensor"
  | .tensor => "Tensor"

def TypeFlag.rank : TypeFlag → Nat
  | .scalar => 0
  | .tvector => 1
  | .stensor | .tensor => 2

def TypeFlag.isSymmetric : TypeFlag → Bool
  | .stensor => true
  | _ => false

inductive Dimension where
  | dimensionless
  | stress
  | strain
  | temperature
  | stiffness
  deriving DecidableEq, Repr

def Dimension.name : Dimension → String
  | .dimensionless => "Dimensionless"
  | .stress => "Stress"
  | .strain => "Strain"
  | .temperature => "Temperature"
  | .stiffness => "Stiffness"

/-- The unit symbol of a dimension. -/
def Dimension.unit : Dimension → String
  | .dimensionless | .strain => "1"
  | .stress | .stiffness => "Pa"
  | .temperature => "K"

inductive VarType where
  | real
  | stress
  | strain
  | temperature
  | strainStensor
  | stressStensor
  | stiffnessTensor
  deriving DecidableEq, Repr

namespace VarType

def all : List VarType :=
  [.real, .stress, .strain, .temperature, .strainStensor, .stressStensor, .stiffnessTensor]

def name : VarType → String
  | .real => "real"
  | .stress => "stress"
  | .strain => "strain"
  | .temperature => "temperature"
  | .strainStensor => "StrainStensor"
  | .stressStensor => "StressStensor"
  | .stiffnessTensor => "StiffnessTensor"

/-- The type of a name, if it is one. -/
def ofName? (s : String) : Option VarType := all.find? (·.name == s)

/-- The shape of the type; the stiffness has none of the flagged shapes. -/
def flag : VarType → Option TypeFlag
  | .real | .stress | .strain | .temperature => some .scalar
  | .strainStensor | .stressStensor => some .stensor
  | .stiffnessTensor => none

def rank (t : VarType) : Nat := (t.flag.map TypeFlag.rank).getD 4

def isScalar (t : VarType) : Bool := t.flag == some .scalar

def dimension : VarType → Dimension
  | .real => .dimensionless
  | .stress | .stressStensor => .stress
  | .strain | .strainStensor => .strain
  | .temperature => .temperature
  | .stiffnessTensor => .stiffness

end VarType

end Elasto.Behaviour
