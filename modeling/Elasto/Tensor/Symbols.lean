import Elasto.Tensor.Expr

/-! # Symbols of expressions

`names` lists the symbol names met in an expression, left to right and with repeats;
`symbols` is the same set sorted and without repeats. An expression depends on a name when
the name is among its symbols, whatever the symbol's scope and kind. -/

namespace Elasto.Tensor

/-- `x` put into a sorted list without repeats, unless it is there already. -/
def insertName (x : String) : List String → List String
  | [] => [x]
  | y :: ys => if x < y then x :: y :: ys else if x = y then y :: ys else y :: insertName x ys

/-- A list of names sorted and without repeats. -/
def sortedNames (xs : List String) : List String := xs.foldr insertName []

variable {α : Type}

mutual

def Scalar.names : Scalar α → List String
  | .const _ => []
  | .sym s => [s.name]
  | .neg a | .call _ a => a.names
  | .add a b | .sub a b | .mul a b | .div a b | .pow a b | .min a b => a.names ++ b.names
  | .trace t => t.names
  | .contract t u => t.names ++ u.names

def Stensor.names : Stensor α → List String
  | .zero | .identity => []
  | .sym s => [s.name]
  | .neg t => t.names
  | .add t u | .sub t u => t.names ++ u.names
  | .scale s t => s.names ++ t.names
  | .apply c t => c.names ++ t.names

def Stensor4.names : Stensor4 α → List String
  | .zero | .id | .ixi => []
  | .sym s => [s.name]
  | .neg c | .transpose c => c.names
  | .add c d | .sub c d | .product c d => c.names ++ d.names
  | .scale s c => s.names ++ c.names
  | .outer t u => t.names ++ u.names

end

def Scalar.symbols (e : Scalar α) : List String := sortedNames e.names
def Stensor.symbols (e : Stensor α) : List String := sortedNames e.names
def Stensor4.symbols (e : Stensor4 α) : List String := sortedNames e.names

def Expr.names : Expr α → List String
  | .scalar e => e.names
  | .stensor e => e.names
  | .stensor4 e => e.names

def Expr.symbols (e : Expr α) : List String := sortedNames e.names

def Scalar.dependsOn (e : Scalar α) (name : String) : Bool := e.names.contains name
def Stensor.dependsOn (e : Stensor α) (name : String) : Bool := e.names.contains name
def Stensor4.dependsOn (e : Stensor4 α) (name : String) : Bool := e.names.contains name

end Elasto.Tensor
