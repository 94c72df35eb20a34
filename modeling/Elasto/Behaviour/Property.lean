import Elasto.Behaviour.Description
import Elasto.Behaviour.Data
import Elasto.Formula.Read

/-! # Material properties

An option giving a material property holds either a number or a formula. A formula is read
when its expression is needed, and it resolves only when every identifier in it is a
declared scalar variable of the behaviour. -/

namespace Elasto.Behaviour

open Elasto.Tensor

inductive Property where
  | constant (x : Float)
  | formula (src : String)

namespace Property

/-- The property an option value gives: a finite number is a constant, a string a formula. -/
def ofData (option : String) : Data → Except BehaviourError Property
  | .real x =>
    if Numeric.isFinite x then .ok (.constant x)
    else .error (.invalidOption option ("expected a number or a formula, got " ++ (Data.real x).display))
  | .int i => .ok (.constant (Float64.ofDecimal (i < 0) i.natAbs 0))
  | .str s => .ok (.formula s)
  | other => .error (.invalidOption option ("expected a number or a formula, got " ++ other.display))

def isConstant : Property → Bool
  | .constant _ => true
  | .formula _ => false

/-- The expression of a property; a formula that does not read is an invalid option. -/
def expression (option : String) : Property → Except BehaviourError Scalar
  | .constant x => .ok (.const x)
  | .formula src =>
    match Formula.read src with
    | .ok e => .ok e
    | .error e => .error (.invalidOption option ("invalid formula: " ++ e.message))

end Property

/-- The expression of a property, checked against the declarations: each identifier, in
sorted order, must be declared and of a scalar type. -/
def Description.resolveProperty (d : Description) (option : String) (p : Property) :
    Except BehaviourError Scalar := do
  let e ← p.expression option
  e.symbols.forM fun name =>
    match d.declared? name with
    | none => throw (.unresolvedSymbol option name)
    | some (_, v) =>
      if v.type.isScalar then pure ()
      else throw (.invalidOption option
        ("'" ++ name ++ "' is a " ++ v.type.name ++ " and cannot appear in a scalar formula"))
  pure e

end Elasto.Behaviour
