import Elasto.Tensor.Error

/-! # Behaviour errors

What can go wrong while describing a behaviour: clashing declarations and attributes,
unknown names, refused options, a source that cannot be read. -/

namespace Elasto.Behaviour

inductive BehaviourError where
  | duplicateVariable (name : String)
  | duplicateLocalVariable (name : String)
  | attributeConflict (name existing requested : String)
  | unknownVariable (name : String)
  | unresolvedSymbol (option name : String)
  | invalidOption (option reason : String)
  | duplicateJacobianContribution (owner equation target : String)
  | invalidSource (what : String)
  | expr (e : Tensor.ExprError)
  /-- A YAML text that does not describe the expected value. -/
  | yaml
  /-- A JSON text that does not describe the expected value. -/
  | json

def BehaviourError.message : BehaviourError → String
  | .duplicateVariable name => "Variable '" ++ name ++ "' is already declared"
  | .duplicateLocalVariable name => "Local data structure already holds '" ++ name ++ "'"
  | .attributeConflict name existing requested =>
    "Attribute '" ++ name ++ "' already set to " ++ existing ++ ", cannot set it to " ++ requested
  | .unknownVariable name => "Unknown variable '" ++ name ++ "'"
  | .unresolvedSymbol option name => "Option '" ++ option ++ "': unknown identifier '" ++ name ++ "'"
  | .invalidOption option reason => "Option '" ++ option ++ "': " ++ reason
  | .duplicateJacobianContribution owner equation target =>
    "'" ++ owner ++ "' already contributed to the Jacobian block (" ++ equation ++ ", " ++
      target ++ ")"
  | .invalidSource what => "Invalid behaviour source: " ++ what
  | .expr e => "Expression error: " ++ e.message
  | .yaml => "YAML error"
  | .json => "JSON error"

end Elasto.Behaviour
