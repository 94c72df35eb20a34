import Elasto.Numeric.Check
import Elasto.Tensor.Expr

/-! # Expression errors

What can go wrong while reading, differentiating or evaluating an expression. Each cause
is a constructor; `ExprError.message` gives its text. -/

namespace Elasto.Tensor

/-- Why a formula could not be read. -/
inductive ParseIssue where
  | unexpectedChar (c : Char)
  | invalidNumber (text : String)
  | expectedClose
  | expectedOperand
  | arity (name : String) (count : Nat)
  | unknownFunction (name : String)
  | trailingInput

def ParseIssue.message : ParseIssue → String
  | .unexpectedChar c => "unexpected character '" ++ c.toString ++ "'"
  | .invalidNumber text => "invalid number '" ++ text ++ "'"
  | .expectedClose => "expected ')'"
  | .expectedOperand => "expected a number, an identifier or '('"
  | .arity name count =>
    "function '" ++ name ++ "' expects " ++ toString count ++ " argument(s)"
  | .unknownFunction name => "unknown function '" ++ name ++ "'"
  | .trailingInput => "unexpected trailing input"

/-- Derivatives the differentiation rules do not cover. -/
inductive Unsupported where
  /-- `min(a, b)` where an operand depends on the variable. -/
  | minOfDependent
  /-- `C : t` with `C` depending on the second-order variable. -/
  | dependentStiffness

def Unsupported.message : Unsupported → String
  | .minOfDependent => "min of expressions depending on the variable"
  | .dependentStiffness => "fourth-order tensor depending on the differentiation variable"

inductive ExprError where
  | unbound (name : String)
  | typeMismatch (name : String) (expected found : Kind)
  | unsupported (what : Unsupported)
  | parse (offset : Nat) (issue : ParseIssue)
  | notEvaluable (code : String)
  | numeric (e : Numeric.NumericError)

def ExprError.message : ExprError → String
  | .unbound name => "Unbound symbol: " ++ name
  | .typeMismatch name expected found =>
    "Type mismatch for " ++ name ++ ": expected " ++ expected.name ++ ", found " ++ found.name
  | .unsupported what => "Unsupported derivative: " ++ what.message
  | .parse offset issue =>
    "Formula parse error at offset " ++ toString offset ++ ": " ++ issue.message
  | .notEvaluable code => "Statement can not be evaluated: " ++ code
  | .numeric e => "Numeric error: " ++ e.message

end Elasto.Tensor
