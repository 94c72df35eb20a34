import Elasto.Code.Statement

/-! # Code blocks

Generated code is grouped in blocks, each of a kind that says where the block goes in the
behaviour and each with the origin that produced it. A block prints one statement per
line. -/

namespace Elasto.Code

inductive BlockKind where
  | initializeLocalVariables
  | computeElasticPrediction
  | computeStress
  | computeFinalStress
  | predictionOperator
  | tangentOperator
  | integrator
  | updateAuxiliaryStateVariables
  deriving DecidableEq, Repr

namespace BlockKind

/-- The kinds in the order of the generated code. -/
def all : List BlockKind :=
  [.initializeLocalVariables, .computeElasticPrediction, .computeStress, .computeFinalStress,
    .predictionOperator, .tangentOperator, .integrator, .updateAuxiliaryStateVariables]

def name : BlockKind → String
  | .initializeLocalVariables => "InitializeLocalVariables"
  | .computeElasticPrediction => "ComputeElasticPrediction"
  | .computeStress => "ComputeStress"
  | .computeFinalStress => "ComputeFinalStress"
  | .predictionOperator => "PredictionOperator"
  | .tangentOperator => "TangentOperator"
  | .integrator => "Integrator"
  | .updateAuxiliaryStateVariables => "UpdateAuxiliaryStateVariables"

def ofName? (s : String) : Option BlockKind := all.find? (·.name == s)

end BlockKind

structure Block (α : Type := Float) where
  origin : String
  statements : List (Statement α) := []

namespace Block

def push {α : Type} (b : Block α) (s : Statement α) : Block α :=
  { b with statements := b.statements ++ [s] }

/-- The lines of the block. -/
def lines (b : Block) : List String := b.statements.map Statement.render

/-- The text of the block: every statement followed by a line break. -/
def text (b : Block) : String := String.join (b.lines.map (· ++ "\n"))

/-- Whether every statement can be executed. -/
def isEvaluable {α : Type} (b : Block α) : Bool := b.statements.all Statement.isEvaluable

def execute (b : Block) (env : Tensor.Env) : Except Tensor.ExprError Tensor.Env :=
  Code.execute b.statements env

end Block

end Elasto.Code
