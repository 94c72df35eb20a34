import Elasto.Behaviour.Error
import Elasto.Numeric.Check

/-! # Brick errors and call order

A brick reports a refused option as a configuration error naming the option, a call out of
order as a state error, and passes on errors of the description, of expressions and of
numeric checks. A brick is initialized once, before anything else, and each of its hooks
runs at most once. -/

namespace Elasto.Brick

open Elasto.Behaviour Elasto.Tensor Elasto.Numeric

inductive BrickError where
  | configuration (option reason : String)
  | state (what : String)
  | behaviour (e : BehaviourError)
  | expr (e : ExprError)
  | numeric (e : NumericError)

namespace BrickError

def message : BrickError → String
  | .configuration option reason =>
    "Configuration error for option '" ++ option ++ "': " ++ reason
  | .state what => "State error: " ++ what
  | .behaviour e => "Behaviour error: " ++ e.message
  | .expr e => "Expression error: " ++ e.message
  | .numeric e => "Numeric error: " ++ e.message

/-- A description error seen by a brick: a refused option or an unknown identifier in a
formula is a configuration error of that option. -/
def ofBehaviour : BehaviourError → BrickError
  | .invalidOption option reason => .configuration option reason
  | .unresolvedSymbol option name => .configuration option ("unknown identifier '" ++ name ++ "'")
  | e => .behaviour e

end BrickError

/-- A description step inside a brick. -/
def liftBehaviour {α : Type} (r : Except BehaviourError α) : Except BrickError α :=
  r.mapError BrickError.ofBehaviour

/-- An expression step inside a brick. -/
def liftExpr {α : Type} (r : Except ExprError α) : Except BrickError α :=
  r.mapError BrickError.expr

/-- The hooks through which a brick adds code to a behaviour. -/
inductive Hook where
  | elasticPrediction
  | stressWithStiffnessTensor
  | isotropicStress
  | tangentOperator
  | predictionOperator
  deriving DecidableEq, Repr

def Hook.name : Hook → String
  | .elasticPrediction => "declare_elastic_prediction"
  | .stressWithStiffnessTensor => "declare_stress_with_stiffness_tensor"
  | .isotropicStress => "declare_isotropic_stress"
  | .tangentOperator => "add_generic_tangent_operator_support"
  | .predictionOperator => "add_generic_prediction_operator_support"

/-- Where a brick is in its life: initialized or not, and the hooks it has completed. -/
structure Tracker where
  initialized : Bool := false
  completed : List Hook := []

namespace Tracker

def checkNotInitialized (t : Tracker) : Except BrickError Unit :=
  if t.initialized then .error (.state "initialize called twice") else .ok ()

def requireInitialized (t : Tracker) (what : String) : Except BrickError Unit :=
  if t.initialized then .ok () else .error (.state (what ++ " called before initialize"))

/-- A hook may run once the brick is initialized, and only once. -/
def checkHook (t : Tracker) (h : Hook) : Except BrickError Unit := do
  t.requireInitialized h.name
  if t.completed.contains h then throw (.state (h.name ++ " called twice"))

def complete (t : Tracker) (h : Hook) : Tracker :=
  if t.completed.contains h then t else { t with completed := t.completed ++ [h] }

theorem complete_initialized (t : Tracker) (h : Hook) :
    (t.complete h).initialized = t.initialized := by
  unfold complete; split <;> rfl

theorem mem_complete (t : Tracker) (h : Hook) : h ∈ (t.complete h).completed := by
  unfold complete
  split
  · rename_i hc; simpa using hc
  · simp

theorem checkHook_eq_ok_iff {t : Tracker} {h : Hook} :
    t.checkHook h = .ok () ↔ t.initialized = true ∧ h ∉ t.completed := by
  unfold checkHook requireInitialized
  by_cases hi : t.initialized <;> by_cases hc : h ∈ t.completed <;>
    simp [hi, hc, bind, Except.bind, pure, Except.pure]

/-- A completed hook of an initialized brick refuses to run again. -/
theorem checkHook_complete {t : Tracker} {h : Hook} (hi : t.initialized = true) :
    (t.complete h).checkHook h = .error (.state (h.name ++ " called twice")) := by
  have hm := mem_complete t h
  have hi' := complete_initialized t h
  unfold checkHook requireInitialized
  simp [hi', hi, hm, bind, Except.bind, throw, throwThe, MonadExceptOf.throw]

end Tracker

end Elasto.Brick
