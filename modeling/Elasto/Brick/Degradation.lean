import Elasto.Brick.Declare
import Elasto.Brick.Names
import Elasto.Brick.Options
import Elasto.Tensor.Build

/-! # Stiffness degradation

A damaged Hooke law scales the stiffness by `1 - d` for a scalar damage state variable `d`.
At mid step the damage is `d + θ Δd`; the operators given to solvers use the damage
capped by an upper bound below one, so that the stiffness they see never vanishes. -/

namespace Elasto.Brick

open Elasto.Behaviour Elasto.Tensor

/-- The point of the time step at which a quantity is taken. -/
inductive Stage where
  | beginningOfStep
  | midStep
  | endOfStep
  deriving DecidableEq, Repr

def Stage.name : Stage → String
  | .beginningOfStep => "BeginningOfStep"
  | .midStep => "MidStep"
  | .endOfStep => "EndOfStep"

inductive Degradation (α : Type := Float) where
  | none
  | isotropic (variable_ : String) (upperBound : α)

/-- Letters, digits and underscores, not starting with a digit. -/
def isIdentifier (s : String) : Bool :=
  match s.toList with
  | c :: rest => (c.isAlpha || c == '_') && rest.all (fun c => c.isAlphanum || c == '_')
  | [] => false

namespace Degradation

/-- The degradation the damage options ask for. -/
def ofOptions (r : Reader) : Except BrickError Degradation := do
  let v ← r.string Opt.damageVariable
  if !isIdentifier v then
    throw (.configuration Opt.damageVariable ("'" ++ v ++ "' is not a valid variable name"))
  if reservedNames.contains v then
    throw (.configuration Opt.damageVariable ("'" ++ v ++ "' is reserved by the stress potential"))
  let ub ← r.real Opt.damageUpperBound
  match Numeric.ensureInHalfOpen ub 0 1 "damage upper bound" with
  | .ok ub => pure (.isotropic v ub)
  | .error e => throw (.configuration Opt.damageUpperBound e.message)

section

variable {α : Type}

def damage? : Degradation α → Option String
  | .none => Option.none
  | .isotropic v _ => some v

variable [Number α]

/-- `1 - d` with the damage taken at the given stage. -/
def factor (g : Degradation α) (stage : Stage) (weight : Scalar α) : Scalar α :=
  match g with
  | .none => Scalar.one
  | .isotropic v _ =>
    let d := Scalar.member v
    let d := if stage = .midStep then d + weight * Scalar.member (increment v) else d
    Scalar.one - d

/-- `1 - min(d, bound)`. -/
def boundedFactor : Degradation α → Scalar α
  | .none => Scalar.one
  | .isotropic v ub => Scalar.one - Scalar.mkMin (Scalar.member v) (.const ub)

end

def attributes : Degradation → List (String × Attribute)
  | .none => []
  | .isotropic v ub => [(Opt.damageVariable, .str v), (Opt.damageUpperBound, .real ub)]

/-- The damage variable is free or a real state variable, and the attributes agree. -/
def check (g : Degradation) (d : Description) : Except BrickError Unit :=
  match g with
  | .none => .ok ()
  | .isotropic v _ => do
    match d.declared? v with
    | some (.stateVariable, w) =>
      if w.type = .real then pure ()
      else throw (.configuration Opt.damageVariable ("'" ++ v ++ "' is already declared as " ++
        Category.stateVariable.name ++ " of type " ++ w.type.name))
    | some (c, w) =>
      throw (.configuration Opt.damageVariable ("'" ++ v ++ "' is already declared as " ++ c.name ++
        " of type " ++ w.type.name))
    | Option.none => pure ()
    checkAttributes d g.attributes

/-- Declares the damage variable unless it is declared already, and sets the attributes. -/
def declare (g : Degradation) (d : Description) : Except BrickError Description := do
  g.check d
  match g with
  | .none => pure d
  | .isotropic v _ =>
    let d ← if d.hasVariable v then pure d else
      liftBehaviour (d.declare .stateVariable
        { type := .real, name := v, entryName := some "Damage", description := "isotropic damage" })
    setAttributes d g.attributes

end Degradation

end Elasto.Brick
