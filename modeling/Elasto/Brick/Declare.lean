import Elasto.Behaviour.Description
import Elasto.Brick.Error

/-! # Declarations shared between bricks

A brick may reuse a variable that is already declared with the category and type it needs,
and may set an attribute that already has the value it wants. -/

namespace Elasto.Brick

open Elasto.Behaviour

/-- A name is free, or declared with the given category and type. -/
def checkReusable (d : Description) (c : Category) (t : VarType) (name : String) :
    Except BrickError Unit :=
  match d.declared? name with
  | some (c', v) => if c' = c ∧ v.type = t then .ok () else .error (.behaviour (.duplicateVariable name))
  | none => .ok ()

/-- Every attribute is unset or already has the requested value. -/
def checkAttributes (d : Description) (attributes : List (String × Attribute)) :
    Except BrickError Unit :=
  attributes.forM fun (name, requested) =>
    match d.attribute? name with
    | some existing =>
      if existing.same requested then .ok ()
      else .error (.behaviour (.attributeConflict name existing.display requested.display))
    | none => .ok ()

/-- Declares a variable unless it is declared with this category and type already. -/
def declareIfAbsent (d : Description) (c : Category) (v : Variable) :
    Except BrickError Description :=
  match d.declared? v.name with
  | some (c', w) =>
    if c' = c ∧ w.type = v.type then .ok d else liftBehaviour (d.declare c v)
  | none => liftBehaviour (d.declare c v)

/-- Sets the attributes in order. -/
def setAttributes (d : Description) (attributes : List (String × Attribute)) :
    Except BrickError Description :=
  attributes.foldlM (fun d (name, a) => liftBehaviour (d.setAttribute name a)) d

end Elasto.Brick
