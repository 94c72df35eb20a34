import Elasto.Behaviour.Data
import Elasto.Behaviour.Error
import Elasto.Numeric.Check

/-! # Option schemas

A brick states the options it takes: name, type, default, and the options each one
conflicts with or requires. `validateDataMap` checks a map of options against the schema,
key by key in sorted order, and reports the first problem. -/

namespace Elasto.Behaviour

inductive OptionType where
  | boolean
  | real
  | string
  | enumeration (allowed : List String)
  | materialProperty

namespace OptionType

def kindName : OptionType → String
  | .boolean => "Boolean"
  | .real => "Real"
  | .string => "String"
  | .enumeration _ => "Enumeration"
  | .materialProperty => "MaterialProperty"

def describe : OptionType → String
  | .boolean => "a boolean"
  | .real => "a real number"
  | .string => "a string"
  | .enumeration allowed => "one of " ++ ", ".intercalate allowed
  | .materialProperty => "a number or a formula"

/-- Whether a value has the type: reals must be finite, integers pass as reals. -/
def accepts : OptionType → Data → Bool
  | .boolean, .bool _ => true
  | .real, .real x => Numeric.isFinite x
  | .real, .int _ => true
  | .string, .str _ => true
  | .enumeration allowed, .str s => allowed.contains s
  | .materialProperty, .real x => Numeric.isFinite x
  | .materialProperty, .int _ | .materialProperty, .str _ => true
  | _, _ => false

end OptionType

structure OptionSpec where
  name : String
  description : String
  type : OptionType
  default : Option Data := none
  conflicts : List String := []
  requires : List String := []

def OptionSpec.validate (o : OptionSpec) (d : Data) : Except BehaviourError Unit :=
  if o.type.accepts d then .ok ()
  else .error (.invalidOption o.name ("expected " ++ o.type.describe ++ ", got " ++ d.display))

/-- Checks one entry of the map `data`: the key is known, the value has its type, no
conflicting option is present and every required one is. -/
def checkEntry (schema : List OptionSpec) (data : DataMap) (key : String) (value : Data) :
    Except BehaviourError Unit := do
  let some o := schema.find? (·.name == key)
    | throw (.invalidOption key "unknown option")
  o.validate value
  if let some other := o.conflicts.find? data.contains then
    throw (.invalidOption key ("conflicts with option '" ++ other ++ "'"))
  if let some missing := o.requires.find? (!data.contains ·) then
    throw (.invalidOption key ("requires option '" ++ missing ++ "'"))

/-- Checks every entry of the map in key order, stopping at the first refused one. -/
def validateDataMap (schema : List OptionSpec) (data : DataMap) : Except BehaviourError Unit :=
  data.forM fun (key, value) => checkEntry schema data key value

/-- The value given for an option, else the schema's default. -/
def valueOrDefault (schema : List OptionSpec) (data : DataMap) (name : String) : Option Data :=
  match data.get? name with
  | some d => some d
  | none => (schema.find? (·.name == name)).bind (·.default)

end Elasto.Behaviour
