import Elasto.Behaviour.Data
import Elasto.Document.Node
import Elasto.Document.Scalar
import Elasto.Json.Numeral

/-! # Reading values out of documents

How a document tree is read as the values of a behaviour source. A field read as a string
takes any YAML scalar as written, whatever its tag, but only a string from JSON. A count
takes an unsigned integer, written plain in YAML or as a literal block scalar under
`!!int`. A variant of an enumeration is named by a string, by a YAML local tag on an empty
or null scalar, or in JSON by an object whose only entry maps the name to null. A record
and a collection may also be written as an empty plain YAML scalar; a JSON record may list
its fields in order, as an array.

Option data read where any value may stand keep the type the document gives: booleans,
integers of the signed 64-bit range, reals, strings, arrays and maps with string keys; a
null is no option value, and neither is a YAML node whose local tag names a variant. A
local tag whose bytes are not text names no variant: under it a plain scalar reads as if
untagged.

An alias is read as the node it repeats, and each time counts against a limit of a hundred
times the events of the document, so a small document cannot stand for a huge value. Every
collection read, record or value, takes one level of room; a document starts with 128
levels in YAML and 127 in JSON. Fields of a record that are not known are passed over
unread: their aliases are not followed and their depth is free. -/

namespace Elasto.Behaviour

open Elasto.Document

/-- What reading a document consults. -/
structure Reading where
  /-- The nodes the document's anchors mark, by number. -/
  anchors : Array Node := #[]
  /-- How many times aliases may be followed. -/
  jumps : Nat := 0
  /-- Whether a record may list its fields in order, as a sequence. -/
  positional : Bool := false

/-- Reading a document: the error says why the document does not fit. The state counts
the aliases followed. -/
abbrev Decode := ReaderT Reading (StateT Nat (Except String))

/-- The levels of collections a YAML document may nest. -/
def yamlRoom : Nat := 128

/-- The levels of collections a JSON document may nest. -/
def jsonRoom : Nat := 127

def i64Bound : Nat := Nat.pow 2 63

/-- The option value of a JSON number: an integer of the signed 64-bit range is an integer,
any other number a real, rounded correctly; `-0` is the real negative zero, and a number
too large for a real is refused. -/
def dataOfNumber (text : String) : Except String Data :=
  match Json.Numeral.read? text with
  | none => .error "invalid number"
  | some n =>
    if n.integral && n.neg && n.mant == 0 then .ok (.real (-0.0))
    else if n.integral && n.neg && n.mant ≤ i64Bound then .ok (.int (-(n.mant : Int)))
    else if n.integral && !n.neg && n.mant < i64Bound then .ok (.int n.mant)
    else
      let x := n.toFloat
      if x.isInf then .error "number out of range" else .ok (.real x)

/-- The option value of what a YAML scalar stands for. -/
def dataOfPlainValue : PlainValue → Except String Data
  | .null => .error "data did not match any variant of untagged enum Data"
  | .bool b => .ok (.bool b)
  | .unsigned n =>
    if n < i64Bound then .ok (.int n) else .ok (.real (Float64.ofDecimal false n 0))
  | .signed i => .ok (.int i)
  | .wide => .error "128-bit integers are not supported"
  | .real x => .ok (.real x)
  | .text s => .ok (.str s)

/-- The option value of a YAML scalar. A plain scalar is read by its form and a scalar
with a core tag as that type; other scalars are text. -/
def dataOfScalar (text : String) (style : ScalarStyle) : Option Tag → Except String Data
  | some tag =>
    if tag.variantName?.isSome then
      .error "untagged and internally tagged enums do not support enum input"
    else match resolveTagged tag style text with
      | some v => dataOfPlainValue v
      | none => .error "invalid value for a tagged scalar"
  | none => if style == .plain then dataOfPlainValue (resolvePlain text) else .ok (.str text)

/-- The node an alias repeats; any other node stands for itself. Following an alias
counts against the limit. -/
def resolve : Node → Decode Node
  | .alias id => do
    let jumps ← modifyGet fun k => (k + 1, k + 1)
    let r ← read
    if jumps > r.jumps then throw "repetition limit exceeded"
    match r.anchors[id]? with
    | some n => pure n
    | none => throw "unknown anchor"
  | n => pure n

/-- Refuses a YAML collection whose local tag names a variant where any value may stand. -/
def refuseLocalTag : Option Tag → Decode Unit
  | some tag => if tag.variantName?.isSome then
      throw "untagged and internally tagged enums do not support enum input" else pure ()
  | none => pure ()

/-- The room left inside a collection, if there is any. -/
def enter : Nat → Decode Nat
  | 0 => throw "recursion limit exceeded"
  | r + 1 => pure r

/-- An option value, with `room` levels of collections left. -/
def Node.data : Nat → Node → Decode Data
  | room, n => do
    match ← resolve n with
    | .null => throw "data did not match any variant of untagged enum Data"
    | .bool b => pure (.bool b)
    | .num text => MonadExcept.ofExcept (dataOfNumber text)
    | .str s => pure (.str s)
    | .scalar text style tag => MonadExcept.ofExcept (dataOfScalar text style tag)
    | .seq items tag =>
      refuseLocalTag tag
      match room with
      | 0 => throw "recursion limit exceeded"
      | r + 1 => pure (.array (← items.mapM (Node.data r)))
    | .map entries tag =>
      refuseLocalTag tag
      match room with
      | 0 => throw "recursion limit exceeded"
      | r + 1 =>
        let kvs ← entries.mapM fun (k, v) => do
          match ← Node.data r k with
          | .str key => pure (key, ← Node.data r v)
          | _ => throw "invalid type: expected a string key"
        pure (.map (DataMap.ofList kvs))
    | .alias _ => throw "unknown anchor"

namespace Node

/-- A string: any YAML scalar as written, whatever its tag, or a JSON string. -/
def text (n : Node) : Decode String := do
  match ← resolve n with
  | .str s => pure s
  | .scalar t _ _ => pure t
  | _ => throw "expected a string"

/-- An optional string: null, or a string. A plain YAML scalar is null when it is empty
or a null word, or, under a tag, when the tag is `!!null`, which holds nothing else. -/
def optText (n : Node) : Decode (Option String) := do
  match ← resolve n with
  | .null => pure none
  | .scalar t style tag =>
    if style != .plain then pure (some t)
    else match tag with
      | some tg =>
        if tg != Tag.core "null" then pure (some t)
        else if isNullWord t then pure none
        else throw "expected null"
      | none => if t.isEmpty || isNullWord t then pure none else pure (some t)
  | .str s => pure (some s)
  | _ => throw "expected a string"

/-- A count: an unsigned 64-bit integer. In YAML it is written plain, whatever its tag, or
as a literal block scalar tagged `!!int`. -/
def count (n : Node) : Decode Nat := do
  match ← resolve n with
  | .num text =>
    match Json.Numeral.read? text with
    | some n => if n.integral && !n.neg && n.mant < Nat.pow 2 64 then pure n.mant else throw "expected a count"
    | none => throw "expected a count"
  | .scalar t style tag =>
    if style == .plain || (style == .literal && tag == some (Tag.core "int")) then
      match resolvePlain t with
      | .unsigned n => pure n
      | _ => throw "expected a count"
    else throw "expected a count"
  | _ => throw "expected a count"

/-- A unit variant of an enumeration, by name. -/
def variant {α : Type} (all : List α) (name : α → String) (room : Nat) (n : Node) : Decode α := do
  let s ← match ← resolve n with
    | .str s => pure s
    | .scalar t style tag =>
      match tag.bind Tag.variantName? with
      | some v =>
        if style == .plain && (t.isEmpty || isNullWord t) then pure v
        else throw "expected a unit variant"
      | none => pure t
    | .map [(.str k, .null)] none => do let _ ← enter room; pure k
    | _ => throw "expected a variant name"
  match all.find? (name · == s) with
  | some v => pure v
  | none => throw ("unknown variant '" ++ s ++ "'")

/-- The items of a sequence, with the room left inside it; an empty plain YAML scalar is
an empty sequence. -/
def items (room : Nat) (n : Node) : Decode (Nat × List Node) := do
  match ← resolve n with
  | .seq xs _ => pure (← enter room, xs)
  | .scalar "" .plain _ => pure (room, [])
  | _ => throw "expected a sequence"

/-- An option map, with `room` levels of collections left; a key is any scalar's text,
and of equal keys the last wins. -/
def dataMap (room : Nat) (n : Node) : Decode DataMap := do
  match ← resolve n with
  | .map es _ =>
    let r ← enter room
    pure (DataMap.ofList (← es.mapM fun (k, v) => do pure (← Node.text k, ← Node.data r v)))
  | .scalar "" .plain _ => pure []
  | _ => throw "expected a map"

end Node

/-- The known fields of a record, and the room left inside it. -/
structure Fields where
  room : Nat
  entries : List (String × Node)

/-- The fields of a record: each known field at most once, other keys passed over. -/
def record (known : List String) (room : Nat) (n : Node) : Decode Fields := do
  match ← resolve n with
  | .map es _ =>
    let r ← enter room
    let entries ← es.foldlM (fun acc (k, v) => do
      let key ← Node.text k
      if !known.contains key then pure acc
      else if acc.any (·.1 == key) then throw ("duplicate field '" ++ key ++ "'")
      else pure (acc ++ [(key, v)])) []
    pure { room := r, entries }
  | .seq xs _ =>
    if !(← read).positional then throw "expected a map"
    let r ← enter room
    if xs.length > known.length then throw "trailing elements"
    pure { room := r, entries := known.zip xs }
  | .scalar "" .plain _ => pure { room, entries := [] }
  | _ => throw "expected a map"

namespace Fields

/-- A required field of a record. -/
def required {α : Type} (fs : Fields) (name : String) (readField : Nat → Node → Decode α) :
    Decode α :=
  match fs.entries.lookup name with
  | some n => readField fs.room n
  | none => throw ("missing field '" ++ name ++ "'")

/-- A field of a record with a default. -/
def optional {α : Type} (fs : Fields) (name : String) (default : α)
    (readField : Nat → Node → Decode α) : Decode α :=
  match fs.entries.lookup name with
  | some n => readField fs.room n
  | none => pure default

end Fields

/-- Reads a YAML document: an empty document reads as an empty plain scalar. -/
def decodeYaml {α : Type} (t : Tree) (readRoot : Nat → Node → Decode α) : Except String α :=
  ((readRoot yamlRoom (t.root.getD (.scalar "" .plain none))).run
    { anchors := t.anchors, jumps := t.events * 100 }).run' 0

/-- Reads a JSON document. -/
def decodeJson {α : Type} (j : Json) (readRoot : Nat → Node → Decode α) : Except String α :=
  ((readRoot jsonRoom (Node.ofJson j)).run { positional := true }).run' 0

end Elasto.Behaviour
