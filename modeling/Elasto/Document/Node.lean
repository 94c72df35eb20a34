import Elasto.Json.Value

/-! # Document trees

A behaviour source is written in YAML or in JSON; both are read into one tree. The tree
keeps what decides the meaning of a value later. A JSON number keeps its text. A YAML
scalar keeps its text, how it was written and its tag: whether a plain scalar is a null, a
boolean, a number or a string depends on what is read from it, while a quoted or block
scalar is text. YAML collections keep their tags, mapping keys are nodes of their own, and
an alias names the anchored node it repeats by the anchor's number. -/

namespace Elasto.Document

/-- How a YAML scalar is written. -/
inductive ScalarStyle where
  | plain
  | singleQuoted
  | doubleQuoted
  | literal
  | folded
  deriving DecidableEq, Repr, Inhabited

/-- A YAML tag, as the bytes it spells once its escapes are decoded. An escape may write
any octets shaped like a UTF-8 sequence, so a tag need not spell text. -/
structure Tag where
  bytes : List UInt8
  deriving DecidableEq, Inhabited, Repr

namespace Tag

/-- The tag a text spells. -/
def ofString (s : String) : Tag := ⟨s.toUTF8.toList⟩

/-- The tag a run of bytes spells up to its first zero byte. Tags are handed on as
zero-terminated strings, so an escaped `%00` ends a tag there. -/
def ofBytes (bs : List UInt8) : Tag := ⟨bs.takeWhile (· != 0)⟩

/-- The tag `!!name` of the core schema, written out. -/
def core (name : String) : Tag := ofString ("tag:yaml.org,2002:" ++ name)

/-- Whether a tag is local to the document (`!x`), not a global one. -/
def isLocal (t : Tag) : Bool := t.bytes.head? == some '!'.toUInt8

/-- The variant of an enumeration a local tag names: the tag without its `!`, or `!` for
the bare tag. A tag that is not local names none, and neither does one whose bytes are not
UTF-8 text. -/
def variantName? (t : Tag) : Option String :=
  match t.bytes with
  | b :: rest =>
    if b != '!'.toUInt8 then none
    else String.fromUTF8? (ByteArray.mk (if rest.isEmpty then t.bytes else rest).toArray)
  | [] => none

end Tag

inductive Node where
  /-- The JSON null. -/
  | null
  /-- A JSON boolean. -/
  | bool (b : Bool)
  /-- A JSON number, as written. -/
  | num (text : String)
  /-- A JSON string. -/
  | str (s : String)
  /-- A YAML scalar: its text, its style and its tag, if it has one. -/
  | scalar (text : String) (style : ScalarStyle) (tag : Option Tag)
  /-- A sequence, with its YAML tag, if it has one. -/
  | seq (items : List Node) (tag : Option Tag)
  /-- A mapping, with its YAML tag, if it has one; the entries keep their order. -/
  | map (entries : List (Node × Node)) (tag : Option Tag)
  /-- A YAML alias of the node its anchor marks, by the anchor's number. -/
  | alias (anchor : Nat)
  deriving Inhabited

/-- A document: its root node, if the text holds one, and the nodes that YAML anchors
mark, by number. Repeating anchored nodes through aliases is bounded by `events`, the
length of the document as a series of parse events. -/
structure Tree where
  root : Option Node
  anchors : Array Node := #[]
  events : Nat := 0

mutual

/-- The tree of a JSON value. -/
def Node.ofJson : Json → Node
  | .null => .null
  | .bool b => .bool b
  | .num text => .num text
  | .str s => .str s
  | .arr items => .seq (Node.ofJsonItems items) none
  | .obj fields => .map (Node.ofJsonFields fields) none

def Node.ofJsonItems : List Json → List Node
  | [] => []
  | j :: rest => Node.ofJson j :: Node.ofJsonItems rest

def Node.ofJsonFields : List (String × Json) → List (Node × Node)
  | [] => []
  | (k, j) :: rest => (.str k, Node.ofJson j) :: Node.ofJsonFields rest

end

/-- The document of a JSON value. -/
def Tree.ofJson (j : Json) : Tree := { root := some (Node.ofJson j) }

end Elasto.Document
