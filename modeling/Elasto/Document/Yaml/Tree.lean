import Elasto.Document.Yaml.Token.Stream

/-! # The document tree of a token stream

The tokens of a YAML stream are read into the tree of its document. A node is an alias,
or has properties (an anchor and a tag, in either order) and then its content: a scalar,
a flow or block collection, or nothing, which stands for an empty plain scalar. A block
mapping holds key and value tokens, each followed by a node or by nothing; a sequence
whose entries stand at the indentation of the mapping that holds it has no start and end
tokens of its own. In a flow sequence an entry with a key is a mapping of one entry.

A stream holds at most one document here. The first document may start without `---`
when it has no directives; a stream without any document is empty. Directives declare
tag handles, which every tag but a verbatim one is written with, and the YAML version,
which must be 1.1 or 1.2.

Anchors are numbered as they are met: an anchor gets the number of distinct anchor names
met before it, so a name used again, or a new name after one used again, may take the
number of an earlier anchor; an alias repeats the node that last took the number its name
had when the alias was read. The document also counts its events: one for each scalar and
alias, two for each collection. -/

namespace Elasto.Document.Yaml

/-- The tag handles every document knows. -/
def defaultTagDirectives : List (String × Tag) :=
  [("!", .ofString "!"), ("!!", .ofString "tag:yaml.org,2002:")]

/-- A document tree under construction, with the tokens still to read. -/
structure Builder where
  /-- The tokens not read yet. -/
  tokens : List Token
  /-- The tag handles in force, with their prefixes. -/
  tagDirectives : List (String × Tag) := defaultTagDirectives
  /-- Each anchor name met, with the number it stands for now. -/
  names : List (String × Nat) := []
  /-- For each anchor number, the event number of the node that took it last and that
  node, once read. -/
  marked : Array (Nat × Node) := #[]
  /-- The events read. -/
  events : Nat := 0

abbrev BuildTree := StateT Builder (Except String)

namespace Builder

/-- The next token; the stream ends after the last. -/
def peek : BuildTree Token := do
  match (← get).tokens with
  | t :: _ => pure t
  | [] => pure .streamEnd

def skip : BuildTree Unit := modify fun s => { s with tokens := s.tokens.drop 1 }

/-- Counts an event, giving its number. -/
def event : BuildTree Nat := do
  let s ← get
  set { s with events := s.events + 1 }
  pure s.events

/-- Counts the first event of a node, and gives its anchor a number if it has one. The
result is the anchor's number and the event number, to store the node under when it is
read. -/
def begin (anchor : Option String) : BuildTree (Option (Nat × Nat)) := do
  let pos ← event
  match anchor with
  | none => pure none
  | some name =>
    let s ← get
    let id := s.names.length
    let names := (name, id) :: s.names.filter (·.1 != name)
    let marked :=
      if id < s.marked.size then s.marked.set! id (pos, .null) else s.marked.push (pos, .null)
    set { s with names, marked }
    pure (some (id, pos))

/-- Stores a node under its anchor's number, unless a later node has taken the number. -/
def finish (slot : Option (Nat × Nat)) (n : Node) : BuildTree Node := do
  match slot with
  | none => pure n
  | some (id, pos) =>
    modify fun s =>
      match s.marked[id]? with
      | some (p, _) => if p == pos then { s with marked := s.marked.set! id (pos, n) } else s
      | none => s
    pure n

/-- The full tag of a handle and suffix: the handle's prefix, then the suffix up to its
first zero byte; an empty handle writes the tag out. -/
def resolveTag (handle : String) (suffix : List UInt8) : BuildTree Tag := do
  if handle.isEmpty then pure (Tag.ofBytes suffix)
  else match (← get).tagDirectives.lookup handle with
    | some pre => pure ⟨pre.bytes ++ (Tag.ofBytes suffix).bytes⟩
    | none => throw "found undefined tag handle"

/-- The properties in front of a node: its anchor and its full tag. -/
def properties : BuildTree (Option String × Option Tag) := do
  match ← peek with
  | .anchor a =>
    skip
    match ← peek with
    | .tag h s => skip; pure (some a, some (← resolveTag h s))
    | _ => pure (some a, none)
  | .tag h s =>
    skip
    let tag ← resolveTag h s
    match ← peek with
    | .anchor a => skip; pure (some a, some tag)
    | _ => pure (none, some tag)
  | _ => pure (none, none)

/-- An empty plain scalar, with properties. -/
def emptyScalar (anchor : Option String) (tag : Option Tag) : BuildTree Node := do
  finish (← begin anchor) (.scalar "" .plain tag)

/-- Whether a token ends a block entry or key that has no node. -/
def endsBlockNode : Token → Bool
  | .key | .value | .blockEnd => true
  | _ => false

/-- Whether a token ends a flow entry or key that has no node. -/
def endsFlowNode : Token → Bool
  | .value | .flowEntry | .flowSequenceEnd | .flowMappingEnd => true
  | _ => false

mutual

/-- A node. In block context block collections may start here; an indentless sequence
may stand as the key or value of a block mapping. -/
def node : Nat → Bool → Bool → BuildTree Node
  | 0, _, _ => throw "the document is nested too deeply"
  | fuel + 1, block, indentless => do
    match ← peek with
    | .alias name =>
      skip
      match (← get).names.lookup name with
      | some id => let _ ← event; pure (.alias id)
      | none => throw "found unknown anchor"
    | _ =>
      let (anchor, tag) ← properties
      let empty : BuildTree Node :=
        if anchor.isSome || tag.isSome then emptyScalar anchor tag
        else throw "did not find expected node content"
      match ← peek with
      | .scalar text style =>
        skip
        finish (← begin anchor) (.scalar text style tag)
      | .blockEntry =>
        if indentless then do
          let slot ← begin anchor
          let items ← indentlessEntries fuel []
          let _ ← event
          finish slot (.seq items tag)
        else empty
      | .flowSequenceStart =>
        skip
        let slot ← begin anchor
        let items ← flowSequenceEntries fuel true []
        finish slot (.seq items tag)
      | .flowMappingStart =>
        skip
        let slot ← begin anchor
        let entries ← flowMappingEntries fuel true []
        finish slot (.map entries tag)
      | .blockSequenceStart =>
        if block then do
          skip
          let slot ← begin anchor
          let items ← blockSequenceEntries fuel []
          finish slot (.seq items tag)
        else empty
      | .blockMappingStart =>
        if block then do
          skip
          let slot ← begin anchor
          let entries ← blockMappingEntries fuel []
          finish slot (.map entries tag)
        else empty
      | _ => empty

/-- The entries of a block sequence, up to its end. -/
def blockSequenceEntries : Nat → List Node → BuildTree (List Node)
  | 0, _ => throw "the document is nested too deeply"
  | fuel + 1, acc => do
    match ← peek with
    | .blockEntry =>
      skip
      let item ← match ← peek with
        | .blockEntry | .blockEnd => emptyScalar none none
        | _ => node fuel true false
      blockSequenceEntries fuel (item :: acc)
    | .blockEnd =>
      skip
      let _ ← event
      pure acc.reverse
    | _ => throw "did not find expected '-' indicator"

/-- The entries of a sequence without indentation, up to the first token that is not an
entry. -/
def indentlessEntries : Nat → List Node → BuildTree (List Node)
  | 0, _ => throw "the document is nested too deeply"
  | fuel + 1, acc => do
    match ← peek with
    | .blockEntry =>
      skip
      let t ← peek
      let item ← if t matches .blockEntry || endsBlockNode t then emptyScalar none none
        else node fuel true false
      indentlessEntries fuel (item :: acc)
    | _ => pure acc.reverse

/-- The node after a key or value indicator of a block mapping, or an empty one. -/
def blockMappingNode : Nat → BuildTree Node
  | 0 => throw "the document is nested too deeply"
  | fuel + 1 => do
    if endsBlockNode (← peek) then emptyScalar none none else node fuel true true

/-- The entries of a block mapping, up to its end. -/
def blockMappingEntries : Nat → List (Node × Node) → BuildTree (List (Node × Node))
  | 0, _ => throw "the document is nested too deeply"
  | fuel + 1, acc => do
    match ← peek with
    | .key =>
      skip
      let k ← blockMappingNode fuel
      let v ← match ← peek with
        | .value => do skip; blockMappingNode fuel
        | _ => emptyScalar none none
      blockMappingEntries fuel ((k, v) :: acc)
    | .blockEnd =>
      skip
      let _ ← event
      pure acc.reverse
    | _ => throw "did not find expected key"

/-- The node after a key or value indicator in a flow collection, or an empty one. -/
def flowNode : Nat → BuildTree Node
  | 0 => throw "the document is nested too deeply"
  | fuel + 1 => do
    if endsFlowNode (← peek) then emptyScalar none none else node fuel false false

/-- The value of a flow mapping entry: the node after a value indicator, if there is
one. -/
def flowValue : Nat → BuildTree Node
  | 0 => throw "the document is nested too deeply"
  | fuel + 1 => do
    match ← peek with
    | .value => skip; flowNode fuel
    | _ => emptyScalar none none

/-- The entries of a flow sequence, up to its end; entries are separated by commas, and
a comma may follow the last. An entry that starts with a key indicator is a mapping of one
entry; when a value indicator, a comma or the closing bracket follows the key indicator
directly, the key is empty and that token is taken up with it, so `[?]]` closes only at
its second bracket. -/
def flowSequenceEntries : Nat → Bool → List Node → BuildTree (List Node)
  | 0, _, _ => throw "the document is nested too deeply"
  | fuel + 1, first, acc => do
    if (← peek) matches .flowSequenceEnd then
      skip
      let _ ← event
      return acc.reverse
    if !first then
      if (← peek) matches .flowEntry then skip
      else throw "did not find expected ',' or ']'"
    match ← peek with
    | .key =>
      skip
      let _ ← event
      let k ← match ← peek with
        | .value | .flowEntry | .flowSequenceEnd => skip; emptyScalar none none
        | _ => node fuel false false
      let v ← flowValue fuel
      let _ ← event
      flowSequenceEntries fuel false (.map [(k, v)] none :: acc)
    | .flowSequenceEnd =>
      skip
      let _ ← event
      pure acc.reverse
    | _ =>
      let item ← node fuel false false
      flowSequenceEntries fuel false (item :: acc)

/-- The entries of a flow mapping, up to its end; an entry without a value indicator has
an empty value. -/
def flowMappingEntries : Nat → Bool → List (Node × Node) → BuildTree (List (Node × Node))
  | 0, _, _ => throw "the document is nested too deeply"
  | fuel + 1, first, acc => do
    if (← peek) matches .flowMappingEnd then
      skip
      let _ ← event
      return acc.reverse
    if !first then
      if (← peek) matches .flowEntry then skip
      else throw "did not find expected ',' or '\x7d'"
    match ← peek with
    | .key =>
      skip
      let k ← flowNode fuel
      let v ← flowValue fuel
      flowMappingEntries fuel false ((k, v) :: acc)
    | .flowMappingEnd =>
      skip
      let _ ← event
      pure acc.reverse
    | _ =>
      let k ← node fuel false false
      let v ← emptyScalar none none
      flowMappingEntries fuel false ((k, v) :: acc)

end

/-- The directives before an explicit document; they add their tag handles to the
default ones, which they may replace. A prefix, like a tag, ends at its first zero byte. -/
def directives : Nat → Bool → List (String × Tag) → BuildTree Unit
  | 0, _, _ => throw "too many directives"
  | fuel + 1, versioned, tags => do
    match ← peek with
    | .versionDirective major minor =>
      if versioned then throw "found duplicate %YAML directive"
      if major != 1 || (minor != 1 && minor != 2) then throw "found incompatible YAML document"
      skip
      directives fuel true tags
    | .tagDirective handle pre =>
      if (tags.lookup handle).isSome then throw "found duplicate %TAG directive"
      skip
      directives fuel versioned (tags ++ [(handle, Tag.ofBytes pre)])
    | _ =>
      let defaults := defaultTagDirectives.filter fun (h, _) => (tags.lookup h).isNone
      modify fun s => { s with tagDirectives := tags ++ defaults }

/-- Whether a token cannot start the content of an explicit document, which is then
empty. -/
def endsDocument : Token → Bool
  | .versionDirective .. | .tagDirective .. | .documentStart | .documentEnd | .streamEnd => true
  | _ => false

/-- The content of an explicit document: its directives, its start indicator, and its
root, which is empty if the document ends at once. -/
def explicitDocument (fuel : Nat) : BuildTree Node := do
  directives fuel false []
  if !((← peek) matches .documentStart) then throw "did not find expected <document start>"
  skip
  if endsDocument (← peek) then emptyScalar none none else node fuel true false

/-- The root of the first document of a stream, after the stream start; none if the
stream holds no document. A document without directives may start without `---`. -/
def firstDocument (fuel : Nat) : BuildTree (Option Node) := do
  let t ← peek
  if t matches .streamEnd then return none
  let root ← if !(endsDocument t) || t matches .documentEnd then node fuel true false
    else explicitDocument fuel
  if (← peek) matches .documentEnd then skip
  pure (some root)

/-- Passes the document end indicators after the first document; anything else left
would start another document. -/
def streamEnd : Nat → BuildTree Unit
  | 0 => throw "the stream does not end"
  | fuel + 1 => do
    match ← peek with
    | .documentEnd => skip; streamEnd fuel
    | .streamEnd => pure ()
    | _ => throw "the stream holds more than one document"

end Builder

end Elasto.Document.Yaml

namespace Elasto.Document

/-- The document of a token stream: its root, if it has one, the nodes its anchors mark
and the number of its events. A stream without a document counts one event. -/
def Tree.ofTokens (tokens : List Yaml.Token) : Except String Tree := do
  let tokens := match tokens with
    | .streamStart :: rest => rest
    | ts => ts
  let fuel := 3 * tokens.length + 8
  let (root, s) ← (do
      let root ← Yaml.Builder.firstDocument fuel
      Yaml.Builder.streamEnd fuel
      pure root : Yaml.BuildTree (Option Node)).run { tokens }
  pure { root, anchors := s.marked.map (·.2), events := if root.isSome then s.events else 1 }

end Elasto.Document
