import Elasto.Document.Yaml.Token.Quoted
import Elasto.Document.Yaml.Token.Plain
import Elasto.Document.Yaml.Token.Block
import Elasto.Document.Yaml.Token.Property

/-! # The token stream

The scanner turns a YAML text into its tokens, one step at a time. Indentation opens and
closes block collections: a block sequence entry or a mapping key deeper than the current
indentation opens a collection, and a line that starts to the left closes every
collection deeper than it. A mapping key is usually simple, written without `?`: the
scanner remembers where a scalar, flow collection, anchor or tag could start a key, and
when a `:` follows on the same line, within 1024 bytes, it puts the key token (and
the start of a block mapping, if one opens there) back in front of it. A possible key at
the indentation of its block mapping that gets no `:` is an error.

Tabs may separate tokens, but never at the start of a line or after an indicator where a
block collection could start. Every step reads at least one character, save the last,
so the length of the text bounds the number of steps. -/

namespace Elasto.Document.Yaml

/-- A place where a simple key may start. -/
structure SimpleKey where
  possible : Bool := false
  /-- A key at the indentation of its block mapping must be one. -/
  required : Bool := false
  /-- The number of the token where it starts. -/
  tokenNumber : Nat := 0
  mark : Mark := {}

structure Scanner where
  cursor : Cursor
  tokens : Array Token := #[.streamStart]
  /-- The indentation of the innermost block collection, `-1` outside all. -/
  indent : Int := -1
  /-- The indentations of the enclosing block collections. -/
  indents : List Int := []
  flowLevel : Nat := 0
  simpleKeyAllowed : Bool := true
  /-- The possible simple key of each flow level, innermost first. -/
  simpleKeys : List SimpleKey := [{}]
  ended : Bool := false
  /-- The length of the text and a little more: no loop of the scanner runs longer. -/
  budget : Nat

abbrev Scan := StateT Scanner (Except String)

namespace Scanner

def emit (t : Token) : Scan Unit := modify fun s => { s with tokens := s.tokens.push t }

def setCursor (c : Cursor) : Scan Unit := modify fun s => { s with cursor := c }

def allowSimpleKey (b : Bool) : Scan Unit := modify fun s => { s with simpleKeyAllowed := b }

def inFlow : Scan Bool := do pure ((← get).flowLevel > 0)

def topKey : Scan SimpleKey := do
  match (← get).simpleKeys with
  | k :: _ => pure k
  | [] => pure {}

def setTopKey (k : SimpleKey) : Scan Unit := modify fun s =>
  { s with simpleKeys := match s.simpleKeys with
    | _ :: rest => k :: rest
    | [] => [k] }

/-- Drops the possible key of the current flow level; a required one is an error. -/
def removeSimpleKey : Scan Unit := do
  let k ← topKey
  if k.possible && k.required then throw "could not find expected ':'"
  setTopKey { k with possible := false }

/-- Remembers that a simple key may start here, if one may. -/
def saveSimpleKey : Scan Unit := do
  let s ← get
  if s.simpleKeyAllowed then
    let k : SimpleKey :=
      { possible := true, required := s.flowLevel == 0 && s.indent == (s.cursor.column : Int),
        tokenNumber := s.tokens.size, mark := s.cursor.mark }
    removeSimpleKey
    setTopKey k

/-- Gives up the possible keys that a line break or 1024 bytes of text have put out of reach. -/
def staleSimpleKeys : Scan Unit := do
  let s ← get
  let m := s.cursor.mark
  let stale := fun (k : SimpleKey) =>
    k.possible && (k.mark.line < m.line || k.mark.index + 1024 < m.index)
  if s.simpleKeys.any stale then
    if s.simpleKeys.any fun k => stale k && k.required then throw "could not find expected ':'"
    set { s with simpleKeys := s.simpleKeys.map fun k => if stale k then { k with possible := false } else k }

/-- Opens a block collection at `column`, if it is deeper than the current indentation,
with its start token at the end or at a given token number. -/
def rollIndent (column : Int) (slot : Option Nat) (t : Token) : Scan Unit := modify fun s =>
  if s.flowLevel == 0 && s.indent < column then
    let tokens := match slot with
      | some i => s.tokens.insertIdxIfInBounds i t
      | none => s.tokens.push t
    { s with indents := s.indent :: s.indents, indent := column, tokens := tokens }
  else s

/-- Closes the block collections deeper than `column`. -/
def unrollTo (column : Int) : Int → List Int → Array Token → Int × List Int × Array Token
  | indent, i :: more, tokens =>
    if indent > column then unrollTo column i more (tokens.push .blockEnd)
    else (indent, i :: more, tokens)
  | indent, [], tokens => (indent, [], tokens)

def unrollIndent (column : Int) : Scan Unit := modify fun s =>
  if s.flowLevel == 0 then
    let (indent, indents, tokens) := unrollTo column s.indent s.indents s.tokens
    { s with indent, indents, tokens }
  else s

/-- Skips spaces, and tabs where they may separate tokens. -/
def skipSpaces (tabs : Bool) : Cursor → Cursor
  | ⟨ch :: rest, m⟩ =>
    if ch == ' ' || (tabs && ch == '\t') then skipSpaces tabs ⟨rest, m.next ch⟩ else ⟨ch :: rest, m⟩
  | c => c
termination_by c => c.rest.length

/-- Passes blanks, comments and line breaks up to the next token. A byte order mark may
start a line. -/
def scanToNextToken : Nat → Scan Unit
  | 0 => pure ()
  | fuel + 1 => do
    let s ← get
    let c := s.cursor
    let c := if c.column == 0 && (c.peek.map isByteOrderMark).getD false then c.skip else c
    let c := skipSpaces (s.flowLevel > 0 || !s.simpleKeyAllowed) c
    let c := if c.startsWith '#' then c.skipComment else c
    if isBreakAt c.peek then
      set { s with cursor := c.skipLine, simpleKeyAllowed := s.flowLevel == 0 || s.simpleKeyAllowed }
      scanToNextToken fuel
    else setCursor c

def fetchStreamEnd : Scan Unit := do
  unrollIndent (-1)
  removeSimpleKey
  modify fun s => { s with simpleKeyAllowed := false, ended := true }
  emit .streamEnd

def fetchDirective : Scan Unit := do
  unrollIndent (-1)
  removeSimpleKey
  allowSimpleKey false
  let s ← get
  let (t, c) ← (scanDirective s.budget s.cursor : Except String _)
  setCursor c
  emit t

def fetchDocumentIndicator (t : Token) : Scan Unit := do
  unrollIndent (-1)
  removeSimpleKey
  allowSimpleKey false
  setCursor ((← get).cursor.skipN 3)
  emit t

def fetchFlowCollectionStart (t : Token) : Scan Unit := do
  saveSimpleKey
  modify fun s => { s with simpleKeys := {} :: s.simpleKeys, flowLevel := s.flowLevel + 1 }
  allowSimpleKey true
  setCursor (← get).cursor.skip
  emit t

def fetchFlowCollectionEnd (t : Token) : Scan Unit := do
  removeSimpleKey
  modify fun s =>
    if s.flowLevel > 0 then { s with flowLevel := s.flowLevel - 1, simpleKeys := s.simpleKeys.drop 1 }
    else s
  allowSimpleKey false
  setCursor (← get).cursor.skip
  emit t

def fetchFlowEntry : Scan Unit := do
  removeSimpleKey
  allowSimpleKey true
  setCursor (← get).cursor.skip
  emit .flowEntry

def fetchBlockEntry : Scan Unit := do
  let s ← get
  if s.flowLevel == 0 then
    if !s.simpleKeyAllowed then throw "block sequence entries are not allowed in this context"
    rollIndent s.cursor.column none .blockSequenceStart
  removeSimpleKey
  allowSimpleKey true
  setCursor (← get).cursor.skip
  emit .blockEntry

def fetchKey : Scan Unit := do
  let s ← get
  if s.flowLevel == 0 then
    if !s.simpleKeyAllowed then throw "mapping keys are not allowed in this context"
    rollIndent s.cursor.column none .blockMappingStart
  removeSimpleKey
  allowSimpleKey (s.flowLevel == 0)
  setCursor (← get).cursor.skip
  emit .key

def fetchValue : Scan Unit := do
  let k ← topKey
  let s ← get
  if k.possible then
    modify fun s => { s with tokens := s.tokens.insertIdxIfInBounds k.tokenNumber .key }
    rollIndent k.mark.column (some k.tokenNumber) .blockMappingStart
    setTopKey { k with possible := false }
    allowSimpleKey false
  else
    if s.flowLevel == 0 then
      if !s.simpleKeyAllowed then throw "mapping values are not allowed in this context"
      rollIndent s.cursor.column none .blockMappingStart
    allowSimpleKey (s.flowLevel == 0)
  setCursor (← get).cursor.skip
  emit .value

def fetchAnchor (repeats : Bool) : Scan Unit := do
  saveSimpleKey
  allowSimpleKey false
  let (name, c) ← (scanAnchorName (← get).cursor : Except String _)
  setCursor c
  emit (if repeats then .alias name else .anchor name)

def fetchTag : Scan Unit := do
  saveSimpleKey
  allowSimpleKey false
  let s ← get
  let (t, c) ← (scanTag (s.flowLevel > 0) s.budget s.cursor : Except String _)
  setCursor c
  emit t

def fetchBlockScalar (literal : Bool) : Scan Unit := do
  removeSimpleKey
  allowSimpleKey true
  let s ← get
  let (t, c) ← (scanBlockScalar literal s.indent s.budget s.cursor : Except String _)
  setCursor c
  emit t

def fetchQuoted (single : Bool) : Scan Unit := do
  saveSimpleKey
  allowSimpleKey false
  let s ← get
  let (t, c) ← (scanQuoted single s.budget s.cursor : Except String _)
  setCursor c
  emit t

def fetchPlain : Scan Unit := do
  saveSimpleKey
  allowSimpleKey false
  let s ← get
  let (t, c, broken) ← (scanPlain s.budget s.indent (s.flowLevel > 0) s.cursor : Except String _)
  setCursor c
  if broken then allowSimpleKey true
  emit t

/-- Whether a plain scalar may start here. -/
def startsPlain (inFlow : Bool) (c : Cursor) : Bool :=
  match c.peek with
  | some ch =>
    !(isBlank ch || isBreak ch || isIndicator ch) || (ch == '-' && !isBlankAt (c.ahead 1)) ||
      (!inFlow && (ch == '?' || ch == ':') && !isBlankZ (c.ahead 1))
  | none => false

/-- Whether three copies of a character followed by a blank open the line here. -/
def atMarker (c : Cursor) (ch : Char) : Bool :=
  c.column == 0 && c.ahead 0 == some ch && c.ahead 1 == some ch && c.ahead 2 == some ch &&
    isBlankZ (c.ahead 3)

/-- Reads the next token, with the block ends and keys it brings. -/
def fetchNextToken : Scan Unit := do
  scanToNextToken (← get).budget
  staleSimpleKeys
  unrollIndent (← get).cursor.column
  let s ← get
  let c := s.cursor
  let flow := s.flowLevel > 0
  match c.peek with
  | none => fetchStreamEnd
  | some ch =>
    if c.column == 0 && ch == '%' then fetchDirective
    else if atMarker c '-' then fetchDocumentIndicator .documentStart
    else if atMarker c '.' then fetchDocumentIndicator .documentEnd
    else if ch == '[' then fetchFlowCollectionStart .flowSequenceStart
    else if ch == '\x7b' then fetchFlowCollectionStart .flowMappingStart
    else if ch == ']' then fetchFlowCollectionEnd .flowSequenceEnd
    else if ch == '\x7d' then fetchFlowCollectionEnd .flowMappingEnd
    else if ch == ',' then fetchFlowEntry
    else if ch == '-' && isBlankZ (c.ahead 1) then fetchBlockEntry
    else if ch == '?' && (flow || isBlankZ (c.ahead 1)) then fetchKey
    else if ch == ':' && (flow || isBlankZ (c.ahead 1)) then fetchValue
    else if ch == '*' then fetchAnchor true
    else if ch == '&' then fetchAnchor false
    else if ch == '!' then fetchTag
    else if ch == '|' && !flow then fetchBlockScalar true
    else if ch == '>' && !flow then fetchBlockScalar false
    else if ch == '\'' then fetchQuoted true
    else if ch == '"' then fetchQuoted false
    else if startsPlain flow c then fetchPlain
    else throw "found character that cannot start any token"

/-- Reads tokens up to the end of the stream. -/
def fetchAll : Nat → Scan Unit
  | 0 => throw "the token stream does not end"
  | fuel + 1 => do
    fetchNextToken
    if !(← get).ended then fetchAll fuel

end Scanner

/-- The tokens of a YAML text, from the start to the end of the stream. -/
def Token.scan (text : List Char) : Except String (Array Token) := do
  let budget := text.length + 2
  let ((), s) ← (Scanner.fetchAll budget).run { cursor := { rest := text }, budget }
  pure s.tokens

end Elasto.Document.Yaml
