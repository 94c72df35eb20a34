import Elasto.Document.Node
import Elasto.Document.Yaml.Char

/-! # YAML tokens and the text cursor

The scanner cuts a YAML text into tokens: the indicators of the stream, documents and
collections, properties (anchors, aliases, tags), directives and scalars. Block
collections show as explicit start and end tokens, which the scanner derives from
indentation, and a mapping key shows as a key token in front of it.

The scanner reads the text through a cursor: the unread characters with their position.
A position's column counts characters, and its index the bytes of the text in UTF-8, which
is what bounds the length of a simple key; a carriage return followed by a line feed is one
line break of two bytes. -/

namespace Elasto.Document.Yaml

inductive Token where
  | streamStart
  | streamEnd
  | versionDirective (major minor : Nat)
  /-- A `%TAG` directive: a handle and the bytes of its prefix, escapes decoded. -/
  | tagDirective (handle : String) (pre : List UInt8)
  | documentStart
  | documentEnd
  | blockSequenceStart
  | blockMappingStart
  | blockEnd
  | flowSequenceStart
  | flowSequenceEnd
  | flowMappingStart
  | flowMappingEnd
  | blockEntry
  | flowEntry
  | key
  | value
  | alias (name : String)
  | anchor (name : String)
  /-- A tag as written: its handle (empty for a verbatim tag or the bare `!`) and the bytes
  of its suffix, escapes decoded. -/
  | tag (handle : String) (suffix : List UInt8)
  | scalar (text : String) (style : ScalarStyle)
  deriving Inhabited, Repr

/-- A position in a text: the UTF-8 bytes before it, and its line and column in characters,
from zero. -/
structure Mark where
  index : Nat := 0
  line : Nat := 0
  column : Nat := 0
  deriving Inhabited, Repr

/-- The position after a character of a line: one column on, and as many bytes as the
character takes in UTF-8. -/
def Mark.next (m : Mark) (ch : Char) : Mark :=
  { m with index := m.index + ch.utf8Size, column := m.column + 1 }

/-- The unread part of a text, with the position where it starts. -/
structure Cursor where
  rest : List Char
  mark : Mark := {}
  deriving Inhabited

namespace Cursor

/-- The next character, if any. -/
def peek (c : Cursor) : Option Char := c.rest.head?

/-- The character `k` places ahead. -/
def ahead (c : Cursor) (k : Nat) : Option Char := c.rest[k]?

def startsWith (c : Cursor) (ch : Char) : Bool := c.peek == some ch

def column (c : Cursor) : Nat := c.mark.column

/-- Moves past one character of a line. -/
def skip (c : Cursor) : Cursor :=
  match c.rest with
  | [] => c
  | ch :: rest => { rest, mark := c.mark.next ch }

/-- Moves past `n` characters of a line. -/
def skipN (c : Cursor) : Nat → Cursor
  | 0 => c
  | n + 1 => (c.skip).skipN n

/-- Moves past a line break, if one is next, to the start of the next line. -/
def skipLine (c : Cursor) : Cursor :=
  match c.rest with
  | '\r' :: '\n' :: rest =>
    { rest, mark := { index := c.mark.index + 2, line := c.mark.line + 1, column := 0 } }
  | ch :: rest =>
    if isBreak ch then
      { rest, mark := { index := c.mark.index + ch.utf8Size, line := c.mark.line + 1, column := 0 } }
    else c
  | [] => c

/-- Reads a line break, if one is next: a carriage return, a line feed, both together
and next line read as a line feed, the line and paragraph separators as themselves. -/
def readBreak (c : Cursor) : String × Cursor :=
  match c.rest with
  | ch :: _ =>
    if ch == '\u2028' || ch == '\u2029' then (ch.toString, c.skipLine)
    else if isBreak ch then ("\n", c.skipLine)
    else ("", c)
  | [] => ("", c)

/-- Whether a document marker (`---` or `...` followed by a blank or the end) opens the
line here. -/
def atDocumentMarker (c : Cursor) : Bool :=
  c.column == 0 &&
    ((c.ahead 0 == some '-' && c.ahead 1 == some '-' && c.ahead 2 == some '-') ||
      (c.ahead 0 == some '.' && c.ahead 1 == some '.' && c.ahead 2 == some '.')) &&
    isBlankZ (c.ahead 3)

/-- Skips blanks. -/
def skipBlanks : Cursor → Cursor
  | ⟨ch :: rest, m⟩ => if isBlank ch then skipBlanks ⟨rest, m.next ch⟩ else ⟨ch :: rest, m⟩
  | c => c
termination_by c => c.rest.length

/-- Skips a comment: everything up to the end of the line. -/
def skipComment : Cursor → Cursor
  | ⟨ch :: rest, m⟩ => if isBreak ch then ⟨ch :: rest, m⟩ else skipComment ⟨rest, m.next ch⟩
  | c => c
termination_by c => c.rest.length

end Cursor

/-- The text a run of line breaks between two pieces of a flow scalar becomes: a first
line feed folds into a space when no more breaks follow it and into nothing otherwise,
the breaks after it staying; a first line or paragraph separator is kept. -/
def foldBreaks (leading trailing : String) : String :=
  if leading.startsWith "\n" then (if trailing.isEmpty then " " else trailing)
  else leading ++ trailing

/-- The blanks and line breaks between two pieces of a scalar's text. -/
structure Gap where
  blanks : String := ""
  /-- The first line break of the gap. -/
  leading : String := ""
  /-- The line breaks after the first. -/
  trailing : String := ""
  /-- Whether the gap holds a line break. -/
  broken : Bool := false

/-- What a gap adds to the text: its folded breaks if it holds one, else its blanks. -/
def Gap.text (g : Gap) : String :=
  if g.broken then foldBreaks g.leading g.trailing else g.blanks

/-- Whether a gap adds nothing when joined. -/
def Gap.isEmpty (g : Gap) : Bool := !g.broken && g.blanks.isEmpty

/-- Gathers the blanks and line breaks that come next into a gap. A tab after a line
break at a column below `tabLimit` is refused, as it would take the place of
indentation. -/
def gatherGap (tabLimit : Option Int) : Nat → Cursor → Gap → Except String (Cursor × Gap)
  | 0, c, g => .ok (c, g)
  | fuel + 1, c, g =>
    match c.peek with
    | some ch =>
      if isBlank ch then
        let tabIndents := match tabLimit with
          | some limit => ch == '\t' && (c.column : Int) < limit
          | none => false
        if g.broken && tabIndents then .error "found a tab character that violates indentation"
        else if g.broken then gatherGap tabLimit fuel c.skip g
        else gatherGap tabLimit fuel c.skip { g with blanks := g.blanks.push ch }
      else if isBreak ch then
        let (b, next) := c.readBreak
        if g.broken then gatherGap tabLimit fuel next { g with trailing := g.trailing ++ b }
        else gatherGap tabLimit fuel next { g with blanks := "", leading := b, broken := true }
      else .ok (c, g)
    | none => .ok (c, g)

end Elasto.Document.Yaml
