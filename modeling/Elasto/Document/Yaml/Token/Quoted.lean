import Elasto.Document.Yaml.Token

/-! # Quoted scalars

A single-quoted scalar writes its quote twice; a double-quoted scalar has escapes: a
backslash before a line break joins the lines, `\x`, `\u` and `\U` give a character by
its two, four or eight hexadecimal digits, and a letter or sign after the backslash names
one character. Line breaks inside a quoted scalar fold as in flow scalars. A quoted scalar
may not hold a document marker at the start of a line, and must be closed. -/

namespace Elasto.Document.Yaml

/-- The character a backslash and a letter or sign stand for. -/
def namedEscape? : Char → Option Char
  | '0' => some '\x00'
  | 'a' => some '\x07'
  | 'b' => some '\x08'
  | 't' => some '\t'
  | '\t' => some '\t'
  | 'n' => some '\n'
  | 'v' => some '\x0b'
  | 'f' => some '\x0c'
  | 'r' => some '\r'
  | 'e' => some '\x1b'
  | ' ' => some ' '
  | '"' => some '"'
  | '/' => some '/'
  | '\\' => some '\\'
  | 'N' => some '\x85'
  | '_' => some '\xa0'
  | 'L' => some '\u2028'
  | 'P' => some '\u2029'
  | _ => none

/-- The number of hexadecimal digits of a code escape. -/
def codeEscapeLength? : Char → Option Nat
  | 'x' => some 2
  | 'u' => some 4
  | 'U' => some 8
  | _ => none

/-- The value of the first `n` characters as hexadecimal digits. -/
def hexValue? : Nat → List Char → Option Nat
  | 0, _ => some 0
  | n + 1, ch :: rest => do
    let d ← hexDigit? ch
    let v ← hexValue? n rest
    pure (d * 16 ^ n + v)
  | _ + 1, [] => none

/-- The escape after a backslash, with the cursor past it. -/
def readEscape (c : Cursor) : Except String (Char × Cursor) :=
  match c.ahead 1 with
  | some e =>
    match namedEscape? e with
    | some ch => .ok (ch, c.skipN 2)
    | none =>
      match codeEscapeLength? e with
      | some n =>
        let c := c.skipN 2
        match hexValue? n c.rest with
        | some v =>
          if (0xD800 ≤ v && v ≤ 0xDFFF) || 0x10FFFF < v then
            .error "found invalid Unicode character escape code"
          else .ok (Char.ofNat v, c.skipN n)
        | none => .error "did not find expected hexdecimal number"
      | none => .error "found unknown escape character"
  | none => .error "found unknown escape character"

/-- Reads the characters of a quoted scalar up to a blank, a break, the closing quote or
the end. Says whether it stopped at an escaped line break, which it has passed. -/
def quotedRun (single : Bool) : Nat → Cursor → String → Except String (String × Cursor × Bool)
  | 0, c, text => .ok (text, c, false)
  | fuel + 1, c, text =>
    match c.peek with
    | none => .ok (text, c, false)
    | some ch =>
      if isBlank ch || isBreak ch then .ok (text, c, false)
      else if single && ch == '\'' && c.ahead 1 == some '\'' then
        quotedRun single fuel (c.skipN 2) (text.push '\'')
      else if ch == (if single then '\'' else '"') then .ok (text, c, false)
      else if !single && ch == '\\' && isBreakAt (c.ahead 1) then
        .ok (text, c.skip.skipLine, true)
      else if !single && ch == '\\' then do
        let (e, next) ← readEscape c
        quotedRun single fuel next (text.push e)
      else quotedRun single fuel c.skip (text.push ch)

/-- Reads a quoted scalar's text after its opening quote, up to the closing quote; no
inner loop runs more than `budget` times. -/
def quotedBody (single : Bool) (budget : Nat) : Nat → Cursor → String →
    Except String (String × Cursor)
  | 0, _, _ => .error "found unexpected end of stream"
  | fuel + 1, c, text => do
    if c.atDocumentMarker then throw "found unexpected document indicator"
    if c.peek.isNone then throw "found unexpected end of stream"
    let (text, c, escapedBreak) ← quotedRun single budget c text
    if c.startsWith (if single then '\'' else '"') then pure (text, c.skip)
    else
      let (c, gap) ← gatherGap none budget c { broken := escapedBreak }
      quotedBody single budget fuel c (text ++ gap.text)

/-- A quoted scalar at the cursor, which stands at its opening quote; no loop runs more
than `budget` times. -/
def scanQuoted (single : Bool) (budget : Nat) (c : Cursor) : Except String (Token × Cursor) := do
  let (text, c) ← quotedBody single budget budget c.skip ""
  pure (.scalar text (if single then .singleQuoted else .doubleQuoted), c)

end Elasto.Document.Yaml
