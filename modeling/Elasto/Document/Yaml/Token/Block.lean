import Elasto.Document.Yaml.Token

/-! # Block scalars

A literal (`|`) or folded (`>`) scalar: its header may give a chomping indicator (`-`
strips the final line breaks, `+` keeps them all, none keeps one) and an indentation
indicator, then a comment; its lines follow, indented at least one column deeper than the
enclosing block collection. Without an indicator, the indentation is that of the first
line that is not empty, or the deepest of the empty lines before it. A folded scalar
joins two lines by a space when both start without a blank and no empty line stands
between them. Tabs may not stand in the indentation. -/

namespace Elasto.Document.Yaml

/-- How a block scalar treats its final line breaks. -/
inductive Chomping where
  | strip
  | clip
  | keep
  deriving DecidableEq

/-- The header indicators of a block scalar, in either order, with the cursor after them. -/
def blockHeader (c : Cursor) : Except String (Chomping × Nat × Cursor) :=
  let chompingOf : Char → Chomping := fun ch => if ch == '+' then .keep else .strip
  match c.peek with
  | some ch =>
    if ch == '+' || ch == '-' then
      let c' := c.skip
      match c'.peek with
      | some d =>
        if d == '0' then .error "found an indentation indicator equal to 0"
        else if isDigitChar d then .ok (chompingOf ch, d.toNat - '0'.toNat, c'.skip)
        else .ok (chompingOf ch, 0, c')
      | none => .ok (chompingOf ch, 0, c')
    else if ch == '0' then .error "found an indentation indicator equal to 0"
    else if isDigitChar ch then
      let c' := c.skip
      match c'.peek with
      | some e =>
        if e == '+' || e == '-' then .ok (chompingOf e, ch.toNat - '0'.toNat, c'.skip)
        else .ok (.clip, ch.toNat - '0'.toNat, c')
      | none => .ok (.clip, ch.toNat - '0'.toNat, c')
    else .ok (.clip, 0, c)
  | none => .ok (.clip, 0, c)

/-- Passes the indentation and empty lines before a line of content, gathering the
breaks. An indentation of zero is not known yet: it becomes the deepest column reached,
but at least one column deeper than the enclosing collection. -/
def blockBreaks (blockIndent : Int) (budget : Nat) : Nat → Nat → Cursor → String → Nat →
    Except String (Nat × Cursor × String)
  | 0, indent, c, breaks, _ => .ok (indent, c, breaks)
  | fuel + 1, indent, c, breaks, deepest =>
    let open_ := fun (c : Cursor) => indent == 0 || c.column < indent
    let rec spaces : Nat → Cursor → Cursor
      | 0, c => c
      | k + 1, c => if open_ c && c.startsWith ' ' then spaces k c.skip else c
    let c := spaces budget c
    let deepest := max deepest c.column
    if open_ c && c.startsWith '\t' then
      .error "found a tab character where an indentation space is expected"
    else if isBreakAt c.peek then
      let (b, c) := c.readBreak
      blockBreaks blockIndent budget fuel indent c (breaks ++ b) deepest
    else if indent == 0 then
      .ok ((max (max (deepest : Int) (blockIndent + 1)) 1).toNat, c, breaks)
    else .ok (indent, c, breaks)

/-- The state of a block scalar between its lines. -/
structure BlockText where
  text : String := ""
  /-- The line break that ended the last line read. -/
  leading : String := ""
  /-- The empty lines after it. -/
  trailing : String := ""
  /-- Whether the last line read started with a blank. -/
  leadingBlank : Bool := false

/-- Reads the content lines of a block scalar at indentation `indent`. -/
def blockLines (literal : Bool) (blockIndent : Int) (budget : Nat) : Nat → Nat → Cursor → BlockText →
    Except String (Cursor × BlockText)
  | 0, _, c, b => .ok (c, b)
  | fuel + 1, indent, c, b =>
    if c.column != indent || c.peek.isNone then .ok (c, b)
    else do
      let trailingBlank := isBlankAt c.peek
      let text :=
        if !literal && b.leading.startsWith "\n" && !b.leadingBlank && !trailingBlank then
          if b.trailing.isEmpty then b.text.push ' ' else b.text
        else b.text ++ b.leading
      let text := text ++ b.trailing
      let leadingBlank := isBlankAt c.peek
      let line := c.rest.takeWhile (fun ch => !isBreak ch)
      let c := c.skipN line.length
      let (leading, c) := c.readBreak
      let (indent, c, trailing) ← blockBreaks blockIndent budget budget indent c "" 0
      blockLines literal blockIndent budget fuel indent c
        { text := text ++ String.ofList line, leading, trailing, leadingBlank }

/-- A block scalar at the cursor, which stands at its `|` or `>`; `blockIndent` is the
indentation of the enclosing block collection, and no loop runs more than `budget` times. -/
def scanBlockScalar (literal : Bool) (blockIndent : Int) (budget : Nat) (c : Cursor) :
    Except String (Token × Cursor) := do
  let (chomping, increment, c) ← blockHeader c.skip
  let c := c.skipBlanks
  let c := if c.startsWith '#' then c.skipComment else c
  if !isBreakZ c.peek then throw "did not find expected comment or line break"
  let c := c.skipLine
  let indent : Nat :=
    if increment == 0 then 0
    else if blockIndent ≥ 0 then (blockIndent + increment).toNat else increment
  let (indent, c, trailing) ← blockBreaks blockIndent budget budget indent c "" 0
  let (c, b) ← blockLines literal blockIndent budget budget indent c { trailing }
  let text := match chomping with
    | .strip => b.text
    | .clip => b.text ++ b.leading
    | .keep => b.text ++ b.leading ++ b.trailing
  pure (.scalar text (if literal then .literal else .folded), c)

end Elasto.Document.Yaml
