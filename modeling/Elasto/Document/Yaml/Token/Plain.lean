import Elasto.Document.Yaml.Token

/-! # Plain scalars

A plain scalar runs over its words and the blanks and line breaks between them, which
fold as in flow scalars. It ends before a comment (`#` after a blank), a `:` followed by
a blank, a document marker, a line indented no deeper than the enclosing block
collection, and, inside a flow collection, a flow indicator. Inside a flow collection a
`:` directly followed by a flow indicator or `?` is refused. The scanner passes the blanks
and breaks after the last word; a scalar that ends after a line break allows a simple key
to follow. -/

namespace Elasto.Document.Yaml

/-- Whether a plain scalar ends before this character. -/
def endsPlain (inFlow : Bool) (c : Cursor) : Bool :=
  match c.peek with
  | some ':' => isBlankZ (c.ahead 1)
  | some ch => inFlow && isFlowIndicator ch
  | none => true

/-- Whether a `:` here is refused inside a flow collection. -/
def badFlowColon (inFlow : Bool) (c : Cursor) : Bool :=
  inFlow && c.startsWith ':' &&
    (match c.ahead 1 with
      | some ch => ch == ',' || ch == '?' || ch == '[' || ch == ']' || ch == '\x7b' || ch == '\x7d'
      | none => false)

/-- Reads a word of a plain scalar, joining the gap before it to the text first. -/
def plainWord (inFlow : Bool) : Nat → Cursor → String → Gap →
    Except String (String × Cursor × Gap)
  | 0, c, text, gap => .ok (text, c, gap)
  | fuel + 1, c, text, gap =>
    match c.peek with
    | none => .ok (text, c, gap)
    | some ch =>
      if isBlank ch || isBreak ch then .ok (text, c, gap)
      else if badFlowColon inFlow c then .error "found unexpected ':'"
      else if endsPlain inFlow c then .ok (text, c, gap)
      else
        let text := if gap.isEmpty then text else text ++ gap.text
        plainWord inFlow fuel c.skip (text.push ch) {}

/-- Reads a plain scalar from its first word; `indent` is the least column its lines may
start at, and `budget`, the length of the text, bounds every loop. Gives its text, the
cursor after the blanks that follow it, and whether those hold a line break. -/
def plainBody (budget : Nat) (indent : Int) (inFlow : Bool) : Nat → Cursor → String → Gap →
    Except String (String × Cursor × Bool)
  | 0, c, text, gap => .ok (text, c, gap.broken)
  | fuel + 1, c, text, gap =>
    if c.atDocumentMarker || c.startsWith '#' then .ok (text, c, gap.broken)
    else do
      let (text, c, gap) ← plainWord inFlow budget c text gap
      if !(isBlankAt c.peek || isBreakAt c.peek) then pure (text, c, gap.broken)
      else
        let (c, gap) ← gatherGap (some indent) budget c gap
        if !inFlow && (c.column : Int) < indent then pure (text, c, gap.broken)
        else plainBody budget indent inFlow fuel c text gap

/-- A plain scalar at the cursor; `blockIndent` is the indentation of the enclosing block
collection, and no loop runs more than `budget` times. Says whether it ended after a line
break. -/
def scanPlain (budget : Nat) (blockIndent : Int) (inFlow : Bool) (c : Cursor) :
    Except String (Token × Cursor × Bool) := do
  let (text, c, broken) ← plainBody budget (blockIndent + 1) inFlow budget c "" {}
  pure (.scalar text .plain, c, broken)

end Elasto.Document.Yaml
