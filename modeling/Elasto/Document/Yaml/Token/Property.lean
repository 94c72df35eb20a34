import Elasto.Document.Yaml.Token

/-! # Anchors, tags and directives

An anchor (`&a`) or alias (`*a`) is a name of letters, digits, `_` and `-`, followed by a
blank or one of `?:,]}%@` and a backquote. A tag is verbatim (`!<uri>`), a handle and a
suffix (`!!str`, `!e!x`), or a local tag (`!x`, or `!` alone); a URI may hold escaped
octets (`%2C`). Escapes are checked only for the shape of a UTF-8 sequence, a lead octet
and as many trailing octets as it announces, so a tag's bytes need not be text. A tag is followed by a blank, or a `,` inside a flow
collection. A directive line holds `%YAML major.minor` or `%TAG handle prefix`, then at
most a comment. -/

namespace Elasto.Document.Yaml

/-- A run of word characters at the cursor. -/
def scanWord (c : Cursor) : String × Cursor :=
  let w := c.rest.takeWhile isWordChar
  (String.ofList w, c.skipN w.length)

/-- An anchor or alias name at the cursor, which stands at its `&` or `*`. -/
def scanAnchorName (c : Cursor) : Except String (String × Cursor) :=
  let (name, c) := scanWord c.skip
  let fits := match c.peek with
    | some ch => isBlank ch || isBreak ch || ch == '?' || ch == ':' || ch == ',' || ch == ']' ||
        ch == '\x7d' || ch == '%' || ch == '@' || ch == '\x60'
    | none => true
  if name.isEmpty || !fits then .error "did not find expected alphabetic or numeric character"
  else .ok (name, c)

/-- The bytes of a run of escaped octets `%XX` at the cursor, as many as one UTF-8
character takes. -/
def uriEscape (c : Cursor) : Except String (List UInt8 × Cursor) :=
  let octet (c : Cursor) : Option Nat := do
    if c.peek != some '%' then none
    let hi ← (c.ahead 1).bind hexDigit?
    let lo ← (c.ahead 2).bind hexDigit?
    pure (hi * 16 + lo)
  match octet c with
  | none => .error "did not find URI escaped octet"
  | some lead =>
    let width := if lead < 0x80 then 1 else if lead / 32 == 6 then 2 else if lead / 16 == 14 then 3
      else if lead / 8 == 30 then 4 else 0
    if width == 0 then .error "found an incorrect leading UTF-8 octet"
    else
      let rec more : Nat → Cursor → List UInt8 → Except String (List UInt8 × Cursor)
        | 0, c, acc => .ok (acc.reverse, c)
        | k + 1, c, acc =>
          match octet c with
          | some o =>
            if o / 64 == 2 then more k (c.skipN 3) (o.toUInt8 :: acc)
            else .error "found an incorrect trailing UTF-8 octet"
          | none => .error "did not find URI escaped octet"
      more (width - 1) (c.skipN 3) [lead.toUInt8]

/-- The bytes of a tag URI at the cursor, escapes decoded, with the characters read. -/
def scanUriChars (verbatim : Bool) : Nat → Cursor → Array UInt8 → Nat →
    Except String (Array UInt8 × Cursor × Nat)
  | 0, c, acc, n => .ok (acc, c, n)
  | fuel + 1, c, acc, n =>
    match c.peek with
    | some ch =>
      if !isUriChar verbatim ch then .ok (acc, c, n)
      else if ch == '%' then do
        let (bytes, c) ← uriEscape c
        scanUriChars verbatim fuel c (acc ++ bytes.toArray) (n + 1)
      else scanUriChars verbatim fuel c.skip (acc ++ (String.utf8EncodeChar ch).toArray) (n + 1)
    | none => .ok (acc, c, n)

/-- The bytes of a tag URI at the cursor, after `head` (a word read before it, whose `!`
is left out); the URI may not be empty, nor longer than `budget`. -/
def scanUri (verbatim : Bool) (budget : Nat) (head : String) (c : Cursor) :
    Except String (List UInt8 × Cursor) := do
  let (uri, c, n) ← scanUriChars verbatim budget c (head.drop 1).toString.toUTF8.data head.length
  if n == 0 then throw "did not find expected tag URI"
  pure (uri.toList, c)

/-- A tag handle at the cursor: `!`, then word characters, then `!` if it is a handle
and not the start of a local tag. -/
def scanHandle (c : Cursor) : Except String (String × Cursor) := do
  if !c.startsWith '!' then throw "did not find expected '!'"
  let (w, c) := scanWord c.skip
  if c.startsWith '!' then pure ("!" ++ w ++ "!", c.skip) else pure ("!" ++ w, c)

/-- A tag at the cursor, which stands at its `!`. A local tag whose suffix is empty, or
starts with an escaped zero byte, is the bare tag `!`. -/
def scanTag (inFlow : Bool) (budget : Nat) (c : Cursor) : Except String (Token × Cursor) := do
  let (handle, suffix, c) ← if c.ahead 1 == some '<' then do
      let (uri, c) ← scanUri true budget "" (c.skipN 2)
      if !c.startsWith '>' then throw "did not find the expected '>'"
      pure ("", uri, c.skip)
    else do
      let (handle, c) ← scanHandle c
      if handle.length > 1 && handle.endsWith "!" then
        let (suffix, c) ← scanUri false budget "" c
        pure (handle, suffix, c)
      else
        let (suffix, c) ← scanUri false budget handle c
        if suffix.headD 0 == 0 then pure ("", "!".toUTF8.toList, c) else pure ("!", suffix, c)
  let fits := isBlankZ c.peek || (inFlow && c.startsWith ',')
  if !fits then throw "did not find expected whitespace or line break"
  pure (.tag handle suffix, c)

/-- A version number of a `%YAML` directive: at most nine digits. -/
def scanVersionNumber (c : Cursor) : Except String (Nat × Cursor) :=
  let ds := c.rest.takeWhile isDigitChar
  if ds.isEmpty then .error "did not find expected version number"
  else if ds.length > 9 then .error "found extremely long version number"
  else .ok (ds.foldl (fun n d => 10 * n + (d.toNat - '0'.toNat)) 0, c.skipN ds.length)

/-- A directive at the cursor, which stands at its `%`, with the rest of its line. -/
def scanDirective (budget : Nat) (c : Cursor) : Except String (Token × Cursor) := do
  let (name, c) := scanWord c.skip
  if name.isEmpty then throw "could not find expected directive name"
  if !isBlankZ c.peek then throw "found unexpected non-alphabetical character"
  let (token, c) ← if name == "YAML" then do
      let (major, c) ← scanVersionNumber c.skipBlanks
      if !c.startsWith '.' then throw "did not find expected digit or '.' character"
      let (minor, c) ← scanVersionNumber c.skip
      pure (Token.versionDirective major minor, c)
    else if name == "TAG" then do
      let (handle, c) ← scanHandle c.skipBlanks
      if handle != "!" && !(handle.length > 1 && handle.endsWith "!") then
        throw "did not find expected '!'"
      if !isBlankAt c.peek then throw "did not find expected whitespace"
      let (pre, c) ← scanUri true budget "" c.skipBlanks
      if !isBlankZ c.peek then throw "did not find expected whitespace or line break"
      pure (Token.tagDirective handle pre, c)
    else throw "found unknown directive name"
  let c := c.skipBlanks
  let c := if c.startsWith '#' then c.skipComment else c
  if !isBreakZ c.peek then throw "did not find expected comment or line break"
  pure (token, c.skipLine)

end Elasto.Document.Yaml
