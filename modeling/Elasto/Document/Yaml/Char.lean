/-! # Characters of YAML text

The classes of characters the YAML scanner tells apart. A YAML text may hold tab, line
feed, carriage return, the printable ASCII characters, next line (`U+0085`) and the
printable characters above `U+00A0`, leaving out surrogates and `U+FFFE`, `U+FFFF`. Line
breaks are line feed, carriage return, next line, and the line and paragraph separators;
blanks are space and tab. Where the scanner looks past the end of the text it sees no
character, which is a break for every test that ends a line. -/

namespace Elasto.Document.Yaml

/-- Whether a character may stand in a YAML text. -/
def isPrintable (c : Char) : Bool :=
  let n := c.toNat
  n == 0x09 || n == 0x0A || n == 0x0D || (0x20 ≤ n && n ≤ 0x7E) || n == 0x85 ||
    (0xA0 ≤ n && n ≤ 0xD7FF) || (0xE000 ≤ n && n ≤ 0xFFFD) || (0x10000 ≤ n && n ≤ 0x10FFFF)

/-- Whether a character ends a line. -/
def isBreak (c : Char) : Bool :=
  c == '\r' || c == '\n' || c == '\x85' || c == '\u2028' || c == '\u2029'

def isBlank (c : Char) : Bool := c == ' ' || c == '\t'

/-- The byte order mark. -/
def isByteOrderMark (c : Char) : Bool := c == '\uFEFF'

/-- A break, or the end of the text. -/
def isBreakZ : Option Char → Bool
  | some c => isBreak c
  | none => true

/-- A blank, a break, or the end of the text. -/
def isBlankZ : Option Char → Bool
  | some c => isBlank c || isBreak c
  | none => true

def isBlankAt : Option Char → Bool
  | some c => isBlank c
  | none => false

def isBreakAt : Option Char → Bool
  | some c => isBreak c
  | none => false

/-- Letters, digits, `_` and `-`: the characters of anchors, directive names and tag
handles. -/
def isWordChar (c : Char) : Bool :=
  ('0' ≤ c && c ≤ '9') || ('A' ≤ c && c ≤ 'Z') || ('a' ≤ c && c ≤ 'z') || c == '_' || c == '-'

def isDigitChar (c : Char) : Bool := '0' ≤ c && c ≤ '9'

/-- The value of a hexadecimal digit. -/
def hexDigit? (c : Char) : Option Nat :=
  if '0' ≤ c && c ≤ '9' then some (c.toNat - '0'.toNat)
  else if 'a' ≤ c && c ≤ 'f' then some (c.toNat - 'a'.toNat + 10)
  else if 'A' ≤ c && c ≤ 'F' then some (c.toNat - 'A'.toNat + 10)
  else none

/-- The characters of a tag's URI besides letters and digits; `,`, `[` and `]` only
inside a verbatim tag `!<…>`. -/
def isUriChar (verbatim : Bool) (c : Char) : Bool :=
  isWordChar c || c == ';' || c == '/' || c == '?' || c == ':' || c == '@' || c == '&' ||
    c == '=' || c == '+' || c == '$' || c == '.' || c == '%' || c == '!' || c == '~' ||
    c == '*' || c == '\'' || c == '(' || c == ')' ||
    (verbatim && (c == ',' || c == '[' || c == ']'))

/-- The indicators of flow collections. -/
def isFlowIndicator (c : Char) : Bool :=
  c == ',' || c == '[' || c == ']' || c == '\x7b' || c == '\x7d'

/-- Characters that start an indicator and so never start a plain scalar. -/
def isIndicator (c : Char) : Bool :=
  c == '-' || c == '?' || c == ':' || isFlowIndicator c || c == '#' || c == '&' || c == '*' ||
    c == '!' || c == '|' || c == '>' || c == '\'' || c == '"' || c == '%' || c == '@' ||
    c == '\x60'

/-- Characters that cannot start a plain scalar in any context. -/
def cannotStartPlain (c : Char) : Bool :=
  isFlowIndicator c || c == '#' || c == '&' || c == '*' || c == '!' || c == '|' || c == '>' ||
    c == '%' || c == '@' || c == '\x60'

/-- Whether a text has a `:` followed by a blank or ending it, as a mapping entry has. -/
def hasMappingIndicator (t : String) : Bool :=
  let rec go : List Char → Bool
    | [] => false
    | ':' :: rest =>
      match rest with
      | [] => true
      | c :: _ => isBlank c || go rest
    | _ :: rest => go rest
  go t.toList

end Elasto.Document.Yaml
