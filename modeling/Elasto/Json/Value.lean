import Elasto.Float64.Text

/-! # JSON values

A JSON document as a tree. A number keeps its text, so that integers and reals stay apart
and no digit is lost before a reader decides what the number means; an object keeps its
members in written order. `Json.write` gives the compact text of a tree. -/

namespace Elasto

inductive Json where
  | null
  | bool (b : Bool)
  | num (text : String)
  | str (s : String)
  | arr (items : List Json)
  | obj (fields : List (String × Json))
  deriving Inhabited

namespace Json

/-- An integer as a JSON number. -/
def int (n : Int) : Json := .num (toString n)

/-- A double as a JSON number in general form, which always shows a point or an
exponent; a NaN or an infinity is the string `NaN`, `inf` or `-inf`. -/
def real (x : Float) : Json :=
  if x.isNaN || x.isInf then .str (Float64.general x) else .num (Float64.general x)

/-- The value of a member of an object; the last of equal keys wins. -/
def field? (j : Json) (key : String) : Option Json :=
  match j with
  | .obj fields => (fields.reverse.find? (·.1 == key)).map (·.2)
  | _ => none

def hexDigit (n : Nat) : Char :=
  if n < 10 then Char.ofNat (48 + n) else Char.ofNat (87 + n)

/-- A character as it stands inside a quoted string. -/
def escapeChar (c : Char) : List Char :=
  match c with
  | '"' => ['\\', '"']
  | '\\' => ['\\', '\\']
  | '\n' => ['\\', 'n']
  | '\r' => ['\\', 'r']
  | '\t' => ['\\', 't']
  | c =>
    if c.toNat < 32 then
      ['\\', 'u', '0', '0', hexDigit (c.toNat / 16), hexDigit (c.toNat % 16)]
    else [c]

/-- A string in double quotes with its special characters escaped. -/
def quote (s : String) : String :=
  String.ofList ('"' :: (s.toList.flatMap escapeChar ++ ['"']))

mutual

def write : Json → String
  | .null => "null"
  | .bool b => if b then "true" else "false"
  | .num text => text
  | .str s => quote s
  | .arr items => "[" ++ writeItems items ++ "]"
  | .obj fields => "\x7b" ++ writeFields fields ++ "\x7d"

def writeItems : List Json → String
  | [] => ""
  | [j] => write j
  | j :: rest => write j ++ "," ++ writeItems rest

def writeFields : List (String × Json) → String
  | [] => ""
  | [(k, j)] => quote k ++ ":" ++ write j
  | (k, j) :: rest => quote k ++ ":" ++ write j ++ "," ++ writeFields rest

end

mutual

/-- The text of a tree laid out over lines, members indented by two blanks per level. -/
def pretty (indent : String) : Json → String
  | .arr [] => "[]"
  | .arr items => "[\n" ++ prettyItems (indent ++ "  ") items ++ "\n" ++ indent ++ "]"
  | .obj [] => "\x7b\x7d"
  | .obj fields => "\x7b\n" ++ prettyFields (indent ++ "  ") fields ++ "\n" ++ indent ++ "\x7d"
  | j => write j

def prettyItems (indent : String) : List Json → String
  | [] => ""
  | [j] => indent ++ pretty indent j
  | j :: rest => indent ++ pretty indent j ++ ",\n" ++ prettyItems indent rest

def prettyFields (indent : String) : List (String × Json) → String
  | [] => ""
  | [(k, j)] => indent ++ quote k ++ ": " ++ pretty indent j
  | (k, j) :: rest => indent ++ quote k ++ ": " ++ pretty indent j ++ ",\n" ++ prettyFields indent rest

end

end Json

end Elasto
