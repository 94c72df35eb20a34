import Elasto.Brick.Compile
import Elasto.Json.Value

/-! # Command line

The commands of the command line: `options` prints the option schema of a stress potential
as YAML or as JSON, `generate` prints the listing of a compiled behaviour source, and
`jacobian` prints the code a stress potential adds to a Jacobian block. Reading the source
file is left to the caller; everything here is a function of the arguments and of the
file's text. -/

namespace Elasto.Cli

open Elasto.Behaviour Elasto.Brick Elasto.Json

inductive Format where
  | yaml
  | json

inductive Request where
  | options (brick : String) (format : Format) (alreadyConfigured : Bool)
  | generate (path : String)
  | jacobian (path equation target placeholder : String) (numerical : Option Float)

def usage : String :=
  "usage: elasto options <brick> [--format yaml|json] [--already-configured]\n" ++
  "       elasto generate <behaviour>\n" ++
  "       elasto jacobian <behaviour> <equation> <variable> <placeholder> [--numerical <epsilon>]"

/-- Flags with a value, in the forms `--flag value` and `--flag=value`, and the other
arguments in order. -/
def splitArgs (valued : List String) : List String → Except String (List (String × String) × List String)
  | [] => .ok ([], [])
  | a :: rest =>
    if a.startsWith "--" then
      match a.splitOn "=" with
      | [flag, value] => do
        let (fs, ps) ← splitArgs valued rest
        pure ((flag, value) :: fs, ps)
      | _ =>
        if valued.contains a then
          match rest with
          | v :: rest => do
            let (fs, ps) ← splitArgs valued rest
            pure ((a, v) :: fs, ps)
          | [] => .error ("a value is required for " ++ a)
        else do
          let (fs, ps) ← splitArgs valued rest
          pure ((a, "") :: fs, ps)
    else do
      let (fs, ps) ← splitArgs valued rest
      pure (fs, a :: ps)

/-- The request of the command line arguments. -/
def parseArgs (args : List String) : Except String Request := do
  let (fs, ps) ← splitArgs ["--format", "--numerical"] args
  let known (allowed : List String) : Except String Unit :=
    match fs.find? (!allowed.contains ·.1) with
    | some (f, _) => .error ("unexpected argument " ++ f)
    | none => .ok ()
  match ps with
  | ["options", brick] => do
    known ["--format", "--already-configured"]
    let format ← match (fs.find? (·.1 == "--format")).map (·.2) with
      | none | some "yaml" => pure Format.yaml
      | some "json" => pure .json
      | some f => throw ("invalid format " ++ f)
    pure (.options brick format (fs.any (·.1 == "--already-configured")))
  | ["generate", path] => do
    known []
    pure (.generate path)
  | ["jacobian", path, equation, target, placeholder] => do
    known ["--numerical"]
    let numerical ← match (fs.find? (·.1 == "--numerical")).map (·.2) with
      | none => pure none
      | some v => match Float64.readDecimal? v with
        | some x => pure (some x)
        | none => throw ("invalid value " ++ v ++ " for --numerical")
    pure (.jacobian path equation target placeholder numerical)
  | _ => throw usage

/-- A string as a YAML scalar: plain when it reads back as the same string, else quoted. -/
def yamlString (s : String) : String :=
  let plainSafe := match s.toList with
    | [] => false
    | c :: _ =>
      !(Document.Yaml.cannotStartPlain c || c == '-' || c == '?' || c == ':' || c == '\'' || c == '"' ||
        c == ' ') && !s.endsWith " " && !Document.Yaml.hasMappingIndicator s &&
        (s.splitOn " #").length == 1 &&
        (match Document.resolvePlain s with
          | .text _ => true
          | _ => false)
  if plainSafe then s else "'" ++ "''".intercalate (s.splitOn "'") ++ "'"

mutual

/-- A value as it appears in the schema's YAML. -/
def dataYaml : Data → String
  | .bool b => if b then "true" else "false"
  | .int i => toString i
  | .real x => Float64.general x
  | .str s => yamlString s
  | .array xs => "[" ++ ", ".intercalate (dataYamlItems xs) ++ "]"
  | .map es => "\x7b" ++ ", ".intercalate (dataYamlEntries es) ++ "\x7d"

def dataYamlItems : List Data → List String
  | [] => []
  | d :: ds => dataYaml d :: dataYamlItems ds

def dataYamlEntries : List (String × Data) → List String
  | [] => []
  | (k, d) :: ds => (yamlString k ++ ": " ++ dataYaml d) :: dataYamlEntries ds

end

/-- The option schema as YAML: a sequence of mappings. -/
def schemaYaml (specs : List OptionSpec) : String :=
  let list (key : String) (xs : List String) (indent : String) : String :=
    if xs.isEmpty then "" else
      indent ++ key ++ ":\n" ++ String.join (xs.map fun x => indent ++ "- " ++ yamlString x ++ "\n")
  if specs.isEmpty then "[]\n" else
  String.join (specs.map fun o =>
    "- name: " ++ yamlString o.name ++ "\n" ++
    "  description: " ++ yamlString o.description ++ "\n" ++
    "  value_type:\n    kind: " ++ o.type.kindName ++ "\n" ++
    (match o.type with
      | .enumeration allowed => list "allowed" allowed "    "
      | _ => "") ++
    (match o.default with
      | some d => "  default: " ++ dataYaml d ++ "\n"
      | none => "") ++
    list "conflicts" o.conflicts "  " ++ list "requires" o.requires "  ")

mutual

/-- A value as it appears in the schema's JSON; a NaN or an infinity is null. -/
def dataJson : Data → Json
  | .bool b => .bool b
  | .int i => Json.int i
  | .real x => if x.isNaN || x.isInf then .null else .num (Float64.general x)
  | .str s => .str s
  | .array xs => .arr (dataJsonItems xs)
  | .map es => .obj (dataJsonEntries es)

def dataJsonItems : List Data → List Json
  | [] => []
  | d :: ds => dataJson d :: dataJsonItems ds

def dataJsonEntries : List (String × Data) → List (String × Json)
  | [] => []
  | (k, d) :: ds => (k, dataJson d) :: dataJsonEntries ds

end

/-- The option schema as JSON, laid out over lines. -/
def schemaJson (specs : List OptionSpec) : String :=
  let strs (xs : List String) : Json := .arr (xs.map .str)
  (Json.arr (specs.map fun o =>
    .obj ([("name", .str o.name), ("description", .str o.description),
      ("value_type", .obj (("kind", .str o.type.kindName) :: match o.type with
        | .enumeration allowed => [("allowed", strs allowed)]
        | _ => []))] ++
      (match o.default with
        | some d => [("default", dataJson d)]
        | none => []) ++
      (if o.conflicts.isEmpty then [] else [("conflicts", strs o.conflicts)]) ++
      (if o.requires.isEmpty then [] else [("requires", strs o.requires)])))).pretty ""

/-- The text `options` prints. -/
def optionsText (brick : String) (format : Format) (alreadyConfigured : Bool) :
    Except String String := do
  let p ← (Potential.create brick).mapError BrickError.message
  let specs := p.options alreadyConfigured
  pure ((match format with
    | .yaml => schemaYaml specs
    | .json => schemaJson specs) ++ "\n")

/-- Whether a path names a JSON file: its file name has the extension `json`. -/
def isJsonPath (path : String) : Bool :=
  let name := (path.splitOn "/").getLast?.getD path
  match name.splitOn "." with
  | [] | [_] => false
  | parts => parts.getLast? == some "json" && !(parts.length == 2 && parts.head? == some "")

/-- The source in a file's text, read as JSON or YAML by the file's extension. -/
def loadSource (path text : String) : Except String Source :=
  (if isJsonPath path then Source.ofJson text else Source.ofYaml text).mapError BehaviourError.message

/-- The text `generate` prints. -/
def generateText (path text : String) : Except String String := do
  let s ← loadSource path text
  let c ← (compileSource s).mapError BrickError.message
  pure c.listing

/-- The text `jacobian` prints. -/
def jacobianText (path text equation target placeholder : String) (numerical : Option Float) :
    Except String String := do
  let s ← loadSource path text
  let c ← (compileSource s).mapError BrickError.message
  let mode := match numerical with
    | some eps => JacobianMode.numerical eps
    | none => .analytical
  (c.jacobianListing equation target placeholder mode).mapError BrickError.message

end Elasto.Cli
