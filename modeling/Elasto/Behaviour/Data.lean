import Elasto.Float64.Text

/-! # Option data

Option values as they come from a source: booleans, integers, reals, strings, arrays and
maps with keys in sorted order. `Data.display` is the text of a value in messages: reals in
plain form, strings in double quotes, maps as `{k: v, ...}`. -/

namespace Elasto.Behaviour

inductive Data where
  | bool (b : Bool)
  | int (i : Int)
  | real (x : Float)
  | str (s : String)
  | array (items : List Data)
  | map (entries : List (String × Data))
  deriving Inhabited

/-- An option map: entries sorted by key, without repeats. -/
abbrev DataMap := List (String × Data)

namespace Data

def typeName : Data → String
  | .bool _ => "boolean"
  | .int _ => "integer"
  | .real _ => "real"
  | .str _ => "string"
  | .array _ => "array"
  | .map _ => "map"

def asBool? : Data → Option Bool
  | .bool b => some b
  | _ => none

/-- The value as a real; an integer is widened. -/
def asReal? : Data → Option Float
  | .int i => some (Float64.ofDecimal (i < 0) i.natAbs 0)
  | .real x => some x
  | _ => none

def asStr? : Data → Option String
  | .str s => some s
  | _ => none

mutual

def display : Data → String
  | .bool b => if b then "true" else "false"
  | .int i => toString i
  | .real x => Float64.plain x
  | .str s => "\"" ++ s ++ "\""
  | .array items => "[" ++ displayItems items ++ "]"
  | .map entries => "\x7b" ++ displayEntries entries ++ "\x7d"

def displayItems : List Data → String
  | [] => ""
  | [d] => display d
  | d :: rest => display d ++ ", " ++ displayItems rest

def displayEntries : List (String × Data) → String
  | [] => ""
  | [(k, d)] => k ++ ": " ++ display d
  | (k, d) :: rest => k ++ ": " ++ display d ++ ", " ++ displayEntries rest

end

end Data

namespace DataMap

def get? (m : DataMap) (key : String) : Option Data := (m.find? (·.1 == key)).map (·.2)

def contains (m : DataMap) (key : String) : Bool := m.any (·.1 == key)

/-- The map with `key` bound to `d`, replacing an earlier binding and keeping keys sorted. -/
def insert (m : DataMap) (key : String) (d : Data) : DataMap :=
  match m with
  | [] => [(key, d)]
  | (k, e) :: rest =>
    if key < k then (key, d) :: (k, e) :: rest
    else if key = k then (key, d) :: rest
    else (k, e) :: insert rest key d

/-- The map of a list of entries; of equal keys the last one wins. -/
def ofList (entries : List (String × Data)) : DataMap :=
  entries.foldl (fun m (k, d) => m.insert k d) []

@[simp] theorem get?_nil (k : String) : get? [] k = none := rfl

theorem get?_cons (k k' : String) (d : Data) (rest : DataMap) :
    get? ((k, d) :: rest) k' = if k = k' then some d else get? rest k' := by
  by_cases h : k = k' <;> simp [get?, h]

/-- Looking a key up after an insertion sees the inserted value at that key and the old
map elsewhere. -/
theorem get?_insert (m : DataMap) (k k' : String) (d : Data) :
    (m.insert k d).get? k' = if k = k' then some d else m.get? k' := by
  induction m with
  | nil => simp [insert, get?_cons]
  | cons e rest ih =>
    obtain ⟨k₀, d₀⟩ := e
    unfold insert
    by_cases hlt : k < k₀
    · simp only [hlt, if_true, get?_cons]
    · by_cases heq : k = k₀
      · subst heq
        simp only [hlt, if_false, if_true, get?_cons]
        by_cases h : k = k' <;> simp [h]
      · simp only [hlt, heq, if_false, get?_cons, ih]
        by_cases h1 : k₀ = k' <;> by_cases h2 : k = k' <;> simp_all

@[simp] theorem get?_insert_self (m : DataMap) (k : String) (d : Data) :
    (m.insert k d).get? k = some d := by
  simp [get?_insert]

theorem get?_insert_of_ne (m : DataMap) {k k' : String} (d : Data) (h : k ≠ k') :
    (m.insert k d).get? k' = m.get? k' := by
  simp [get?_insert, h]

end DataMap

end Elasto.Behaviour
