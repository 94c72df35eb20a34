import Mathlib
import Elasto.Brick.State
import Elasto.Proofs.Except

/-! # Option maps against a schema

An option map is checked entry by entry in key order, and the first refused entry stops the
check. The rules an entry must pass are stated here apart from the check: the schema's first
option of that name exists, its type admits the value, none of the options it conflicts with
is given and all those it requires are. An entry that breaks a rule is refused for the first
one it breaks, conflicts and requirements taken in the order the option lists them.

Main statements:
* `validateDataMap_verdict`: a map with sorted keys passes exactly when every entry does, and
  otherwise its error names the least refused key with the reason of the first rule broken.
-/

namespace Elasto.Behaviour

/-- The keys of a map increase strictly: each key is given once, and the map is walked in
key order. -/
def DataMap.Sorted (m : DataMap) : Prop := m.Pairwise fun a b => a.1 < b.1

instance (m : DataMap) : Decidable m.Sorted := inferInstanceAs (Decidable (List.Pairwise _ m))

theorem DataMap.Sorted.eq_of_mem {m : DataMap} (hs : m.Sorted) {k : String} {v v' : Data}
    (h : (k, v) ∈ m) (h' : (k, v') ∈ m) : v = v' := by
  induction m with
  | nil => cases h
  | cons e rest ih =>
    obtain ⟨he, hrest⟩ := List.pairwise_cons.mp hs
    rcases List.mem_cons.mp h with rfl | hv <;> rcases List.mem_cons.mp h' with hv' | hv'
    · exact (Prod.mk.inj hv').2.symm
    · exact absurd (he (k, v') hv') (lt_irrefl k)
    · subst hv'
      exact absurd (he (k, v) hv) (lt_irrefl k)
    · exact ih hrest hv hv'

theorem DataMap.Sorted.mem_pre_of_lt {pre post : DataMap} {k : String} {v : Data}
    (hs : DataMap.Sorted (pre ++ (k, v) :: post)) {kv : String × Data}
    (hkv : kv ∈ pre ++ (k, v) :: post) (hlt : kv.1 < k) : kv ∈ pre := by
  rcases List.mem_append.mp hkv with h | h
  · exact h
  rcases List.mem_cons.mp h with rfl | h
  · exact absurd hlt (lt_irrefl _)
  · have hgt : k < kv.1 := (List.pairwise_cons.mp (List.pairwise_append.mp hs).2.1).1 kv h
    exact absurd (hlt.trans hgt) (lt_irrefl _)

/-- `x` is the first element of `xs` with the property `p`. -/
def FirstWith {α : Type} (p : α → Prop) (xs : List α) (x : α) : Prop :=
  ∃ pre post, xs = pre ++ x :: post ∧ p x ∧ ∀ y ∈ pre, ¬ p y

theorem find?_eq_some_iff_firstWith {α : Type} {p : α → Bool} {xs : List α} {x : α} :
    xs.find? p = some x ↔ FirstWith (fun y => p y = true) xs x := by
  rw [List.find?_eq_some_iff_append]
  constructor
  · rintro ⟨hx, pre, post, rfl, hpre⟩
    exact ⟨pre, post, rfl, hx, fun y hy => by simpa using hpre y hy⟩
  · rintro ⟨pre, post, rfl, hx, hpre⟩
    exact ⟨hx, pre, post, rfl, fun y hy => by simpa using hpre y hy⟩

theorem FirstWith.congr {α : Type} {p q : α → Prop} {xs : List α} {x : α}
    (h : FirstWith p xs x) (hpq : ∀ y, p y ↔ q y) : FirstWith q xs x := by
  obtain ⟨pre, post, rfl, hx, hpre⟩ := h
  exact ⟨pre, post, rfl, (hpq x).mp hx, fun y hy => mt (hpq y).mpr (hpre y hy)⟩

theorem FirstWith.find?_eq {α : Type} {p : α → Prop} [DecidablePred p] {xs : List α} {x : α}
    (h : FirstWith p xs x) : xs.find? (fun y => decide (p y)) = some x :=
  find?_eq_some_iff_firstWith.mpr (h.congr fun _ => decide_eq_true_iff.symm)

theorem FirstWith.unique {α : Type} {p : α → Prop} [DecidablePred p] {xs : List α} {x y : α}
    (hx : FirstWith p xs x) (hy : FirstWith p xs y) : x = y :=
  Option.some.inj (hx.find?_eq.symm.trans hy.find?_eq)

theorem FirstWith.of_find? {α : Type} {p : α → Prop} [DecidablePred p] {xs : List α} {x : α}
    (h : xs.find? (fun y => decide (p y)) = some x) : FirstWith p xs x :=
  (find?_eq_some_iff_firstWith.mp h).congr fun _ => decide_eq_true_iff

theorem exists_firstWith {α : Type} {p : α → Prop} [DecidablePred p] {xs : List α}
    (h : ∃ x ∈ xs, p x) : ∃ x, FirstWith p xs x := by
  obtain ⟨x, hx⟩ := Option.isSome_iff_exists.mp
    (List.find?_isSome.mpr (by simpa using h) : (xs.find? fun a => decide (p a)).isSome)
  exact ⟨x, .of_find? hx⟩

theorem DataMap.contains_iff {m : DataMap} {k : String} :
    m.contains k = true ↔ k ∈ m.map Prod.fst := by
  simp [DataMap.contains]

theorem DataMap.mem_of_get?_eq_some {m : DataMap} {k : String} {d : Data}
    (h : m.get? k = some d) : (k, d) ∈ m := by
  obtain ⟨⟨k', d'⟩, hf, rfl⟩ := Option.map_eq_some_iff.mp h
  obtain rfl : k' = k := by simpa using List.find?_some hf
  exact List.mem_of_find?_eq_some hf

namespace OptionType

/-- The values a type admits: a boolean; an integer or a finite real; a string; one of the
listed strings; an integer, a finite real or a formula. -/
inductive Admits : OptionType → Data → Prop
  | boolean (b : Bool) : Admits .boolean (.bool b)
  | realInt (i : Int) : Admits .real (.int i)
  | real {x : Float} (h : Numeric.isFinite x = true) : Admits .real (.real x)
  | string (s : String) : Admits .string (.str s)
  | listed {allowed : List String} {s : String} (h : s ∈ allowed) :
      Admits (.enumeration allowed) (.str s)
  | propertyInt (i : Int) : Admits .materialProperty (.int i)
  | propertyReal {x : Float} (h : Numeric.isFinite x = true) : Admits .materialProperty (.real x)
  | formula (s : String) : Admits .materialProperty (.str s)

theorem accepts_iff_admits {t : OptionType} {v : Data} : t.accepts v = true ↔ t.Admits v := by
  constructor
  · intro h
    cases t <;> cases v <;> simp only [accepts, List.contains_iff_mem, Bool.false_eq_true] at h
    all_goals first
      | exact .boolean _ | exact .realInt _ | exact .real h | exact .string _ | exact .listed h
      | exact .propertyInt _ | exact .propertyReal h | exact .formula _
  · rintro (_ | _ | h | _ | h | _ | h | _) <;> simp [accepts, *]

end OptionType

/-- Why an entry is refused: the first rule it breaks. -/
inductive Refusal where
  | unknown
  | mistyped (expected : OptionType)
  | conflict (other : String)
  | missing (required : String)

/-- The reason an error gives for refusing the value `v`. -/
def Refusal.reason (v : Data) : Refusal → String
  | .unknown => "unknown option"
  | .mistyped t => "expected " ++ t.describe ++ ", got " ++ v.display
  | .conflict other => "conflicts with option '" ++ other ++ "'"
  | .missing name => "requires option '" ++ name ++ "'"

section Rules

variable (schema : List OptionSpec) (data : DataMap)

/-- The entry `(k, v)` of `data` passes: the first option named `k` admits `v`, no option it
conflicts with is a key of the map, and every option it requires is. -/
def Passes (k : String) (v : Data) : Prop :=
  ∃ o, FirstWith (·.name = k) schema o ∧ o.type.Admits v ∧
    (∀ c ∈ o.conflicts, c ∉ data.map Prod.fst) ∧ ∀ r ∈ o.requires, r ∈ data.map Prod.fst

/-- The entry `(k, v)` of `data` is refused for the first rule it breaks: a known key, then
the type, then the conflicts in their order, then the requirements in theirs. -/
inductive Refuses : String → Data → Refusal → Prop
  | unknown {k : String} {v : Data} (h : ∀ o ∈ schema, o.name ≠ k) : Refuses k v .unknown
  | mistyped {k : String} {v : Data} {o : OptionSpec} (ho : FirstWith (·.name = k) schema o)
      (ht : ¬ o.type.Admits v) : Refuses k v (.mistyped o.type)
  | conflict {k : String} {v : Data} {o : OptionSpec} {c : String}
      (ho : FirstWith (·.name = k) schema o) (ht : o.type.Admits v)
      (hc : FirstWith (· ∈ data.map Prod.fst) o.conflicts c) : Refuses k v (.conflict c)
  | missing {k : String} {v : Data} {o : OptionSpec} {r : String}
      (ho : FirstWith (·.name = k) schema o) (ht : o.type.Admits v)
      (hc : ∀ c ∈ o.conflicts, c ∉ data.map Prod.fst)
      (hr : FirstWith (· ∉ data.map Prod.fst) o.requires r) : Refuses k v (.missing r)

end Rules

section Check

variable {schema : List OptionSpec} {data : DataMap} {k : String} {v : Data}

theorem find?_name_eq_some {o : OptionSpec} (ho : FirstWith (·.name = k) schema o) :
    schema.find? (·.name == k) = some o :=
  find?_eq_some_iff_firstWith.mpr (ho.congr fun _ => beq_iff_eq.symm)

theorem find?_contains_eq_none {names : List String}
    (h : ∀ c ∈ names, c ∉ data.map Prod.fst) : names.find? data.contains = none :=
  List.find?_eq_none.mpr fun c hc => by rw [DataMap.contains_iff]; exact h c hc

theorem find?_not_contains_eq_none {names : List String}
    (h : ∀ r ∈ names, r ∈ data.map Prod.fst) : names.find? (!data.contains ·) = none :=
  List.find?_eq_none.mpr fun r hr => by simpa [DataMap.contains_iff] using h r hr

theorem find?_not_contains_eq_some {names : List String} {r : String}
    (h : FirstWith (· ∉ data.map Prod.fst) names r) : names.find? (!data.contains ·) = some r :=
  find?_eq_some_iff_firstWith.mpr (h.congr fun _ => by
    rw [Bool.not_eq_true', ← Bool.not_eq_true, DataMap.contains_iff])

theorem passes_or_refuses (k : String) (v : Data) :
    Passes schema data k v ∨ ∃ r, Refuses schema data k v r := by
  by_cases hk : ∃ o ∈ schema, o.name = k
  · obtain ⟨o, ho⟩ := exists_firstWith hk
    by_cases ht : o.type.Admits v
    · by_cases hc : ∃ c ∈ o.conflicts, c ∈ data.map Prod.fst
      · obtain ⟨c, hc⟩ := exists_firstWith hc
        exact .inr ⟨_, .conflict ho ht hc⟩
      · push Not at hc
        by_cases hr : ∃ r ∈ o.requires, r ∉ data.map Prod.fst
        · obtain ⟨r, hr⟩ := exists_firstWith hr
          exact .inr ⟨_, .missing ho ht hc hr⟩
        · push Not at hr
          exact .inl ⟨o, ho, ht, hc, hr⟩
    · exact .inr ⟨_, .mistyped ho ht⟩
  · push Not at hk
    exact .inr ⟨_, .unknown hk⟩

theorem checkEntry_of_passes (h : Passes schema data k v) : checkEntry schema data k v = .ok () := by
  obtain ⟨o, ho, ht, hc, hr⟩ := h
  unfold checkEntry
  rw [find?_name_eq_some ho]
  simp only [OptionSpec.validate, OptionType.accepts_iff_admits.mpr ht, if_true,
    find?_contains_eq_none hc, find?_not_contains_eq_none hr]
  rfl

theorem checkEntry_of_refuses {r : Refusal} (h : Refuses schema data k v r) :
    checkEntry schema data k v = .error (.invalidOption k (r.reason v)) := by
  unfold checkEntry
  cases h with
  | unknown hk =>
    rw [List.find?_eq_none.mpr fun o ho => by simpa using hk o ho]
    rfl
  | @mistyped o ho ht =>
    have hname : o.name = k := by obtain ⟨-, -, -, h, -⟩ := ho; exact h
    rw [find?_name_eq_some ho]
    simp only [OptionSpec.validate, mt OptionType.accepts_iff_admits.mp ht, hname]
    rfl
  | conflict ho ht hc =>
    rw [find?_name_eq_some ho]
    simp only [OptionSpec.validate, OptionType.accepts_iff_admits.mpr ht, if_true,
      find?_eq_some_iff_firstWith.mpr (hc.congr fun _ => DataMap.contains_iff.symm)]
    rfl
  | missing ho ht hc hr =>
    rw [find?_name_eq_some ho]
    simp only [OptionSpec.validate, OptionType.accepts_iff_admits.mpr ht, if_true,
      find?_contains_eq_none hc, find?_not_contains_eq_some hr]
    rfl

theorem checkEntry_eq_ok_iff : checkEntry schema data k v = .ok () ↔ Passes schema data k v := by
  refine ⟨fun h => ?_, checkEntry_of_passes⟩
  rcases @passes_or_refuses schema data k v with hp | ⟨r, hr⟩
  · exact hp
  · rw [checkEntry_of_refuses hr] at h
    cases h

theorem checkEntry_eq_error_iff {e : BehaviourError} :
    checkEntry schema data k v = .error e ↔
      ∃ r, Refuses schema data k v r ∧ e = .invalidOption k (r.reason v) := by
  refine ⟨fun h => ?_, fun ⟨r, hr, he⟩ => he ▸ checkEntry_of_refuses hr⟩
  rcases @passes_or_refuses schema data k v with hp | ⟨r, hr⟩
  · rw [checkEntry_of_passes hp] at h
    cases h
  · rw [checkEntry_of_refuses hr] at h
    exact ⟨r, hr, (Except.error.inj h).symm⟩

theorem not_passes_of_refuses {r : Refusal} (h : Refuses schema data k v r) :
    ¬ Passes schema data k v := fun hp => by
  have hok := checkEntry_of_passes hp
  rw [checkEntry_of_refuses h] at hok
  cases hok

end Check

section Map

variable {schema : List OptionSpec} {data : DataMap}

theorem validateDataMap_eq_ok_iff :
    validateDataMap schema data = .ok () ↔ ∀ kv ∈ data, Passes schema data kv.1 kv.2 := by
  unfold validateDataMap
  rw [except_forM_eq_ok]
  exact forall₂_congr fun _ _ => checkEntry_eq_ok_iff

/-- A failed check stops at the first refused entry, and in a sorted map every entry with a
smaller key passes. -/
theorem validateDataMap_eq_error (hs : data.Sorted) {e : BehaviourError}
    (h : validateDataMap schema data = .error e) :
    ∃ k v r, (k, v) ∈ data ∧ Refuses schema data k v r ∧ e = .invalidOption k (r.reason v) ∧
      ∀ kv ∈ data, kv.1 < k → Passes schema data kv.1 kv.2 := by
  unfold validateDataMap at h
  obtain ⟨pre, ⟨k, v⟩, post, rfl, hpre, hx⟩ := except_forM_eq_error.mp h
  obtain ⟨r, hr, rfl⟩ := checkEntry_eq_error_iff.mp hx
  exact ⟨k, v, r, List.mem_append_right _ List.mem_cons_self, hr, rfl,
    fun kv hkv hlt => checkEntry_eq_ok_iff.mp (hpre kv (hs.mem_pre_of_lt hkv hlt))⟩

/-- A map with sorted keys passes its schema exactly when every entry passes. Otherwise the
error names the least refused key, with the reason of the first rule that entry breaks: an
unknown key, a value its type does not admit, the first given option it conflicts with, or
the first option it requires that is not given. -/
theorem validateDataMap_verdict (schema : List OptionSpec) {data : DataMap} (hs : data.Sorted) :
    (validateDataMap schema data = .ok () ↔ ∀ kv ∈ data, Passes schema data kv.1 kv.2) ∧
      ∀ e, validateDataMap schema data = .error e ↔
        ∃ k v r, (k, v) ∈ data ∧ Refuses schema data k v r ∧ e = .invalidOption k (r.reason v) ∧
          ∀ kv ∈ data, kv.1 < k → Passes schema data kv.1 kv.2 := by
  refine ⟨validateDataMap_eq_ok_iff, fun e => ⟨validateDataMap_eq_error hs, ?_⟩⟩
  rintro ⟨k, v, r, hmem, hr, rfl, hleast⟩
  rcases hres : validateDataMap schema data with e' | ⟨⟩
  · obtain ⟨k', v', r', hmem', hr', rfl, hleast'⟩ := validateDataMap_eq_error hs hres
    -- two least refused keys are the same key, hence the same entry and the same error
    have hk : k' = k := by
      rcases lt_trichotomy k' k with hlt | heq | hgt
      · exact absurd (hleast _ hmem' hlt) (not_passes_of_refuses hr')
      · exact heq
      · exact absurd (hleast' _ hmem hgt) (not_passes_of_refuses hr)
    subst hk
    obtain rfl := hs.eq_of_mem hmem hmem'
    rw [← checkEntry_of_refuses hr, ← checkEntry_of_refuses hr']
  · exact absurd (validateDataMap_eq_ok_iff.mp hres _ hmem) (not_passes_of_refuses hr)

/-- A schema of a stiffness storage, an expansion coefficient, its reference temperature,
which requires the coefficient, and a fast path, which conflicts with it. -/
def expansionSchema : List OptionSpec :=
  [{ name := "storage", description := "storage of the stiffness",
     type := .enumeration ["constant", "field_dependent"],
     default := some (.str "field_dependent") },
   { name := "alpha", description := "expansion", type := .materialProperty },
   { name := "tref", description := "reference temperature", type := .real,
     default := some (.int 293), requires := ["alpha"] },
   { name := "fast", description := "fast path", type := .boolean, conflicts := ["alpha"] }]

/-- The fast path given with an expansion coefficient is refused for the conflict, the
coefficient, whose key is smaller, having passed. -/
theorem validateDataMap_refuses_fast_with_alpha :
    validateDataMap expansionSchema [("alpha", .str "1e-5 * T"), ("fast", .bool true)] =
      .error (.invalidOption "fast" "conflicts with option 'alpha'") := by
  have hs : DataMap.Sorted [("alpha", .str "1e-5 * T"), ("fast", .bool true)] := by decide
  refine ((validateDataMap_verdict expansionSchema hs).2 _).mpr
    ⟨"fast", .bool true, .conflict "alpha", by simp,
      .conflict (.of_find? rfl) (.boolean true) (.of_find? (by decide)), rfl, ?_⟩
  rintro ⟨k, v⟩ hkv hlt
  simp only [List.mem_cons, Prod.mk.injEq, List.not_mem_nil, or_false] at hkv
  rcases hkv with ⟨rfl, rfl⟩ | ⟨rfl, rfl⟩
  · exact ⟨_, .of_find? rfl, .formula _, by simp, by simp⟩
  · exact absurd hlt (lt_irrefl _)

end Map

end Elasto.Behaviour

namespace Elasto.Brick

open Elasto.Behaviour

/-! ### Reading the options back -/

/-- The schema's first option named `name` has the type `t` and the default `d₀`. -/
def Offers (schema : List OptionSpec) (name : String) (t : OptionType) (d₀ : Data) : Prop :=
  ∃ o, FirstWith (·.name = name) schema o ∧ o.type = t ∧ o.default = some d₀

section Reading

variable {schema : List OptionSpec} {data : DataMap} {r : Reader} {name : String}

theorem Reader.make_eq_ok (h : Reader.make schema data = .ok r) :
    validateDataMap schema data = .ok () ∧ r = ⟨schema, data⟩ := by
  unfold Reader.make at h
  rcases hv : validateDataMap schema data with e | ⟨⟩
  · simp [hv, liftBehaviour, Except.mapError] at h
  · simp only [hv, liftBehaviour, Except.mapError, except_ok_bind, except_pure,
      Except.ok.injEq] at h
    exact ⟨rfl, h.symm⟩

/-- On a map that passes its schema, an option with a default is read as the value given,
which its type admits, or else as its default. -/
theorem Reader.value_of_make (hr : Reader.make schema data = .ok r) {t : OptionType}
    {d₀ : Data} (ho : Offers schema name t d₀) :
    ∃ d, r.value name = .ok d ∧ (t.Admits d ∨ d = d₀) := by
  obtain ⟨hv, rfl⟩ := Reader.make_eq_ok hr
  obtain ⟨o, ho, rfl, hd⟩ := ho
  rcases hget : data.get? name with _ | d
  · refine ⟨d₀, ?_, .inr rfl⟩
    simp [Reader.value, valueOrDefault, hget, find?_name_eq_some ho, hd]
  · -- the given value passed the check, against the first option of its name
    obtain ⟨o', ho', hadm, -⟩ :=
      validateDataMap_eq_ok_iff.mp hv _ (DataMap.mem_of_get?_eq_some hget)
    obtain rfl := ho'.unique ho
    exact ⟨d, by simp [Reader.value, valueOrDefault, hget], .inl hadm⟩

theorem Reader.get?_eq_none_of_make (hr : Reader.make schema data = .ok r)
    (hn : schema.find? (·.name == name) = none) : data.get? name = none := by
  obtain ⟨hv, -⟩ := Reader.make_eq_ok hr
  rcases hget : data.get? name with _ | v
  · rfl
  · obtain ⟨o, ho, -⟩ := validateDataMap_eq_ok_iff.mp hv _ (DataMap.mem_of_get?_eq_some hget)
    rw [find?_name_eq_some ho] at hn
    cases hn

theorem Reader.boolean_of_make (hr : Reader.make schema data = .ok r) {b₀ : Bool}
    (ho : Offers schema name .boolean (.bool b₀)) : ∃ b, r.boolean name = .ok b := by
  obtain ⟨d, hd, hadm | rfl⟩ := Reader.value_of_make hr ho
  · cases hadm with
    | boolean b => exact ⟨b, by simp [Reader.boolean, hd, Data.asBool?]⟩
  · exact ⟨b₀, by simp [Reader.boolean, hd, Data.asBool?]⟩

theorem Reader.real_of_make (hr : Reader.make schema data = .ok r) {x₀ : Float}
    (ho : Offers schema name .real (.real x₀)) : ∃ x, r.real name = .ok x := by
  obtain ⟨d, hd, hadm | rfl⟩ := Reader.value_of_make hr ho
  · cases hadm with
    | realInt i =>
      exact ⟨Float64.ofDecimal (decide (i < 0)) i.natAbs 0, by simp [Reader.real, hd, Data.asReal?]⟩
    | @real x _ => exact ⟨x, by simp [Reader.real, hd, Data.asReal?]⟩
  · exact ⟨x₀, by simp [Reader.real, hd, Data.asReal?]⟩

theorem Reader.string_of_make (hr : Reader.make schema data = .ok r) {s₀ : String}
    (ho : Offers schema name .string (.str s₀)) : ∃ s, r.string name = .ok s := by
  obtain ⟨d, hd, hadm | rfl⟩ := Reader.value_of_make hr ho
  · cases hadm with
    | string s => exact ⟨s, by simp [Reader.string, hd, Data.asStr?]⟩
  · exact ⟨s₀, by simp [Reader.string, hd, Data.asStr?]⟩

theorem Reader.string_eq_of_make (hr : Reader.make schema data = .ok r) {s₀ : String}
    (ho : Offers schema name .string (.str s₀)) {s : String} (hs : r.string name = .ok s) :
    s = match data.get? name with
      | some (.str v) => v
      | _ => s₀ := by
  obtain ⟨-, rfl⟩ := Reader.make_eq_ok hr
  obtain ⟨o, ho, -, hd⟩ := ho
  simp only [Reader.string, Reader.value, valueOrDefault] at hs
  rcases hget : data.get? name with _ | v
  · simp [hget, find?_name_eq_some ho, hd, Data.asStr?] at hs
    exact hs.symm
  · cases v <;> simp [hget, Data.asStr?] at hs ⊢
    exact hs.symm

theorem Reader.storage_of_make (hr : Reader.make schema data = .ok r) {st₀ : Storage}
    (ho : Offers schema Opt.stiffnessTensorStorage
      (.enumeration [Storage.constant.name, Storage.fieldDependent.name]) (.str st₀.name)) :
    ∃ st, r.storage = .ok st := by
  have hname : ∀ s, (s = Storage.constant.name ∨ s = Storage.fieldDependent.name) →
      ∃ st, Reader.string r Opt.stiffnessTensorStorage = .ok s → r.storage = .ok st := by
    rintro s (rfl | rfl)
    · exact ⟨.constant, fun hs => by simp [Reader.storage, hs, Storage.ofName?, Storage.name]⟩
    · exact ⟨.fieldDependent, fun hs => by simp [Reader.storage, hs, Storage.ofName?, Storage.name]⟩
  obtain ⟨d, hd, hadm | rfl⟩ := Reader.value_of_make hr ho
  · cases hadm with
    | @listed _ s hs =>
      obtain ⟨st, hst⟩ := hname s (by simpa using hs)
      exact ⟨st, hst (by simp [Reader.string, hd, Data.asStr?])⟩
  · obtain ⟨st, hst⟩ := hname st₀.name (by cases st₀ <;> simp)
    exact ⟨st, hst (by simp [Reader.string, hd, Data.asStr?])⟩

theorem Reader.property_of_make (hr : Reader.make schema data = .ok r)
    (ht : ∀ o, schema.find? (·.name == name) = some o → o.type = .materialProperty) :
    ∃ q, r.property name = .ok q := by
  obtain ⟨hv, rfl⟩ := Reader.make_eq_ok hr
  rcases hget : data.get? name with _ | d
  · exact ⟨none, by simp [Reader.property, hget]⟩
  obtain ⟨o, ho, hadm, -⟩ := validateDataMap_eq_ok_iff.mp hv _ (DataMap.mem_of_get?_eq_some hget)
  rw [ht o (find?_name_eq_some ho)] at hadm
  cases hadm with
  | propertyInt i =>
    exact ⟨some (.constant (Float64.ofDecimal (decide (i < 0)) i.natAbs 0)),
      by simp [Reader.property, hget, Property.ofData]; rfl⟩
  | @propertyReal x hx =>
    exact ⟨some (.constant x), by simp [Reader.property, hget, Property.ofData, hx]; rfl⟩
  | formula s => exact ⟨some (.formula s), by simp [Reader.property, hget, Property.ofData]; rfl⟩

end Reading

section Potentials

variable {p : Potential} {c : Bool}

theorem options_offer_storage :
    Offers (p.options c) Opt.stiffnessTensorStorage
      (.enumeration [Storage.constant.name, Storage.fieldDependent.name])
      (.str Storage.fieldDependent.name) := by
  cases p <;> cases c <;> exact ⟨_, .of_find? rfl, rfl, rfl⟩

theorem options_offer_switch {name : String}
    (h : name ∈ [Opt.planeStressSupport, Opt.genericTangentOperator, Opt.genericPredictionOperator]) :
    ∃ b₀, Offers (p.options c) name .boolean (.bool b₀) := by
  simp only [List.mem_cons, List.not_mem_nil, or_false] at h
  rcases h with rfl | rfl | rfl <;> cases p <;> cases c <;> exact ⟨_, _, .of_find? rfl, rfl, rfl⟩

theorem options_offer_referenceTemperature :
    Offers (p.options c) Opt.thermalExpansionReferenceTemperature .real
      (.real Numeric.referenceTemperature) := by
  cases p <;> cases c <;> exact ⟨_, .of_find? rfl, rfl, rfl⟩

theorem options_property_type {name : String}
    (h : name ∈ [Opt.youngModulus, Opt.poissonRatio, Opt.thermalExpansion]) :
    ∀ o, (p.options c).find? (·.name == name) = some o → o.type = .materialProperty := by
  simp only [List.mem_cons, List.not_mem_nil, or_false] at h
  rcases h with rfl | rfl | rfl <;> cases p <;> cases c <;> intro o ho <;> cases ho <;> rfl

theorem options_configured_lack_elasticity :
    (p.options true).find? (·.name == Opt.youngModulus) = none ∧
      (p.options true).find? (·.name == Opt.poissonRatio) = none := by
  cases p <;> exact ⟨rfl, rfl⟩

theorem options_offer_damage (c : Bool) :
    Offers (Potential.isotropicDamageHooke.options c) Opt.damageVariable .string (.str "d") ∧
      Offers (Potential.isotropicDamageHooke.options c) Opt.damageUpperBound .real (.real 0.99) := by
  cases c <;> exact ⟨⟨_, .of_find? rfl, rfl, rfl⟩, ⟨_, .of_find? rfl, rfl, rfl⟩⟩

/-- Validated options can always be read back. On a map that the options of a stress
potential accept, whether the elastic properties are declared already or not, none of the
typed reads that initialization makes fails: the storage, the three switches, the reference
temperature of the thermal expansion and the three material properties; nor, for the damaged
law, the name of the damage variable and its upper bound. -/
theorem Reader.initialization_reads_succeed {p : Potential} {c : Bool} {data : DataMap}
    {r : Reader} (hr : Reader.make (p.options c) data = .ok r) :
    (∃ s, r.storage = .ok s) ∧
      (∀ name ∈ [Opt.planeStressSupport, Opt.genericTangentOperator,
        Opt.genericPredictionOperator], ∃ b, r.boolean name = .ok b) ∧
      (∃ t, r.real Opt.thermalExpansionReferenceTemperature = .ok t) ∧
      (∀ name ∈ [Opt.youngModulus, Opt.poissonRatio, Opt.thermalExpansion],
        ∃ q, r.property name = .ok q) ∧
      (p = .isotropicDamageHooke →
        (∃ v, r.string Opt.damageVariable = .ok v) ∧ ∃ ub, r.real Opt.damageUpperBound = .ok ub) := by
  refine ⟨Reader.storage_of_make hr options_offer_storage, fun name h => ?_,
    Reader.real_of_make hr options_offer_referenceTemperature,
    fun name h => Reader.property_of_make hr (options_property_type h), ?_⟩
  · obtain ⟨b₀, ho⟩ := options_offer_switch (p := p) (c := c) h
    exact Reader.boolean_of_make hr ho
  · rintro rfl
    exact ⟨Reader.string_of_make hr (options_offer_damage c).1,
      Reader.real_of_make hr (options_offer_damage c).2⟩

/-- The options of the damaged law read back from a map giving the Young modulus as a
number, the Poisson ratio as a formula and a damage variable `w`. -/
theorem initialization_reads_succeed_damaged :
    Reader.make (Potential.isotropicDamageHooke.options false)
        [("damage_variable", .str "w"), ("poisson_ratio", .str "nu0"),
          ("young_modulus", .int 200)] =
      .ok ⟨Potential.isotropicDamageHooke.options false,
        [("damage_variable", .str "w"), ("poisson_ratio", .str "nu0"),
          ("young_modulus", .int 200)]⟩ ∧
    ∃ s, (Reader.mk (Potential.isotropicDamageHooke.options false)
        [("damage_variable", .str "w"), ("poisson_ratio", .str "nu0"),
          ("young_modulus", .int 200)]).string Opt.damageVariable = .ok s := by
  have hr : Reader.make (Potential.isotropicDamageHooke.options false)
      [("damage_variable", .str "w"), ("poisson_ratio", .str "nu0"), ("young_modulus", .int 200)] =
      .ok ⟨Potential.isotropicDamageHooke.options false,
        [("damage_variable", .str "w"), ("poisson_ratio", .str "nu0"),
          ("young_modulus", .int 200)]⟩ := rfl
  exact ⟨hr, ((Reader.initialization_reads_succeed hr).2.2.2.2 rfl).1⟩

end Potentials

end Elasto.Brick
