import Mathlib
import Elasto.Brick.Derivatives
import Elasto.Proofs.Edits
import Elasto.Proofs.Finalize
import Elasto.Proofs.OptionMaps
import Elasto.Proofs.Stress

/-!
# The order of the stress derivatives

The stress derivatives name the integration variables the stress depends on: the elastic
strain, the damage variable of a damaged law, then the state variables the elastic formulas
read, in the order of their declaration. The list is built from the configuration resolved at
initialization, on the description as it was before the brick declared its own variables, and
read against the description initialization leaves. Initialization only appends declarations
and keeps the declared names distinct, so the two descriptions agree on every variable the
formulas read.

Main statement (`stressDerivatives_follow_integration_variables`).
-/

namespace Elasto.Brick

open Elasto.Behaviour Elasto.Tensor

/-! ### Initialization only appends declarations -/

/-- `d'` keeps the declarations of `d` in front of its own, and keeps declared names distinct. -/
structure Grows (d d' : Description) : Prop where
  prefix_ : d.declarations <+: d'.declarations
  nodup : (d.declarations.map (·.2.name)).Nodup → (d'.declarations.map (·.2.name)).Nodup

namespace Grows

variable {d d₁ d₂ : Description}

theorem refl (d : Description) : Grows d d := ⟨List.prefix_refl _, id⟩

theorem trans (h₁ : Grows d d₁) (h₂ : Grows d₁ d₂) : Grows d d₂ :=
  ⟨h₁.prefix_.trans h₂.prefix_, h₂.nodup ∘ h₁.nodup⟩

theorem of_declarations_eq (h : d'.declarations = d.declarations) : Grows d d' :=
  ⟨h ▸ List.prefix_refl _, h ▸ id⟩

theorem of_declare {c : Category} {v : Variable} (h : d.declare c v = .ok d₁) : Grows d d₁ := by
  obtain ⟨hfree, rfl⟩ := Description.declare_eq_ok_iff.mp h
  refine ⟨List.prefix_append _ _, fun hn => ?_⟩
  have hv : v.name ∉ d.declarations.map (·.2.name) := by
    simpa [Description.hasVariable] using hfree
  simpa using hn.append (List.nodup_singleton _) (List.disjoint_singleton.mpr hv)

theorem of_setAttribute {k : String} {a : Attribute} (h : d.setAttribute k a = .ok d₁) :
    Grows d d₁ := by
  unfold Description.setAttribute at h
  split at h
  · split at h
    · cases h
      exact refl d
    · cases h
  · cases h
    exact of_declarations_eq rfl

theorem of_setAttributes {as : List (String × Attribute)} (h : setAttributes d as = .ok d₁) :
    Grows d d₁ := by
  induction as generalizing d with
  | nil =>
    cases h
    exact refl _
  | cons p rest ih =>
    simp only [setAttributes, List.foldlM_cons] at h
    obtain ⟨d', hd', h⟩ := except_bind_eq_ok.mp h
    exact (of_setAttribute (liftBehaviour_eq_ok.mp hd')).trans (ih h)

theorem of_declareIfAbsent {c : Category} {v : Variable} (h : declareIfAbsent d c v = .ok d₁) :
    Grows d d₁ := by
  unfold declareIfAbsent at h
  split at h
  · split at h
    · cases h
      exact refl d
    · exact of_declare (liftBehaviour_eq_ok.mp h)
  · exact of_declare (liftBehaviour_eq_ok.mp h)

theorem of_degradation_declare {g : Degradation} (h : g.declare d = .ok d₁) : Grows d d₁ := by
  unfold Degradation.declare at h
  obtain ⟨_, -, h⟩ := except_bind_eq_ok.mp h
  cases g with
  | none =>
    cases h
    exact refl d
  | isotropic v ub =>
    dsimp only at h
    split at h
    · exact of_setAttributes h
    · obtain ⟨d', hd', h⟩ := except_bind_eq_ok.mp h
      exact (of_declare (liftBehaviour_eq_ok.mp hd')).trans (of_setAttributes h)

end Grows

/-- Brick work that only appends declarations and keeps declared names distinct, whatever it
returns. -/
def Build.Appends {α : Type} (m : Build α) : Prop :=
  ∀ w, Grows w.description (m.run w).2.description

namespace Build.Appends

variable {α β : Type}

theorem bind {m : Build α} {k : α → Build β} (hm : m.Appends) (hk : ∀ a, (k a).Appends) :
    (m >>= k).Appends := by
  intro w
  rw [Build.run_bind]
  have h₁ := hm w
  rcases hr : m.run w with ⟨_ | a, w₁⟩
  · rw [hr] at h₁
    exact h₁
  · rw [hr] at h₁
    exact h₁.trans (hk a w₁)

theorem of_declarations_eq {m : Build α}
    (hm : ∀ w, (m.run w).2.description.declarations = w.description.declarations) :
    m.Appends := fun w => Grows.of_declarations_eq (hm w)

theorem pure (a : α) : (Pure.pure a : Build α).Appends := of_declarations_eq fun _ => rfl

theorem brick : Build.brick.Appends := of_declarations_eq fun _ => rfl

theorem description : Build.description.Appends := of_declarations_eq fun _ => rfl

theorem ofExcept (x : Except BrickError α) : (Build.ofExcept x).Appends :=
  of_declarations_eq fun w => by rw [Build.run_ofExcept]

theorem appendBlock (kind : Code.BlockKind) (b : Code.Block) : (Build.appendBlock kind b).Appends :=
  of_declarations_eq fun _ => rfl

theorem setBrick (b : Brick) : (Build.setBrick b).Appends := of_declarations_eq fun _ => rfl

theorem edit {f : Description → Except BrickError Description}
    (hf : ∀ d d', f d = .ok d' → Grows d d') : (Build.edit f).Appends := by
  intro w
  rw [Build.run_edit]
  rcases h : f w.description with e | d'
  · exact Grows.refl _
  · exact hf _ _ h

theorem forIn {γ : Type} {b : β} {f : γ → β → Build (ForInStep β)} (hf : ∀ x b, (f x b).Appends) :
    ∀ xs : List γ, (forIn xs b f).Appends := by
  intro xs
  induction xs generalizing b with
  | nil => exact pure b
  | cons x xs ih =>
    rw [List.forIn_cons]
    refine bind (hf x b) fun step => ?_
    cases step with
    | done b' => exact pure b'
    | yield b' => exact ih

end Build.Appends

theorem Config.appends_declare (c : Config) (origin : String) : (c.declare origin).Appends := by
  have hdecl : ∀ (cat : Category) (v : Variable),
      (Build.edit fun d => liftBehaviour (d.declare cat v)).Appends := fun cat v =>
    .edit fun _ _ h => Grows.of_declare (liftBehaviour_eq_ok.mp h)
  have hstrain : ∀ (cat : Category) (v : Variable),
      (Build.edit fun d => declareIfAbsent d cat v).Appends := fun _ _ =>
    .edit fun _ _ => Grows.of_declareIfAbsent
  have hdamage : (Build.edit c.degradation.declare).Appends :=
    .edit fun _ _ => Grows.of_degradation_declare
  have hattrs : (forIn (c.attributes origin) PUnit.unit fun (x : String × Attribute) _ => do
      Build.edit fun d => liftBehaviour (d.setAttribute x.1 x.2)
      pure (ForInStep.yield PUnit.unit)).Appends :=
    .forIn (fun _ _ => .bind (.edit fun _ _ h => Grows.of_setAttribute (liftBehaviour_eq_ok.mp h))
      fun _ => .pure _) _
  cases hr : c.representation <;> cases hp : c.planeStress <;>
    simp only [Config.declare, hr, hp, if_true, Bool.false_eq_true, if_false]
  · exact .bind (hstrain _ _) fun _ => .bind hdamage fun _ => .bind (hdecl _ _) fun _ =>
      .bind (hdecl _ _) fun _ => .bind hattrs fun _ => .pure _
  · exact .bind (hstrain _ _) fun _ => .bind hdamage fun _ => .bind (hdecl _ _) fun _ =>
      .bind (hdecl _ _) fun _ => .bind (hdecl _ _) fun _ => .bind hattrs fun _ => .pure _
  · exact .bind (hstrain _ _) fun _ => .bind hdamage fun _ => .bind (hstrain _ _) fun _ =>
      .bind hattrs fun _ => .pure _
  · exact .bind (hstrain _ _) fun _ => .bind hdamage fun _ => .bind (hstrain _ _) fun _ =>
      .bind (hdecl _ _) fun _ => .bind hattrs fun _ => .pure _

theorem appends_configureWith (r : Reader) (a : Bool) (g : Degradation) :
    (configureWith r a g).Appends := by
  unfold configureWith
  refine .bind .brick fun b => .bind (.ofExcept _) fun _ => .bind .description fun d => ?_
  refine .bind (.ofExcept _) fun c => .bind (.ofExcept _) fun _ => .bind (c.appends_declare _)
    fun _ => ?_
  dsimp only
  split
  · exact .bind (.appendBlock _ _) fun _ => .bind (.appendBlock _ _) fun _ => .setBrick _
  · exact .bind (.appendBlock _ _) fun _ => .setBrick _

theorem appends_configure (data : DataMap) : (configure data).Appends := by
  unfold configure
  refine .bind .brick fun b => .bind (.ofExcept _) fun _ => .bind .description fun d => ?_
  refine .bind (.ofExcept _) fun r => ?_
  dsimp only
  split
  · exact .bind (.pure _) fun g => appends_configureWith r _ g
  · exact .bind (.ofExcept _) fun g => appends_configureWith r _ g

/-! ### What the entries name -/

theorem Config.derivativeEntries_names {α : Type} [Number α] {c : Config α} {d : Description}
    {es : List (DerivativeEntry α)} (h : c.derivativeEntries d = .ok es) :
    es.map (fun e => (e.variable_, e.flag)) =
      (Ident.elasticStrain, .stensor) :: c.degradation.damage?.toList.map (·, TypeFlag.scalar) ++
        (c.stateDependencies.filter (some · != c.degradation.damage?)).map fun x =>
          (x, ((d.declared? x).bind fun (_, v) => v.type.flag).getD .scalar) := by
  unfold derivativeEntries at h
  obtain ⟨g, -, h⟩ := except_bind_eq_ok.mp h
  dsimp only at h
  have hrest : ∀ damaged, (do
      let rest ← (c.stateDependencies.filter (some · != c.degradation.damage?)).mapM fun x => do
        let t ← c.throughProperties c.midStepStress x
        pure (⟨x, .stensor t, ((d.declared? x).bind fun (_, v) => v.type.flag).getD .scalar⟩ :
          DerivativeEntry α)
      pure (⟨Ident.elasticStrain, .stensor4 g, .stensor⟩ :: damaged ++ rest) :
        Except BrickError _) = .ok es →
      es.map (fun e => (e.variable_, e.flag)) = (Ident.elasticStrain, .stensor) ::
        damaged.map (fun e => (e.variable_, e.flag)) ++
          (c.stateDependencies.filter (some · != c.degradation.damage?)).map fun x =>
            (x, ((d.declared? x).bind fun (_, v) => v.type.flag).getD .scalar) := by
    intro damaged h
    obtain ⟨rest, hrest, h⟩ := except_bind_eq_ok.mp h
    cases h
    rw [List.map_append, List.map_cons, except_mapM_map_eq (fun x e hx => ?_) hrest]
    obtain ⟨t, -, he⟩ := except_bind_eq_ok.mp hx
    cases he
    rfl
  split at h
  · rename_i v hv
    obtain ⟨a, -, h⟩ := except_bind_eq_ok.mp h
    obtain ⟨t, -, h⟩ := except_bind_eq_ok.mp h
    rw [hrest _ h, hv]
    rfl
  · rename_i hv
    rw [hrest _ h, hv]
    rfl

/-! ### What initialization resolves -/

/-- The names a formula given for an option reads, once read; a number reads none. -/
def formulaNames (data : DataMap) (option : String) : List String :=
  match data.get? option with
  | some (.str src) =>
    match Formula.read src with
    | .ok e => e.names
    | .error _ => []
  | _ => []

/-- The names the formulas given for the Young modulus and the Poisson ratio read. -/
def elasticFormulaNames (data : DataMap) : List String :=
  formulaNames data Opt.youngModulus ++ formulaNames data Opt.poissonRatio

/-- `x` is declared with a scalar type. -/
def DeclaredScalar (d : Description) (x : String) : Prop :=
  ∃ c v, d.declared? x = some (c, v) ∧ v.type.isScalar = true

/-- What a property option resolved to: the expression of the property given, whose names
are those its formula reads and are declared scalars, or none when the option is not given. -/
def ReadsFormula (d : Description) (data : DataMap) (option : String) : Option Scalar → Prop
  | some y => y.names = formulaNames data option ∧ ∀ x ∈ y.names, DeclaredScalar d x
  | none => formulaNames data option = []

theorem resolveProperty_declaredScalar {d : Description} {option : String} {q : Property}
    {e : Scalar} (h : d.resolveProperty option q = .ok e) : ∀ x ∈ e.names, DeclaredScalar d x := by
  intro x hx
  unfold Description.resolveProperty at h
  obtain ⟨e', -, h⟩ := except_bind_eq_ok.mp h
  obtain ⟨_, hall, h⟩ := except_bind_eq_ok.mp h
  cases h
  have hx := except_forM_eq_ok.mp hall x (Scalar.mem_symbols.mpr hx)
  split at hx
  · cases hx
  · rename_i c v hv
    split at hx
    · exact ⟨c, v, hv, by assumption⟩
    · cases hx

theorem readsFormula_of_resolve {d : Description} {r : Reader} {option : String}
    {o : Option Scalar}
    (h : (do
      match ← r.property option with
      | some p => some <$> liftBehaviour (d.resolveProperty option p)
      | none => pure none : Except BrickError (Option Scalar)) = .ok o) :
    ReadsFormula d r.data option o := by
  obtain ⟨q, hq, h⟩ := except_bind_eq_ok.mp h
  unfold Reader.property at hq
  cases hget : r.data.get? option with
  | none =>
    simp only [hget] at hq
    cases hq
    cases h
    simp [ReadsFormula, formulaNames, hget]
  | some v =>
    simp only [hget] at hq
    obtain ⟨q, hp, rfl⟩ := except_map_eq_ok.mp (liftBehaviour_eq_ok.mp hq)
    obtain ⟨e, he, rfl⟩ := except_map_eq_ok.mp h
    have hres := liftBehaviour_eq_ok.mp he
    clear hq h he
    refine ⟨?_, resolveProperty_declaredScalar hres⟩
    unfold Description.resolveProperty at hres
    obtain ⟨e', hexp, hres⟩ := except_bind_eq_ok.mp hres
    obtain ⟨_, -, hres⟩ := except_bind_eq_ok.mp hres
    cases hres
    rw [formulaNames, hget]
    cases v with
    | str src =>
      cases hp
      simp only [Property.expression] at hexp
      split at hexp
      · cases hexp
        simp only [*]
      · cases hexp
    | real x =>
      simp only [Property.ofData] at hp
      split_ifs at hp
      cases hp
      cases hexp
      rfl
    | int i =>
      cases hp
      cases hexp
      rfl
    | bool b => cases hp
    | array items => cases hp
    | map entries => cases hp

theorem elasticProperties_reads {d : Description} {r : Reader} {a : Bool}
    {young poisson : Option Scalar} (h : elasticProperties d r a = .ok (young, poisson)) :
    (∃ e nu, a = true ∧ d.elasticMaterialProperties = some (e, nu) ∧
        young = some (.member e) ∧ poisson = some (.member nu)) ∨
      (ReadsFormula d r.data Opt.youngModulus young ∧
        ReadsFormula d r.data Opt.poissonRatio poisson) := by
  unfold elasticProperties at h
  dsimp only at h
  split at h
  · rename_i e nu hdecl
    cases h
    cases a
    · cases hdecl
    · exact .inl ⟨e, nu, rfl, hdecl, rfl, rfl⟩
  · obtain ⟨y, hy, h⟩ := except_bind_eq_ok.mp h
    obtain ⟨p, hp, h⟩ := except_bind_eq_ok.mp h
    cases h
    exact .inr ⟨readsFormula_of_resolve hy, readsFormula_of_resolve hp⟩

theorem Description.mem_variablesOf {d : Description} {c : Category} {v : Variable} :
    v ∈ d.variablesOf c ↔ (c, v) ∈ d.declarations := by
  simp [Description.variablesOf]

theorem Description.category_eq_of_nodup {d : Description}
    (hnd : (d.declarations.map (·.2.name)).Nodup) {c₁ c₂ : Category} {v₁ v₂ : Variable}
    (h₁ : (c₁, v₁) ∈ d.declarations) (h₂ : (c₂, v₂) ∈ d.declarations) (hn : v₁.name = v₂.name) :
    c₁ = c₂ :=
  (Prod.mk.inj (List.inj_on_of_nodup_map hnd h₁ h₂ hn)).1

theorem Description.names_ne_of_nodup {d : Description}
    (hnd : (d.declarations.map (·.2.name)).Nodup) {c₁ c₂ : Category} (hc : c₁ ≠ c₂) {x y : String}
    (hx : x ∈ (d.variablesOf c₁).map (·.name)) (hy : y ∈ (d.variablesOf c₂).map (·.name)) :
    x ≠ y := by
  rintro rfl
  obtain ⟨v, hv, rfl⟩ := List.mem_map.mp hx
  obtain ⟨w, hw, hwv⟩ := List.mem_map.mp hy
  exact hc (Description.category_eq_of_nodup hnd (Description.mem_variablesOf.mp hv)
    (Description.mem_variablesOf.mp hw) hwv.symm)

theorem Description.elasticMaterialProperties_mem {d : Description} {e nu : String}
    (h : d.elasticMaterialProperties = some (e, nu)) :
    e ∈ (d.variablesOf .materialProperty).map (·.name) ∧
      nu ∈ (d.variablesOf .materialProperty).map (·.name) := by
  unfold Description.elasticMaterialProperties at h
  rcases hy : (d.variablesOf .materialProperty).find? (·.entryName == some "YoungModulus")
    with _ | v
  · simp [hy] at h
  rcases hp : (d.variablesOf .materialProperty).find? (·.entryName == some "PoissonRatio")
    with _ | w
  · simp [hy, hp] at h
  obtain ⟨rfl, rfl⟩ : v.name = e ∧ w.name = nu := by simpa [hy, hp] using h
  exact ⟨List.mem_map_of_mem (List.mem_of_find?_eq_some hy),
    List.mem_map_of_mem (List.mem_of_find?_eq_some hp)⟩

theorem Description.stateDependencies_eq_filter (d : Description) (e : Scalar) :
    d.stateDependencies e =
      ((d.variablesOf .stateVariable).map (·.name)).filter (· ∈ e.names) := by
  rw [Description.stateDependencies, List.filter_map]
  congr 1
  apply List.filter_congr
  intro v _
  simp [Scalar.mem_symbols]

theorem Config.stateDependencies_eq_filter {p : Potential} {d : Description} {data : DataMap}
    {r : Reader} {g : Degradation} {c : Config} (hnd : (d.declarations.map (·.2.name)).Nodup)
    (hm : Reader.make (p.options d.elasticMaterialProperties.isSome) data = .ok r)
    (hc : Config.resolve d r d.elasticMaterialProperties.isSome g = .ok c) :
    c.stateDependencies =
        ((d.variablesOf .stateVariable).map (·.name)).filter (· ∈ elasticFormulaNames data) ∧
      ∀ x ∈ elasticFormulaNames data, DeclaredScalar d x := by
  obtain ⟨-, rfl⟩ := Reader.make_eq_ok hm
  obtain ⟨s, hrep, -, -, -, hdep⟩ := Config.resolve_eq_ok hc
  obtain ⟨young, poisson, hprop, hof⟩ := resolveRepresentation_eq_ok hrep
  obtain ⟨y, nu, rfl, rfl, hlame⟩ | ⟨rfl, rfl, -, hstiff⟩ := representationOf_eq_ok hof
  · have hsum : c.stateDependencies =
        ((d.variablesOf .stateVariable).map (·.name)).filter (· ∈ y.names ++ nu.names) := by
      rw [hdep, hlame]
      dsimp only
      rw [Description.stateDependencies_eq_filter]
      exact List.filter_congr fun x _ => by simp [Scalar.mem_names_add]
    rcases elasticProperties_reads hprop with ⟨e, nu', ha, hdecl, hy, hnu⟩ | ⟨hy, hnu⟩
    · cases hy
      cases hnu
      have hnone : elasticFormulaNames data = [] := by
        rw [ha] at hm
        simp [elasticFormulaNames, formulaNames,
          Reader.get?_eq_none_of_make hm options_configured_lack_elasticity.1,
          Reader.get?_eq_none_of_make hm options_configured_lack_elasticity.2]
      obtain ⟨he, hnu⟩ := Description.elasticMaterialProperties_mem hdecl
      refine ⟨?_, by simp [hnone]⟩
      rw [hsum, hnone]
      refine List.filter_congr fun x hx => ?_
      have hxe := Description.names_ne_of_nodup hnd (by decide) hx he
      have hxnu := Description.names_ne_of_nodup hnd (by decide) hx hnu
      simp [Scalar.names, Scalar.member, hxe, hxnu]
    · refine ⟨?_, ?_⟩
      · rw [hsum, hy.1, hnu.1]
        rfl
      · intro x hx
        rcases List.mem_append.mp hx with hx | hx
        · exact hy.2 x (hy.1 ▸ hx)
        · exact hnu.2 x (hnu.1 ▸ hx)
  · -- the solver's stiffness tensor: no property is given
    rcases elasticProperties_reads hprop with ⟨_, _, _, _, h, _⟩ | ⟨hy, hnu⟩
    · cases h
    · have hnone : elasticFormulaNames data = [] := by
        simp only [ReadsFormula] at hy hnu
        rw [elasticFormulaNames, hy, hnu, List.append_nil]
      rw [hdep, hstiff, hnone]
      simp

/-! ### The entries against the description -/

theorem DeclaredScalar.mem_names {d : Description} {x : String} (h : DeclaredScalar d x) :
    x ∈ d.declarations.map (·.2.name) := by
  obtain ⟨c, v, hv, -⟩ := h
  have hx : v.name = x := by simpa using List.find?_some hv
  exact List.mem_map.mpr ⟨(c, v), List.mem_of_find?_eq_some hv, hx⟩

theorem not_declaredScalar_of_checkReusable {d : Description} {c : Category} {t : VarType}
    {n : String} (h : checkReusable d c t n = .ok ()) (ht : t.isScalar = false) :
    ¬ DeclaredScalar d n := by
  rintro ⟨c', v, hv, hs⟩
  simp only [checkReusable, hv] at h
  split_ifs at h with heq
  · rw [heq.2, ht] at hs
    cases hs

theorem Description.stateNames_sublist (d : Description) :
    ((d.variablesOf .stateVariable).map (·.name)).Sublist (d.declarations.map (·.2.name)) := by
  rw [Description.variablesOf, List.map_map]
  exact List.filter_sublist.map _

/-- A description that grew from `d` lists the state variables of `d` first, and the state
variables it adds are none of the names `d` declares. -/
theorem Grows.filter_stateNames {d bd : Description} (hg : Grows d bd)
    (hnd : (d.declarations.map (·.2.name)).Nodup) {q : String → Bool}
    (hq : ∀ x, q x = true → x ∈ d.declarations.map (·.2.name)) :
    ((bd.variablesOf .stateVariable).map (·.name)).filter q =
      ((d.variablesOf .stateVariable).map (·.name)).filter q := by
  obtain ⟨extra, hext⟩ := hg.prefix_
  have hnd' := hg.nodup hnd
  rw [← hext, List.map_append, List.nodup_append] at hnd'
  simp only [Description.variablesOf, ← hext, List.filter_append, List.map_append,
    List.append_right_eq_self, List.filter_eq_nil_iff]
  -- a name the added declarations bring is fresh, and `q` holds of declared names only
  intro x hx hqx
  simp only [List.map_map, List.mem_map, List.mem_filter] at hx
  obtain ⟨⟨c, v⟩, ⟨hv, -⟩, rfl⟩ := hx
  exact hnd'.2.2 _ (hq _ hqx) _ (List.mem_map_of_mem hv) rfl

theorem DeclaredScalar.flag_eq {d bd : Description} (hg : Grows d bd) {x : String}
    (h : DeclaredScalar d x) :
    ((bd.declared? x).bind fun (_, v) => v.type.flag).getD .scalar = .scalar := by
  obtain ⟨c, v, hv, hs⟩ := h
  rw [Description.declared?_of_prefix_declarations hg.prefix_ hv]
  simp only [VarType.isScalar, beq_iff_eq] at hs
  simp [hs]

/-- The stress derivatives of a configuration resolved on `d`, whose declarations were
checked, taken on a description grown from `d`: the elastic strain, the damage variable, then
the other state variables the elastic formulas read, in declaration order; each name once, and
each variable but the elastic strain flagged as a scalar. -/
theorem Config.derivativeEntries_follow {p : Potential} {d bd : Description} {data : DataMap}
    {r : Reader} {c : Config} {origin : String} {es : List DerivativeEntry}
    (hnd : (d.declarations.map (·.2.name)).Nodup) (hg : Grows d bd)
    (hm : Reader.make (p.options d.elasticMaterialProperties.isSome) data = .ok r)
    (hres : Config.resolve d r d.elasticMaterialProperties.isSome c.degradation = .ok c)
    (hcheck : c.checkDeclarations d origin = .ok ())
    (hnr : ∀ v ∈ c.degradation.damage?, reservedNames.contains v = false)
    (hes : c.derivativeEntries bd = .ok es) :
    es.map (·.variable_) = Ident.elasticStrain :: c.degradation.damage?.toList ++
        ((bd.variablesOf .stateVariable).map (·.name)).filter
          (fun x => x ∈ elasticFormulaNames data ∧ c.degradation.damage? ≠ some x) ∧
      (es.map (·.variable_)).Nodup ∧
      ∀ e ∈ es, if e.variable_ = Ident.elasticStrain then e.flag = .stensor ∧ e.rank = 4
        else e.flag = .scalar ∧ e.rank = 2 := by
  obtain ⟨hdeps, hscalar⟩ := Config.stateDependencies_eq_filter hnd hm hres
  have hentries := Config.derivativeEntries_names hes
  have heel : Ident.elasticStrain ∉ elasticFormulaNames data := fun h =>
    not_declaredScalar_of_checkReusable (Config.checkDeclarations_eq_ok hcheck).1 rfl
      (hscalar _ h)
  have hdmg : ∀ v ∈ c.degradation.damage?, v ≠ Ident.elasticStrain := by
    rintro v hv rfl
    exact absurd (hnr _ hv) (by decide)
  have hrest : c.stateDependencies.filter (some · != c.degradation.damage?) =
      ((bd.variablesOf .stateVariable).map (·.name)).filter
        (fun x => x ∈ elasticFormulaNames data ∧ c.degradation.damage? ≠ some x) := by
    rw [hdeps, List.filter_filter, hg.filter_stateNames hnd]
    · refine List.filter_congr fun x _ => ?_
      rw [Bool.and_comm, bne, Bool.beq_eq_decide_eq]
      simp [eq_comm]
    · intro x hx
      exact (hscalar x (of_decide_eq_true hx).1).mem_names
  have hnames : es.map (·.variable_) = Ident.elasticStrain :: c.degradation.damage?.toList ++
      ((bd.variablesOf .stateVariable).map (·.name)).filter
        (fun x => x ∈ elasticFormulaNames data ∧ c.degradation.damage? ≠ some x) := by
    have h := congrArg (List.map Prod.fst) hentries
    rw [← hrest]
    simpa [List.map_map, Function.comp_def] using h
  refine ⟨hnames, ?_, fun e he => ?_⟩
  · rw [hnames, List.cons_append, List.nodup_cons, List.mem_append, List.nodup_append]
    refine ⟨?_, ?_, ?_, ?_⟩
    · rintro (h | h)
      · exact hdmg _ (Option.mem_toList.mp h) rfl
      · exact heel (of_decide_eq_true (List.mem_filter.mp h).2).1
    · cases c.degradation.damage? <;> simp
    · exact ((hg.nodup hnd).sublist (Description.stateNames_sublist bd)).filter _
    · rintro v hv x hx rfl
      exact (of_decide_eq_true (List.mem_filter.mp hx).2).2 (Option.mem_toList.mp hv)
  · have hpair : (e.variable_, e.flag) ∈ es.map (fun e => (e.variable_, e.flag)) :=
      List.mem_map_of_mem he
    rw [hentries, List.cons_append, List.mem_cons, List.mem_append] at hpair
    rcases hpair with h | h | h
    · obtain ⟨hv, hf⟩ := Prod.mk.inj h
      simp [hv, hf, DerivativeEntry.rank, TypeFlag.rank]
    · obtain ⟨v, hv, h⟩ := List.mem_map.mp h
      obtain ⟨rfl, hf⟩ := Prod.mk.inj h
      rw [if_neg (hdmg _ (Option.mem_toList.mp hv))]
      simp [← hf, DerivativeEntry.rank, TypeFlag.rank]
    · obtain ⟨x, hx, h⟩ := List.mem_map.mp h
      obtain ⟨rfl, hf⟩ := Prod.mk.inj h
      rw [hrest] at hx
      have hread := (of_decide_eq_true (List.mem_filter.mp hx).2).1
      have hne : e.variable_ ≠ Ident.elasticStrain := fun h => heel (h ▸ hread)
      have hflag : e.flag = .scalar := hf.symm.trans ((hscalar _ hread).flag_eq hg)
      rw [if_neg hne]
      simp [hflag, DerivativeEntry.rank, TypeFlag.rank]

/-! ### After initialization -/

/-- The damage variable an option map asks of a potential: none for Hooke's law; for the
damaged law the name given, `d` when none is. -/
def Potential.damageVariable? (p : Potential) (data : DataMap) : Option String :=
  match p with
  | .hooke => none
  | .isotropicDamageHooke =>
    some (match data.get? Opt.damageVariable with
      | some (.str v) => v
      | _ => "d")

theorem damage?_of_reads {p : Potential} {a : Bool} {data : DataMap} {r : Reader}
    {g : Degradation} (hm : Reader.make (p.options a) data = .ok r)
    (hg : p = .hooke ∧ g = .none ∨ p = .isotropicDamageHooke ∧ Degradation.ofOptions r = .ok g) :
    g.damage? = p.damageVariable? data := by
  rcases hg with ⟨rfl, rfl⟩ | ⟨rfl, hg⟩
  · rfl
  · obtain ⟨v, hv, hd⟩ := Degradation.damage?_of_ofOptions hg
    exact hd.trans (congrArg some (Reader.string_eq_of_make hm (options_offer_damage a).1 hv))

/-- What a successful initialization resolved, checked and stored. -/
theorem configure_resolves {data : DataMap} {w w₁ : Workbench}
    (h : (configure data).run w = (.ok (), w₁)) :
    ∃ r c, Reader.make (w.brick.potential.options w.description.elasticMaterialProperties.isSome)
        data = .ok r ∧
      Config.resolve w.description r w.description.elasticMaterialProperties.isSome
        c.degradation = .ok c ∧
      c.checkDeclarations w.description w.brick.origin = .ok () ∧
      (∀ v ∈ c.degradation.damage?, reservedNames.contains v = false) ∧
      c.degradation.damage? = w.brick.potential.damageVariable? data ∧
      w₁.brick.config = some c := by
  obtain ⟨r, g, hm, hg, hw⟩ := configure_reads h
  obtain ⟨c, hres, hcheck, -, rfl, -, -, hb, -⟩ :=
    configureWith_eq_ok (Degradation.not_reserved_of_reads hg) hw
  exact ⟨r, c, hm, hres, hcheck, Degradation.not_reserved_of_reads hg, damage?_of_reads hm hg,
    by rw [hb]⟩

/-- The stress derivatives follow the integration variables. Once a brick initializes on a
description whose names are distinct, its stress derivatives, whenever they are found on the
description initialization leaves, name the elastic strain, then the damage variable of the
damaged law, then every other state variable that the formulas given for the Young modulus
and the Poisson ratio read, in the order of declaration. The names are distinct; the elastic
strain is flagged as a symmetric tensor, of rank four, and every other variable as a scalar,
of rank two. When the formulas read no state variable, only the elastic strain and the damage
variable remain. -/
theorem stressDerivatives_follow_integration_variables {data : DataMap} {w₀ w : Workbench}
    {es : List DerivativeEntry} (hnd : (w₀.description.declarations.map (·.2.name)).Nodup)
    (hw : (configure data).run w₀ = (.ok (), w))
    (hes : w.brick.stressDerivatives w.description = .ok es) :
    es.map (·.variable_) =
        Ident.elasticStrain :: (w₀.brick.potential.damageVariable? data).toList ++
          ((w.description.variablesOf .stateVariable).map (·.name)).filter (fun x =>
            x ∈ elasticFormulaNames data ∧ w₀.brick.potential.damageVariable? data ≠ some x) ∧
      (es.map (·.variable_)).Nodup ∧
      (∀ e ∈ es, if e.variable_ = Ident.elasticStrain then e.flag = .stensor ∧ e.rank = 4
        else e.flag = .scalar ∧ e.rank = 2) ∧
      ((∀ x ∈ elasticFormulaNames data,
          x ∉ (w.description.variablesOf .stateVariable).map (·.name)) →
        es.map (·.variable_) =
          Ident.elasticStrain :: (w₀.brick.potential.damageVariable? data).toList) := by
  obtain ⟨r, c, hm, hres, hcheck, hnr, hdmg, hconf⟩ := configure_resolves hw
  have hg : Grows w₀.description w.description := by
    have h := appends_configure data w₀
    rw [hw] at h
    exact h
  have hentries : c.derivativeEntries w.description = .ok es := by
    unfold stressDerivatives at hes
    obtain ⟨_, -, hes⟩ := except_bind_eq_ok.mp hes
    simpa [Brick.getConfig, hconf] using hes
  obtain ⟨hnames, hnodup, hflags⟩ :=
    Config.derivativeEntries_follow hnd hg hm hres hcheck hnr hentries
  rw [hdmg] at hnames
  refine ⟨hnames, hnodup, hflags, fun hnone => ?_⟩
  rw [hnames, List.filter_eq_nil_iff.mpr, List.append_nil]
  intro x hx hsel
  exact hnone x (of_decide_eq_true hsel).1 hx

/-- A Hooke brick over a behaviour that declares its elastic properties, with the stiffness
stored once, takes its stress derivatives with respect to the elastic strain alone. -/
theorem stressDerivatives_on_declared_elasticity :
    ∃ es, ((configure [(Opt.stiffnessTensorStorage, .str "constant")]).run
          { description := declaredElasticity, brick := Brick.new .hooke }).2.brick.stressDerivatives
        ((configure [(Opt.stiffnessTensorStorage, .str "constant")]).run
          { description := declaredElasticity, brick := Brick.new .hooke }).2.description = .ok es ∧
      es.map (·.variable_) = [Ident.elasticStrain] := by
  -- the derivatives exist, the declared properties having no `min`
  obtain ⟨es, hes⟩ := stressDerivatives_eq_ok
    (b := ((configure [(Opt.stiffnessTensorStorage, .str "constant")]).run
      { description := declaredElasticity, brick := Brick.new .hooke }).2.brick)
    (c :=
      { representation := .lame (Scalar.member "E") (Scalar.member "nu"), storage := .constant,
        fieldDependent := false, stateDependencies := [], thermalExpansion := none,
        planeStress := false, genericTangentOperator := true, genericPredictionOperator := true,
        degradation := .none, implicit := true, evolving := [] })
    _ rfl rfl (fun y nu h => by cases h; exact ⟨rfl, rfl⟩)
  refine ⟨es, hes, ?_⟩
  -- no formula is given, so no state variable is read
  have hnone : elasticFormulaNames [(Opt.stiffnessTensorStorage, .str "constant")] = [] := rfl
  exact (stressDerivatives_follow_integration_variables (by decide) (Prod.ext rfl rfl) hes).2.2.2
    (by simp [hnone])

end Elasto.Brick
