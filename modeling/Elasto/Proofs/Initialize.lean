import Mathlib
import Elasto.Proofs.Workbench

/-! # Initialization is all or nothing

Initialization checks everything before it changes anything. `Config.checkDeclarations`
foresees every refusal of `Config.declare`: the elastic strain is free or reusable, the
damage variable is free or a real state variable, the Lamé coefficients and the axial strain
are free, the stiffness tensor is free or reusable, and every attribute is unset or already
has its value. The damage variable read from the options is never one of the names the
potential reserves, so no declaration takes a name a later one needs. Once the checks pass,
every declaration, every attribute and both code blocks go through; a refused
initialization therefore leaves the description, the local data and the brick as they were.
-/

namespace Elasto.Brick

open Elasto.Behaviour Description

namespace Degradation

theorem ofOptions_eq_ok {r : Reader} {g : Degradation} (h : ofOptions r = .ok g) :
    ∃ v ub, r.string Opt.damageVariable = .ok v ∧ reservedNames.contains v = false ∧
      g = .isotropic v ub := by
  unfold ofOptions at h
  obtain ⟨v, hv, h⟩ := except_bind_eq_ok.mp h
  dsimp only at h
  split at h
  · cases h
  · split at h
    · cases h
    · rename_i hres
      obtain ⟨ub, -, h⟩ := except_bind_eq_ok.mp h
      split at h
      · cases h
        exact ⟨v, _, hv, by simpa using hres, rfl⟩
      · cases h

theorem not_reserved_of_ofOptions {r : Reader} {g : Degradation} (h : ofOptions r = .ok g) :
    ∀ v ∈ g.damage?, reservedNames.contains v = false := by
  obtain ⟨v, ub, -, hres, rfl⟩ := ofOptions_eq_ok h
  rintro _ ⟨⟩
  exact hres

theorem damage?_of_ofOptions {r : Reader} {g : Degradation} (h : ofOptions r = .ok g) :
    ∃ v, r.string Opt.damageVariable = .ok v ∧ g.damage? = some v := by
  obtain ⟨v, ub, hv, -, rfl⟩ := ofOptions_eq_ok h
  exact ⟨v, hv, rfl⟩

theorem check_isotropic_eq_ok_iff {v : String} {ub : Float} {d : Description} :
    (isotropic v ub).check d = .ok () ↔
      (∀ c w, d.declared? v = some (c, w) → c = .stateVariable ∧ w.type = .real) ∧
        checkAttributes d (isotropic v ub).attributes = .ok () := by
  simp only [check]
  rcases hdv : d.declared? v with _ | ⟨c, w⟩
  · simp
  · cases c <;> by_cases hw : w.type = .real <;>
      simp [hw, throw, throwThe, MonadExceptOf.throw, bind, Except.bind]

theorem check_of_congr {g : Degradation} {d d' : Description} (hc : g.check d = .ok ())
    (hv : ∀ v ∈ g.damage?, d'.declared? v = d.declared? v)
    (ha : ∀ p ∈ g.attributes, d'.attribute? p.1 = d.attribute? p.1) : g.check d' = .ok () := by
  cases g with
  | none => rfl
  | isotropic v ub =>
    obtain ⟨hdecl, hatt⟩ := check_isotropic_eq_ok_iff.mp hc
    refine check_isotropic_eq_ok_iff.mpr
      ⟨fun c w h => hdecl c w ?_, checkAttributes_of_congr hatt ha⟩
    rw [← hv v rfl, h]

theorem attributes_names_nodup (g : Degradation) : (g.attributes.map Prod.fst).Nodup := by
  cases g <;> simp [attributes, Opt.damageVariable, Opt.damageUpperBound]

theorem frame_of_declare {g : Degradation} {d : Description} (hc : g.check d = .ok ()) :
    ∃ d', g.declare d = .ok d' ∧ Frame d d' g.damage?.toList (g.attributes.map Prod.fst) := by
  cases g with
  | none => exact ⟨d, by simp [declare, hc], Frame.refl d⟩
  | isotropic v ub =>
    have hatt := (check_isotropic_eq_ok_iff.mp hc).2
    have hn := attributes_names_nodup (isotropic v ub)
    by_cases hdv : d.hasVariable v = true
    · -- the damage variable is declared already: only the attributes are set
      obtain ⟨d₂, hd₂, hf₂⟩ := frame_of_setAttributes hatt hn
      exact ⟨d₂, by simpa [declare, hc, hdv] using hd₂,
        hf₂.mono (List.nil_subset _) (List.Subset.refl _)⟩
    · obtain ⟨d₁, hd₁, hf₁⟩ := declare_eq_ok_of_free (c := .stateVariable)
        (v := { type := .real, name := v, entryName := some "Damage",
                description := "isotropic damage" }) (by simpa using hdv)
      obtain ⟨d₂, hd₂, hf₂⟩ := frame_of_setAttributes
        (checkAttributes_of_congr hatt fun p _ => hf₁.attribute_eq p.1 List.not_mem_nil) hn
      refine ⟨d₂, ?_, hf₁.trans hf₂⟩
      simp only [declare, hc, hdv, except_ok_bind, liftBehaviour_eq_ok.mpr hd₁]
      exact hd₂

end Degradation

namespace Config

private theorem fresh_of_checked {d : Description} {names : List String}
    {k : Except BrickError Unit}
    (h : (match names.find? d.hasVariable with
      | some name =>
        (throw (BrickError.behaviour (.duplicateVariable name)) : Except BrickError Unit) >>=
          fun _ => k
      | _ => k) = .ok ()) :
    (∀ n ∈ names, d.hasVariable n = false) ∧ k = .ok () := by
  split at h
  · cases h
  · rename_i hnone
    refine ⟨fun n hn => ?_, h⟩
    have hf : names.find? d.hasVariable = none := Option.eq_none_iff_forall_ne_some.mpr hnone
    simpa using List.find?_eq_none.mp hf n hn

theorem checkDeclarations_eq_ok {c : Config} {d : Description} {origin : String}
    (h : c.checkDeclarations d origin = .ok ()) :
    checkReusable d .stateVariable .strainStensor Ident.elasticStrain = .ok () ∧
      c.degradation.check d = .ok () ∧
      (∀ y p, c.representation = .lame y p →
        d.hasVariable Ident.lambda = false ∧ d.hasVariable Ident.mu = false) ∧
      (c.representation = .stiffnessTensor →
        checkReusable d .localVariable .stiffnessTensor Ident.stiffness = .ok ()) ∧
      (c.planeStress = true → d.hasVariable Ident.axialStrain = false) ∧
      checkAttributes d (c.attributes origin) = .ok () := by
  unfold Config.checkDeclarations at h
  obtain ⟨_, he, h⟩ := except_bind_eq_ok.mp h
  obtain ⟨_, hg, h⟩ := except_bind_eq_ok.mp h
  refine ⟨he, hg, ?_⟩
  rcases hr : c.representation with ⟨y, p⟩ | _ <;> simp only [hr] at h
  · simp only [except_pure, except_ok_bind] at h
    obtain ⟨hfresh, hatt⟩ := fresh_of_checked h
    refine ⟨fun _ _ _ => ⟨hfresh _ (by simp), hfresh _ (by simp)⟩, (fun h => by simp at h),
      fun hp => hfresh _ (by simp [hp]), hatt⟩
  · obtain ⟨_, hs, h⟩ := except_bind_eq_ok.mp h
    simp only [except_pure, except_ok_bind] at h
    obtain ⟨hfresh, hatt⟩ := fresh_of_checked h
    exact ⟨fun _ _ h => by simp at h, fun _ => hs, fun hp => hfresh _ (by simp [hp]), hatt⟩

theorem attributes_names (c : Config) (origin : String) :
    ((c.attributes origin).map Prod.fst).Nodup ∧
      ∀ n ∈ (c.attributes origin).map Prod.fst, n ∉ c.degradation.attributes.map Prod.fst := by
  unfold Config.attributes
  cases c.degradation <;> split_ifs <;>
    simp [Degradation.attributes, Opt.planeStressSupport, Opt.stiffnessTensorStorage,
      Opt.thermalExpansion, Opt.damageVariable, Opt.damageUpperBound]

/-- The variables a configuration declares: the elastic strain, the damage, the Lamé
coefficients or the stiffness tensor, and the axial strain. -/
def declaredNames (c : Config) : List String :=
  [Ident.elasticStrain] ++ c.degradation.damage?.toList ++
    (match c.representation with
      | .lame _ _ => [Ident.lambda, Ident.mu]
      | .stiffnessTensor => [Ident.stiffness]) ++ [Ident.axialStrain]

private theorem reserved_not_mem_declared {c : Config}
    (hg : ∀ v ∈ c.degradation.damage?, reservedNames.contains v = false) (n : String)
    (ns : List String) (hn : reservedNames.contains n = true)
    (hns : n ∉ Ident.elasticStrain :: ns) :
    n ∉ [Ident.elasticStrain] ++ c.degradation.damage?.toList ++ ns := by
  intro hm
  rcases List.mem_append.mp hm with hm | hm
  · rcases List.mem_append.mp hm with hm | hm
    · exact hns (List.mem_singleton.mp hm ▸ List.mem_cons_self)
    · have := hg n (Option.mem_toList.mp hm)
      rw [hn] at this
      cases this
  · exact hns (List.mem_cons_of_mem _ hm)

private theorem setAttributes_of_frame {c : Config} {origin : String} {d₀ d : Description}
    {vs : List String} (hatt : checkAttributes d₀ (c.attributes origin) = .ok ())
    (F : Frame d₀ d vs (c.degradation.attributes.map Prod.fst)) :
    ∃ d', setAttributes d (c.attributes origin) = .ok d' ∧
      Frame d₀ d' vs
        (c.degradation.attributes.map Prod.fst ++ (c.attributes origin).map Prod.fst) := by
  obtain ⟨hnodup, hdisj⟩ := attributes_names c origin
  obtain ⟨d', h', f'⟩ := frame_of_setAttributes
    (checkAttributes_of_congr hatt fun q hq => F.attribute_eq q.1 fun hm =>
      hdisj q.1 (List.mem_map.mpr ⟨q, hq, rfl⟩) hm) hnodup
  exact ⟨d', h', (F.trans f').mono (by simp) (List.Subset.refl _)⟩

private theorem declare_axialStrain {c : Config} {d₀ d : Description} {vs : List String}
    (hps : c.planeStress = true → d₀.hasVariable Ident.axialStrain = false)
    (F : Frame d₀ d vs (c.degradation.attributes.map Prod.fst))
    (hvs : Ident.axialStrain ∉ vs) :
    ∃ d', (c.planeStress = true → liftBehaviour (d.declare .stateVariable
          { type := .strain, name := Ident.axialStrain, entryName := some "AxialStrain",
            description := "axial strain under plane stress" }) = .ok d') ∧
      (c.planeStress = false → d' = d) ∧
      Frame d₀ d' (vs ++ [Ident.axialStrain]) (c.degradation.attributes.map Prod.fst) := by
  cases hp : c.planeStress
  · exact ⟨d, nofun, fun _ => rfl, F.mono (List.subset_append_left _ _) (List.Subset.refl _)⟩
  · obtain ⟨d', h', f'⟩ := declare_eq_ok_of_free (c := .stateVariable)
      (v := { type := .strain, name := Ident.axialStrain, entryName := some "AxialStrain",
              description := "axial strain under plane stress" })
      ((F.hasVariable hvs).trans (hps hp))
    exact ⟨d', fun _ => liftBehaviour_eq_ok.mpr h', nofun,
      (F.trans f').mono (List.Subset.refl _) (by simp)⟩

private theorem run_planeStress {c : Config} {w : Workbench} {d : Description} {k : Build Unit}
    {r : Except BrickError Unit × Workbench}
    (h : c.planeStress = true → liftBehaviour (w.description.declare .stateVariable
          { type := .strain, name := Ident.axialStrain, entryName := some "AxialStrain",
            description := "axial strain under plane stress" }) = .ok d)
    (h' : c.planeStress = false → d = w.description) (hk : k.run { w with description := d } = r) :
    (if c.planeStress = true then
        (Build.edit fun d => liftBehaviour (d.declare .stateVariable
          { type := .strain, name := Ident.axialStrain, entryName := some "AxialStrain",
            description := "axial strain under plane stress" })) >>= fun _ => k
      else k).run w = r := by
  cases hp : c.planeStress
  · rw [h' hp] at hk
    exact hk
  · simp only [if_true, Build.run_bind, Build.run_edit, h hp]
    exact hk

/-- Once the checks pass, every declaration and every attribute of the configuration goes
through, and the description changes only in the variables and attributes of the
configuration. The elasticity is declared between the damage and the axial strain, so each
later name is shown untouched by the earlier steps: all are reserved, none is the damage
variable. -/
theorem run_declare {c : Config} {origin : String} {w : Workbench}
    (hc : c.checkDeclarations w.description origin = .ok ())
    (hg : ∀ v ∈ c.degradation.damage?, reservedNames.contains v = false) :
    ∃ d', Frame w.description d' c.declaredNames
        (c.degradation.attributes.map Prod.fst ++ (c.attributes origin).map Prod.fst) ∧
      (c.declare origin).run w = (.ok (), { w with description := d' }) := by
  obtain ⟨he, hdeg, hlame, hstiff, hps, hatt⟩ := checkDeclarations_eq_ok hc
  obtain ⟨d₁, h₁, f₁⟩ := frame_of_declareIfAbsent (d := w.description) (c := .stateVariable)
    (v :=
      { type := .strainStensor, name := Ident.elasticStrain, entryName := some "ElasticStrain",
        description := "elastic strain" }) he
  obtain ⟨d₂, h₂, f₂⟩ := Degradation.frame_of_declare (d := d₁) <|
    Degradation.check_of_congr hdeg
      (fun v hv => f₁.declared_eq v fun hm => by
        have := hg v hv
        rw [List.mem_singleton.mp hm] at this
        cases this)
      (fun p _ => f₁.attribute_eq p.1 List.not_mem_nil)
  have F₂ := f₁.trans f₂
  -- every later name is reserved, so none is among the names declared so far
  have hlater := reserved_not_mem_declared hg
  rcases hr : c.representation with ⟨y, p⟩ | _
  · -- the Lamé coefficients: both are free
    obtain ⟨d₃, h₃, f₃⟩ := declare_eq_ok_of_free (c := .localVariable)
      (v := { type := .stress, name := Ident.lambda, description := "first Lamé coefficient" })
      ((F₂.hasVariable (by simpa using hlater Ident.lambda [] (by decide) (by decide))).trans
        (hlame y p hr).1)
    obtain ⟨d₄, h₄, f₄⟩ := declare_eq_ok_of_free (c := .localVariable)
      (v := { type := .stress, name := Ident.mu, description := "shear modulus" })
      (((F₂.trans f₃).hasVariable (hlater Ident.mu [Ident.lambda] (by decide) (by decide))).trans
        (hlame y p hr).2)
    obtain ⟨d₅, h₅, h₅', F₅⟩ := declare_axialStrain hps
      (((F₂.trans f₃).trans f₄).mono (List.Subset.refl _) (by simp))
      (by simpa using hlater Ident.axialStrain [Ident.lambda, Ident.mu] (by decide) (by decide))
    obtain ⟨d₆, h₆, F₆⟩ := setAttributes_of_frame hatt F₅
    refine ⟨d₆, F₆.mono (by simp [declaredNames, hr]) (List.Subset.refl _), ?_⟩
    simp only [Config.declare, hr, Build.run_bind, Build.run_edit, h₁, h₂,
      liftBehaviour_eq_ok.mpr h₃, liftBehaviour_eq_ok.mpr h₄]
    refine run_planeStress h₅ h₅' ?_
    rw [Build.run_bind, run_forIn_setAttribute (fun _ => rfl) h₆]
    rfl
  · -- the stiffness tensor: reusable on the start, so still reusable
    have hs : Ident.stiffness ∉ [Ident.elasticStrain] ++ c.degradation.damage?.toList := by
      simpa using hlater Ident.stiffness [] (by decide) (by decide)
    obtain ⟨d₃, h₃, f₃⟩ := frame_of_declareIfAbsent (c := .localVariable)
      (v := { type := .stiffnessTensor, name := Ident.stiffness,
              description := "stiffness tensor supplied by the solver" })
      ((checkReusable_congr (F₂.declared_eq Ident.stiffness hs)).trans (hstiff hr))
    obtain ⟨d₅, h₅, h₅', F₅⟩ := declare_axialStrain hps
      ((F₂.trans f₃).mono (List.Subset.refl _) (by simp))
      (by simpa using hlater Ident.axialStrain [Ident.stiffness] (by decide) (by decide))
    obtain ⟨d₆, h₆, F₆⟩ := setAttributes_of_frame hatt F₅
    refine ⟨d₆, F₆.mono (by simp [declaredNames, hr]) (List.Subset.refl _), ?_⟩
    simp only [Config.declare, hr, Build.run_bind, Build.run_edit, h₁, h₂, h₃]
    refine run_planeStress h₅ h₅' ?_
    rw [Build.run_bind, run_forIn_setAttribute (fun _ => rfl) h₆]
    rfl

theorem resolve_eq_ok {d : Description} {r : Reader} {a : Bool} {g : Degradation} {c : Config}
    (h : Config.resolve d r a g = .ok c) :
    ∃ s, resolveRepresentation d r a s = .ok c.representation ∧ c.storage = s ∧
      (s = .constant → c.fieldDependent = false) ∧ c.degradation = g ∧
      c.stateDependencies = match c.representation with
        | .lame y nu => d.stateDependencies (y + nu)
        | .stiffnessTensor => [] := by
  unfold Config.resolve at h
  simp only [bind, Except.bind, pure, Except.pure, throw, throwThe, MonadExceptOf.throw] at h
  repeat' split at h
  all_goals cases h
  all_goals refine ⟨_, by assumption, rfl, fun hs => by simp_all, rfl, by simp_all⟩

theorem degradation_of_resolve {d : Description} {r : Reader} {a : Bool} {g : Degradation}
    {c : Config} (h : Config.resolve d r a g = .ok c) : c.degradation = g := by
  obtain ⟨-, -, -, -, hg, -⟩ := resolve_eq_ok h
  exact hg

end Config

theorem run_configureWith (r : Reader) (a : Bool) (g : Degradation) (w : Workbench)
    (hg : ∀ v ∈ g.damage?, reservedNames.contains v = false) :
    (∃ e, (configureWith r a g).run w = (.error e, w)) ∨
      ∃ c d bs, w.brick.tracker.initialized = false ∧ d.blocks = w.description.blocks ++ bs ∧
        (∀ p ∈ bs, p.1 = .initializeLocalVariables ∨ p.1 = .integrator) ∧
        (configureWith r a g).run w = (.ok (), { w with description := d, brick :=
          { w.brick with config := some c, tracker.initialized := true } }) := by
  unfold configureWith
  simp only [Build.run_bind, Build.run_brick, Build.run_ofExcept, Build.run_description]
  rcases hn : w.brick.tracker.checkNotInitialized with e | _
  · exact .inl ⟨e, rfl⟩
  rcases hr : Config.resolve w.description r a g with e | c
  · exact .inl ⟨e, by simp only [hr]⟩
  rcases hc : c.checkDeclarations w.description w.brick.origin with e | _
  · exact .inl ⟨e, by simp only [hr, hc]⟩
  have hi : w.brick.tracker.initialized = false := by
    simpa [Tracker.checkNotInitialized] using hn
  obtain ⟨d', hF, hd⟩ := Config.run_declare hc (Config.degradation_of_resolve hr ▸ hg)
  have hb := hF.blocks_eq
  simp only [hr, hc, hd]
  right
  split
  · simp only [Build.run_bind, Build.run_appendBlock, Build.run_setBrick]
    exact ⟨c, _, _, hi, by simp only [Description.appendBlock, hb, List.append_assoc]; rfl,
      by simp, rfl⟩
  · simp only [Build.run_bind, Build.run_appendBlock, Build.run_setBrick]
    exact ⟨c, _, _, hi, by simp only [Description.appendBlock, hb]; rfl, by simp, rfl⟩

/-- Initialization either fails and leaves the workbench as it was, or finds the brick not
initialized and initializes it with a configuration, adding only blocks that initialize local
variables or integrate. -/
theorem run_configure (data : DataMap) (w : Workbench) :
    (∃ e, (configure data).run w = (.error e, w)) ∨
      ∃ c d bs, w.brick.tracker.initialized = false ∧ d.blocks = w.description.blocks ++ bs ∧
        (∀ p ∈ bs, p.1 = .initializeLocalVariables ∨ p.1 = .integrator) ∧
        (configure data).run w = (.ok (), { w with description := d, brick :=
          { w.brick with config := some c, tracker.initialized := true } }) := by
  unfold configure
  simp only [Build.run_bind, Build.run_brick, Build.run_ofExcept, Build.run_description]
  rcases hn : w.brick.tracker.checkNotInitialized with e | _
  · exact .inl ⟨e, rfl⟩
  rcases hm : Reader.make (w.brick.potential.options w.description.elasticMaterialProperties.isSome)
      data with e | r
  · exact .inl ⟨e, by simp only [hm]⟩
  simp only [hm]
  split
  · simp only [Build.run_bind, Build.run_pure]
    exact run_configureWith r _ .none w (by simp [Degradation.damage?])
  · rcases hg : Degradation.ofOptions r with e | g
    · exact .inl ⟨e, by simp only [Build.run_bind, Build.run_ofExcept]⟩
    · simp only [Build.run_bind, Build.run_ofExcept]
      exact run_configureWith r _ g w (Degradation.not_reserved_of_ofOptions hg)

/-- A refused initialization leaves the description, the local data and the brick exactly as
they were: the same declarations in the same order, the same attributes, code blocks and
Jacobian contributions, and a brick as initialized (or not) and as configured as before. -/
theorem configure_error_leaves_workbench {data : DataMap} {w w' : Workbench} {e : BrickError}
    (h : (configure data).run w = (.error e, w')) : w' = w := by
  rcases run_configure data w with ⟨e', he⟩ | ⟨c, d, bs, -, -, -, hok⟩
  · rw [he, Prod.mk.injEq] at h
    exact h.2.symm
  · rw [hok] at h
    cases h

/-- The damage variable `D` is reserved: initialization fails on it and leaves the workbench
as it found it. -/
theorem configure_reserved_damage_variable :
    ∃ e w', (configure [(Opt.damageVariable, .str "D")]).run
        { description := Description.new "Damage" .implicit,
          brick := Brick.new .isotropicDamageHooke } = (.error e, w') ∧
      w' = { description := Description.new "Damage" .implicit,
             brick := Brick.new .isotropicDamageHooke } := by
  have h : (configure [(Opt.damageVariable, .str "D")]).run
      { description := Description.new "Damage" .implicit,
        brick := Brick.new .isotropicDamageHooke } =
      (.error (.configuration Opt.damageVariable "'D' is reserved by the stress potential"),
        { description := Description.new "Damage" .implicit,
          brick := Brick.new .isotropicDamageHooke }) :=
    rfl
  exact ⟨_, _, h, configure_error_leaves_workbench h⟩

end Elasto.Brick
