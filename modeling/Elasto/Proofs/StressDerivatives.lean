import Mathlib
import Elasto.Proofs.IsotropicCalculus
import Elasto.Proofs.Finalize
import Elasto.Proofs.Stages

/-!
# The stress derivatives

The stress derivatives are built on the mid-step stress with the Lamé coefficients as members,
and completed by hand: the derivative with respect to a state variable the elastic properties
depend on goes through the Lamé coefficients by the chain rule. The derivative they stand for
is that of the explicit mid-step stress, where the coefficients are the properties taken at mid
step.

Main statement (`derivativeEntries_differentiate`): over the reals, when the names the
stress reads keep out of each other's way (`JacobianNames`) and the environment binds them
(`JacobianBinds`), every entry evaluates to the partial derivative of the explicit mid-step
stress with respect to the increment of its variable, and the explicit stress does not read
the increment of a state variable that has no entry. Without the first condition it fails:
a damage variable named as the increment of a state variable the properties depend on moves
the degradation factor along that increment, which no entry accounts for.
-/

namespace Elasto.Brick

open Elasto.Behaviour Elasto.Tensor Elasto.Mandel Filter Topology

@[simp] theorem liftExpr_eq_ok {β : Type} {x : Except ExprError β} {b : β} :
    liftExpr x = .ok b ↔ x = .ok b := by
  cases x <;> simp [liftExpr, Except.mapError]

theorem increment_inj {x y : String} (h : increment x = increment y) : x = y := by
  simpa [increment] using h

theorem increment_ne_elasticStrain (x : String) : increment x ≠ Ident.elasticStrain := by
  intro h
  simpa [increment, Ident.elasticStrain] using congrArg String.toList h

theorem increment_ne_of_mem_scratchNames (x : String) {n : String} (hn : n ∈ scratchNames) :
    increment x ≠ n :=
  fun h => increment_not_mem_scratchNames x (h ▸ hn)

namespace Config

variable {c : Config ℝ} {env : Env ℝ} {n : String}

/-- The environment binds what the mid-step stress reads, each name to a value of its kind:
`theta` in an implicit scheme, the elastic strain and its increment, the damage variable and
its increment, and the stiffness members. -/
structure StressBinds (c : Config ℝ) (env : Env ℝ) : Prop where
  theta : c.implicit = true → env.Binds thetaName .scalar
  elasticStrain : env.Binds Ident.elasticStrain .stensor
  strainIncrement : env.Binds (increment Ident.elasticStrain) .stensor
  damage : ∀ v ∈ c.degradation.damage?, env.Binds v .scalar ∧ env.Binds (increment v) .scalar
  lame : c.representation.isLame = true →
    env.Binds Ident.lambda .scalar ∧ env.Binds Ident.mu .scalar
  stiffness : c.representation.isLame = false → env.Binds Ident.stiffness .stensor4

theorem StressBinds.set (h : c.StressBinds env) {x : String} {X : Value ℝ}
    (hx : env.Binds x X.kind) : c.StressBinds (env.set x X) where
  theta hi := (h.theta hi).set hx
  elasticStrain := h.elasticStrain.set hx
  strainIncrement := h.strainIncrement.set hx
  damage v hv := ⟨(h.damage v hv).1.set hx, (h.damage v hv).2.set hx⟩
  lame hl := ⟨(h.lame hl).1.set hx, (h.lame hl).2.set hx⟩
  stiffness hl := (h.stiffness hl).set hx

section Regular

/-! ### The mid-step stress is regular where its members are bound -/

theorem regular_weight (h : c.StressBinds env) : c.weight.Regular env := by
  unfold weight
  split
  · exact Scalar.regular_member (h.theta ‹_›)
  · trivial

theorem regular_degradationFactor (h : c.StressBinds env) :
    (c.degradationFactor .midStep).Regular env := by
  unfold degradationFactor Degradation.factor
  split
  · trivial
  · rename_i v _ hg
    have hv := h.damage v (by simp [hg, Degradation.damage?])
    simp only [if_true, Scalar.add_eq_mkAdd, Scalar.mul_eq_mkMul, Scalar.sub_eq_mkSub]
    exact Scalar.regular_mkSub trivial (Scalar.regular_mkAdd (Scalar.regular_member hv.1)
      (Scalar.regular_mkMul (c.regular_weight h) (Scalar.regular_member hv.2)))

theorem regular_strain (h : c.StressBinds env) : (c.midStep Ident.elasticStrain).Regular env :=
  Stensor.regular_mkAdd (Stensor.regular_member h.elasticStrain)
    (Stensor.regular_mkScale (c.regular_weight h) (Stensor.regular_member h.strainIncrement))

theorem regular_memberStiffness (h : c.StressBinds env) :
    c.memberStiffness.toTensor.Regular env := by
  unfold memberStiffness
  split
  · rename_i hr
    have hl := h.lame (by simp [hr, Representation.isLame])
    exact Stensor4.regular_isotropic (Scalar.regular_member hl.1) (Scalar.regular_member hl.2)
  · rename_i hr
    exact Stensor4.regular_member (h.stiffness (by simp [hr, Representation.isLame]))

theorem regular_midStepStress (h : c.StressBinds env) : c.midStepStress.Regular env :=
  Stensor.regular_mkScale (c.regular_degradationFactor h)
    (Stensor.regular_mkApply (c.regular_memberStiffness h) (c.regular_strain h))

end Regular

section Forms

/-! ### The two stresses -/

variable {l m : Scalar ℝ}

theorem isLame_of_lame {stage : Stage} (h : c.lame stage = some (l, m)) :
    c.representation.isLame = true := by
  unfold lame at h
  split at h
  · simp [*, Representation.isLame]
  · cases h

theorem midStepStress_of_isLame (hr : c.representation.isLame = true) :
    c.midStepStress = c.degradationFactor .midStep * (Stensor4.isotropic (Scalar.member Ident.lambda)
      (Scalar.member Ident.mu) * c.midStep Ident.elasticStrain) := by
  unfold midStepStress memberStiffness
  split
  · rfl
  · simp_all [Representation.isLame]

theorem explicitMidStepStress_of_evolving (hlm : c.lame .midStep = some (l, m))
    (hfd : c.fieldDependent = true) :
    c.explicitMidStepStress = c.degradationFactor .midStep *
      (Stensor4.isotropic l m * c.midStep Ident.elasticStrain) := by
  simp [explicitMidStepStress, hlm, hfd, Stiffness.toTensor]

theorem explicitMidStepStress_of_static
    (h : ∀ l m, c.lame .midStep = some (l, m) → c.fieldDependent = false) :
    c.explicitMidStepStress = c.midStepStress := by
  unfold explicitMidStepStress midStepStress
  split
  · rename_i l m hlm
    simp [h l m hlm]
  · rfl

theorem eval_explicitMidStepStress_of_members (hlm : c.lame .midStep = some (l, m))
    (hb : c.StressBinds env) {Λ M : ℝ} (hl : l.eval env = .ok Λ) (hm : m.eval env = .ok M)
    (hΛ : env.get? Ident.lambda = some (.scalar Λ)) (hM : env.get? Ident.mu = some (.scalar M)) :
    c.explicitMidStepStress.eval env = c.midStepStress.eval env := by
  cases hfd : c.fieldDependent
  · rw [explicitMidStepStress_of_static fun _ _ _ => hfd]
  · obtain ⟨f, hf⟩ := Scalar.eval_ok_of_regular _ (c.regular_degradationFactor hb)
    obtain ⟨ε, hε⟩ := Stensor.eval_ok_of_regular _ (c.regular_strain hb)
    rw [explicitMidStepStress_of_evolving hlm hfd, midStepStress_of_isLame (isLame_of_lame hlm),
      Stensor.eval_scale_apply_isotropic hf hl hm hε,
      Stensor.eval_scale_apply_isotropic hf (Scalar.eval_member hΛ) (Scalar.eval_member hM) hε]

end Forms

section Names

/-! ### What the two stresses read -/

theorem mem_names_midStep_elasticStrain (h : n ∈ (c.midStep Ident.elasticStrain).names) :
    n = Ident.elasticStrain ∨ n = increment Ident.elasticStrain ∨ n = thetaName := by
  have hs : n ∈ (c.strainAt .midStep).names := by simpa [strainAt] using h
  exact mem_names_strainAt hs

theorem mem_names_memberStiffness (h : n ∈ c.memberStiffness.toTensor.names) :
    n ∈ [Ident.lambda, Ident.mu, Ident.stiffness] := by
  unfold memberStiffness at h
  split at h
  · rcases Stensor4.mem_names_isotropic h with h | h <;>
      simp_all [Stiffness.toTensor, Scalar.member, Scalar.names]
  · simp_all [Stiffness.toTensor, Stensor4.member, Stensor4.names]

theorem mem_names_midStepStress (h : n ∈ c.midStepStress.names) :
    n ∈ (c.degradationFactor .midStep).names ∨ n ∈ (c.midStep Ident.elasticStrain).names ∨
      n ∈ [Ident.lambda, Ident.mu, Ident.stiffness] := by
  rcases Stensor.mem_names_mkScale h with h | h
  · exact .inl h
  rcases Stensor.mem_names_mkApply h with h | h
  · exact .inr (.inr (mem_names_memberStiffness h))
  · exact .inr (.inl h)

theorem mem_names_explicitMidStepStress (h : n ∈ c.explicitMidStepStress.names) :
    n ∈ (c.degradationFactor .midStep).names ∨ n ∈ (c.midStep Ident.elasticStrain).names ∨
      n ∈ [Ident.lambda, Ident.mu, Ident.stiffness] ∨
      ∃ l m, c.lame .midStep = some (l, m) ∧ (n ∈ l.names ∨ n ∈ m.names) := by
  by_cases hs : ∀ l m, c.lame .midStep = some (l, m) → c.fieldDependent = false
  · rw [explicitMidStepStress_of_static hs] at h
    rcases mem_names_midStepStress h with h | h | h
    exacts [.inl h, .inr (.inl h), .inr (.inr (.inl h))]
  · simp only [not_forall, Bool.not_eq_false] at hs
    obtain ⟨l, m, hlm, hfd⟩ := hs
    rw [explicitMidStepStress_of_evolving hlm hfd] at h
    rcases Stensor.mem_names_mkScale h with h | h
    · exact .inl h
    rcases Stensor.mem_names_mkApply h with h | h
    · exact .inr (.inr (.inr ⟨l, m, hlm, Stensor4.mem_names_isotropic h⟩))
    · exact .inr (.inl h)

end Names

section ChainRule

/-! ### The chain rule through the Lamé coefficients -/

variable {l m : Scalar ℝ} {x : String} {t₀ : ℝ}

theorem throughProperties_eq_ok_of_dependency (hx : x ∈ c.stateDependencies)
    (hlm : c.lame .midStep = some (l, m)) {t : Stensor ℝ}
    (ht : c.throughProperties c.midStepStress x = .ok t) :
    ∃ dl sl dm sm, l.dScalar (increment x) = .ok dl ∧
      c.midStepStress.dScalar Ident.lambda = .ok sl ∧ m.dScalar (increment x) = .ok dm ∧
      c.midStepStress.dScalar Ident.mu = .ok sm ∧ t = dl * sl + dm * sm := by
  simp only [throughProperties, hx, List.contains_eq_mem, decide_true, Bool.not_true,
    Bool.false_eq_true, if_false, hlm, except_bind_eq_ok, liftExpr_eq_ok, except_pure,
    Except.ok.injEq] at ht
  obtain ⟨dl, hdl, sl, hsl, dm, hdm, sm, hsm, rfl⟩ := ht
  exact ⟨dl, sl, dm, sm, hdl, hsl, hdm, hsm, rfl⟩

theorem throughProperties_of_static {sigma : Stensor ℝ}
    (h : x ∈ c.stateDependencies → c.lame .midStep = none) :
    c.throughProperties sigma x = .ok .zero := by
  unfold throughProperties
  by_cases hx : x ∈ c.stateDependencies
  · simp [hx, h hx]
  · simp [hx]

theorem midStepStress_hasDerivAlong (hr : c.representation.isLame = true) {Λ M f f' : ℝ}
    {ε : Vec6 ℝ} (hx : env.get? x = some (.scalar t₀))
    (hxs : x ∉ (c.midStep Ident.elasticStrain).names)
    (hΛ : env.get? Ident.lambda = some (.scalar Λ)) (hM : env.get? Ident.mu = some (.scalar M))
    (hf : (c.degradationFactor .midStep).eval env = .ok f)
    (hε : (c.midStep Ident.elasticStrain).eval env = .ok ε)
    (hF : (c.degradationFactor .midStep).HasDerivAlong (env.scalarLine x) f' t₀) :
    c.midStepStress.HasDerivAlong (env.scalarLine x)
      (Vec6.add (Vec6.scale f' (isotropicLaw Λ M ε)) (Vec6.scale f
        (isotropicLaw (if x = Ident.lambda then 1 else 0) (if x = Ident.mu then 1 else 0) ε))) t₀ := by
  rw [midStepStress_of_isLame hr]
  exact Stensor.HasDerivAlong.scale_apply_isotropic hF (Scalar.HasDerivAlong.member hΛ)
    (Scalar.HasDerivAlong.member hM) ((Scalar.eval_scalarLine_self hx _).trans hf)
    ((Scalar.eval_scalarLine_self hx _).trans (Scalar.eval_member hΛ))
    ((Scalar.eval_scalarLine_self hx _).trans (Scalar.eval_member hM))
    (.of_forall fun r => (Stensor.eval_scalarLine_of_not_mem hxs r).trans hε)

theorem increment_not_mem_strain (hb : c.StressBinds env)
    (hx : env.get? (increment x) = some (.scalar t₀)) :
    increment x ∉ (c.midStep Ident.elasticStrain).names := by
  intro h
  rcases mem_names_midStep_elasticStrain h with h | h | h
  · exact hb.elasticStrain.ne (.of_get? hx) nofun h.symm
  · exact hb.strainIncrement.ne (.of_get? hx) nofun h.symm
  · exact increment_ne_thetaName x h

theorem lame_not_mem_strain :
    Ident.lambda ∉ (c.midStep Ident.elasticStrain).names ∧
      Ident.mu ∉ (c.midStep Ident.elasticStrain).names := by
  constructor <;> intro h <;> rcases mem_names_midStep_elasticStrain h with h | h | h <;>
    revert h <;> decide

theorem lame_not_mem_degradationFactor
    (hd : ∀ v ∈ c.degradation.damage?, reservedNames.contains v = false) :
    Ident.lambda ∉ (c.degradationFactor .midStep).names ∧
      Ident.mu ∉ (c.degradationFactor .midStep).names := by
  constructor <;> intro h <;> rcases mem_names_degradationFactor h with h | ⟨v, hv, h | h⟩
  all_goals first
    | (revert h; decide)
    | (obtain rfl := h; exact absurd (hd _ hv) (by decide))
    | exact increment_not_mem_scratchNames v (h ▸ by decide)

/-- The chain rule through the Lamé coefficients. Along the increment of a state variable the
properties depend on, the explicit stress has as derivative that of the stress of the members,
plus what `throughProperties` builds: each Lamé coefficient's derivative along the increment
times the stress's derivative with respect to that coefficient's member. -/
theorem throughProperties_hasDerivAlong (hlm : c.lame .midStep = some (l, m))
    (hfd : c.fieldDependent = true) (hb : c.StressBinds env)
    (hd : ∀ v ∈ c.degradation.damage?, reservedNames.contains v = false)
    (hx : x ∈ c.stateDependencies) (hdx : env.get? (increment x) = some (.scalar t₀)) {Λ M : ℝ}
    (hl₀ : l.eval env = .ok Λ) (hm₀ : m.eval env = .ok M)
    (hΛ : env.get? Ident.lambda = some (.scalar Λ)) (hM : env.get? Ident.mu = some (.scalar M))
    (hreg : ∀ᶠ r in 𝓝 t₀, l.Regular (env.scalarLine (increment x) r) ∧
      m.Regular (env.scalarLine (increment x) r))
    {t : Stensor ℝ} (ht : c.throughProperties c.midStepStress x = .ok t) {A : Vec6 ℝ}
    (hA : c.midStepStress.HasDerivAlong (env.scalarLine (increment x)) A t₀) :
    ∃ T, t.eval env = .ok T ∧
      c.explicitMidStepStress.HasDerivAlong (env.scalarLine (increment x)) (Vec6.add A T) t₀ := by
  have hr := isLame_of_lame hlm
  have hC1 := dScalar_dStensor_eval_hasDerivAlong env
  obtain ⟨dl, sl, dm, sm, hdl, hsl, hdm, hsm, rfl⟩ := throughProperties_eq_ok_of_dependency hx hlm ht
  obtain ⟨f, hf⟩ := Scalar.eval_ok_of_regular _ (c.regular_degradationFactor hb)
  obtain ⟨ε, hε⟩ := Stensor.eval_ok_of_regular _ (c.regular_strain hb)
  have hxs := increment_not_mem_strain hb hdx
  have hxl : increment x ≠ Ident.lambda := increment_ne_of_mem_scratchNames x (by decide)
  have hxm : increment x ≠ Ident.mu := increment_ne_of_mem_scratchNames x (by decide)
  obtain ⟨Λ', hdl', hl⟩ := (hC1.1 _ t₀ hdx).1 l dl hdl (hreg.mono fun _ h => h.1)
  obtain ⟨M', hdm', hm⟩ := (hC1.1 _ t₀ hdx).1 m dm hdm (hreg.mono fun _ h => h.2)
  obtain ⟨dF, hdF⟩ := Scalar.dScalar_ok (x := increment x) _
    (@refusalFree_degradationFactor ℝ _ c none)
  obtain ⟨f', -, hF⟩ := (hC1.1 _ t₀ hdx).1 _ dF hdF
    (.of_forall fun r => c.regular_degradationFactor (hb.set ⟨_, hdx, rfl⟩))
  have hAm := midStepStress_hasDerivAlong hr hdx hxs hΛ hM hf hε hF
  obtain rfl := hA.unique hAm
  have hF₀ : ∀ {y : String} {a : ℝ}, y ∉ (c.degradationFactor .midStep).names →
      env.get? y = some (.scalar a) →
      (c.degradationFactor .midStep).HasDerivAlong (env.scalarLine y) 0 a := fun {y _} hy ha =>
    .of_frame (fun r n hn => by simp [show y ≠ n from fun h => hy (h ▸ hn)])
      ((Scalar.eval_scalarLine_self ha _).trans hf)
  obtain ⟨Sl, hsl', hSl⟩ := (hC1.1 _ Λ hΛ).2.1 _ sl hsl
    (.of_forall fun r => c.regular_midStepStress (hb.set ⟨_, hΛ, rfl⟩))
  obtain rfl := hSl.unique (midStepStress_hasDerivAlong hr hΛ lame_not_mem_strain.1 hΛ hM hf hε
    (hF₀ (lame_not_mem_degradationFactor hd).1 hΛ))
  obtain ⟨Sm, hsm', hSm⟩ := (hC1.1 _ M hM).2.1 _ sm hsm
    (.of_forall fun r => c.regular_midStepStress (hb.set ⟨_, hM, rfl⟩))
  obtain rfl := hSm.unique (midStepStress_hasDerivAlong hr hM lame_not_mem_strain.2 hΛ hM hf hε
    (hF₀ (lame_not_mem_degradationFactor hd).2 hM))
  have hσ : c.explicitMidStepStress.HasDerivAlong (env.scalarLine (increment x))
      (Vec6.add (Vec6.scale f' (isotropicLaw Λ M ε)) (Vec6.scale f (isotropicLaw Λ' M' ε))) t₀ := by
    rw [explicitMidStepStress_of_evolving hlm hfd]
    exact Stensor.HasDerivAlong.scale_apply_isotropic hF hl hm
      ((Scalar.eval_scalarLine_self hdx _).trans hf) ((Scalar.eval_scalarLine_self hdx _).trans hl₀)
      ((Scalar.eval_scalarLine_self hdx _).trans hm₀)
      (.of_forall fun r => (Stensor.eval_scalarLine_of_not_mem hxs r).trans hε)
  refine ⟨_, Stensor.eval_mkAdd (Stensor.eval_mkScale hdl' hsl') (Stensor.eval_mkScale hdm' hsm'),
    hσ.congr_deriv ?_⟩
  have hlμ : Ident.lambda ≠ Ident.mu := by decide
  simp only [hxl, hxm, hlμ, hlμ.symm, ↓reduceIte]
  exact isotropicLaw_chainRule f f' Λ M Λ' M' ε

end ChainRule

section Entries

/-! ### The entries -/

variable {d : Description} {es : List (DerivativeEntry ℝ)}

theorem throughEntries_eq_ok {rest : List (DerivativeEntry ℝ)} {flag : String → TypeFlag}
    (h : (c.stateDependencies.filter (some · != c.degradation.damage?)).mapM (fun x => do
      let t ← c.throughProperties c.midStepStress x
      pure (⟨x, .stensor t, flag x⟩ : DerivativeEntry ℝ)) = .ok rest) :
    (∀ e ∈ rest, ∃ x ∈ c.stateDependencies, x ∉ c.degradation.damage? ∧ ∃ t,
        c.throughProperties c.midStepStress x = .ok t ∧ e.variable_ = x ∧
          e.expression = .stensor t) ∧
      ∀ x ∈ c.stateDependencies, x ∉ c.degradation.damage? → x ∈ rest.map (·.variable_) := by
  have hfilter : ∀ x, x ∈ c.stateDependencies.filter (some · != c.degradation.damage?) ↔
      x ∈ c.stateDependencies ∧ x ∉ c.degradation.damage? := fun x => by
    simp only [List.mem_filter, bne_iff_ne, ne_eq, Option.mem_def]
    exact and_congr_right fun _ => not_congr eq_comm
  obtain ⟨hfrom, hto⟩ := except_mapM_eq_ok h
  refine ⟨fun e he => ?_, fun x hx hxd => ?_⟩
  · obtain ⟨x, hx, hfx⟩ := hfrom e he
    obtain ⟨t, ht, rfl⟩ := except_bind_pure_eq_ok.mp hfx
    exact ⟨x, ((hfilter x).mp hx).1, ((hfilter x).mp hx).2, t, ht, rfl, rfl⟩
  · obtain ⟨e, he, hfe⟩ := hto x ((hfilter x).mpr ⟨hx, hxd⟩)
    obtain ⟨t, -, rfl⟩ := except_bind_pure_eq_ok.mp hfe
    exact List.mem_map.mpr ⟨_, he, rfl⟩

/-- What `derivativeEntries` finds: the gradient of the stress of the members with respect to
the elastic strain increment first; for a damage variable, the derivative with respect to its
increment completed through the properties; then, for each other state variable the properties
depend on, the chain rule through the properties. -/
theorem derivativeEntries_eq_ok (h : c.derivativeEntries d = .ok es) :
    ∃ g damaged rest, c.midStepStress.dStensor (increment Ident.elasticStrain) = .ok g ∧
      es = ⟨Ident.elasticStrain, .stensor4 g, .stensor⟩ :: damaged ++ rest ∧
      (c.degradation.damage? = none ∧ damaged = [] ∨
        ∃ v a t, c.degradation.damage? = some v ∧
          c.midStepStress.dScalar (increment v) = .ok a ∧
          c.throughProperties c.midStepStress v = .ok t ∧
          damaged = [⟨v, .stensor (a + t), .scalar⟩]) ∧
      (∀ e ∈ rest, ∃ x ∈ c.stateDependencies, x ∉ c.degradation.damage? ∧ ∃ t,
        c.throughProperties c.midStepStress x = .ok t ∧ e.variable_ = x ∧
          e.expression = .stensor t) ∧
      ∀ x ∈ c.stateDependencies, x ∉ c.degradation.damage? → x ∈ rest.map (·.variable_) := by
  unfold derivativeEntries at h
  simp only [except_bind_eq_ok, liftExpr_eq_ok] at h
  obtain ⟨g, hg, h⟩ := h
  split at h
  · rename_i v hv
    simp only [except_bind_eq_ok, liftExpr_eq_ok, except_pure, Except.ok.injEq] at h
    obtain ⟨a, ha, t, ht, _, rfl, rest, hr, rfl⟩ := h
    exact ⟨g, _, rest, hg, rfl, .inr ⟨v, a, t, hv, ha, ht, rfl⟩, throughEntries_eq_ok hr⟩
  · rename_i hv
    simp only [except_bind_eq_ok, except_pure, Except.ok.injEq] at h
    obtain ⟨_, rfl, rest, hr, rfl⟩ := h
    exact ⟨g, [], rest, hg, rfl, .inl ⟨hv, rfl⟩, throughEntries_eq_ok hr⟩

end Entries

end Config

/-- The value of a stress derivative entry at `env` is the derivative of `sigma` with respect
to the increment of its variable: for a tensor variable the Jacobian, whose column `j` is the
derivative along component `j` of the increment; for a scalar one the derivative along the
increment. -/
def DerivativeEntry.Differentiates (sigma : Stensor ℝ) (env : Env ℝ) (e : DerivativeEntry ℝ) :
    Prop :=
  match e.expression with
  | .stensor4 g => ∃ V G, env.get? (increment e.variable_) = some (.stensor V) ∧
      g.eval env = .ok G ∧ ∀ j : Fin 6,
        sigma.HasDerivAlong (env.componentLine (increment e.variable_) V j) (Mat6.column G j)
          (V.get j)
  | .stensor t => ∃ t₀ T, env.get? (increment e.variable_) = some (.scalar t₀) ∧
      t.eval env = .ok T ∧ sigma.HasDerivAlong (env.scalarLine (increment e.variable_)) T t₀
  | .scalar _ => False

namespace Config

/-- The names the stress derivatives read keep out of each other's way. The elastic strain,
the damage variable and the variables the properties depend on are state variables; the damage
variable is none of the reserved names and no state variable's increment; the mid-step Lamé
coefficients read the increment of a state variable only when the properties depend on it, and
the properties depend on state variables only when they are field dependent. -/
structure JacobianNames (c : Config ℝ) (states : List String) : Prop where
  elasticStrain_mem : Ident.elasticStrain ∈ states
  damage_mem : ∀ v ∈ c.degradation.damage?, v ∈ states
  dependencies_mem : ∀ x ∈ c.stateDependencies, x ∈ states
  damage_not_reserved : ∀ v ∈ c.degradation.damage?, reservedNames.contains v = false
  damage_apart : ∀ v ∈ c.degradation.damage?, ∀ x ∈ states, increment x ≠ v
  properties : ∀ l m, c.lame .midStep = some (l, m) → ∀ x ∈ states,
    increment x ∈ l.names ++ m.names → x ∈ c.stateDependencies
  dependent : c.stateDependencies ≠ [] → c.fieldDependent = true

/-- The environment binds what the stress derivatives read: what the stress reads, the
increments of the variables the properties depend on, and the Lamé members, to the values of
the mid-step Lamé coefficients; around these the coefficients are regular along each such
increment. -/
structure JacobianBinds (c : Config ℝ) (env : Env ℝ) : Prop where
  stress : c.StressBinds env
  dependencies : ∀ x ∈ c.stateDependencies, env.Binds (increment x) .scalar
  lame : ∀ l m, c.lame .midStep = some (l, m) → ∃ Λ M, l.eval env = .ok Λ ∧
    m.eval env = .ok M ∧ env.get? Ident.lambda = some (.scalar Λ) ∧
      env.get? Ident.mu = some (.scalar M)
  regular : ∀ l m, c.lame .midStep = some (l, m) → ∀ x ∈ c.stateDependencies, ∀ t₀,
    env.get? (increment x) = some (.scalar t₀) → ∀ᶠ r in 𝓝 t₀,
      l.Regular (env.scalarLine (increment x) r) ∧ m.Regular (env.scalarLine (increment x) r)

section Differentiate

variable {c : Config ℝ} {env : Env ℝ} {states : List String} {l m : Scalar ℝ}

theorem JacobianNames.dependent_of_mem (hn : c.JacobianNames states) {x : String}
    (hx : x ∈ c.stateDependencies) : c.fieldDependent = true :=
  hn.dependent (List.ne_nil_of_mem hx)

theorem JacobianBinds.eval_explicitMidStepStress_of_frame (hb : c.JacobianBinds env)
    {env' : Env ℝ} (hb' : c.StressBinds env')
    (hframe : ∀ l m, c.lame .midStep = some (l, m) → ∀ n ∈ l.names ++ m.names,
      env'.get? n = env.get? n)
    (hΛ : env'.get? Ident.lambda = env.get? Ident.lambda)
    (hM : env'.get? Ident.mu = env.get? Ident.mu) :
    c.explicitMidStepStress.eval env' = c.midStepStress.eval env' := by
  cases hlm : c.lame .midStep with
  | none => rw [explicitMidStepStress_of_static (by simp [hlm])]
  | some lm =>
    obtain ⟨l, m⟩ := lm
    obtain ⟨Λ, M, hl, hm, hΛ₀, hM₀⟩ := hb.lame l m hlm
    exact eval_explicitMidStepStress_of_members hlm hb'
      ((Scalar.eval_congr l fun n hn => hframe l m hlm n (List.mem_append_left _ hn)).trans hl)
      ((Scalar.eval_congr m fun n hn => hframe l m hlm n (List.mem_append_right _ hn)).trans hm)
      (hΛ.trans hΛ₀) (hM.trans hM₀)

theorem JacobianNames.agree_scalarLine (hn : c.JacobianNames states) (hb : c.JacobianBinds env)
    {x : String} (hx : x ∈ states) (hxd : x ∈ c.stateDependencies → c.lame .midStep = none)
    {t₀ : ℝ} (hdx : env.get? (increment x) = some (.scalar t₀)) (r : ℝ) :
    c.explicitMidStepStress.eval (env.scalarLine (increment x) r) =
      c.midStepStress.eval (env.scalarLine (increment x) r) := by
  refine hb.eval_explicitMidStepStress_of_frame (hb.stress.set ⟨_, hdx, rfl⟩)
    (fun l m hlm n hn' => ?_)
    (by simp [increment_ne_of_mem_scratchNames x (show Ident.lambda ∈ scratchNames by decide)])
    (by simp [increment_ne_of_mem_scratchNames x (show Ident.mu ∈ scratchNames by decide)])
  rw [Env.get?_scalarLine, if_neg fun (h : increment x = n) => by
    simpa [hlm] using hxd (hn.properties l m hlm x hx (h ▸ hn'))]

theorem elasticStrain_entry_differentiates (hn : c.JacobianNames states)
    (hb : c.JacobianBinds env) {g : Stensor4 ℝ}
    (hg : c.midStepStress.dStensor (increment Ident.elasticStrain) = .ok g) :
    (⟨Ident.elasticStrain, .stensor4 g, .stensor⟩ : DerivativeEntry ℝ).Differentiates
      c.explicitMidStepStress env := by
  obtain ⟨V, hV⟩ := hb.stress.strainIncrement.exists_stensor
  have hbV : ∀ (j : Fin 6) (r : ℝ),
      c.StressBinds (env.componentLine (increment Ident.elasticStrain) V j r) :=
    fun j r => hb.stress.set ⟨_, hV, rfl⟩
  obtain ⟨G, hG, hσm⟩ := ((dScalar_dStensor_eval_hasDerivAlong env).2 _ V hV).2 _ g hg
    (fun j => .of_forall fun r => c.regular_midStepStress (hbV j r))
  -- the two stresses agree all along the line: the coefficients do not read the strain
  -- increment, which is bound to a tensor
  refine ⟨V, G, hV, hG, fun j => (hσm j).congr_eval (.of_forall fun r =>
    hb.eval_explicitMidStepStress_of_frame (hbV j r) (fun l m hlm n hn' => ?_)
      (by simp [increment_ne_of_mem_scratchNames _ (show Ident.lambda ∈ scratchNames by decide)])
      (by simp [increment_ne_of_mem_scratchNames _ (show Ident.mu ∈ scratchNames by decide)]))⟩
  rw [Env.get?_componentLine, if_neg fun (h : increment Ident.elasticStrain = n) =>
    hb.stress.strainIncrement.ne
      (hb.dependencies _ (hn.properties l m hlm _ hn.elasticStrain_mem (h ▸ hn'))) nofun rfl]

theorem damage_entry_differentiates (hn : c.JacobianNames states) (hb : c.JacobianBinds env)
    {v : String} (hv : v ∈ c.degradation.damage?) {a t : Stensor ℝ}
    (ha : c.midStepStress.dScalar (increment v) = .ok a)
    (ht : c.throughProperties c.midStepStress v = .ok t) :
    (⟨v, .stensor (a + t), .scalar⟩ : DerivativeEntry ℝ).Differentiates
      c.explicitMidStepStress env := by
  obtain ⟨t₀, hdv⟩ := (hb.stress.damage v hv).2.exists_scalar
  obtain ⟨A, hA, hσm⟩ := ((dScalar_dStensor_eval_hasDerivAlong env).1 _ t₀ hdv).2.1 _ a ha
    (.of_forall fun r => c.regular_midStepStress (hb.stress.set ⟨_, hdv, rfl⟩))
  by_cases hstatic : v ∈ c.stateDependencies → c.lame .midStep = none
  · -- nothing goes through the properties, and the two stresses agree along the increment
    rw [throughProperties_of_static hstatic, Except.ok.injEq] at ht
    subst ht
    refine ⟨t₀, A, hdv, by simpa [Stensor.add_eq_mkAdd] using hA,
      hσm.congr_eval (.of_forall fun r => ?_)⟩
    exact hn.agree_scalarLine hb (hn.damage_mem v hv) hstatic hdv r
  · simp only [Classical.not_imp] at hstatic
    obtain ⟨hvx, hlm⟩ := hstatic
    obtain ⟨⟨l, m⟩, hlm⟩ := Option.ne_none_iff_exists'.mp hlm
    obtain ⟨Λ, M, hl, hm, hΛ, hM⟩ := hb.lame l m hlm
    obtain ⟨T, hT, hσ⟩ := throughProperties_hasDerivAlong hlm (hn.dependent_of_mem hvx) hb.stress
      hn.damage_not_reserved hvx hdv hl hm hΛ hM (hb.regular l m hlm v hvx t₀ hdv) ht hσm
    exact ⟨t₀, _, hdv, Stensor.eval_mkAdd hA hT, hσ⟩

theorem JacobianNames.increment_not_mem_parts (hn : c.JacobianNames states) {x : String}
    (hx : x ∈ states) (hxe : x ≠ Ident.elasticStrain) (hxd : x ∉ c.degradation.damage?) :
    increment x ∉ (c.degradationFactor .midStep).names ∧
      increment x ∉ (c.midStep Ident.elasticStrain).names ∧
      increment x ∉ [Ident.lambda, Ident.mu, Ident.stiffness] := by
  refine ⟨fun h => ?_, fun h => ?_, fun h => ?_⟩
  · rcases mem_names_degradationFactor h with h | ⟨v, hv, h | h⟩
    · exact increment_ne_thetaName x h
    · exact hn.damage_apart v hv x hx h
    · exact hxd (increment_inj h ▸ hv)
  · rcases mem_names_midStep_elasticStrain h with h | h | h
    · exact increment_ne_elasticStrain x h
    · exact hxe (increment_inj h)
    · exact increment_ne_thetaName x h
  · exact increment_not_mem_scratchNames x
      ((show [Ident.lambda, Ident.mu, Ident.stiffness] ⊆ scratchNames by decide) h)

/-- The entry of a state variable the properties depend on, other than the damage variable:
the chain rule through the properties, the stress of the members not reading its increment. -/
theorem dependency_entry_differentiates (hn : c.JacobianNames states) (hb : c.JacobianBinds env)
    {x : String} (hx : x ∈ c.stateDependencies) (hxd : x ∉ c.degradation.damage?) {t : Stensor ℝ}
    (ht : c.throughProperties c.midStepStress x = .ok t) {e : DerivativeEntry ℝ}
    (hvar : e.variable_ = x) (hexpr : e.expression = .stensor t) :
    e.Differentiates c.explicitMidStepStress env := by
  obtain ⟨t₀, hdx⟩ := (hb.dependencies x hx).exists_scalar
  have hxe : x ≠ Ident.elasticStrain := fun h =>
    hb.stress.strainIncrement.ne (hb.dependencies x hx) nofun (congrArg increment h).symm
  have hparts := hn.increment_not_mem_parts (hn.dependencies_mem x hx) hxe hxd
  have hσm : c.midStepStress.HasDerivAlong (env.scalarLine (increment x)) Vec6.zero t₀ := by
    obtain ⟨S, hS⟩ := Stensor.eval_ok_of_regular _ (c.regular_midStepStress hb.stress)
    refine .of_frame (fun r n hn' => ?_) ((Stensor.eval_scalarLine_self hdx _).trans hS)
    have hxn : increment x ≠ n := fun h => by
      rcases mem_names_midStepStress (h ▸ hn') with h | h | h
      exacts [hparts.1 h, hparts.2.1 h, hparts.2.2 h]
    simp [hxn]
  simp only [DerivativeEntry.Differentiates, hexpr, hvar]
  cases hlm : c.lame .midStep with
  | none =>
    rw [throughProperties_of_static fun _ => hlm, Except.ok.injEq] at ht
    subst ht
    refine ⟨t₀, Vec6.zero, hdx, rfl, hσm.congr_eval (.of_forall fun r => ?_)⟩
    rw [explicitMidStepStress_of_static (by simp [hlm])]
  | some lm =>
    obtain ⟨l, m⟩ := lm
    obtain ⟨Λ, M, hl, hm, hΛ, hM⟩ := hb.lame l m hlm
    obtain ⟨T, hT, hσ⟩ := throughProperties_hasDerivAlong hlm (hn.dependent_of_mem hx) hb.stress
      hn.damage_not_reserved hx hdx hl hm hΛ hM (hb.regular l m hlm x hx t₀ hdx) ht hσm
    exact ⟨t₀, T, hdx, hT, hσ.congr_deriv (Vec6.add_zero_left T)⟩

theorem JacobianNames.increment_not_mem_explicitMidStepStress (hn : c.JacobianNames states)
    {v : String} (hv : v ∈ states) (hve : v ≠ Ident.elasticStrain)
    (hvd : v ∉ c.degradation.damage?) (hvx : v ∉ c.stateDependencies) :
    increment v ∉ c.explicitMidStepStress.names := by
  have hparts := hn.increment_not_mem_parts hv hve hvd
  intro h
  rcases mem_names_explicitMidStepStress h with h | h | h | ⟨l, m, hlm, h⟩
  · exact hparts.1 h
  · exact hparts.2.1 h
  · exact hparts.2.2 h
  · exact hvx (hn.properties l m hlm v hv (List.mem_append.mpr h))

end Differentiate

/-- The stress derivatives are the partial derivatives of the explicit mid-step stress. Over
the reals, when the names the stress derivatives read keep out of each other's way and the
environment binds them, every entry that `derivativeEntries` finds evaluates to the derivative
of the explicit mid-step stress with respect to the increment of its variable, the Jacobian for
the elastic strain; and the explicit stress does not depend on the increment of a state variable
that has no entry. -/
theorem derivativeEntries_differentiate {c : Config ℝ} {d : Description} {states : List String}
    {env : Env ℝ} {es : List (DerivativeEntry ℝ)} (hn : c.JacobianNames states)
    (hb : c.JacobianBinds env) (hes : c.derivativeEntries d = .ok es) :
    (∀ e ∈ es, e.Differentiates c.explicitMidStepStress env) ∧
      ∀ v ∈ states, v ∉ es.map (·.variable_) → ∀ (env' : Env ℝ) (X : Value ℝ),
        c.explicitMidStepStress.eval (env'.set (increment v) X) =
          c.explicitMidStepStress.eval env' := by
  obtain ⟨g, damaged, rest, hg, rfl, hdamaged, hrest, hcover⟩ := derivativeEntries_eq_ok hes
  refine ⟨fun e he => ?_, fun v hv hvs env' X => ?_⟩
  · rcases List.mem_cons.mp he with rfl | he
    · exact elasticStrain_entry_differentiates hn hb hg
    rcases List.mem_append.mp he with he | he
    · rcases hdamaged with ⟨-, rfl⟩ | ⟨v, a, t, hv, ha, ht, rfl⟩
      · cases he
      · rw [List.mem_singleton] at he
        subst he
        exact damage_entry_differentiates hn hb hv ha ht
    · obtain ⟨x, hx, hxd, t, ht, hvar, hexpr⟩ := hrest e he
      exact dependency_entry_differentiates hn hb hx hxd ht hvar hexpr
  · -- a state variable with no entry is none of the three kinds of entry variables
    have hmem : ∀ e ∈ (⟨Ident.elasticStrain, .stensor4 g, .stensor⟩ : DerivativeEntry ℝ) ::
        damaged ++ rest, e.variable_ ≠ v := fun e he hev => hvs (List.mem_map.mpr ⟨e, he, hev⟩)
    have hve : v ≠ Ident.elasticStrain := fun h => hmem _ List.mem_cons_self h.symm
    have hvd : v ∉ c.degradation.damage? := fun h => by
      rcases hdamaged with ⟨hnone, -⟩ | ⟨w, a, t, hw, -, -, rfl⟩
      · simp [hnone] at h
      · exact hmem ⟨w, .stensor (a + t), .scalar⟩ (by simp) (Option.some.inj (hw.symm.trans h))
    have hvx : v ∉ c.stateDependencies := fun h => by
      obtain ⟨e, he, hev⟩ := List.mem_map.mp (hcover v h hvd)
      exact hmem e (List.mem_cons_of_mem _ (List.mem_append_right _ he)) hev
    exact Stensor.eval_set_of_not_mem (hn.increment_not_mem_explicitMidStepStress hv hve hvd hvx)

end Config

/-- The environment of `evolvingModulusEnv` with the Lamé members at the mid-step coefficients
`λ = μ = 9/10` of the modulus `2 + 1/2 · 1/2` and `ν = 1/4`. -/
noncomputable def evolvingModulusLameEnv : Env ℝ :=
  (evolvingModulusEnv.set Ident.lambda (.scalar (9 / 10))).set Ident.mu (.scalar (9 / 10))

theorem evolvingModulusLameEnv_get? {n : String} (hl : Ident.lambda ≠ n) (hm : Ident.mu ≠ n) :
    evolvingModulusLameEnv.get? n = evolvingModulusEnv.get? n := by
  simp [evolvingModulusLameEnv, hl, hm]

theorem evolvingModulus_lame :
    evolvingModulusConfig.lame .midStep = some
      (.div (.mul (.add (Scalar.member "p")
            (.mul (Scalar.member thetaName) (Scalar.member (increment "p")))) (Scalar.member "nu"))
        (.mul (.add (.const 1) (Scalar.member "nu"))
          (.sub (.const 1) (.mul (.const 2) (Scalar.member "nu")))),
       .div (.add (Scalar.member "p") (.mul (Scalar.member thetaName) (Scalar.member (increment "p"))))
        (.mul (.const 2) (.add (.const 1) (Scalar.member "nu")))) := by
  simp [Config.lame, evolvingModulusConfig, Config.atStage, Config.weight, Scalar.substScalar,
    lameCoefficients, Scalar.member, Scalar.mkAdd, Scalar.mkMul, Scalar.mkDiv, Scalar.mkSub,
    Scalar.one, Scalar.num, Scalar.add_eq_mkAdd, Scalar.mul_eq_mkMul, Scalar.sub_eq_mkSub]

theorem evolvingModulus_jacobianNames : evolvingModulusConfig.JacobianNames ["eel", "p", "d"] where
  elasticStrain_mem := by decide
  damage_mem := by
    intro v hv
    obtain rfl : v = "d" := by simpa [evolvingModulusConfig, Degradation.damage?] using hv.symm
    decide
  dependencies_mem := by
    intro x hx
    obtain rfl : x = "p" := by simpa [evolvingModulusConfig] using hx
    decide
  damage_not_reserved := by
    intro v hv
    obtain rfl : v = "d" := by simpa [evolvingModulusConfig, Degradation.damage?] using hv.symm
    decide
  damage_apart := by
    intro v hv
    obtain rfl : v = "d" := by simpa [evolvingModulusConfig, Degradation.damage?] using hv.symm
    decide
  properties := by
    intro l m h x hx hmem
    rw [evolvingModulus_lame, Option.some.injEq, Prod.mk.injEq] at h
    obtain ⟨rfl, rfl⟩ := h
    simp [Scalar.names, Scalar.member] at hmem
    simp only [List.mem_cons, List.not_mem_nil, or_false] at hx
    rcases hx with rfl | rfl | rfl <;> revert hmem <;> decide
  dependent _ := rfl

theorem evolvingModulus_jacobianBinds : evolvingModulusConfig.JacobianBinds evolvingModulusLameEnv := by
  have hget : ∀ {n : String} {k : Kind}, Ident.lambda ≠ n → Ident.mu ≠ n →
      evolvingModulusEnv.Binds n k → evolvingModulusLameEnv.Binds n k :=
    fun hl hm ⟨v, h, hk⟩ => ⟨v, (evolvingModulusLameEnv_get? hl hm).trans h, hk⟩
  have hline : ∀ r : ℝ,
      (evolvingModulusLameEnv.scalarLine (increment "p") r).get? "p" = some (.scalar ((2 : ℚ) : ℝ)) ∧
      (evolvingModulusLameEnv.scalarLine (increment "p") r).get? thetaName =
        some (.scalar ((1 / 2 : ℚ) : ℝ)) ∧
      (evolvingModulusLameEnv.scalarLine (increment "p") r).get? (increment "p") = some (.scalar r) ∧
      (evolvingModulusLameEnv.scalarLine (increment "p") r).get? "nu" =
        some (.scalar ((1 / 4 : ℚ) : ℝ)) := fun r => by
    refine ⟨?_, ?_, by simp, ?_⟩ <;>
      (rw [Env.get?_scalarLine, if_neg (by decide), evolvingModulusLameEnv_get? (by decide) (by decide)]; rfl)
  refine
    { stress :=
        { theta := fun _ => hget (by decide) (by decide) ⟨_, rfl, rfl⟩
          elasticStrain := hget (by decide) (by decide) ⟨_, rfl, rfl⟩
          strainIncrement := hget (by decide) (by decide) ⟨_, rfl, rfl⟩
          damage := fun v hv => by
            obtain rfl : v = "d" := by simpa [evolvingModulusConfig, Degradation.damage?] using hv.symm
            exact ⟨hget (by decide) (by decide) ⟨_, rfl, rfl⟩, hget (by decide) (by decide) ⟨_, rfl, rfl⟩⟩
          lame := fun _ =>
            ⟨⟨.scalar (9 / 10), by simp [evolvingModulusLameEnv, Ident.lambda, Ident.mu], rfl⟩,
              ⟨.scalar (9 / 10), by simp [evolvingModulusLameEnv], rfl⟩⟩
          stiffness := by simp [evolvingModulusConfig, Representation.isLame] }
      dependencies := fun x hx => by
        obtain rfl : x = "p" := by simpa [evolvingModulusConfig] using hx
        exact hget (by decide) (by decide) ⟨_, rfl, rfl⟩
      lame := fun l m h => ?_
      regular := fun l m h x hx t₀ _ => ?_ }
  · rw [evolvingModulus_lame, Option.some.injEq, Prod.mk.injEq] at h
    obtain ⟨rfl, rfl⟩ := h
    have hp : evolvingModulusLameEnv.get? "p" = some (.scalar ((2 : ℚ) : ℝ)) :=
      (evolvingModulusLameEnv_get? (by decide) (by decide)).trans rfl
    have hθ : evolvingModulusLameEnv.get? thetaName = some (.scalar ((1 / 2 : ℚ) : ℝ)) :=
      (evolvingModulusLameEnv_get? (by decide) (by decide)).trans rfl
    have hdp : evolvingModulusLameEnv.get? (increment "p") = some (.scalar ((1 / 2 : ℚ) : ℝ)) :=
      (evolvingModulusLameEnv_get? (by decide) (by decide)).trans rfl
    have hnu : evolvingModulusLameEnv.get? "nu" = some (.scalar ((1 / 4 : ℚ) : ℝ)) :=
      (evolvingModulusLameEnv_get? (by decide) (by decide)).trans rfl
    refine ⟨9 / 10, 9 / 10, ?_, ?_, by simp [evolvingModulusLameEnv, Ident.lambda, Ident.mu],
      by simp [evolvingModulusLameEnv]⟩ <;>
    · simp only [Scalar.eval, Scalar.eval_member hp, Scalar.eval_member hθ, Scalar.eval_member hdp,
        Scalar.eval_member hnu, except_ok_bind]
      norm_num
  · rw [evolvingModulus_lame, Option.some.injEq, Prod.mk.injEq] at h
    obtain ⟨rfl, rfl⟩ := h
    obtain rfl : x = "p" := by simpa [evolvingModulusConfig] using hx
    refine .of_forall fun r => ?_
    obtain ⟨hp, hθ, hdp, hnu⟩ := hline r
    have hreg : ∀ {n : String} {a : ℝ},
        (evolvingModulusLameEnv.scalarLine (increment "p") r).get? n = some (.scalar a) →
          (Scalar.member n : Scalar ℝ).Regular (evolvingModulusLameEnv.scalarLine (increment "p") r) :=
      fun h => Scalar.regular_member ⟨_, h, rfl⟩
    simp only [Scalar.Regular, hreg hp, hreg hθ, hreg hdp, hreg hnu, Scalar.eval,
      Scalar.eval_member hnu, except_ok_bind, true_and]
    norm_num

/-- With the modulus `p` a state variable the properties depend on, `d` the damage and the
Lamé members at their mid-step values, the entries of the stress derivatives differentiate the
explicit mid-step stress. -/
theorem derivativeEntries_differentiate_evolvingModulus :
    evolvingModulusConfig.JacobianNames ["eel", "p", "d"] ∧
    evolvingModulusConfig.JacobianBinds evolvingModulusLameEnv ∧
    ∃ es, evolvingModulusConfig.derivativeEntries (Description.new "Damage" .implicit) = .ok es ∧
      (∀ e ∈ es, e.Differentiates evolvingModulusConfig.explicitMidStepStress evolvingModulusLameEnv) ∧
      ∀ v ∈ ["eel", "p", "d"], v ∉ es.map (·.variable_) → ∀ (env' : Env ℝ) (X : Value ℝ),
        evolvingModulusConfig.explicitMidStepStress.eval (env'.set (increment v) X) =
          evolvingModulusConfig.explicitMidStepStress.eval env' := by
  obtain ⟨es, hes⟩ := evolvingModulusConfig.derivativeEntries_ok (Description.new "Damage" .implicit)
    (fun y nu h => by
      obtain ⟨rfl, rfl⟩ : Scalar.member "p" = y ∧ Scalar.member "nu" = nu := by
        simpa [evolvingModulusConfig] using h
      exact ⟨Scalar.refusalFree_member _, Scalar.refusalFree_member _⟩)
  exact ⟨evolvingModulus_jacobianNames, evolvingModulus_jacobianBinds, es, hes,
    Config.derivativeEntries_differentiate evolvingModulus_jacobianNames
      evolvingModulus_jacobianBinds hes⟩

end Elasto.Brick
