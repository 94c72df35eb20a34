import Mathlib
import Elasto.Proofs.Stress
import Elasto.Proofs.Substitution

/-!
# The stress at the stages of a step

At mid step the brick puts `x + θ Δx` for each evolving variable `x` of the elastic
properties, one substitution after the other; at the end of the step it puts `x + Δx` for the
external variables only and reads the state variables as already updated. Substituting an
expression for a name evaluates as binding the name to the expression's value, so, as long
as no evolving name is another's increment, the properties at mid step are the properties in
the environment moved to the point `θ` of the step, and at the end of the step the properties
in the environment moved to its end.

The main statement: with `θ = 1` the mid-step stress is the end-of-step stress on the updated
environment, for every path the storage chooses, as long as the properties do not read
`theta` themselves.
-/

namespace Elasto.Tensor

open Elasto.Mandel

/-- `x + w Δx`, for a scalar or a tensor and its increment. -/
def Value.stepBy (w : ℝ) : Value ℝ → Value ℝ → Option (Value ℝ)
  | .scalar a, .scalar da => some (.scalar (a + w * da))
  | .stensor a, .stensor da => some (.stensor (Vec6.add a (Vec6.scale w da)))
  | _, _ => none

namespace Env

/-- The value of `x + w Δx`, when `x` and its increment are bound to values of one kind. -/
def stepped (env : Env ℝ) (w : ℝ) (x : String) : Option (Value ℝ) :=
  (env.get? x).bind fun v => (env.get? (Brick.increment x)).bind (v.stepBy w)

/-- The environment at the point `w` of the step: each of `names` holding `x + w Δx`, with
the values read from `env`; every other name as it was. -/
def stepTo (env : Env ℝ) (w : ℝ) (names : List String) : Env ℝ :=
  names.foldl (fun e x => match env.stepped w x with
    | some v => e.set x v
    | none => e) env

variable {env : Env ℝ} {w : ℝ}

theorem get?_stepTo (names : List String) (n : String) :
    (env.stepTo w names).get? n =
      if n ∈ names then (env.stepped w n).or (env.get? n) else env.get? n := by
  -- the fold starts from any environment that agrees with `env` off the names already moved
  suffices h : ∀ (e : Env ℝ) (done : List String),
      (∀ m, e.get? m = if m ∈ done then (env.stepped w m).or (env.get? m) else env.get? m) →
      (names.foldl (fun e x => match env.stepped w x with
        | some v => e.set x v
        | none => e) e).get? n =
        if n ∈ done ++ names then (env.stepped w n).or (env.get? n) else env.get? n by
    simpa [stepTo] using h env [] (by simp)
  induction names with
  | nil => intro e done he; simpa using he n
  | cons x xs ih =>
    intro e done he
    rw [List.foldl_cons, ih _ (done ++ [x]) ?_, List.append_assoc, List.singleton_append]
    intro m
    have hm := he m
    split
    · rename_i v hv
      rw [get?_set]
      by_cases hxm : x = m
      · subst hxm
        simp [hv]
      · simp [hxm, Ne.symm hxm, hm]
    · rename_i hv
      by_cases hxm : x = m
      · subst hxm
        simp only [List.mem_append, List.mem_singleton, or_true, if_true] at hm ⊢
        split at hm <;> simp_all
      · simp [hm, Ne.symm hxm]

end Env

end Elasto.Tensor

namespace Elasto.Brick

open Elasto.Behaviour Elasto.Tensor Elasto.Code Elasto.Mandel

section Fold

variable {env : Env ℝ} {w W : ℝ}

theorem Env.stepped_of_scalar {x : String} {a da : ℝ} (ha : env.get? x = some (.scalar a))
    (hda : env.get? (increment x) = some (.scalar da)) :
    env.stepped w x = some (.scalar (a + w * da)) := by
  simp [Env.stepped, ha, hda, Value.stepBy]

theorem Env.get?_stepTo_of_not_mem {names : List String} {n : String} (h : n ∉ names) :
    (env.stepTo w names).get? n = env.get? n := by
  rw [Env.get?_stepTo, if_neg h]

theorem Env.get?_stepTo_of_scalar {names : List String} {x : String} {a da : ℝ} (h : x ∈ names)
    (ha : env.get? x = some (.scalar a)) (hda : env.get? (increment x) = some (.scalar da)) :
    (env.stepTo w names).get? x = some (.scalar (a + w * da)) := by
  rw [Env.get?_stepTo, if_pos h, Env.stepped_of_scalar ha hda, Option.some_or]

/-- Substituting `x + wt Δx` for each of `names` in turn, with `wt` worth `W`, evaluates as
moving the environment to the point `W` of the step: each substitution binds its name to a
value the later ones do not read, as no name is the increment of another. -/
theorem eval_foldl_substStep {wt : Scalar ℝ} (hw : wt.eval env = .ok W) :
    ∀ (names : List String), names.Nodup → (∀ x ∈ names, x ∉ wt.names) →
      (∀ x ∈ names, ∀ y ∈ names, increment x ≠ y) →
      (∀ x ∈ names, ∃ a da, env.get? x = some (.scalar a) ∧
        env.get? (increment x) = some (.scalar da)) →
      ∀ (e : Scalar ℝ) (v : ℝ), e.eval (env.stepTo W names) = .ok v →
        (names.foldl (fun out x =>
          out.substScalar x (Scalar.member x + wt * Scalar.member (increment x))) e).eval env =
          .ok v
  | [], _, _, _, _, e, v, he => by simpa [Env.stepTo] using he
  | x :: xs, hnd, hwn, hinc, hb, e, v, he => by
    obtain ⟨hx, hnd⟩ := List.nodup_cons.mp hnd
    obtain ⟨a, da, ha, hda⟩ := hb x List.mem_cons_self
    set env₁ := env.stepTo W xs
    have hr : (Scalar.member x + wt * Scalar.member (increment x)).eval env₁ = .ok (a + W * da) := by
      have hx₁ : env₁.get? x = some (.scalar a) := (Env.get?_stepTo_of_not_mem hx).trans ha
      have hdx₁ : env₁.get? (increment x) = some (.scalar da) :=
        (Env.get?_stepTo_of_not_mem fun h => hinc x List.mem_cons_self _
          (List.mem_cons_of_mem x h) rfl).trans hda
      have hw₁ : wt.eval env₁ = .ok W := (Scalar.eval_congr wt fun n hn =>
        Env.get?_stepTo_of_not_mem fun h => hwn n (List.mem_cons_of_mem x h) hn).trans hw
      exact Scalar.eval_mkAdd (Scalar.eval_member hx₁)
        (Scalar.eval_mkMul hw₁ (Scalar.eval_member hdx₁))
    have he₁ : e.eval (env₁.set x (.scalar (a + W * da))) = .ok v := by
      refine (Scalar.eval_congr e fun n _ => ?_).trans he
      rw [Env.get?_set, Env.get?_stepTo, Env.get?_stepTo]
      by_cases hxn : x = n
      · subst hxn
        simp [Env.stepped_of_scalar ha hda]
      · simp [hxn, Ne.symm hxn]
    rw [List.foldl_cons]
    exact eval_foldl_substStep hw xs hnd (fun y hy => hwn y (List.mem_cons_of_mem x hy))
      (fun y hy z hz => hinc y (List.mem_cons_of_mem x hy) z (List.mem_cons_of_mem x hz))
      (fun y hy => hb y (List.mem_cons_of_mem x hy)) _ v
      (Scalar.eval_substScalar hr e v he₁)

end Fold

theorem increment_ne_thetaName (x : String) : increment x ≠ thetaName := by
  intro h
  simpa [increment, thetaName] using congrArg String.toList h

theorem Stensor.eval_member {env : Env ℝ} {n : String} {E : Vec6 ℝ}
    (h : env.get? n = some (.stensor E)) : (Stensor.member n).eval env = .ok E := by
  simp [Stensor.member, Stensor.eval, Env.stensor, Env.lookup, h]

theorem Env.stepped_of_stensor {env : Env ℝ} {w : ℝ} {x : String} {E dE : Vec6 ℝ}
    (hE : env.get? x = some (.stensor E)) (hdE : env.get? (increment x) = some (.stensor dE)) :
    env.stepped w x = some (.stensor (Vec6.add E (Vec6.scale w dE))) := by
  simp [Env.stepped, hE, hdE, Value.stepBy]

theorem Env.get?_stepTo_congr {env env' : Env ℝ} {w : ℝ} {names : List String} {n : String}
    (h : env'.get? n = env.get? n) (hd : env'.get? (increment n) = env.get? (increment n)) :
    (env'.stepTo w names).get? n = (env.stepTo w names).get? n := by
  simp only [Env.get?_stepTo, Env.stepped, h, hd]

theorem Scalar.one_mul_member (n : String) :
    (Scalar.one * Scalar.member n : Scalar ℝ) = Scalar.member n := by
  simp [Scalar.mul_eq_mkMul, Scalar.mkMul, Scalar.one, Scalar.member]

namespace Config

variable {α : Type} [Number α]

/-- At mid step each evolving variable `x` becomes `x + θ Δx`, in the order of the list. -/
theorem atStage_midStep (c : Config α) (e : Scalar α) :
    c.atStage e .midStep = (c.evolving.map Prod.fst).foldl (fun out x =>
      out.substScalar x (Scalar.member x + c.weight * Scalar.member (increment x))) e := by
  unfold atStage
  induction c.evolving generalizing e with
  | nil => rfl
  | cons p ps ih => exact ih _

theorem atStage_endOfStep (c : Config α) (e : Scalar α) :
    c.atStage e .endOfStep =
      ((c.evolving.filter (·.2 = .externalStateVariable)).map Prod.fst).foldl (fun out x =>
        out.substScalar x (Scalar.member x + Scalar.member (increment x))) e := by
  unfold atStage
  induction c.evolving generalizing e with
  | nil => rfl
  | cons p ps ih =>
    obtain ⟨x, k⟩ := p
    cases k <;> simp [ih]

end Config

namespace Config

/-- The evolving variables of the elastic properties. -/
def evolvingNames {α : Type} (c : Config α) : List String := c.evolving.map Prod.fst

/-- The evolving external state variables of the elastic properties. -/
def externalNames {α : Type} (c : Config α) : List String :=
  (c.evolving.filter (·.2 = .externalStateVariable)).map Prod.fst

theorem externalNames_sublist {α : Type} (c : Config α) :
    c.externalNames.Sublist c.evolvingNames :=
  List.filter_sublist.map _

theorem substStep_one :
    (fun (out : Scalar ℝ) x => out.substScalar x (Scalar.member x + Scalar.member (increment x))) =
      fun out x => out.substScalar x (Scalar.member x + Scalar.one * Scalar.member (increment x)) := by
  funext out x
  rw [Scalar.one_mul_member]

/-- When no evolving variable is named as the increment of another, each stage takes every
evolving quantity at once. At mid step the expression evaluates as in the environment moved to
the point `W` of the step, `W` the weight `θ` of implicit schemes and `0` of the others; at the
end of the step as in the environment with the external variables moved to the end of the
step; at the beginning of the step it is left as it is. Without that condition the increment
the substitution for `x` brings in is itself substituted when it is an evolving variable too. -/
theorem eval_atStage_of_apart {c : Config ℝ} {env : Env ℝ} {W : ℝ}
    (hw : c.weight.eval env = .ok W) (hnd : c.evolvingNames.Nodup)
    (hθ : ∀ x ∈ c.evolvingNames, x ∉ c.weight.names)
    (hinc : ∀ x ∈ c.evolvingNames, ∀ y ∈ c.evolvingNames, increment x ≠ y)
    (hb : ∀ x ∈ c.evolvingNames, ∃ a da, env.get? x = some (.scalar a) ∧
      env.get? (increment x) = some (.scalar da))
    (e : Scalar ℝ) (v : ℝ) :
    (e.eval (env.stepTo W c.evolvingNames) = .ok v → (c.atStage e .midStep).eval env = .ok v) ∧
    (e.eval (env.stepTo 1 c.externalNames) = .ok v →
      (c.atStage e .endOfStep).eval env = .ok v) ∧
    c.atStage e .beginningOfStep = e := by
  have hsub := c.externalNames_sublist
  refine ⟨fun he => ?_, fun he => ?_, ?_⟩
  · rw [atStage_midStep]
    exact eval_foldl_substStep hw _ hnd hθ hinc hb e v he
  · -- the external variables are moved with weight one
    rw [atStage_endOfStep, substStep_one]
    exact eval_foldl_substStep Scalar.eval_one _ (hnd.sublist hsub)
      (fun x _ h => by simp [Scalar.one, Scalar.names] at h)
      (fun x hx y hy => hinc x (hsub.subset hx) y (hsub.subset hy))
      (fun x hx => hb x (hsub.subset hx)) e v he
  · unfold atStage
    induction c.evolving generalizing e with
    | nil => rfl
    | cons p ps ih => exact ih e

/-- The names a step reads keep out of each other's way. The evolving variables are distinct,
the state variables among them are updated and the external ones are not, the elastic strain
and the damage variable are updated; the increment of an evolving variable is neither evolving
nor updated, no evolving variable nor the damage variable is `theta` or a scratch name, and a
stiffness tensor given by the solver is not updated. The properties read no scratch name and
not `theta`, read an updated name only as an evolving variable, and no evolving one at all
when they are not field dependent. -/
structure StepNames (c : Config ℝ) (states : List String) : Prop where
  evolving_nodup : c.evolvingNames.Nodup
  mem_states_iff : ∀ x k, (x, k) ∈ c.evolving → (x ∈ states ↔ k ≠ .externalStateVariable)
  elasticStrain_mem : Ident.elasticStrain ∈ states
  damage_mem : ∀ v ∈ c.degradation.damage?, v ∈ states
  increment_not_mem : ∀ x ∈ c.evolvingNames, increment x ∉ c.evolvingNames ++ states
  theta_not_mem : thetaName ∉ c.evolvingNames ++ c.degradation.damage?.toList
  not_scratch : ∀ x ∈ c.evolvingNames ++ c.degradation.damage?.toList, x ∉ scratchNames
  stiffness_not_mem : c.representation = .stiffnessTensor → Ident.stiffness ∉ states
  properties : ∀ y p, c.representation = .lame y p → ∀ n ∈ y.names ++ p.names,
    n ∉ scratchNames ∧ n ≠ thetaName ∧ (n ∈ states → n ∈ c.evolvingNames) ∧
      (c.fieldDependent = false → n ∉ c.evolvingNames)

/-- The environment binds what a step reads: the elastic strain, the damage variable and the
evolving variables with their increments; the properties evaluate at the end of the step, and
a stiffness tensor given by the solver is bound. -/
structure StepBinds (c : Config ℝ) (env : Env ℝ) : Prop where
  elasticStrain : ∃ E dE, env.get? Ident.elasticStrain = some (.stensor E) ∧
    env.get? (increment Ident.elasticStrain) = some (.stensor dE)
  damage : ∀ v ∈ c.degradation.damage?, ∃ d dd, env.get? v = some (.scalar d) ∧
    env.get? (increment v) = some (.scalar dd)
  evolving : ∀ x ∈ c.evolvingNames, ∃ a da, env.get? x = some (.scalar a) ∧
    env.get? (increment x) = some (.scalar da)
  properties : ∀ y p, c.representation = .lame y p →
    (∃ Y, y.eval (env.stepTo 1 c.evolvingNames) = .ok Y) ∧
      (∃ P, p.eval (env.stepTo 1 c.evolvingNames) = .ok P)
  stiffness : c.representation = .stiffnessTensor →
    ∃ C, env.get? Ident.stiffness = some (.stensor4 C)

section Values

variable {c : Config ℝ} {states : List String} {env B : Env ℝ} {e : Scalar ℝ} {v : ℝ}

theorem eval_atStage_midStep (hn : c.StepNames states) (hb : c.StepBinds env)
    (hi : c.implicit = true) (hA : AgreeOffScratch (env.set thetaName (.scalar 1)) B)
    (he : ∀ n ∈ e.names, n ∉ scratchNames ∧ n ≠ thetaName)
    (hv : e.eval (env.stepTo 1 c.evolvingNames) = .ok v) :
    (c.atStage e .midStep).eval B = .ok v := by
  have hev : ∀ x ∈ c.evolvingNames, x ∉ scratchNames ∧ x ≠ thetaName := fun x hx =>
    ⟨hn.not_scratch x (List.mem_append_left _ hx),
      fun h => hn.theta_not_mem (h ▸ List.mem_append_left _ hx)⟩
  have hB : ∀ n, n ∉ scratchNames → n ≠ thetaName → B.get? n = env.get? n := fun n hs ht => by
    rw [hA n hs, Env.get?_set, if_neg (Ne.symm ht)]
  have hBinc : ∀ x, B.get? (increment x) = env.get? (increment x) := fun x =>
    hB _ (increment_not_mem_scratchNames x) (increment_ne_thetaName x)
  have hθ : c.weight.eval B = .ok 1 := by
    rw [weight, if_pos hi]
    exact Scalar.eval_member (by rw [hA _ (by decide), Env.get?_set, if_pos rfl])
  rw [atStage_midStep]
  refine eval_foldl_substStep hθ _ hn.evolving_nodup (fun x hx hw => ?_) (fun x hx y hy h => ?_)
    (fun x hx => ?_) e v ?_
  · rw [weight, if_pos hi] at hw
    simp only [Scalar.member, Scalar.names, List.mem_singleton] at hw
    exact (hev x hx).2 hw
  · exact hn.increment_not_mem x hx (h ▸ List.mem_append_left _ hy)
  · obtain ⟨a, da, ha, hda⟩ := hb.evolving x hx
    exact ⟨a, da, (hB x (hev x hx).1 (hev x hx).2).trans ha, (hBinc x).trans hda⟩
  · refine (Scalar.eval_congr e fun n hne => ?_).trans hv
    exact Env.get?_stepTo_congr (hB n (he n hne).1 (he n hne).2) (hBinc n)

theorem eval_atStage_endOfStep (hn : c.StepNames states) (hb : c.StepBinds env)
    (hA : AgreeOffScratch (env.stepTo 1 states) B)
    (he : ∀ n ∈ e.names, n ∉ scratchNames ∧ (n ∈ states → n ∈ c.evolvingNames))
    (hv : e.eval (env.stepTo 1 c.evolvingNames) = .ok v) :
    (c.atStage e .endOfStep).eval B = .ok v := by
  set exs := c.externalNames
  have hsub : exs.Sublist c.evolvingNames := c.externalNames_sublist
  have hext : ∀ x ∈ exs, x ∉ states := by
    intro x hx
    obtain ⟨⟨x', k⟩, hmem, rfl⟩ := List.mem_map.mp hx
    obtain ⟨hmem, hk⟩ : (x', k) ∈ c.evolving ∧ k = .externalStateVariable := by simpa using hmem
    exact fun h => (hn.mem_states_iff _ _ hmem).mp h hk
  have hB : ∀ n, n ∉ scratchNames → n ∉ states → B.get? n = env.get? n := fun n hs ht => by
    rw [hA n hs, Env.get?_stepTo_of_not_mem ht]
  have hBinc : ∀ x ∈ c.evolvingNames, B.get? (increment x) = env.get? (increment x) := fun x hx =>
    hB _ (increment_not_mem_scratchNames x)
      (fun h => hn.increment_not_mem x hx (List.mem_append_right _ h))
  rw [atStage_endOfStep, substStep_one]
  refine eval_foldl_substStep Scalar.eval_one exs (hn.evolving_nodup.sublist hsub)
    (fun x _ h => by simp [Scalar.one, Scalar.names] at h)
    (fun x hx y hy h => hn.increment_not_mem x (hsub.subset hx)
      (h ▸ List.mem_append_left _ (hsub.subset hy))) (fun x hx => ?_) e v ?_
  · obtain ⟨a, da, ha, hda⟩ := hb.evolving x (hsub.subset hx)
    exact ⟨a, da, (hB x (hn.not_scratch x (List.mem_append_left _ (hsub.subset hx)))
      (hext x hx)).trans ha, (hBinc x (hsub.subset hx)).trans hda⟩
  · refine (Scalar.eval_congr e fun n hne => ?_).trans hv
    obtain ⟨hns, hnst⟩ := he n hne
    rw [Env.get?_stepTo, Env.get?_stepTo]
    by_cases hx : n ∈ exs
    · -- an external variable is moved on both sides
      have hnx : n ∈ c.evolvingNames := hsub.subset hx
      rw [if_pos hx, if_pos hnx]
      simp only [Env.stepped, hB n hns (hext n hx), hBinc n hnx]
    · rw [if_neg hx, hA n hns, Env.get?_stepTo]
      by_cases hs : n ∈ states
      · rw [if_pos hs, if_pos (hnst hs)]
      · -- an evolving variable that is not external is updated, so `n` is not evolving
        rw [if_neg hs, if_neg]
        intro hnx
        obtain ⟨⟨x', k⟩, hmem, rfl⟩ := List.mem_map.mp hnx
        refine hs ((hn.mem_states_iff _ _ hmem).mpr fun hk => hx ?_)
        exact List.mem_map.mpr ⟨(x', k), List.mem_filter.mpr ⟨hmem, by simp [hk]⟩, rfl⟩

theorem eval_of_static {E₀ : Env ℝ}
    (hE₀ : ∀ n, n ∉ states → n ≠ thetaName → E₀.get? n = env.get? n)
    (hA : AgreeOffScratch E₀ B)
    (he : ∀ n ∈ e.names, n ∉ scratchNames ∧ n ≠ thetaName ∧ (n ∈ states → n ∈ c.evolvingNames) ∧
      n ∉ c.evolvingNames)
    (hv : e.eval (env.stepTo 1 c.evolvingNames) = .ok v) : e.eval B = .ok v := by
  refine (Scalar.eval_congr e fun n hne => ?_).trans hv
  obtain ⟨hs, ht, hst, hx⟩ := he n hne
  rw [hA n hs, hE₀ n (fun h => hx (hst h)) ht, Env.get?_stepTo_of_not_mem hx]

theorem strainAt_step {E dE : Vec6 ℝ} (hs : Ident.elasticStrain ∈ states)
    (hE : env.get? Ident.elasticStrain = some (.stensor E))
    (hdE : env.get? (increment Ident.elasticStrain) = some (.stensor dE)) (hi : c.implicit = true) :
    (c.strainAt .endOfStep).eval (env.stepTo 1 states) = .ok (Vec6.add E (Vec6.scale 1 dE)) ∧
      (c.strainAt .midStep).eval (env.set thetaName (.scalar 1)) =
        .ok (Vec6.add E (Vec6.scale 1 dE)) := by
  constructor
  · rw [strainAt, if_neg (by decide)]
    exact Stensor.eval_member (by rw [Env.get?_stepTo, if_pos hs,
      Env.stepped_of_stensor hE hdE, Option.some_or])
  · rw [strainAt, if_pos rfl, midStep, weight, if_pos hi, Stensor.add_eq_mkAdd,
      Stensor.hMul_eq_mkScale]
    exact Stensor.eval_mkAdd
      (Stensor.eval_member (by rw [Env.get?_set, if_neg (by decide)]; exact hE))
      (Stensor.eval_mkScale (Scalar.eval_member (by simp))
        (Stensor.eval_member (by rw [Env.get?_set, if_neg (by decide)]; exact hdE)))

theorem degradationFactor_step (hn : c.StepNames states) (hb : c.StepBinds env)
    (hi : c.implicit = true) :
    ∃ F, (c.degradationFactor .endOfStep).eval (env.stepTo 1 states) = .ok F ∧
      (c.degradationFactor .midStep).eval (env.set thetaName (.scalar 1)) = .ok F := by
  unfold degradationFactor
  cases hg : c.degradation with
  | none => exact ⟨1, rfl, rfl⟩
  | isotropic v ub =>
    have hv : v ∈ c.degradation.damage? := by simp [hg, Degradation.damage?]
    obtain ⟨d, dd, hd, hdd⟩ := hb.damage v hv
    have hvs := hn.damage_mem v hv
    have hvθ : v ≠ thetaName := fun h =>
      hn.theta_not_mem (h ▸ List.mem_append_right _ (Option.mem_toList.mpr hv))
    refine ⟨1 - (d + 1 * dd), ?_, ?_⟩
    · exact Scalar.eval_mkSub Scalar.eval_one
        (Scalar.eval_member (Env.get?_stepTo_of_scalar hvs hd hdd))
    · rw [Degradation.factor, if_pos rfl, weight, if_pos hi]
      exact Scalar.eval_mkSub Scalar.eval_one (Scalar.eval_mkAdd
        (Scalar.eval_member (by rw [Env.get?_set, if_neg (Ne.symm hvθ)]; exact hd))
        (Scalar.eval_mkMul (Scalar.eval_member (by simp))
          (Scalar.eval_member (by
            rw [Env.get?_set, if_neg (Ne.symm (increment_ne_thetaName v))]; exact hdd))))

end Values

section Blocks

variable {α : Type} [Number α]

/-- The statements of the InitializeLocalVariables blocks of a finalized brick, in order: the
Lamé members set once by initialization, then the stiffness tensor `D` when the stress goes
through a stored tensor. -/
def initialization (c : Config α) : List (Statement α) :=
  c.initialLame ++
    if c.storage = .constant ∧ c.representation.isLame then [c.storedStiffness] else []

/-- The statements of the stress block at a stage, on the path `finalize` takes for the
storage: through the stored tensor, or by the isotropic law of the Lamé coefficients at the
stage. -/
def stressBlock (c : Config α) (stage : Stage) : List (Statement α) :=
  match c.storage, c.lame stage with
  | .constant, _ => c.tensorStress stage
  | .fieldDependent, some (l, m) => c.isotropicStress stage l m
  | .fieldDependent, none => []

theorem lame_eq_of_representation {c : Config α} {y p : Scalar α}
    (hrep : c.representation = .lame y p) (stage : Stage) :
    c.lame stage = some (lameCoefficients (c.atStage y stage) (c.atStage p stage)) := by
  simp [lame, hrep]

theorem initialization_append_stressBlock_of_constant {c : Config α} (hs : c.storage = .constant)
    (hl : c.representation.isLame = true) (stage : Stage) :
    c.initialization ++ c.stressBlock stage =
      c.initialLame ++ [c.storedStiffness] ++ c.tensorStress stage := by
  simp [initialization, stressBlock, hs, hl]

theorem initialization_append_stressBlock_of_fieldDependent {c : Config α}
    (hs : c.storage = .fieldDependent) {stage : Stage} {l m : Scalar α}
    (h : c.lame stage = some (l, m)) :
    c.initialization ++ c.stressBlock stage = c.initialLame ++ c.isotropicStress stage l m := by
  simp [initialization, stressBlock, hs, h]

theorem isotropicStress_of_evolving {c : Config α} (hs : c.fieldDependent = true) (stage : Stage)
    (l m : Scalar α) :
    c.isotropicStress stage l m = if stage = .midStep then
        setMember Ident.lambda (.scalar l) :: setMember Ident.mu (.scalar m) ::
          c.degradedStress stage c.memberStiffness (c.strainAt stage) true
      else setTemp Ident.lambdaEndOfStep (.scalar l) :: setTemp Ident.muEndOfStep (.scalar m) ::
          c.degradedStress stage (.lame (Scalar.temp Ident.lambdaEndOfStep)
            (Scalar.temp Ident.muEndOfStep)) (c.strainAt stage) true := by
  unfold isotropicStress
  simp only [hs, Bool.not_true, Bool.false_eq_true, if_false]
  split_ifs <;> rfl

end Blocks

section Runs

variable {c : Config ℝ} {stage : Stage} {env env₀ : Env ℝ} {y p : Scalar ℝ} {Λ M F : ℝ}
  {ε : Vec6 ℝ}

theorem run_isotropicStress_of_evolving (hrep : c.representation = .lame y p)
    (hs : c.fieldDependent = true) (hd : ∀ v ∈ c.degradation.damage?, v ∉ scratchNames)
    {l m : Scalar ℝ} (hA : AgreeOffScratch env env₀)
    (hl : ∀ {B}, AgreeOffScratch env B → l.eval B = .ok Λ)
    (hm : ∀ {B}, AgreeOffScratch env B → m.eval B = .ok M)
    (hε : (c.strainAt stage).eval env = .ok ε)
    (hF : (c.degradationFactor stage).eval env = .ok F) :
    ∃ env', executeExact (c.isotropicStress stage l m) env₀ = .ok env' ∧
      env'.get? Ident.stress = some (.stensor (Vec6.scale F (isotropicLaw Λ M ε))) := by
  rw [isotropicStress_of_evolving hs]
  split_ifs
  · -- at mid step the coefficients go into the members
    have hA₁ : AgreeOffScratch env (env₀.set Ident.lambda (.scalar Λ)) := hA.set (by decide) _
    have hA₂ : AgreeOffScratch env ((env₀.set Ident.lambda (.scalar Λ)).set Ident.mu (.scalar M)) :=
      hA₁.set (by decide) _
    rw [setMember, executeExact_assign_set (Expr.eval_scalar (hl hA)), setMember,
      executeExact_assign_set (Expr.eval_scalar (hm hA₁))]
    simp only [memberStiffness, hrep, Scalar.member]
    exact run_lameStress (by decide) (by decide) hd hA₂
      (by rw [Env.get?_set, if_neg (by decide), Env.get?_set, if_pos rfl])
      (by rw [Env.get?_set, if_pos rfl]) hε hF
  · -- at the end of the step into temporaries
    have hA₁ : AgreeOffScratch env (env₀.set Ident.lambdaEndOfStep (.scalar Λ)) :=
      hA.set (by decide) _
    have hA₂ : AgreeOffScratch env
        ((env₀.set Ident.lambdaEndOfStep (.scalar Λ)).set Ident.muEndOfStep (.scalar M)) :=
      hA₁.set (by decide) _
    rw [setTemp, executeExact_assign_set (Expr.eval_scalar (hl hA)), setTemp,
      executeExact_assign_set (Expr.eval_scalar (hm hA₁))]
    simp only [Scalar.temp]
    exact run_lameStress (by decide) (by decide) hd hA₂
      (by rw [Env.get?_set, if_neg (by decide), Env.get?_set, if_pos rfl])
      (by rw [Env.get?_set, if_pos rfl]) hε hF

/-- With properties that do not evolve, the initialization and the stress block at a stage
give the degraded isotropic law of the Lamé coefficients of the properties' values, on either
path of the storage: the Lamé members are set once, then read through the stored tensor or
directly. -/
theorem run_stressBlock_of_static {Y P : ℝ} (hrep : c.representation = .lame y p)
    (hs : c.fieldDependent = false) (hprops : ∀ n ∈ y.names ++ p.names, n ∉ scratchNames)
    (hd : ∀ v ∈ c.degradation.damage?, v ∉ scratchNames) (hy : y.eval env = .ok Y)
    (hp : p.eval env = .ok P) (hε : (c.strainAt stage).eval env = .ok ε)
    (hF : (c.degradationFactor stage).eval env = .ok F) :
    ∃ env', executeExact (c.initialization ++ c.stressBlock stage) env = .ok env' ∧
      env'.get? Ident.stress = some (.stensor (Vec6.scale F
        (isotropicLaw (Numeric.Lame.ofYoungPoisson Y P).lambda
          (Numeric.Lame.ofYoungPoisson Y P).mu ε))) := by
  set L := Numeric.Lame.ofYoungPoisson Y P
  have hinit := run_initialLame hrep hs hprops hy hp
  have hA : AgreeOffScratch env
      ((env.set Ident.lambda (.scalar L.lambda)).set Ident.mu (.scalar L.mu)) :=
    ((AgreeOffScratch.refl env).set (by decide) _).set (by decide) _
  have hl : ((env.set Ident.lambda (.scalar L.lambda)).set Ident.mu (.scalar L.mu)).get?
      Ident.lambda = some (.scalar L.lambda) := by
    rw [Env.get?_set, if_neg (by decide), Env.get?_set, if_pos rfl]
  have hm : ((env.set Ident.lambda (.scalar L.lambda)).set Ident.mu (.scalar L.mu)).get?
      Ident.mu = some (.scalar L.mu) := by
    rw [Env.get?_set, if_pos rfl]
  cases hst : c.storage with
  | constant =>
    obtain ⟨e', h, hσ⟩ := run_tensorStress hrep hd hA hl hm hε hF
    refine ⟨e', ?_, hσ⟩
    rw [initialization_append_stressBlock_of_constant hst (by simp [hrep, Representation.isLame]),
      List.append_assoc, executeExact_append, hinit, except_ok_bind]
    exact h
  | fieldDependent =>
    obtain ⟨e', h, hσ⟩ := run_isotropicStress_of_static hrep hs hd _ _ hA hl hm hε hF
    refine ⟨e', ?_, hσ⟩
    rw [initialization_append_stressBlock_of_fieldDependent hst (lame_eq_of_representation hrep _),
      executeExact_append, hinit, except_ok_bind]
    exact h

end Runs

theorem StepNames.damage_not_scratch {c : Config ℝ} {states : List String}
    (hn : c.StepNames states) : ∀ v ∈ c.degradation.damage?, v ∉ scratchNames := fun v hv =>
  hn.not_scratch v (List.mem_append_right _ (Option.mem_toList.mpr hv))

section Step

/-! ### The end of the step and the mid step at `θ = 1`

Each lemma runs the initialization and the stress block twice: at the end of the step on the
environment with the state variables updated, and at mid step on the environment with
`θ = 1`. Both runs give the same stress, case by case on how the elasticity is given. -/

variable {c : Config ℝ} {states : List String} {env : Env ℝ} {y p : Scalar ℝ}

theorem stepStress_of_stiffnessTensor (hrep : c.representation = .stiffnessTensor)
    (hs : c.storage = .constant) (hn : c.StepNames states) (hb : c.StepBinds env)
    (hi : c.implicit = true) :
    ∃ σ e₁ e₂,
      executeExact (c.initialization ++ c.stressBlock .endOfStep) (env.stepTo 1 states) =
        .ok e₁ ∧
      executeExact (c.initialization ++ c.stressBlock .midStep)
        (env.set thetaName (.scalar 1)) = .ok e₂ ∧
      e₁.get? Ident.stress = some σ ∧ e₂.get? Ident.stress = some σ := by
  obtain ⟨E, dE, hE, hdE⟩ := hb.elasticStrain
  obtain ⟨hε₁, hε₂⟩ := strainAt_step hn.elasticStrain_mem hE hdE hi
  obtain ⟨F, hF₁, hF₂⟩ := degradationFactor_step hn hb hi
  obtain ⟨C, hC⟩ := hb.stiffness hrep
  have hC₁ : (env.stepTo 1 states).get? Ident.stiffness = some (.stensor4 C) :=
    (Env.get?_stepTo_of_not_mem (hn.stiffness_not_mem hrep)).trans hC
  have hC₂ : (env.set thetaName (.scalar 1)).get? Ident.stiffness = some (.stensor4 C) := by
    rw [Env.get?_set, if_neg (by decide)]
    exact hC
  have hblocks : ∀ stage, c.initialization ++ c.stressBlock stage = c.tensorStress stage :=
    fun stage => by
      simp [initialization, initialLame, lame, stressBlock, hrep, hs, Representation.isLame]
  obtain ⟨e₁, h₁, hσ₁⟩ :=
    run_tensorStress_of_stiffness hn.damage_not_scratch (AgreeOffScratch.refl _) hC₁ hε₁ hF₁
  obtain ⟨e₂, h₂, hσ₂⟩ :=
    run_tensorStress_of_stiffness hn.damage_not_scratch (AgreeOffScratch.refl _) hC₂ hε₂ hF₂
  exact ⟨_, e₁, e₂, (hblocks _).symm ▸ h₁, (hblocks _).symm ▸ h₂, hσ₁, hσ₂⟩

theorem stepStress_of_static (hrep : c.representation = .lame y p)
    (hs : c.fieldDependent = false) (hn : c.StepNames states) (hb : c.StepBinds env)
    (hi : c.implicit = true) :
    ∃ σ e₁ e₂,
      executeExact (c.initialization ++ c.stressBlock .endOfStep) (env.stepTo 1 states) =
        .ok e₁ ∧
      executeExact (c.initialization ++ c.stressBlock .midStep)
        (env.set thetaName (.scalar 1)) = .ok e₂ ∧
      e₁.get? Ident.stress = some σ ∧ e₂.get? Ident.stress = some σ := by
  obtain ⟨E, dE, hE, hdE⟩ := hb.elasticStrain
  obtain ⟨hε₁, hε₂⟩ := strainAt_step hn.elasticStrain_mem hE hdE hi
  obtain ⟨F, hF₁, hF₂⟩ := degradationFactor_step hn hb hi
  obtain ⟨⟨Y, hY⟩, ⟨P, hP⟩⟩ := hb.properties y p hrep
  have hprops := hn.properties y p hrep
  have hscr : ∀ n ∈ y.names ++ p.names, n ∉ scratchNames := fun n h => (hprops n h).1
  have hE : ∀ n ∈ y.names ++ p.names, n ∉ scratchNames ∧ n ≠ thetaName ∧
      (n ∈ states → n ∈ c.evolvingNames) ∧ n ∉ c.evolvingNames := fun n h =>
    ⟨(hprops n h).1, (hprops n h).2.1, (hprops n h).2.2.1, (hprops n h).2.2.2 hs⟩
  have hE₁ : ∀ n, n ∉ states → n ≠ thetaName →
      (env.stepTo 1 states).get? n = env.get? n := fun n h _ => Env.get?_stepTo_of_not_mem h
  have hE₂ : ∀ n, n ∉ states → n ≠ thetaName →
      (env.set thetaName (.scalar 1)).get? n = env.get? n := fun n _ h => by
    rw [Env.get?_set, if_neg (Ne.symm h)]
  obtain ⟨e₁, h₁, hσ₁⟩ := run_stressBlock_of_static hrep hs hscr hn.damage_not_scratch
    (eval_of_static hE₁ (.refl _) (fun n h => hE n (List.mem_append_left _ h)) hY)
    (eval_of_static hE₁ (.refl _) (fun n h => hE n (List.mem_append_right _ h)) hP) hε₁ hF₁
  obtain ⟨e₂, h₂, hσ₂⟩ := run_stressBlock_of_static hrep hs hscr hn.damage_not_scratch
    (eval_of_static hE₂ (.refl _) (fun n h => hE n (List.mem_append_left _ h)) hY)
    (eval_of_static hE₂ (.refl _) (fun n h => hE n (List.mem_append_right _ h)) hP) hε₂ hF₂
  exact ⟨_, e₁, e₂, h₁, h₂, hσ₁, hσ₂⟩

theorem stepStress_of_evolving (hrep : c.representation = .lame y p)
    (hs : c.fieldDependent = true) (hst : c.storage = .fieldDependent) (hn : c.StepNames states)
    (hb : c.StepBinds env) (hi : c.implicit = true) :
    ∃ σ e₁ e₂,
      executeExact (c.initialization ++ c.stressBlock .endOfStep) (env.stepTo 1 states) =
        .ok e₁ ∧
      executeExact (c.initialization ++ c.stressBlock .midStep)
        (env.set thetaName (.scalar 1)) = .ok e₂ ∧
      e₁.get? Ident.stress = some σ ∧ e₂.get? Ident.stress = some σ := by
  obtain ⟨E, dE, hE, hdE⟩ := hb.elasticStrain
  obtain ⟨hε₁, hε₂⟩ := strainAt_step hn.elasticStrain_mem hE hdE hi
  obtain ⟨F, hF₁, hF₂⟩ := degradationFactor_step hn hb hi
  obtain ⟨⟨Y, hY⟩, ⟨P, hP⟩⟩ := hb.properties y p hrep
  have hprops := hn.properties y p hrep
  have hinit : c.initialLame = [] := by
    simp [initialLame, lame_eq_of_representation hrep, hs]
  have hblocks : ∀ stage, c.initialization ++ c.stressBlock stage =
      c.isotropicStress stage (lameCoefficients (c.atStage y stage) (c.atStage p stage)).1
        (lameCoefficients (c.atStage y stage) (c.atStage p stage)).2 := fun stage => by
    rw [initialization_append_stressBlock_of_fieldDependent hst (lame_eq_of_representation hrep _),
      hinit, List.nil_append]
    rfl
  have hend : ∀ {B}, AgreeOffScratch (env.stepTo 1 states) B →
      (lameCoefficients (c.atStage y .endOfStep) (c.atStage p .endOfStep)).1.eval B =
          .ok (Numeric.Lame.ofYoungPoisson Y P).lambda ∧
        (lameCoefficients (c.atStage y .endOfStep) (c.atStage p .endOfStep)).2.eval B =
          .ok (Numeric.Lame.ofYoungPoisson Y P).mu := fun hA =>
    eval_lameCoefficients
      (eval_atStage_endOfStep hn hb hA (fun n h =>
        ⟨(hprops n (List.mem_append_left _ h)).1, (hprops n (List.mem_append_left _ h)).2.2.1⟩) hY)
      (eval_atStage_endOfStep hn hb hA (fun n h =>
        ⟨(hprops n (List.mem_append_right _ h)).1, (hprops n (List.mem_append_right _ h)).2.2.1⟩) hP)
  have hmid : ∀ {B}, AgreeOffScratch (env.set thetaName (.scalar 1)) B →
      (lameCoefficients (c.atStage y .midStep) (c.atStage p .midStep)).1.eval B =
          .ok (Numeric.Lame.ofYoungPoisson Y P).lambda ∧
        (lameCoefficients (c.atStage y .midStep) (c.atStage p .midStep)).2.eval B =
          .ok (Numeric.Lame.ofYoungPoisson Y P).mu := fun hA =>
    eval_lameCoefficients
      (eval_atStage_midStep hn hb hi hA (fun n h =>
        ⟨(hprops n (List.mem_append_left _ h)).1, (hprops n (List.mem_append_left _ h)).2.1⟩) hY)
      (eval_atStage_midStep hn hb hi hA (fun n h =>
        ⟨(hprops n (List.mem_append_right _ h)).1, (hprops n (List.mem_append_right _ h)).2.1⟩) hP)
  obtain ⟨e₁, h₁, hσ₁⟩ := run_isotropicStress_of_evolving hrep hs hn.damage_not_scratch
    (AgreeOffScratch.refl _) (fun hA => (hend hA).1) (fun hA => (hend hA).2) hε₁ hF₁
  obtain ⟨e₂, h₂, hσ₂⟩ := run_isotropicStress_of_evolving hrep hs hn.damage_not_scratch
    (AgreeOffScratch.refl _) (fun hA => (hmid hA).1) (fun hA => (hmid hA).2) hε₂ hF₂
  exact ⟨_, e₁, e₂, (hblocks _).symm ▸ h₁, (hblocks _).symm ▸ h₂, hσ₁, hσ₂⟩

/-- The end-of-step stress is the mid-step stress at `θ = 1`. In an implicit scheme, running
the initialization and then the final stress block on the environment with every state
variable updated to `x + Δx` gives the same stress as running the initialization and then
the stress block on the environment with `θ = 1`, whichever path the storage takes, as long as
the names the step reads keep out of each other's way and the properties do not read
`theta`. -/
theorem finalStress_eq_midStepStress_at_unit_theta (hi : c.implicit = true)
    (hsc : c.storage = .constant → c.fieldDependent = false)
    (hst : c.representation = .stiffnessTensor → c.storage = .constant)
    (hn : c.StepNames states) (hb : c.StepBinds env) :
    ∃ σ e₁ e₂,
      executeExact (c.initialization ++ c.stressBlock .endOfStep) (env.stepTo 1 states) =
        .ok e₁ ∧
      executeExact (c.initialization ++ c.stressBlock .midStep)
        (env.set thetaName (.scalar 1)) = .ok e₂ ∧
      e₁.get? Ident.stress = some σ ∧ e₂.get? Ident.stress = some σ := by
  cases hrep : c.representation with
  | stiffnessTensor => exact stepStress_of_stiffnessTensor hrep (hst hrep) hn hb hi
  | lame y p =>
    cases hfd : c.fieldDependent with
    | false => exact stepStress_of_static hrep hfd hn hb hi
    | true =>
      -- evolving properties are never stored in a constant tensor
      have hs : c.storage = .fieldDependent := by
        cases h : c.storage with
        | constant => simp [hsc h] at hfd
        | fieldDependent => rfl
      exact stepStress_of_evolving hrep hfd hs hn hb hi

end Step

end Config

end Elasto.Brick

namespace Elasto.Brick

open Elasto.Behaviour Elasto.Tensor Elasto.Code Elasto.Mandel

/-- A Young modulus that reads `theta`, `200 θ`, with the Poisson ratio the material property
`nu`; the stress goes through the stored tensor. -/
noncomputable def thetaModulusConfig : Config ℝ where
  representation := .lame (.mul (Scalar.num 200) (Scalar.member thetaName)) (Scalar.member "nu")
  storage := .constant
  fieldDependent := false
  stateDependencies := []
  thermalExpansion := none
  planeStress := false
  genericTangentOperator := true
  genericPredictionOperator := true
  degradation := .none
  implicit := true
  evolving := []

/-- An elastic strain `(1, 1, 1, 0, 0, 0)` that does not move, `nu = 1/4` and `theta = 1/2`. -/
noncomputable def thetaModulusEnv : Env ℝ where
  entries := [("nu", .scalar (1 / 4 : ℚ)), ("eel", .stensor Vec6.identity),
    ("deel", .stensor Vec6.zero), ("theta", .scalar (1 / 2 : ℚ))]

/-- A Young modulus that reads `theta` is worth `100` at the end of the step, where `theta`
keeps its value, and `200` in the mid-step run at `θ = 1`: the two stresses differ. -/
theorem finalStress_ne_midStepStress_of_theta_modulus :
    ∃ e₁ e₂,
      executeExact (thetaModulusConfig.initialization ++
        thetaModulusConfig.stressBlock .endOfStep)
        (thetaModulusEnv.stepTo 1 [Ident.elasticStrain]) = .ok e₁ ∧
      executeExact (thetaModulusConfig.initialization ++
        thetaModulusConfig.stressBlock .midStep)
        (thetaModulusEnv.set thetaName (.scalar 1)) = .ok e₂ ∧
      e₁.get? Ident.stress ≠ e₂.get? Ident.stress := by
  have hrep : thetaModulusConfig.representation =
      .lame (.mul (Scalar.num 200) (Scalar.member thetaName)) (Scalar.member "nu") := rfl
  have hprops : ∀ n ∈ (.mul (Scalar.num 200) (Scalar.member thetaName) : Scalar ℝ).names ++
      (Scalar.member "nu" : Scalar ℝ).names, n ∉ scratchNames := by decide
  have hd : ∀ v ∈ thetaModulusConfig.degradation.damage?, v ∉ scratchNames := by
    simp [thetaModulusConfig, Degradation.damage?]
  obtain ⟨hε₁, hε₂⟩ := @Config.strainAt_step thetaModulusConfig [Ident.elasticStrain] thetaModulusEnv
    _ _ (by decide) rfl rfl rfl
  -- at the end of the step `theta` keeps its value `1/2`
  have hθ₁ : (thetaModulusEnv.stepTo 1 [Ident.elasticStrain]).get? thetaName =
      some (.scalar ((1 / 2 : ℚ) : ℝ)) := (Env.get?_stepTo_of_not_mem (by decide)).trans rfl
  have hν₁ : (thetaModulusEnv.stepTo 1 [Ident.elasticStrain]).get? "nu" =
      some (.scalar ((1 / 4 : ℚ) : ℝ)) := (Env.get?_stepTo_of_not_mem (by decide)).trans rfl
  have hθ₂ : (thetaModulusEnv.set thetaName (.scalar 1)).get? thetaName = some (.scalar 1) := by
    simp
  have hν₂ : (thetaModulusEnv.set thetaName (.scalar 1)).get? "nu" =
      some (.scalar ((1 / 4 : ℚ) : ℝ)) := by
    rw [Env.get?_set, if_neg (by decide)]
    rfl
  obtain ⟨e₁, h₁, hσ₁⟩ := Config.run_stressBlock_of_static hrep rfl hprops hd
    (by simp only [Scalar.eval, Scalar.eval_num, Scalar.eval_member hθ₁, except_ok_bind]; rfl)
    (Scalar.eval_member hν₁) hε₁ rfl
  obtain ⟨e₂, h₂, hσ₂⟩ := Config.run_stressBlock_of_static hrep rfl hprops hd
    (by simp only [Scalar.eval, Scalar.eval_num, Scalar.eval_member hθ₂, except_ok_bind]; rfl)
    (Scalar.eval_member hν₂) hε₂ rfl
  refine ⟨e₁, e₂, h₁, h₂, ?_⟩
  rw [hσ₁, hσ₂]
  intro h
  -- the first components are `2 Y` for the two moduli `Y`
  have h0 := congrArg (fun v : Vec6 ℝ => v[0]) (Value.stensor.inj (Option.some.inj h))
  simp [isotropicLaw, Vec6.trace, Vec6.identity, Numeric.Lame.ofYoungPoisson] at h0
  norm_num at h0

/-- A damaged material whose Young modulus is the state variable `p` and whose Poisson ratio
is the material property `nu`, its stress by the isotropic law. -/
def evolvingModulusConfig : Config ℝ where
  representation := .lame (Scalar.member "p") (Scalar.member "nu")
  storage := .fieldDependent
  fieldDependent := true
  stateDependencies := ["p"]
  thermalExpansion := none
  planeStress := false
  genericTangentOperator := true
  genericPredictionOperator := true
  degradation := .isotropic "d" ((99 / 100 : ℚ) : ℝ)
  implicit := true
  evolving := [("p", .stateVariable)]

/-- The state variables `eel`, `p`, `d` with their increments, `nu` and `theta`. -/
noncomputable def evolvingModulusEnv : Env ℝ where
  entries := [("p", .scalar (2 : ℚ)), ("dp", .scalar (1 / 2 : ℚ)), ("nu", .scalar (1 / 4 : ℚ)),
    ("eel", .stensor Vec6.identity),
    ("deel", .stensor (Vec6.scale ((1 / 2 : ℚ) : ℝ) Vec6.identity)),
    ("theta", .scalar (1 / 2 : ℚ)), ("d", .scalar (1 / 10 : ℚ)), ("dd", .scalar (1 / 5 : ℚ))]

/-- With the modulus `p` moving from `2` by `1/2` and the damage from `1/10` by `1/5`, the
end-of-step stress on the updated environment is the mid-step stress at `θ = 1`. -/
theorem finalStress_eq_midStepStress_of_evolving_modulus :
    evolvingModulusConfig.implicit = true ∧
    (evolvingModulusConfig.storage = .constant → evolvingModulusConfig.fieldDependent = false) ∧
    (evolvingModulusConfig.representation = .stiffnessTensor →
      evolvingModulusConfig.storage = .constant) ∧
    evolvingModulusConfig.StepNames ["eel", "p", "d"] ∧
    evolvingModulusConfig.StepBinds evolvingModulusEnv ∧
    ∃ σ e₁ e₂,
      executeExact (evolvingModulusConfig.initialization ++
        evolvingModulusConfig.stressBlock .endOfStep)
        (evolvingModulusEnv.stepTo 1 ["eel", "p", "d"]) = .ok e₁ ∧
      executeExact (evolvingModulusConfig.initialization ++
        evolvingModulusConfig.stressBlock .midStep)
        (evolvingModulusEnv.set thetaName (.scalar 1)) = .ok e₂ ∧
      e₁.get? Ident.stress = some σ ∧ e₂.get? Ident.stress = some σ := by
  have hn : evolvingModulusConfig.StepNames ["eel", "p", "d"] :=
    { evolving_nodup := by decide
      mem_states_iff := by
        intro x k h
        obtain ⟨rfl, rfl⟩ : x = "p" ∧ k = .stateVariable := by
          simpa [evolvingModulusConfig] using h
        decide
      elasticStrain_mem := by decide
      damage_mem := by
        intro v hv
        obtain rfl : v = "d" := by
          simpa [evolvingModulusConfig, Degradation.damage?] using hv.symm
        decide
      increment_not_mem := by decide
      theta_not_mem := by decide
      not_scratch := by decide
      stiffness_not_mem := by
        intro h
        simp [evolvingModulusConfig] at h
      properties := by
        intro y p h
        obtain ⟨rfl, rfl⟩ : Scalar.member "p" = y ∧ Scalar.member "nu" = p := by
          simpa [evolvingModulusConfig] using h
        decide }
  have hb : evolvingModulusConfig.StepBinds evolvingModulusEnv :=
    { elasticStrain := ⟨_, _, rfl, rfl⟩
      damage := by
        intro v hv
        obtain rfl : v = "d" := by
          simpa [evolvingModulusConfig, Degradation.damage?] using hv.symm
        exact ⟨_, _, rfl, rfl⟩
      evolving := by
        intro x hx
        obtain rfl : x = "p" := by simpa [Config.evolvingNames, evolvingModulusConfig] using hx
        exact ⟨_, _, rfl, rfl⟩
      properties := by
        intro y p h
        obtain ⟨rfl, rfl⟩ : Scalar.member "p" = y ∧ Scalar.member "nu" = p := by
          simpa [evolvingModulusConfig] using h
        exact ⟨⟨_, Scalar.eval_member (Env.get?_stepTo_of_scalar (by decide) rfl rfl)⟩,
          ⟨_, Scalar.eval_member
            ((Env.get?_stepTo_of_not_mem (by decide)).trans rfl)⟩⟩
      stiffness := by
        intro h
        simp [evolvingModulusConfig] at h }
  have hsc : evolvingModulusConfig.storage = .constant →
      evolvingModulusConfig.fieldDependent = false := by
    intro h
    simp [evolvingModulusConfig] at h
  have hst : evolvingModulusConfig.representation = .stiffnessTensor →
      evolvingModulusConfig.storage = .constant := by
    intro h
    simp [evolvingModulusConfig] at h
  exact ⟨rfl, hsc, hst, hn, hb,
    Config.finalStress_eq_midStepStress_at_unit_theta rfl hsc hst hn hb⟩

/-- A material whose Young modulus `a T` reads the state variable `a` and the temperature. -/
def stateTemperatureConfig : Config ℝ where
  representation := .lame (.mul (Scalar.member "a") (Scalar.member "T")) (Scalar.member "nu")
  storage := .fieldDependent
  fieldDependent := true
  stateDependencies := ["a"]
  thermalExpansion := none
  planeStress := false
  genericTangentOperator := true
  genericPredictionOperator := true
  degradation := .none
  implicit := true
  evolving := [("T", .externalStateVariable), ("a", .stateVariable)]

/-- `a = 1` moving by `2`, `T = 3` moving by `4`, at `θ = 1/2`. -/
noncomputable def stateTemperatureEnv : Env ℝ where
  entries := [("a", .scalar (1 : ℚ)), ("da", .scalar (2 : ℚ)), ("T", .scalar (3 : ℚ)),
    ("dT", .scalar (4 : ℚ)), ("theta", .scalar (1 / 2 : ℚ))]

/-- With `a` and `T` both moving, the modulus `a T` is `2 · 5` at mid step, both taken at the
point `θ = 1/2` of the step, `1 · 7` at the end of the step, only `T` moved, and `a T` at its
beginning. -/
theorem eval_atStage_stateTemperature :
    (stateTemperatureConfig.atStage (.mul (Scalar.member "a") (Scalar.member "T")) .midStep).eval
        stateTemperatureEnv = .ok (2 * 5) ∧
      (stateTemperatureConfig.atStage (.mul (Scalar.member "a") (Scalar.member "T"))
        .endOfStep).eval stateTemperatureEnv = .ok (1 * 7) ∧
      stateTemperatureConfig.atStage (.mul (Scalar.member "a") (Scalar.member "T"))
        .beginningOfStep = .mul (Scalar.member "a") (Scalar.member "T") := by
  have hnames : stateTemperatureConfig.evolvingNames = ["T", "a"] := rfl
  have hext : stateTemperatureConfig.externalNames = ["T"] := rfl
  have hw : stateTemperatureConfig.weight.eval stateTemperatureEnv = .ok ((1 / 2 : ℚ) : ℝ) := by
    rw [Config.weight, if_pos (show stateTemperatureConfig.implicit = true from rfl)]
    exact Scalar.eval_member rfl
  have hb : ∀ x ∈ stateTemperatureConfig.evolvingNames, ∃ a da,
      stateTemperatureEnv.get? x = some (.scalar a) ∧
        stateTemperatureEnv.get? (increment x) = some (.scalar da) := by
    rw [hnames]
    intro x hx
    rcases List.mem_pair.mp hx with rfl | rfl <;> exact ⟨_, _, rfl, rfl⟩
  have h := Config.eval_atStage_of_apart hw (by rw [hnames]; decide) (by rw [hnames]; decide)
    (by rw [hnames]; decide) hb (.mul (Scalar.member "a") (Scalar.member "T"))
  -- the moved environments bind `a` and `T` to `1 + 1/2 · 2`, `3 + 1/2 · 4`, and `1`, `3 + 1 · 4`
  have ha : (stateTemperatureEnv.stepTo ((1 / 2 : ℚ) : ℝ) ["T", "a"]).get? "a" =
      some (.scalar (((1 : ℚ) : ℝ) + ((1 / 2 : ℚ) : ℝ) * ((2 : ℚ) : ℝ))) :=
    Env.get?_stepTo_of_scalar (by decide) rfl rfl
  have hT : (stateTemperatureEnv.stepTo ((1 / 2 : ℚ) : ℝ) ["T", "a"]).get? "T" =
      some (.scalar (((3 : ℚ) : ℝ) + ((1 / 2 : ℚ) : ℝ) * ((4 : ℚ) : ℝ))) :=
    Env.get?_stepTo_of_scalar (by decide) rfl rfl
  have ha₁ : (stateTemperatureEnv.stepTo 1 ["T"]).get? "a" = some (.scalar ((1 : ℚ) : ℝ)) :=
    (Env.get?_stepTo_of_not_mem (by decide)).trans rfl
  have hT₁ : (stateTemperatureEnv.stepTo 1 ["T"]).get? "T" =
      some (.scalar (((3 : ℚ) : ℝ) + 1 * ((4 : ℚ) : ℝ))) :=
    Env.get?_stepTo_of_scalar (by decide) rfl rfl
  have hmid := (h (2 * 5)).1 (by
    rw [hnames]
    simp only [Scalar.eval, Scalar.eval_member ha, Scalar.eval_member hT, except_ok_bind]
    norm_num)
  have hend := (h (1 * 7)).2.1 (by
    rw [hext]
    simp only [Scalar.eval, Scalar.eval_member ha₁, Scalar.eval_member hT₁, except_ok_bind]
    norm_num)
  exact ⟨hmid, hend, (h 0).2.2⟩

end Elasto.Brick
