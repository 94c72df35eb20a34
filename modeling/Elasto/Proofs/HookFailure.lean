import Mathlib
import Elasto.Proofs.Hooks

/-! # Hooks that fail

A hook that fails has written no code and completed nothing: the description and the brick
are those it started from. The local data structure is another matter. It has no way to take
an entry back, and the isotropic stress registers its scratch variables one after the other,
the degradation factor first and then the end-of-step Lamé coefficients. When one of these
is registered already, the hook fails and leaves behind those it registered before; as
these are then registered too, a second call fails on the first of them. The other hooks
never touch the local data.

Main statement: `failed_hook_keeps_code_and_brick`, with `isotropic_stress_failure_leaves_factor`
for the entry a failing isotropic stress leaves behind.
-/

namespace Elasto.Brick

open Elasto.Behaviour

/-- The local data a hook registers: the scratch variables of the isotropic stress. -/
def Hook.localNames : Hook → List String
  | .isotropicStress => [Ident.degradationFactor, Ident.lambdaEndOfStep, Ident.muEndOfStep]
  | _ => []

/-- Work that only appends to the local data, entries named in `ns`. -/
def Build.Registers {α : Type} (ns : List String) (m : Build α) : Prop :=
  ∀ w, ∃ added, ((m.run w).2).lds.entries = w.lds.entries ++ added ∧ ∀ p ∈ added, p.2 ∈ ns

namespace Build.Registers

variable {α β : Type} {ns : List String}

theorem bind {m : Build α} {k : α → Build β} (hm : m.Registers ns)
    (hk : ∀ a, (k a).Registers ns) : (m >>= k).Registers ns := by
  intro w
  rw [Build.run_bind]
  obtain ⟨added, hadd, hns⟩ := hm w
  rcases hr : m.run w with ⟨_ | a, w₁⟩
  · rw [hr] at hadd
    exact ⟨added, hadd, hns⟩
  · rw [hr] at hadd
    obtain ⟨added', hadd', hns'⟩ := hk a w₁
    refine ⟨added ++ added', by rw [hadd', hadd, List.append_assoc], fun p hp => ?_⟩
    rcases List.mem_append.mp hp with hp | hp
    exacts [hns p hp, hns' p hp]

theorem of_lds {m : Build α} (hm : ∀ w, ((m.run w).2).lds = w.lds) : m.Registers ns :=
  fun w => ⟨[], by simp [hm w], by simp⟩

theorem pure (a : α) : (Pure.pure a : Build α).Registers ns := of_lds fun _ => rfl

theorem fail (e : BrickError) : (throw e : Build α).Registers ns := of_lds fun _ => rfl

theorem enter (h : Hook) : (Build.enter h).Registers ns := by
  refine of_lds fun w => ?_
  rcases hk : w.brick.tracker.checkHook h with e | _
  · rw [run_enter_of_error hk]
  · simp [Build.enter, Build.run_bind, hk]
    cases w.brick.getConfig <;> rfl

theorem appendBlock (kind : Code.BlockKind) (b : Code.Block) :
    (Build.appendBlock kind b).Registers ns := of_lds fun _ => rfl

theorem edit (f : Description → Except BrickError Description) : (Build.edit f).Registers ns := by
  refine of_lds fun w => ?_
  rw [Build.run_edit]
  cases f w.description <;> rfl

theorem complete (h : Hook) (p : Option StressPath) : (Build.complete h p).Registers ns :=
  of_lds fun _ => rfl

theorem addLocal (t : VarType) {n : String} (hn : n ∈ ns) : (Build.addLocal t n).Registers ns := by
  intro w
  rcases Build.run_addLocal t n w with ⟨l, hl⟩ | ⟨e, he⟩
  · have hrun : (Build.addLocal t n).run w =
        (ofExcept (liftBehaviour (w.lds.add t n)) >>= fun l => set { w with lds := l }).run w := rfl
    rw [hrun, run_bind, run_ofExcept] at hl ⊢
    cases hadd : liftBehaviour (w.lds.add t n) with
    | error e => simp [hadd] at hl
    | ok l' =>
      obtain ⟨-, rfl⟩ := LocalData.add_eq_ok_iff.mp (liftBehaviour_eq_ok.mp hadd)
      exact ⟨[(t, n)], rfl, by simpa using hn⟩
  · rw [he]
    exact ⟨[], by simp, by simp⟩

end Build.Registers

open Build.Registers in
/-- A hook registers no local data but the scratch variables of its own. -/
theorem Hook.registers_work (h : Hook) : h.work.Registers h.localNames := by
  cases h <;>
    refine bind (enter _) fun ⟨b, c⟩ => ?_ <;>
    dsimp only <;>
    repeat' first
      | with_reducible refine bind ?_ fun _ => ?_
      | with_reducible exact pure _
      | with_reducible exact fail _
      | with_reducible exact appendBlock _ _
      | with_reducible exact edit _
      | with_reducible exact complete _ _
      | with_reducible exact addLocal _ (by simp [Hook.localNames])
      | split

namespace Hook

variable {h : Hook} {w : Workbench} {e : BrickError}

theorem run_work_of_enter_error (he : (Build.enter h).run w = (.error e, w)) :
    h.work.run w = (.error e, w) := by
  cases h with
  | elasticPrediction => rw [work, declareElasticPrediction, Build.run_bind, he]
  | stressWithStiffnessTensor => rw [work, declareStressWithStiffnessTensor, Build.run_bind, he]
  | isotropicStress => rw [work, declareIsotropicStress, Build.run_bind, he]
  | tangentOperator => rw [work, addTangentOperatorSupport, Build.run_bind, he]
  | predictionOperator => rw [work, addPredictionOperatorSupport, Build.run_bind, he]

theorem run_enter_of_config_none (hk : w.brick.tracker.checkHook h = .ok ())
    (hc : w.brick.config = none) :
    (Build.enter h).run w = (.error (.state "brick is not initialized"), w) := by
  simp [Build.enter, Build.run_bind, hk, getConfig, hc]
  rfl

/-- A failed hook leaves the description and the brick as it found them. -/
theorem code_and_brick_of_failed (hf : (h.work.run w).1 = .error e) :
    (h.work.run w).2.description = w.description ∧ (h.work.run w).2.brick = w.brick := by
  rcases hk : w.brick.tracker.checkHook h with e' | _
  · rw [run_work_of_checkHook_error hk]
    exact ⟨rfl, rfl⟩
  cases hc : w.brick.config with
  | none =>
    rw [run_work_of_enter_error (run_enter_of_config_none hk hc)]
    exact ⟨rfl, rfl⟩
  | some c =>
    have ho := outcome_work hk hc
    generalize h.work.run w = r at ho hf ⊢
    cases ho with
    | failed e l => exact ⟨rfl, rfl⟩
    | completed => cases hf

end Hook

/-- A hook that fails has written no code and completed nothing, so the description and the
brick are those it started from; the local data only gain scratch variables of the hook,
and only the isotropic stress has any. -/
theorem failed_hook_keeps_code_and_brick (h : Hook) (w : Workbench) {e : BrickError}
    (hf : (h.work.run w).1 = .error e) :
    (h.work.run w).2.description = w.description ∧ (h.work.run w).2.brick = w.brick ∧
      ∃ added, (h.work.run w).2.lds.entries = w.lds.entries ++ added ∧
        ∀ p ∈ added, p.2 ∈ h.localNames :=
  ⟨(Hook.code_and_brick_of_failed hf).1, (Hook.code_and_brick_of_failed hf).2,
    Hook.registers_work h w⟩

/-- A damaged law with evolving elastic properties: its isotropic stress registers the
degradation factor and the end-of-step Lamé coefficients. -/
def evolvingDamagedConfig : Config where
  representation := .lame (Tensor.Scalar.member "E") (Tensor.Scalar.member "nu")
  storage := .fieldDependent
  fieldDependent := true
  stateDependencies := []
  thermalExpansion := none
  planeStress := false
  genericTangentOperator := true
  genericPredictionOperator := true
  degradation := .isotropic "d" 0.99
  implicit := true
  evolving := [("E", .externalStateVariable)]

/-- An initialized damaged brick whose local data hold `lambda_ets` already. -/
def endOfStepTakenBench : Workbench where
  description := Description.new "B" .implicit
  lds := ⟨[(.stress, Ident.lambdaEndOfStep)]⟩
  brick := ⟨.isotropicDamageHooke, ⟨true, []⟩, some evolvingDamagedConfig, none⟩

/-- With `lambda_ets` registered already, the isotropic stress of a damaged law fails on it
and leaves the degradation factor it registered just before. -/
theorem isotropic_stress_failure_leaves_factor :
    let w := endOfStepTakenBench
    (Hook.isotropicStress.work.run w).1 =
        .error (.behaviour (.duplicateLocalVariable Ident.lambdaEndOfStep)) ∧
      (Hook.isotropicStress.work.run w).2.lds.entries =
        w.lds.entries ++ [(.real, Ident.degradationFactor)] ∧
      (Hook.isotropicStress.work.run w).2.description = w.description ∧
      (Hook.isotropicStress.work.run w).2.brick = w.brick ∧
      ∃ added, (Hook.isotropicStress.work.run w).2.lds.entries = w.lds.entries ++ added ∧
        ∀ p ∈ added, p.2 ∈ Hook.isotropicStress.localNames := by
  intro w
  have hf : (Hook.isotropicStress.work.run w).1 =
      .error (.behaviour (.duplicateLocalVariable Ident.lambdaEndOfStep)) := rfl
  exact ⟨hf, rfl, failed_hook_keeps_code_and_brick _ _ hf⟩

end Elasto.Brick
