import Mathlib
import Elasto.Brick.Hooks
import Elasto.Proofs.Workbench

/-! # What a hook does

A hook first asks the tracker whether it may run: the brick must be initialized and the hook
not yet completed, or the hook is refused with a state error and the workbench untouched.
A hook that may run either fails before it writes any code, with the description and the
brick as they were, or completes: it appends blocks of its own kinds, in order, and the
tracker records it. `finalize` runs four hooks one after the other, so what it does is what
they do, up to the first that fails.
-/

namespace Elasto.Brick

open Elasto.Behaviour Elasto.Code

/-- The work of each hook. -/
def Hook.work : Hook → Build Unit
  | .elasticPrediction => declareElasticPrediction
  | .stressWithStiffnessTensor => declareStressWithStiffnessTensor
  | .isotropicStress => declareIsotropicStress
  | .tangentOperator => addTangentOperatorSupport
  | .predictionOperator => addPredictionOperatorSupport

/-- The kinds of block a hook may append, in the order it appends them. -/
def Hook.blockKinds : Hook → List BlockKind
  | .elasticPrediction => [.computeElasticPrediction]
  | .stressWithStiffnessTensor => [.initializeLocalVariables, .computeStress, .computeFinalStress]
  | .isotropicStress => [.computeStress, .computeFinalStress]
  | .tangentOperator => [.tangentOperator]
  | .predictionOperator => [.predictionOperator]

namespace Build

theorem run_enter_of_error {h : Hook} {w : Workbench} {e : BrickError}
    (he : w.brick.tracker.checkHook h = .error e) : (enter h).run w = (.error e, w) := by
  simp [enter, run_bind, he]

theorem run_enter_of_ok {h : Hook} {w : Workbench} {c : Config}
    (hk : w.brick.tracker.checkHook h = .ok ()) (hc : w.brick.config = some c) :
    (enter h).run w = (.ok (w.brick, c), w) := by
  simp [enter, run_bind, hk, getConfig, hc]
  rfl

@[simp] theorem run_complete (h : Hook) (p : Option StressPath) (w : Workbench) :
    (complete h p).run w = (.ok (), { w with
      brick.tracker := w.brick.tracker.complete h
      brick.stressPath := if p.isSome then p else w.brick.stressPath }) := rfl

theorem run_addLocal (t : VarType) (n : String) (w : Workbench) :
    (∃ l, (addLocal t n).run w = (.ok (), { w with lds := l })) ∨
      ∃ e, (addLocal t n).run w = (.error e, w) := by
  have hrun : (addLocal t n).run w =
      (ofExcept (liftBehaviour (w.lds.add t n)) >>= fun l => set { w with lds := l }).run w := rfl
  rw [hrun, run_bind, run_ofExcept]
  cases liftBehaviour (w.lds.add t n) with
  | error e => exact .inr ⟨e, rfl⟩
  | ok l => exact .inl ⟨l, rfl⟩

end Build

/-- What a hook that may run does to a workbench: it fails with the description and the brick
as they were, or it completes, appending blocks of its own kinds in order. -/
inductive Hook.Outcome (h : Hook) (w : Workbench) : Except BrickError Unit × Workbench → Prop
  | failed (e : BrickError) (l : LocalData) : Outcome h w (.error e, { w with lds := l })
  | completed (d : Description) (l : LocalData) (p : Option StressPath)
      (bs : List (BlockKind × Block)) (hd : d.blocks = w.description.blocks ++ bs)
      (hk : (bs.map Prod.fst).Sublist h.blockKinds) :
      Outcome h w (.ok (), { description := d, lds := l, brick :=
        { w.brick with tracker := w.brick.tracker.complete h, stressPath := p } })

theorem blocks_of_declareIfAbsent {d d' : Description} {c : Category} {v : Variable}
    (h : declareIfAbsent d c v = .ok d') : d'.blocks = d.blocks := by
  unfold declareIfAbsent at h
  split at h
  · split at h
    · cases h
      rfl
    · exact (Description.frame_of_declare (liftBehaviour_eq_ok.mp h)).blocks_eq
  · exact (Description.frame_of_declare (liftBehaviour_eq_ok.mp h)).blocks_eq

namespace Hook.Outcome

variable {h : Hook} {w : Workbench} {r : Except BrickError Unit × Workbench}

theorem of_lds {l : LocalData} (ho : Outcome h { w with lds := l } r) : Outcome h w r := by
  cases ho with
  | failed e l' => exact .failed e l'
  | completed d l' p bs hd hk => exact .completed d l' p bs hd hk

theorem addLocal {t : VarType} {n : String} {k : Build Unit}
    (hk : ∀ l, Outcome h { w with lds := l } (k.run { w with lds := l })) :
    Outcome h w ((Build.addLocal t n >>= fun _ => k).run w) := by
  rw [Build.run_bind]
  rcases Build.run_addLocal t n w with ⟨l, hl⟩ | ⟨e, he⟩
  · rw [hl]
    exact of_lds (hk l)
  · rw [he]
    exact .failed e w.lds

end Hook.Outcome

section

variable {w : Workbench} {c : Config}

theorem outcome_elasticPrediction (hk : w.brick.tracker.checkHook .elasticPrediction = .ok ())
    (hc : w.brick.config = some c) :
    Hook.Outcome .elasticPrediction w (declareElasticPrediction.run w) := by
  unfold declareElasticPrediction
  rw [Build.run_bind, Build.run_enter_of_ok hk hc]
  dsimp only
  simp only [Build.run_bind, Build.run_appendBlock, Build.run_complete]
  exact .completed _ _ _ _ rfl (by simp [Hook.blockKinds])

theorem outcome_stressWithStiffnessTensor
    (hk : w.brick.tracker.checkHook .stressWithStiffnessTensor = .ok ())
    (hc : w.brick.config = some c) :
    Hook.Outcome .stressWithStiffnessTensor w (declareStressWithStiffnessTensor.run w) := by
  unfold declareStressWithStiffnessTensor
  rw [Build.run_bind, Build.run_enter_of_ok hk hc]
  dsimp only
  by_cases hs : (c.storage != .constant) = true
  · simp only [hs, if_true, Build.run_bind, Build.run_throw]
    exact .failed _ w.lds
  simp only [hs, Bool.false_eq_true, if_false]
  by_cases hl : c.representation.isLame = true
  · -- Lamé coefficients: the stiffness tensor is declared and computed once
    simp only [hl, if_true, Build.run_bind, Build.run_edit]
    rcases hd : declareIfAbsent w.description .localVariable
      { type := .stiffnessTensor, name := Ident.stiffness,
        description := "stiffness tensor computed once" } with e | d
    · exact .failed _ w.lds
    · simp only [Build.run_appendBlock, Build.run_complete]
      exact .completed _ _ _ _
        (by
          simp only [Description.appendBlock, blocks_of_declareIfAbsent hd, List.append_assoc]
          rfl)
        (by simp [Hook.blockKinds])
  · simp only [hl, Bool.false_eq_true, if_false, Build.run_bind, Build.run_appendBlock,
      Build.run_complete]
    exact .completed _ _ _ _ (by simp only [Description.appendBlock, List.append_assoc]; rfl)
      (by simp [Hook.blockKinds])

theorem outcome_isotropicStress (hk : w.brick.tracker.checkHook .isotropicStress = .ok ())
    (hc : w.brick.config = some c) :
    Hook.Outcome .isotropicStress w (declareIsotropicStress.run w) := by
  unfold declareIsotropicStress
  rw [Build.run_bind, Build.run_enter_of_ok hk hc]
  dsimp only
  split
  · -- the local data come first, then the two stress blocks
    split_ifs <;> repeat' refine Hook.Outcome.addLocal fun l => ?_
    all_goals
      simp only [Build.run_bind, Build.run_appendBlock, Build.run_complete]
      exact .completed _ _ _ _ (by simp only [Description.appendBlock, List.append_assoc]; rfl)
        (by simp [Hook.blockKinds])
  · -- refused without the Lamé coefficients
    simp only [Build.run_throw]
    exact .failed _ w.lds

theorem outcome_tangentOperator (hk : w.brick.tracker.checkHook .tangentOperator = .ok ())
    (hc : w.brick.config = some c) :
    Hook.Outcome .tangentOperator w (addTangentOperatorSupport.run w) := by
  unfold addTangentOperatorSupport
  rw [Build.run_bind, Build.run_enter_of_ok hk hc]
  dsimp only
  split
  · -- no generic tangent operator: the hook completes without code
    simp only [Build.run_bind, Build.run_complete, Build.run_pure]
    exact .completed _ _ _ [] (List.append_nil _).symm (by simp)
  · -- the stiffness of the operator, then its block; only a field dependent stiffness before
    repeat' split
    all_goals
      simp only [Build.run_bind, Build.run_pure, Build.run_throw, Build.run_appendBlock,
        Build.run_complete]
      first
        | exact .failed _ w.lds
        | exact .completed _ _ _ _ rfl (by simp [Hook.blockKinds])

theorem outcome_predictionOperator (hk : w.brick.tracker.checkHook .predictionOperator = .ok ())
    (hc : w.brick.config = some c) :
    Hook.Outcome .predictionOperator w (addPredictionOperatorSupport.run w) := by
  unfold addPredictionOperatorSupport
  rw [Build.run_bind, Build.run_enter_of_ok hk hc]
  dsimp only
  split
  · -- no generic prediction operator: the hook completes without code
    simp only [Build.run_bind, Build.run_complete, Build.run_pure]
    exact .completed _ _ _ [] (List.append_nil _).symm (by simp)
  · simp only [Build.run_bind, Build.run_appendBlock, Build.run_complete]
    exact .completed _ _ _ _ rfl (by simp [Hook.blockKinds])

end

namespace Hook

variable {h : Hook} {w : Workbench}

theorem run_work_of_checkHook_error {e : BrickError} (he : w.brick.tracker.checkHook h = .error e) :
    h.work.run w = (.error e, w) := by
  cases h with
  | elasticPrediction =>
    rw [work, declareElasticPrediction, Build.run_bind, Build.run_enter_of_error he]
  | stressWithStiffnessTensor =>
    rw [work, declareStressWithStiffnessTensor, Build.run_bind, Build.run_enter_of_error he]
  | isotropicStress =>
    rw [work, declareIsotropicStress, Build.run_bind, Build.run_enter_of_error he]
  | tangentOperator =>
    rw [work, addTangentOperatorSupport, Build.run_bind, Build.run_enter_of_error he]
  | predictionOperator =>
    rw [work, addPredictionOperatorSupport, Build.run_bind, Build.run_enter_of_error he]

/-- A hook the tracker lets run fails before it writes code, or completes with blocks of its
own kinds. -/
theorem outcome_work {c : Config} (hk : w.brick.tracker.checkHook h = .ok ())
    (hc : w.brick.config = some c) : Outcome h w (h.work.run w) := by
  cases h with
  | elasticPrediction => exact outcome_elasticPrediction hk hc
  | stressWithStiffnessTensor => exact outcome_stressWithStiffnessTensor hk hc
  | isotropicStress => exact outcome_isotropicStress hk hc
  | tangentOperator => exact outcome_tangentOperator hk hc
  | predictionOperator => exact outcome_predictionOperator hk hc

end Hook

end Elasto.Brick
