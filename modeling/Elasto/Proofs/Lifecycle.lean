import Mathlib
import Elasto.Brick.Jacobian
import Elasto.Proofs.Hooks
import Elasto.Proofs.Initialize

/-! # The life of a brick

A brick answers six calls: initialization, three queries and the hooks, one at a time or all
through `finalize`. Each call is given a description and local data of its own, and the brick
as the call before left it. The brick keeps three facts through any such run (`Lifecycle`): it
has a configuration exactly when it is initialized, no hook is completed before
initialization, and no hook is completed twice. From these:

* initialization succeeds at most once, and the brick is configured from then on;
* before it, every query and every hook is refused with a state error;
* each hook returns Ok at most once, counting the runs `finalize` makes of it (`HookRun`,
  `Call.hookTrace`), and every later run of it, by a call of its own or inside `finalize`, is
  refused with a state error and changes neither the description nor the local data;
* every block of a kind that only hooks write is paid for by a completed hook, so the brick
  writes at most one elastic prediction, one tangent operator and one prediction operator,
  and at most one pair of stress blocks for each of the two stress hooks.
-/

namespace Elasto.Code

/-- The kinds of block only hooks write; initialization writes the others. -/
def BlockKind.ofHooks : BlockKind → Bool
  | .computeElasticPrediction | .computeStress | .computeFinalStress | .predictionOperator
  | .tangentOperator => true
  | .initializeLocalVariables | .integrator | .updateAuxiliaryStateVariables => false

end Elasto.Code

namespace Elasto.Brick

open Elasto.Behaviour Elasto.Code

/-- The calls a brick answers. -/
inductive Call where
  | configure (data : DataMap)
  | stiffnessStorage
  | stressDerivatives
  | equationDerivatives (equation target placeholder : String) (mode : JacobianMode)
  | hook (h : Hook)
  | finalize

/-- What a call does on a workbench: whether it succeeds, and the workbench it leaves. A query
reads the brick and the description and leaves both as they were. -/
def Call.run (w : Workbench) : Call → Except BrickError Unit × Workbench
  | .configure data => (Brick.configure data).run w
  | .stiffnessStorage => (w.brick.storage.map fun _ => (), w)
  | .stressDerivatives => ((w.brick.stressDerivatives w.description).map fun _ => (), w)
  | .equationDerivatives e t p m =>
    ((w.brick.equationDerivatives w.description e t p m).map fun _ => (), w)
  | .hook h => h.work.run w
  | .finalize => Brick.finalize.run w

/-- How many blocks of kind `k` the hooks a tracker has completed may write. -/
def Tracker.allowance (t : Tracker) (k : BlockKind) : Nat :=
  (t.completed.map fun h => h.blockKinds.count k).sum

/-- What a brick keeps through its life. -/
structure Lifecycle (b : Brick) : Prop where
  configured : b.config.isSome = b.tracker.initialized
  fresh : b.tracker.initialized = false → b.tracker.completed = []
  nodup : b.tracker.completed.Nodup

theorem Lifecycle.new (p : Potential) : Lifecycle (Brick.new p) :=
  ⟨rfl, fun _ => rfl, List.nodup_nil⟩

/-- The code `w'` holds beyond `w` is paid for by the hooks completed in between: the tracker
only records more hooks, and each block of a kind only hooks write is one its hook may write. -/
structure Paid (w w' : Workbench) : Prop where
  completed : w.brick.tracker.completed <+: w'.brick.tracker.completed
  blocks : ∃ bs, w'.description.blocks = w.description.blocks ++ bs ∧
    ∀ k, k.ofHooks = true →
      (bs.map Prod.fst).count k + w.brick.tracker.allowance k ≤ w'.brick.tracker.allowance k

namespace Paid

variable {w w₁ w₂ : Workbench}

theorem refl (w : Workbench) : Paid w w :=
  ⟨List.prefix_refl _, [], by simp, fun _ _ => by simp⟩

theorem trans (h₁ : Paid w w₁) (h₂ : Paid w₁ w₂) : Paid w w₂ := by
  obtain ⟨bs₁, hb₁, hk₁⟩ := h₁.blocks
  obtain ⟨bs₂, hb₂, hk₂⟩ := h₂.blocks
  refine ⟨h₁.completed.trans h₂.completed, bs₁ ++ bs₂, by rw [hb₂, hb₁, List.append_assoc], ?_⟩
  intro k hk
  have := hk₁ k hk
  have := hk₂ k hk
  simp only [List.map_append, List.count_append]
  omega

end Paid

namespace Tracker

variable {t : Tracker} {h : Hook}

theorem checkHook_of_not_initialized (hi : t.initialized = false) :
    t.checkHook h = .error (.state (h.name ++ " called before initialize")) := by
  simp [checkHook, requireInitialized, hi, bind, Except.bind]

theorem checkHook_of_mem (hi : t.initialized = true) (hm : h ∈ t.completed) :
    t.checkHook h = .error (.state (h.name ++ " called twice")) := by
  simp [checkHook, requireInitialized, hi, hm, bind, Except.bind, throw, throwThe,
    MonadExceptOf.throw]

theorem completed_complete_of_not_mem (hn : h ∉ t.completed) :
    (t.complete h).completed = t.completed ++ [h] := by
  simp [complete, hn]

theorem completed_prefix_complete (t : Tracker) (h : Hook) :
    t.completed <+: (t.complete h).completed := by
  unfold complete
  split
  · exact List.prefix_refl _
  · exact List.prefix_append _ _

theorem allowance_complete (hn : h ∉ t.completed) (k : BlockKind) :
    (t.complete h).allowance k = t.allowance k + h.blockKinds.count k := by
  simp [allowance, completed_complete_of_not_mem hn]

end Tracker

/-- Work done on an initialized brick, or refused: the brick keeps its life, its
configuration and its initialization, and every block written is paid for. -/
structure Kept (w w' : Workbench) : Prop where
  lifecycle : Lifecycle w'.brick
  config : w'.brick.config = w.brick.config
  initialized : w'.brick.tracker.initialized = w.brick.tracker.initialized
  paid : Paid w w'

namespace Kept

variable {w w₁ w₂ : Workbench}

theorem refl (hl : Lifecycle w.brick) : Kept w w :=
  ⟨hl, rfl, rfl, Paid.refl w⟩

theorem trans (h₁ : Kept w w₁) (h₂ : Kept w₁ w₂) : Kept w w₂ :=
  ⟨h₂.lifecycle, h₂.config.trans h₁.config, h₂.initialized.trans h₁.initialized,
    h₁.paid.trans h₂.paid⟩

theorem of_lds (hl : Lifecycle w.brick) (l : LocalData) : Kept w { w with lds := l } :=
  ⟨hl, rfl, rfl, List.prefix_refl _, [], by simp, fun _ _ => by simp⟩

end Kept

/-- Work that keeps the brick's life from any workbench whose brick is in it. -/
def Build.Keeps {α : Type} (m : Build α) : Prop :=
  ∀ w, Lifecycle w.brick → Kept w (m.run w).2

namespace Build.Keeps

variable {α β : Type}

theorem bind {m : Build α} {k : α → Build β} (hm : m.Keeps) (hk : ∀ a, (k a).Keeps) :
    (m >>= k).Keeps := by
  intro w hl
  rw [Build.run_bind]
  have h₁ := hm w hl
  rcases hr : m.run w with ⟨_ | a, w₁⟩
  · rw [hr] at h₁
    exact h₁
  · rw [hr] at h₁
    exact h₁.trans (hk a w₁ h₁.lifecycle)

theorem of_read {m : Build α} (hm : ∀ w, (m.run w).2 = w) : m.Keeps := fun w hl => by
  rw [hm w]
  exact Kept.refl hl

theorem pure (a : α) : (Pure.pure a : Build α).Keeps := of_read fun _ => rfl

theorem brick : Build.brick.Keeps := of_read fun _ => rfl

theorem ofExcept (x : Except BrickError α) : (Build.ofExcept x).Keeps :=
  of_read fun w => by rw [Build.run_ofExcept]

end Build.Keeps

/-- A hook keeps the brick's life: refused, it changes nothing; let run, it fails with the
brick as it was, or it completes and its completion pays for the blocks it wrote. -/
theorem Hook.keeps_work (h : Hook) : h.work.Keeps := by
  intro w hl
  rcases hk : w.brick.tracker.checkHook h with e | _
  · rw [run_work_of_checkHook_error hk]
    exact Kept.refl hl
  obtain ⟨hi, hn⟩ := Tracker.checkHook_eq_ok_iff.mp hk
  obtain ⟨c, hc⟩ := Option.isSome_iff_exists.mp (hl.configured.trans hi)
  have ho := outcome_work hk hc
  generalize h.work.run w = r at ho ⊢
  cases ho with
  | failed e l => exact Kept.of_lds hl l
  | completed d l p bs hd hks =>
    have hcomp := Tracker.completed_complete_of_not_mem hn
    refine ⟨⟨?_, ?_, ?_⟩, rfl, Tracker.complete_initialized _ _, ?_⟩
    · rw [Tracker.complete_initialized]
      exact hl.configured
    · -- the brick is initialized, so nothing is asked of an uninitialized one
      rw [Tracker.complete_initialized, hi]
      nofun
    · rw [hcomp]
      exact hl.nodup.append (List.nodup_singleton h) (by simpa using hn)
    · refine ⟨Tracker.completed_prefix_complete _ _, bs, hd, fun k _ => ?_⟩
      rw [Tracker.allowance_complete hn]
      have := hks.count_le k
      omega

theorem keeps_finalize : finalize.Keeps := by
  unfold finalize
  refine Build.Keeps.bind (Hook.keeps_work .elasticPrediction) fun _ => ?_
  refine Build.Keeps.bind Build.Keeps.brick fun b => ?_
  refine Build.Keeps.bind (Build.Keeps.ofExcept _) fun s => ?_
  have tail : (addTangentOperatorSupport >>= fun _ => addPredictionOperatorSupport).Keeps :=
    .bind (Hook.keeps_work .tangentOperator) fun _ => Hook.keeps_work .predictionOperator
  cases s with
  | constant => exact .bind (Hook.keeps_work .stressWithStiffnessTensor) fun _ => tail
  | fieldDependent => exact .bind (Hook.keeps_work .isotropicStress) fun _ => tail

/-- The stress hook `finalize` runs for a storage. -/
def Storage.stressHook : Storage → Hook
  | .constant => .stressWithStiffnessTensor
  | .fieldDependent => .isotropicStress

/-- One run of a hook: the hook, the workbench it was given, what it returned and the workbench
it left. -/
structure HookRun where
  hook : Hook
  before : Workbench
  outcome : Except BrickError Unit
  after : Workbench

def HookRun.of (h : Hook) (w : Workbench) : HookRun :=
  ⟨h, w, (h.work.run w).1, (h.work.run w).2⟩

theorem Build.run_bind_pure (m : Build Unit) (w : Workbench) :
    (m >>= fun _ => pure ()).run w = m.run w := by
  rw [Build.run_bind]
  rcases m.run w with ⟨_ | _, _⟩ <;> rfl

namespace Hook

/-- Hooks run one after the other, up to the first that fails. -/
def chain : List Hook → Build Unit
  | [] => pure ()
  | h :: hs => h.work >>= fun _ => chain hs

/-- The runs of the hooks of `chain hs` from `w`. -/
def runs : List Hook → Workbench → List HookRun
  | [], _ => []
  | h :: hs, w => HookRun.of h w :: match (h.work.run w).1 with
    | .ok () => runs hs (h.work.run w).2
    | .error _ => []

variable {h : Hook} {w : Workbench}

theorem runs_singleton (h : Hook) (w : Workbench) : runs [h] w = [HookRun.of h w] := by
  simp only [runs]
  split <;> rfl

theorem keeps_chain (hs : List Hook) : (chain hs).Keeps := by
  induction hs with
  | nil => exact Build.Keeps.pure ()
  | cons h hs ih => exact .bind (keeps_work h) fun _ => ih

theorem mem_completed_of_run (hl : Lifecycle w.brick) (hr : (h.work.run w).1 = .ok ()) :
    h ∈ (h.work.run w).2.brick.tracker.completed := by
  rcases hk : w.brick.tracker.checkHook h with e | _
  · rw [run_work_of_checkHook_error hk] at hr
    cases hr
  obtain ⟨c, hc⟩ := Option.isSome_iff_exists.mp
    (hl.configured.trans (Tracker.checkHook_eq_ok_iff.mp hk).1)
  have ho := outcome_work hk hc
  generalize h.work.run w = r at ho hr ⊢
  cases ho with
  | failed => cases hr
  | completed => exact Tracker.mem_complete _ _

theorem run_of_mem (hl : Lifecycle w.brick) (hm : h ∈ w.brick.tracker.completed) :
    ∃ m, h.work.run w = (.error (.state m), w) := by
  cases hi : w.brick.tracker.initialized
  · rw [hl.fresh hi] at hm
    cases hm
  · exact ⟨_, run_work_of_checkHook_error (Tracker.checkHook_of_mem hi hm)⟩

theorem completed_subset_of_mem_runs {hs : List Hook} {x : HookRun} (hl : Lifecycle w.brick)
    (hx : x ∈ runs hs w) :
    x.after.brick.tracker.completed ⊆ ((chain hs).run w).2.brick.tracker.completed := by
  induction hs generalizing w with
  | nil => cases hx
  | cons h hs ih =>
    have hk := keeps_work h w hl
    rw [chain, Build.run_bind]
    simp only [runs, HookRun.of, List.mem_cons] at hx
    rcases hr : h.work.run w with ⟨_ | _, w₁⟩ <;> rw [hr] at hk hx <;> dsimp only at hx ⊢
    · rcases hx with rfl | hx
      · exact List.Subset.refl _
      · cases hx
    · rcases hx with rfl | hx
      · exact (keeps_chain hs w₁ hk.lifecycle).paid.completed.subset
      · exact ih hk.lifecycle hx

end Hook

/-- Hook runs from a brick: each is its hook's work on the workbench it was given, on a brick
that keeps its life and has completed every hook the start had; and a hook that returned Ok
is completed on the brick of every run after it. -/
structure HookRun.Chained (b : Brick) (rs : List HookRun) : Prop where
  run : ∀ y ∈ rs, y = HookRun.of y.hook y.before
  lifecycle : ∀ y ∈ rs, Lifecycle y.before.brick
  completed : ∀ y ∈ rs, b.tracker.completed ⊆ y.before.brick.tracker.completed
  recorded : rs.Pairwise fun x y => x.outcome = .ok () → x.hook ∈ y.before.brick.tracker.completed

namespace HookRun.Chained

variable {b b' : Brick} {rs rs' : List HookRun}

theorem nil (b : Brick) : Chained b [] :=
  ⟨fun _ => nofun, fun _ => nofun, fun _ => nofun, .nil⟩

theorem single {h : Hook} {w : Workbench} (hl : Lifecycle w.brick) :
    Chained w.brick [HookRun.of h w] := by
  refine ⟨?_, ?_, ?_, List.pairwise_singleton _ _⟩ <;> intro y hy <;>
    rw [List.mem_singleton.mp hy]
  · rfl
  · exact hl
  · exact List.Subset.refl _

theorem append (h : Chained b rs) (h' : Chained b' rs')
    (hb : b.tracker.completed ⊆ b'.tracker.completed)
    (hok : ∀ x ∈ rs, x.outcome = .ok () → x.hook ∈ b'.tracker.completed) :
    Chained b (rs ++ rs') := by
  refine ⟨?_, ?_, ?_, List.pairwise_append.mpr ⟨h.recorded, h'.recorded, ?_⟩⟩
  · intro y hy
    rcases List.mem_append.mp hy with hy | hy
    · exact h.run y hy
    · exact h'.run y hy
  · intro y hy
    rcases List.mem_append.mp hy with hy | hy
    · exact h.lifecycle y hy
    · exact h'.lifecycle y hy
  · intro y hy
    rcases List.mem_append.mp hy with hy | hy
    · exact h.completed y hy
    · exact List.Subset.trans hb (h'.completed y hy)
  · exact fun x hx y hy hok' => h'.completed y hy (hok x hx hok')

theorem mem_after (h : Chained b rs) {x : HookRun} (hx : x ∈ rs) (hok : x.outcome = .ok ()) :
    x.hook ∈ x.after.brick.tracker.completed := by
  rw [h.run x hx] at hok ⊢
  exact Hook.mem_completed_of_run (h.lifecycle x hx) hok

end HookRun.Chained

theorem Hook.runs_chained {w : Workbench} (hl : Lifecycle w.brick) (hs : List Hook) :
    HookRun.Chained w.brick (runs hs w) := by
  induction hs generalizing w with
  | nil => exact .nil _
  | cons h hs ih =>
    have hk := keeps_work h w hl
    refine @HookRun.Chained.append _ (h.work.run w).2.brick _ _ (HookRun.Chained.single hl) ?_
      hk.paid.completed.subset ?_
    · split
      · exact ih hk.lifecycle
      · exact .nil _
    · intro x hx hok
      rw [List.mem_singleton.mp hx] at hok ⊢
      exact mem_completed_of_run hl hok

namespace Call

/-- Whether a call initializes the brick. -/
def configures : Call → Bool
  | .configure _ => true
  | _ => false

variable {w : Workbench}

theorem kept {c : Call} (hc : c.configures = false) (hl : Lifecycle w.brick) :
    Kept w (c.run w).2 := by
  cases c with
  | configure => cases hc
  | stiffnessStorage | stressDerivatives | equationDerivatives => exact Kept.refl hl
  | hook h => exact Hook.keeps_work h w hl
  | finalize => exact keeps_finalize w hl

theorem run_of_not_initialized {c : Call} (hc : c.configures = false) (hl : Lifecycle w.brick)
    (hi : w.brick.tracker.initialized = false) :
    ∃ m, c.run w = (.error (.state m), w) := by
  have hnone : w.brick.config = none := by
    simpa [hi] using hl.configured
  cases c with
  | configure => cases hc
  | stiffnessStorage =>
    exact ⟨"stiffness_storage called before initialize", by simp [run, Brick.storage, hnone,
      Except.map]⟩
  | stressDerivatives =>
    exact ⟨"stress_derivatives called before initialize", by simp [run, Brick.stressDerivatives,
      Tracker.requireInitialized, hi, bind, Except.bind, Except.map]⟩
  | equationDerivatives =>
    exact ⟨"generate_implicit_equation_derivatives called before initialize", by
      simp [run, Brick.equationDerivatives, Tracker.requireInitialized, hi, bind, Except.bind,
        Except.map]⟩
  | hook h =>
    exact ⟨_, Hook.run_work_of_checkHook_error (Tracker.checkHook_of_not_initialized hi)⟩
  | finalize =>
    have he := Hook.run_work_of_checkHook_error (h := .elasticPrediction) (w := w)
      (Tracker.checkHook_of_not_initialized hi)
    exact ⟨_, by rw [run, Brick.finalize, Build.run_bind, ← Hook.work, he]⟩

theorem run_configure_cases (data : DataMap) (hl : Lifecycle w.brick) :
    (((configure data).run w).1.isOk = false ∧ ((configure data).run w).2 = w) ∨
      (((configure data).run w).1.isOk = true ∧ w.brick.tracker.initialized = false ∧
        ((configure data).run w).2.brick.tracker.initialized = true ∧
        Lifecycle ((configure data).run w).2.brick ∧ Paid w ((configure data).run w).2) := by
  simp only [run]
  rcases Brick.run_configure data w with ⟨e, he⟩ | ⟨c, d, bs, hi, hd, hbs, hok⟩
  · rw [he]
    exact .inl ⟨rfl, rfl⟩
  rw [hok]
  refine .inr ⟨rfl, hi, rfl, ⟨rfl, nofun, hl.nodup⟩, List.prefix_refl _, bs, hd, fun k hk => ?_⟩
  have hz : (bs.map Prod.fst).count k = 0 := by
    refine List.count_eq_zero.mpr fun hm => ?_
    obtain ⟨q, hq, rfl⟩ := List.mem_map.mp hm
    rcases hbs q hq with h | h <;> rw [h] at hk <;> cases hk
  simp only [hz, Tracker.allowance, zero_add, le_refl]

/-- What any call does to the brick's life. -/
structure Advance (c : Call) (w : Workbench) : Prop where
  lifecycle : Lifecycle (c.run w).2.brick
  paid : Paid w (c.run w).2
  initialized : (c.run w).2.brick.tracker.initialized =
    (w.brick.tracker.initialized || (c.configures && (c.run w).1.isOk))
  fresh : (c.configures && (c.run w).1.isOk) = true → w.brick.tracker.initialized = false

theorem advance (c : Call) (hl : Lifecycle w.brick) : Advance c w := by
  cases hc : c.configures
  · have hk := kept hc hl
    exact ⟨hk.lifecycle, hk.paid, by simp [hk.initialized, hc], by simp [hc]⟩
  · cases c with
    | configure data =>
      rcases run_configure_cases data hl with ⟨hr, hw⟩ | ⟨hr, hi, hi', hl', hp⟩
      · refine ⟨by rw [hw]; exact hl, by rw [hw]; exact Paid.refl w, ?_, ?_⟩
        · rw [hw, hr, Bool.and_false, Bool.or_false]
        · rw [hr, Bool.and_false]
          nofun
      · refine ⟨hl', hp, ?_, fun _ => hi⟩
        rw [hi', hi, hr, hc]
        rfl
    | _ => cases hc

/-- The hooks a call runs on a brick: a hook call its hook, `finalize` the elastic prediction
and, on a configured brick, the stress hook of its storage and the two operators. -/
def hooks (b : Brick) : Call → List Hook
  | .hook h => [h]
  | .finalize => match b.config with
    | some c => [.elasticPrediction, c.storage.stressHook, .tangentOperator, .predictionOperator]
    | none => [.elasticPrediction]
  | _ => []

/-- The runs of the hooks a call runs, up to the first that fails. -/
def hookRuns (w : Workbench) (c : Call) : List HookRun := Hook.runs (c.hooks w.brick) w

theorem run_finalize_eq_chain (hl : Lifecycle w.brick) :
    finalize.run w = (Hook.chain (finalize.hooks w.brick)).run w := by
  rcases hcfg : w.brick.config with _ | c
  · have hi : w.brick.tracker.initialized = false := by simpa [hcfg] using hl.configured.symm
    have he := Hook.run_work_of_checkHook_error (h := .elasticPrediction) (w := w)
      (Tracker.checkHook_of_not_initialized hi)
    simp only [Hook.work] at he
    simp only [run, hooks, hcfg, Hook.chain, Brick.finalize, Build.run_bind, Hook.work, he]
  · have hk := Hook.keeps_work .elasticPrediction w hl
    simp only [Hook.work] at hk
    simp only [run, hooks, hcfg, Hook.chain, bind_pure_unit, Brick.finalize, Build.run_bind,
      Hook.work]
    rcases hr : declareElasticPrediction.run w with ⟨_ | _, w₁⟩
    · rfl
    rw [hr] at hk
    have hc₁ : w₁.brick.config = some c := hk.config.trans hcfg
    simp only [Build.run_brick, Brick.storage, hc₁, Build.run_ofExcept]
    cases c.storage <;> simp only [Storage.stressHook, Build.run_bind]

theorem completed_subset_of_mem_hookRuns {c : Call} {x : HookRun} (hl : Lifecycle w.brick)
    (hx : x ∈ c.hookRuns w) :
    x.after.brick.tracker.completed ⊆ (c.run w).2.brick.tracker.completed := by
  have hsub := Hook.completed_subset_of_mem_runs hl hx
  cases c with
  | hook h => rwa [hooks, Hook.chain, Hook.chain, bind_pure_unit] at hsub
  | finalize => rwa [run_finalize_eq_chain hl]
  | configure | stiffnessStorage | stressDerivatives | equationDerivatives => cases hx

end Call

/-- One call of a run: the call, the workbench it was given, what it returned and the
workbench it left. -/
structure Step where
  call : Call
  before : Workbench
  outcome : Except BrickError Unit
  after : Workbench

namespace Step

/-- Whether the step initialized the brick. -/
def initializes (s : Step) : Bool := s.call.configures && s.outcome.isOk

/-- The hook runs of the step's call. -/
def hookRuns (s : Step) : List HookRun := s.call.hookRuns s.before

/-- How many blocks of kind `k` the step added to the code. -/
def written (s : Step) (k : BlockKind) : Nat :=
  ((s.after.description.blocks.drop s.before.description.blocks.length).map Prod.fst).count k

end Step

namespace Call

/-- The steps of a run of calls on a brick: each call is given a description and local data
of its own, and the brick as the call before left it. -/
def trace (b : Brick) : List (Call × Description × LocalData) → List Step
  | [] => []
  | (c, d, l) :: rest =>
    let w : Workbench := { description := d, lds := l, brick := b }
    ⟨c, w, (c.run w).1, (c.run w).2⟩ :: trace (c.run w).2.brick rest

/-- The brick a run of calls leaves. -/
def brickAfter (b : Brick) (cs : List (Call × Description × LocalData)) : Brick :=
  cs.foldl (fun b (c, d, l) => (c.run { description := d, lds := l, brick := b }).2.brick) b

variable {b : Brick}

/-- The hook runs of a run of calls, in order: those of each call, up to the first that fails. -/
def hookTrace (b : Brick) (cs : List (Call × Description × LocalData)) : List HookRun :=
  (trace b cs).flatMap Step.hookRuns

theorem trace_eq_append_cons {cs : List (Call × Description × LocalData)} {t₁ t₂ : List Step}
    {s : Step} (h : trace b cs = t₁ ++ s :: t₂) :
    ∃ cs₁ cs₂ c w, t₁ = trace b cs₁ ∧ w.brick = brickAfter b cs₁ ∧
      s = ⟨c, w, (c.run w).1, (c.run w).2⟩ ∧ t₂ = trace (c.run w).2.brick cs₂ := by
  induction cs generalizing b t₁ with
  | nil =>
    simp [trace] at h
  | cons x rest ih =>
    obtain ⟨c, d, l⟩ := x
    cases t₁ with
    | nil =>
      simp only [trace, List.nil_append, List.cons.injEq] at h
      exact ⟨[], rest, c, _, rfl, rfl, h.1.symm, h.2.symm⟩
    | cons s₀ t₁ =>
      simp only [trace, List.cons_append, List.cons.injEq] at h
      obtain ⟨cs₁, cs₂, c', w, h₁, hb, hs, h₂⟩ := ih h.2
      exact ⟨(c, d, l) :: cs₁, cs₂, c', w, by rw [trace, h.1, h₁], hb, hs, h₂⟩

section

variable (hl : Lifecycle b)
include hl

theorem lifecycle_brickAfter (cs : List (Call × Description × LocalData)) :
    Lifecycle (brickAfter b cs) := by
  induction cs generalizing b with
  | nil => exact hl
  | cons x rest ih =>
    obtain ⟨c, d, l⟩ := x
    exact ih (advance c (w := { description := d, lds := l, brick := b }) hl).lifecycle

theorem initialized_brickAfter (cs : List (Call × Description × LocalData)) :
    (brickAfter b cs).tracker.initialized =
      (b.tracker.initialized || (trace b cs).any Step.initializes) := by
  induction cs generalizing b with
  | nil => simp [brickAfter, trace]
  | cons x rest ih =>
    obtain ⟨c, d, l⟩ := x
    have ha := advance c (w := { description := d, lds := l, brick := b }) hl
    rw [brickAfter, List.foldl_cons, ← brickAfter, ih ha.lifecycle, ha.initialized]
    simp [trace, Step.initializes, Bool.or_assoc]

theorem countP_initializes (cs : List (Call × Description × LocalData)) :
    (trace b cs).countP Step.initializes ≤ if b.tracker.initialized then 0 else 1 := by
  induction cs generalizing b with
  | nil => simp [trace]
  | cons x rest ih =>
    obtain ⟨c, d, l⟩ := x
    have ha := advance c (w := { description := d, lds := l, brick := b }) hl
    have hrest := ih ha.lifecycle
    rw [ha.initialized] at hrest
    simp only [trace, List.countP_cons, Step.initializes]
    by_cases hs : (c.configures && (c.run { description := d, lds := l, brick := b }).1.isOk) = true
    · have hf : b.tracker.initialized = false := ha.fresh hs
      simp only [hf, hs, Bool.false_or, if_true, Bool.false_eq_true, if_false] at hrest ⊢
      omega
    · simp only [Bool.not_eq_true] at hs
      simpa [hs] using hrest

theorem completed_prefix_brickAfter (cs : List (Call × Description × LocalData)) :
    b.tracker.completed <+: (brickAfter b cs).tracker.completed := by
  induction cs generalizing b with
  | nil => exact List.prefix_refl _
  | cons x rest ih =>
    obtain ⟨c, d, l⟩ := x
    have ha := advance c (w := { description := d, lds := l, brick := b }) hl
    exact ha.paid.completed.trans (ih ha.lifecycle)

/-- Every block of a kind only hooks write that a run adds is paid for by a hook it
completed. -/
theorem written_sum_le (cs : List (Call × Description × LocalData)) {k : BlockKind}
    (hk : k.ofHooks = true) :
    ((trace b cs).map (·.written k)).sum + b.tracker.allowance k ≤
      (brickAfter b cs).tracker.allowance k := by
  induction cs generalizing b with
  | nil => simp [trace, brickAfter]
  | cons x rest ih =>
    obtain ⟨c, d, l⟩ := x
    have ha := advance c (w := { description := d, lds := l, brick := b }) hl
    obtain ⟨bs, hbs, hpaid⟩ := ha.paid.blocks
    have hstep : (bs.map Prod.fst).count k + b.tracker.allowance k ≤
        (c.run { description := d, lds := l, brick := b }).2.brick.tracker.allowance k :=
      hpaid k hk
    have hrest := ih ha.lifecycle
    rw [brickAfter, List.foldl_cons, ← brickAfter]
    simp only [trace, List.map_cons, List.sum_cons, Step.written, hbs, List.drop_left] at hrest ⊢
    omega

theorem config_isSome_of_trace {cs : List (Call × Description × LocalData)} {t₁ t₂ : List Step}
    {s : Step} (h : trace b cs = t₁ ++ s :: t₂) :
    s.after.brick.config.isSome = (b.tracker.initialized || (t₁ ++ [s]).any Step.initializes) := by
  obtain ⟨cs₁, -, c, w, rfl, hw, rfl, -⟩ := trace_eq_append_cons h
  have hlw : Lifecycle w.brick := hw ▸ lifecycle_brickAfter hl cs₁
  have ha := advance c hlw
  rw [ha.lifecycle.configured, ha.initialized, hw, initialized_brickAfter hl, List.any_append]
  simp [Step.initializes, Bool.or_assoc]

theorem refused_of_trace {cs : List (Call × Description × LocalData)} {t₁ t₂ : List Step}
    {s : Step} (h : trace b cs = t₁ ++ s :: t₂) (hi : b.tracker.initialized = false)
    (hn : ∀ s' ∈ t₁, s'.initializes = false) (hc : s.call.configures = false) :
    (∃ m, s.outcome = .error (.state m)) ∧ s.after = s.before := by
  obtain ⟨cs₁, -, c, w, rfl, hw, rfl, -⟩ := trace_eq_append_cons h
  have hlw : Lifecycle w.brick := hw ▸ lifecycle_brickAfter hl cs₁
  -- no step before initialized the brick, so it still is not
  have hwi : w.brick.tracker.initialized = false := by
    rw [hw, initialized_brickAfter hl, hi, Bool.false_or, List.any_eq_false]
    exact fun s' hs' => by simp [hn s' hs']
  obtain ⟨m, hm⟩ := run_of_not_initialized hc hlw hwi
  exact ⟨⟨m, by simp [hm]⟩, by simp [hm]⟩

theorem hookTrace_chained (cs : List (Call × Description × LocalData)) :
    HookRun.Chained b (hookTrace b cs) := by
  induction cs generalizing b with
  | nil => exact .nil b
  | cons x rest ih =>
    obtain ⟨c, d, l⟩ := x
    have ha := advance c (w := { description := d, lds := l, brick := b }) hl
    have hc := Hook.runs_chained (w := { description := d, lds := l, brick := b }) hl
      (c.hooks b)
    rw [hookTrace, trace, List.flatMap_cons]
    exact hc.append (ih ha.lifecycle) ha.paid.completed.subset fun x hx hok =>
      completed_subset_of_mem_hookRuns hl hx (hc.mem_after hx hok)

/-- In a run of calls, once a hook has returned Ok, every later run of it, by a call of its own
or inside `finalize`, is refused with a state error and changes nothing. -/
theorem hookTrace_refused (cs : List (Call × Description × LocalData)) :
    (hookTrace b cs).Pairwise fun x y => y.hook = x.hook → x.outcome = .ok () →
      (∃ m, y.outcome = .error (.state m)) ∧ y.after = y.before := by
  have hc := hookTrace_chained hl cs
  refine hc.recorded.imp_of_mem fun {x y} _ hy hxy hh hok => ?_
  have hm : y.hook ∈ y.before.brick.tracker.completed := hh ▸ hxy hok
  obtain ⟨m, hrun⟩ := Hook.run_of_mem (hc.lifecycle y hy) hm
  rw [hc.run y hy]
  exact ⟨⟨m, by simp [HookRun.of, hrun]⟩, by simp [HookRun.of, hrun]⟩

/-- Each hook returns Ok at most once in a run of calls. -/
theorem countP_hookTrace_ok_le_one (cs : List (Call × Description × LocalData)) (h : Hook) :
    (hookTrace b cs).countP (fun r => r.hook == h && r.outcome.isOk) ≤ 1 := by
  rw [List.countP_eq_length_filter]
  have hp := (hookTrace_refused hl cs).filter fun r => r.hook == h && r.outcome.isOk
  generalize hf : (hookTrace b cs).filter (fun r => r.hook == h && r.outcome.isOk) = rs at hp
  have hmem : ∀ r ∈ rs, r.hook = h ∧ r.outcome = .ok () := fun r hr => by
    rw [← hf, List.mem_filter, Bool.and_eq_true, beq_iff_eq] at hr
    refine ⟨hr.2.1, ?_⟩
    cases ho : r.outcome
    · simp [ho, Except.isOk, Except.toBool] at hr
    · rfl
  match rs, hp, hmem with
  | [], _, _ | [_], _, _ => simp
  | x :: y :: _, hp, hmem =>
    -- the later of two runs that returned Ok would have been refused
    obtain ⟨hx, hxok⟩ := hmem x (by simp)
    obtain ⟨hy, hyok⟩ := hmem y (by simp)
    obtain ⟨⟨m, hm⟩, -⟩ := (List.pairwise_cons.mp hp).1 y (by simp) (hy.trans hx.symm) hxok
    rw [hyok] at hm
    cases hm

theorem refused_of_ok {cs : List (Call × Description × LocalData)} {h : Hook} {t₁ t₂ : List Step}
    {s : Step} (ht : trace b cs = t₁ ++ s :: t₂) (hs : s.call = .hook h)
    (hok : ∃ x ∈ t₁.flatMap Step.hookRuns, x.hook = h ∧ x.outcome = .ok ()) :
    (∃ m, s.outcome = .error (.state m)) ∧ s.after = s.before := by
  obtain ⟨x, hx, hxh, hxok⟩ := hok
  obtain ⟨-, -, c, w, -, -, rfl, -⟩ := trace_eq_append_cons ht
  subst hs
  have hruns : Step.hookRuns ⟨hook h, w, ((hook h).run w).1, ((hook h).run w).2⟩ =
      [HookRun.of h w] := Hook.runs_singleton h w
  have hp := hookTrace_refused hl cs
  rw [hookTrace, ht, List.flatMap_append, List.flatMap_cons, hruns, List.pairwise_append] at hp
  exact hp.2.2 x hx (HookRun.of h w) (by simp) hxh.symm hxok

end

end Call

/-- The five hooks. -/
def Hook.all : List Hook :=
  [.elasticPrediction, .stressWithStiffnessTensor, .isotropicStress, .tangentOperator,
    .predictionOperator]

theorem Hook.mem_all (h : Hook) : h ∈ Hook.all := by
  cases h <;> simp [Hook.all]

theorem Tracker.allowance_le_all {t : Tracker} (hn : t.completed.Nodup) (k : BlockKind) :
    t.allowance k ≤ (Hook.all.map fun h => h.blockKinds.count k).sum := by
  obtain ⟨l, hp, hs⟩ := hn.subperm fun h _ => Hook.mem_all h
  calc t.allowance k = (l.map fun h => h.blockKinds.count k).sum := ((hp.map _).sum_eq).symm
    _ ≤ _ := (hs.map _).sum_le_sum fun _ _ => Nat.zero_le _

/-- The life of a fresh brick over any run of calls, each given a description and local data
of its own. The brick is configured exactly when an initialization has succeeded, and at most
one does; until then every other call is refused with a state error and changes nothing. Each
hook returns Ok at most once, counting the runs `finalize` makes, and once it has, every later
run of it, by a call of its own or inside `finalize`, is refused with a state error and changes
nothing. Every block of a kind only hooks write is paid for by a completed hook: so at most one
elastic prediction, tangent operator and prediction operator block, and a stress and a final
stress block for each stress hook. -/
theorem brick_lifecycle (p : Potential) (cs : List (Call × Description × LocalData)) :
    (∀ t₁ s t₂, Call.trace (Brick.new p) cs = t₁ ++ s :: t₂ →
      (s.after.brick.config.isSome ↔ ∃ s' ∈ t₁ ++ [s], s'.initializes)) ∧
    (Call.trace (Brick.new p) cs).countP Step.initializes ≤ 1 ∧
    (∀ t₁ s t₂, Call.trace (Brick.new p) cs = t₁ ++ s :: t₂ →
      (∀ s' ∈ t₁, s'.initializes = false) → s.call.configures = false →
      (∃ m, s.outcome = .error (.state m)) ∧ s.after = s.before) ∧
    (∀ h, (Call.hookTrace (Brick.new p) cs).countP (fun r => r.hook == h && r.outcome.isOk) ≤ 1) ∧
    (Call.hookTrace (Brick.new p) cs).Pairwise (fun x y => y.hook = x.hook →
      x.outcome = .ok () → (∃ m, y.outcome = .error (.state m)) ∧ y.after = y.before) ∧
    (∀ h t₁ s t₂, Call.trace (Brick.new p) cs = t₁ ++ s :: t₂ → s.call = .hook h →
      (∃ x ∈ t₁.flatMap Step.hookRuns, x.hook = h ∧ x.outcome = .ok ()) →
      (∃ m, s.outcome = .error (.state m)) ∧ s.after = s.before) ∧
    (∀ k, k.ofHooks = true → ((Call.trace (Brick.new p) cs).map (·.written k)).sum ≤
      (Call.brickAfter (Brick.new p) cs).tracker.allowance k) ∧
    ((Call.trace (Brick.new p) cs).map (·.written .computeElasticPrediction)).sum ≤ 1 ∧
    ((Call.trace (Brick.new p) cs).map (·.written .tangentOperator)).sum ≤ 1 ∧
    ((Call.trace (Brick.new p) cs).map (·.written .predictionOperator)).sum ≤ 1 ∧
    ((Call.trace (Brick.new p) cs).map (·.written .computeStress)).sum ≤ 2 ∧
    ((Call.trace (Brick.new p) cs).map (·.written .computeFinalStress)).sum ≤ 2 := by
  have hl := Lifecycle.new p
  have hnew : (Brick.new p).tracker.initialized = false := rfl
  have hnodup := (Call.lifecycle_brickAfter hl cs).nodup
  -- a fresh brick has completed no hook, so the run pays for every block it writes
  have hpaid : ∀ k, k.ofHooks = true → ((Call.trace (Brick.new p) cs).map (·.written k)).sum ≤
      (Call.brickAfter (Brick.new p) cs).tracker.allowance k := fun k hk => by
    have hrun := Call.written_sum_le hl cs hk
    have hzero : (Brick.new p).tracker.allowance k = 0 := rfl
    omega
  have hbound : ∀ k n, k.ofHooks = true → (Hook.all.map fun h => h.blockKinds.count k).sum ≤ n →
      ((Call.trace (Brick.new p) cs).map (·.written k)).sum ≤ n := fun k n hk hn =>
    (hpaid k hk).trans ((Tracker.allowance_le_all hnodup k).trans hn)
  refine ⟨fun t₁ s t₂ h => ?_, ?_, fun t₁ s t₂ h => Call.refused_of_trace hl h hnew,
    Call.countP_hookTrace_ok_le_one hl cs, Call.hookTrace_refused hl cs,
    fun h t₁ s t₂ ht => Call.refused_of_ok hl ht, hpaid,
    hbound _ _ rfl (by decide), hbound _ _ rfl (by decide), hbound _ _ rfl (by decide),
    hbound _ _ rfl (by decide), hbound _ _ rfl (by decide)⟩
  · rw [Call.config_isSome_of_trace hl h, hnew, Bool.false_or, List.any_eq_true]
  · simpa [hnew] using Call.countP_initializes hl cs

end Elasto.Brick
