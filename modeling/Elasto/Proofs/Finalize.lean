import Mathlib
import Elasto.Brick.Compile
import Elasto.Proofs.Refusal
import Elasto.Proofs.Hooks
import Elasto.Proofs.Initialize
import Elasto.Proofs.Stages

/-! # What remains of a compilation after initialization

Initialization resolves the options into a configuration and checks every variable and
attribute it declares. What it leaves to `finalize` and to the stress derivatives is then
settled by the configuration alone, with one exception: with constant storage and Lamé
coefficients, `finalize` declares the stiffness tensor `D`, a name initialization never
checks, so a description that already declares `D` as something else than a stiffness
tensor local variable makes `finalize` fail. Otherwise `finalize` goes through and appends
one block of each kind the configuration asks for (`Config.finalizedKinds`). Those blocks
carry the statements the stages of a step are proved about: `Config.initialization` and the
stress block at mid step and at the end of the step (`compiled_blocks_carry_stages`).

The stress derivatives differentiate the mid-step stress, made of members only, and the
Lamé coefficients written from the Young modulus and the Poisson ratio. Differentiation
refuses only a `min` whose operands move, so the derivatives are all found exactly when every
`min` of the coefficients is steady in the increment of each state variable they read
(`Config.propertiesSteady`), which properties without `min` always are.
-/

namespace Elasto.Brick

open Elasto.Behaviour Elasto.Tensor Elasto.Code Description

/-- `d'` has the blocks of `d` followed by blocks of the kinds `ks`, in order. -/
def BlocksAppended (d d' : Description) (ks : List BlockKind) : Prop :=
  ∃ bs, d'.blocks = d.blocks ++ bs ∧ bs.map Prod.fst = ks

namespace BlocksAppended

variable {d d₁ d₂ : Description} {ks ks' : List BlockKind}

theorem of_blocks_eq (h : d₁.blocks = d.blocks) : BlocksAppended d d₁ [] :=
  ⟨[], by simp [h], rfl⟩

theorem appendBlock (d : Description) (k : BlockKind) (b : Block) :
    BlocksAppended d (d.appendBlock k b) [k] :=
  ⟨[(k, b)], rfl, rfl⟩

theorem trans (h₁ : BlocksAppended d d₁ ks) (h₂ : BlocksAppended d₁ d₂ ks') :
    BlocksAppended d d₂ (ks ++ ks') := by
  obtain ⟨bs, hb, hk⟩ := h₁
  obtain ⟨bs', hb', hk'⟩ := h₂
  exact ⟨bs ++ bs', by rw [hb', hb, List.append_assoc], by simp [hk, hk']⟩

end BlocksAppended

/-- The blocks of kind `k` of `d'` are those of `d` followed by blocks carrying, in order, the
statements `ss`. -/
def StatementsAppended (d d' : Description) (k : BlockKind) (ss : List Statement) : Prop :=
  ∃ bs, d'.blocksOf k = d.blocksOf k ++ bs ∧ bs.flatMap Block.statements = ss

namespace StatementsAppended

variable {d d₁ d₂ d₃ : Description} {k : BlockKind} {ss ss' : List Statement}

theorem of_blocks_eq_append {bs : List (BlockKind × Block)} (h : d₁.blocks = d.blocks ++ bs)
    (k : BlockKind) :
    StatementsAppended d d₁ k ((bs.filter (·.1 == k)).flatMap (·.2.statements)) :=
  ⟨(bs.filter (·.1 == k)).map (·.2), by simp [blocksOf, h], by simp [List.flatMap_map]⟩

theorem of_blocks_eq (h : d₁.blocks = d.blocks) : StatementsAppended d d₁ k [] :=
  ⟨[], by simp [blocksOf, h], rfl⟩

theorem appendBlock (d : Description) (k : BlockKind) (b : Block) :
    StatementsAppended d (d.appendBlock k b) k b.statements :=
  ⟨[b], by simp [blocksOf, Description.appendBlock], by simp⟩

theorem trans (h₁ : StatementsAppended d d₁ k ss) (h₂ : StatementsAppended d₁ d₂ k ss') :
    StatementsAppended d d₂ k (ss ++ ss') := by
  obtain ⟨bs, hb, rfl⟩ := h₁
  obtain ⟨bs', hb', rfl⟩ := h₂
  exact ⟨bs ++ bs', by rw [hb', hb, List.append_assoc], by simp⟩

theorem of_blocksAppended {ks : List BlockKind} (h : BlocksAppended d d₁ ks) (hk : k ∉ ks) :
    StatementsAppended d d₁ k [] := by
  obtain ⟨bs, hb, rfl⟩ := h
  have hnone : bs.filter (·.1 == k) = [] := List.filter_eq_nil_iff.mpr fun b hb hbk => by
    rw [beq_iff_eq] at hbk
    exact hk (hbk ▸ List.mem_map_of_mem hb)
  simpa [hnone] using of_blocks_eq_append hb k

theorem appendBlock_of_ne {k' : BlockKind} (d : Description) (b : Block) (hk : k' ≠ k) :
    StatementsAppended d (d.appendBlock k' b) k [] :=
  of_blocksAppended (BlocksAppended.appendBlock d k' b) (by simpa using hk.symm)

theorem around {ks₁ ks₃ : List BlockKind} (h₂ : StatementsAppended d₁ d₂ k ss)
    (h₁ : BlocksAppended d d₁ ks₁) (h₃ : BlocksAppended d₂ d₃ ks₃) (hk : k ∉ ks₁ ∧ k ∉ ks₃) :
    StatementsAppended d d₃ k ss := by
  simpa using ((of_blocksAppended h₁ hk.1).trans h₂).trans (of_blocksAppended h₃ hk.2)

end StatementsAppended

theorem Representation.eq_lame_of_isLame {r : Representation} (h : r.isLame = true) :
    ∃ y nu, r = .lame y nu := by
  cases r with
  | lame y nu => exact ⟨y, nu, rfl⟩
  | stiffnessTensor => cases h

/-- What initialization guarantees of the configuration it stores: a stiffness tensor from
the solver comes with constant storage, and constant storage with elastic properties that do
not evolve during the step. -/
structure Config.Resolved (c : Config) : Prop where
  constant_of_stiffnessTensor : c.representation = .stiffnessTensor → c.storage = .constant
  static_of_constant : c.storage = .constant → c.fieldDependent = false

theorem representationOf_eq_ok {d : Description} {s : Storage} {young poisson : Option Scalar}
    {rep : Representation} (h : representationOf d s young poisson = .ok rep) :
    (∃ y nu, young = some y ∧ poisson = some nu ∧ rep = .lame y nu) ∨
      (young = none ∧ poisson = none ∧ s = .constant ∧ rep = .stiffnessTensor) := by
  unfold representationOf at h
  simp only [bind, Except.bind, pure, Except.pure, throw, throwThe, MonadExceptOf.throw] at h
  repeat' split at h
  all_goals first
    | (cases h; done)
    | (cases h; exact .inl ⟨_, _, rfl, rfl, rfl⟩)
    | (cases h; exact .inr ⟨rfl, rfl, by assumption, rfl⟩)

theorem resolveRepresentation_eq_ok {d : Description} {r : Reader} {a : Bool} {s : Storage}
    {rep : Representation} (h : resolveRepresentation d r a s = .ok rep) :
    ∃ young poisson, elasticProperties d r a = .ok (young, poisson) ∧
      representationOf d s young poisson = .ok rep := by
  unfold resolveRepresentation at h
  obtain ⟨⟨young, poisson⟩, hp, h⟩ := except_bind_eq_ok.mp h
  exact ⟨young, poisson, hp, h⟩

theorem resolveRepresentation_stiffnessTensor {d : Description} {r : Reader} {a : Bool}
    {s : Storage} (h : resolveRepresentation d r a s = .ok .stiffnessTensor) : s = .constant := by
  obtain ⟨young, poisson, -, h⟩ := resolveRepresentation_eq_ok h
  rcases representationOf_eq_ok h with ⟨_, _, -, -, h⟩ | ⟨-, -, hs, -⟩
  · cases h
  · exact hs

theorem Config.resolved_of_resolve {d : Description} {r : Reader} {a : Bool} {g : Degradation}
    {c : Config} (h : Config.resolve d r a g = .ok c) : c.Resolved := by
  obtain ⟨s, hrep, rfl, hstatic, -, -⟩ := Config.resolve_eq_ok h
  exact ⟨fun hr => resolveRepresentation_stiffnessTensor (hr ▸ hrep), hstatic⟩

theorem configureWith_eq_ok {r : Reader} {a : Bool} {g : Degradation} {w w₁ : Workbench}
    (hg : ∀ v ∈ g.damage?, reservedNames.contains v = false)
    (h : (configureWith r a g).run w = (.ok (), w₁)) :
    ∃ c, Config.resolve w.description r a g = .ok c ∧
      c.checkDeclarations w.description w.brick.origin = .ok () ∧ c.Resolved ∧ c.degradation = g ∧
      (∀ n ∉ c.declaredNames, w₁.description.declared? n = w.description.declared? n) ∧
      w₁.lds = w.lds ∧ w₁.brick = { w.brick with config := some c, tracker.initialized := true } ∧
      BlocksAppended w.description w₁.description
        ((if c.initialLame.isEmpty then [] else [.initializeLocalVariables]) ++ [.integrator]) ∧
      StatementsAppended w.description w₁.description .initializeLocalVariables c.initialLame := by
  unfold configureWith at h
  simp only [Build.run_bind, Build.run_brick, Build.run_ofExcept, Build.run_description] at h
  rcases hn : w.brick.tracker.checkNotInitialized with e | _
  · simp [hn] at h
  rcases hr : Config.resolve w.description r a g with e | c
  · simp [hn, hr] at h
  rcases hc : c.checkDeclarations w.description w.brick.origin with e | _
  · simp [hn, hr, hc] at h
  obtain ⟨d', hF, hd⟩ := Config.run_declare hc (Config.degradation_of_resolve hr ▸ hg)
  simp only [hn, hr, hc, hd] at h
  refine ⟨c, rfl, hc, Config.resolved_of_resolve hr, Config.degradation_of_resolve hr, ?_⟩
  split at h <;> simp only [Build.run_bind, Build.run_appendBlock, Build.run_setBrick] at h <;>
    cases h <;> rename_i hl <;> refine ⟨fun n hn => hF.declared_eq n hn, rfl, rfl, ?_, ?_⟩
  · have hl : c.initialLame.isEmpty = false := by simpa using hl
    simpa [hl] using ((BlocksAppended.of_blocks_eq hF.blocks_eq).trans
      (BlocksAppended.appendBlock _ _ _)).trans (BlocksAppended.appendBlock _ _ _)
  · simpa using ((StatementsAppended.of_blocks_eq hF.blocks_eq).trans
      (StatementsAppended.appendBlock _ _ _)).trans
      (StatementsAppended.of_blocksAppended (BlocksAppended.appendBlock _ .integrator _) (by simp))
  · have hl : c.initialLame.isEmpty = true := by simpa using hl
    simpa [hl] using (BlocksAppended.of_blocks_eq hF.blocks_eq).trans
      (BlocksAppended.appendBlock _ _ _)
  · have hl : c.initialLame = [] := List.isEmpty_iff.mp (by simpa using hl)
    rw [hl]
    exact StatementsAppended.of_blocksAppended ((BlocksAppended.of_blocks_eq hF.blocks_eq).trans
      (BlocksAppended.appendBlock _ .integrator _)) (by simp)

theorem configure_reads {data : DataMap} {w w₁ : Workbench}
    (h : (configure data).run w = (.ok (), w₁)) :
    ∃ r g, Reader.make (w.brick.potential.options w.description.elasticMaterialProperties.isSome)
        data = .ok r ∧
      (w.brick.potential = .hooke ∧ g = .none ∨
        w.brick.potential = .isotropicDamageHooke ∧ Degradation.ofOptions r = .ok g) ∧
      (configureWith r w.description.elasticMaterialProperties.isSome g).run w = (.ok (), w₁) := by
  unfold configure at h
  simp only [Build.run_bind, Build.run_brick, Build.run_ofExcept, Build.run_description] at h
  rcases hn : w.brick.tracker.checkNotInitialized with e | _
  · simp [hn] at h
  rcases hm : Reader.make (w.brick.potential.options w.description.elasticMaterialProperties.isSome)
      data with e | r
  · simp [hn, hm] at h
  simp only [hn, hm] at h
  split at h
  · rename_i hp
    simp only [Build.run_bind, Build.run_pure] at h
    exact ⟨r, .none, rfl, .inl ⟨hp, rfl⟩, h⟩
  · rename_i hp
    rcases hg : Degradation.ofOptions r with e | g
    · simp [hg, Build.run_bind] at h
    simp only [hg, Build.run_bind, Build.run_ofExcept] at h
    exact ⟨r, g, rfl, .inr ⟨hp, hg⟩, h⟩

theorem Degradation.not_reserved_of_reads {p : Potential} {r : Reader} {g : Degradation}
    (hg : p = .hooke ∧ g = .none ∨ p = .isotropicDamageHooke ∧ Degradation.ofOptions r = .ok g) :
    ∀ v ∈ g.damage?, reservedNames.contains v = false := by
  rcases hg with ⟨-, rfl⟩ | ⟨-, hg⟩
  · simp [Degradation.damage?]
  · exact Degradation.not_reserved_of_ofOptions hg

/-- A successful initialization stores a resolved configuration whose damage variable is
none of the reserved names, keeps the local data, and changes the declarations of the
configuration's own variables only. -/
theorem configure_eq_ok {data : DataMap} {w w₁ : Workbench}
    (h : (configure data).run w = (.ok (), w₁)) :
    ∃ c, c.Resolved ∧ (∀ v ∈ c.degradation.damage?, reservedNames.contains v = false) ∧
      (∀ n ∉ c.declaredNames, w₁.description.declared? n = w.description.declared? n) ∧
      w₁.lds = w.lds ∧ w₁.brick = { w.brick with config := some c, tracker.initialized := true } ∧
      BlocksAppended w.description w₁.description
        ((if c.initialLame.isEmpty then [] else [.initializeLocalVariables]) ++ [.integrator]) ∧
      StatementsAppended w.description w₁.description .initializeLocalVariables c.initialLame := by
  obtain ⟨r, g, -, hg, hw⟩ := configure_reads h
  have hres := Degradation.not_reserved_of_reads hg
  obtain ⟨c, -, -, hc, hcg, rest⟩ := configureWith_eq_ok hres hw
  exact ⟨c, hc, hcg ▸ hres, rest⟩

theorem Tracker.checkHook_eq_ok {t : Tracker} {h : Hook} (hi : t.initialized = true)
    (hn : h ∉ t.completed) : t.checkHook h = .ok () := by
  simp [Tracker.checkHook, Tracker.requireInitialized, hi, hn]

theorem Build.run_addLocal_of_fresh {t : VarType} {n : String} {w : Workbench}
    (h : w.lds.contains n = false) :
    (Build.addLocal t n).run w = (.ok (), { w with lds := ⟨w.lds.entries ++ [(t, n)]⟩ }) := by
  have hrun : (Build.addLocal t n).run w =
      (Build.ofExcept (liftBehaviour (w.lds.add t n)) >>= fun l => set { w with lds := l }).run w :=
    rfl
  rw [hrun, Build.run_bind, Build.run_ofExcept, (LocalData.add_eq_ok_iff.mpr ⟨h, rfl⟩ :)]
  rfl

section Hooks

/-! ### Each hook, when it goes through

With the tracker letting a hook run and the configuration stored, each hook either always
goes through or goes through under one condition. The workbench it leaves has blocks of
known kinds appended, the hook completed and its stress path chosen. -/

variable {w : Workbench} {c : Config}

theorem run_declareElasticPrediction_eq
    (hk : w.brick.tracker.checkHook .elasticPrediction = .ok ()) (hc : w.brick.config = some c) :
    ∃ w', declareElasticPrediction.run w = (.ok (), w') ∧
      BlocksAppended w.description w'.description [.computeElasticPrediction] ∧
      (∀ n, w'.description.declared? n = w.description.declared? n) ∧ w'.lds = w.lds ∧
      w'.brick = { w.brick with tracker := w.brick.tracker.complete .elasticPrediction } := by
  unfold declareElasticPrediction
  rw [Build.run_bind, Build.run_enter_of_ok hk hc]
  dsimp only
  simp only [Build.run_bind, Build.run_appendBlock, Build.run_complete]
  exact ⟨_, rfl, BlocksAppended.appendBlock _ _ _, fun _ => rfl, rfl, rfl⟩

theorem run_declareStressWithStiffnessTensor_eq
    (hk : w.brick.tracker.checkHook .stressWithStiffnessTensor = .ok ())
    (hc : w.brick.config = some c) (hs : c.storage = .constant)
    (hD : c.representation.isLame = true →
      checkReusable w.description .localVariable .stiffnessTensor Ident.stiffness = .ok ()) :
    ∃ w', declareStressWithStiffnessTensor.run w = (.ok (), w') ∧
      BlocksAppended w.description w'.description
        ((if c.representation.isLame then [.initializeLocalVariables] else []) ++
          [.computeStress, .computeFinalStress]) ∧
      StatementsAppended w.description w'.description .initializeLocalVariables
        (if c.representation.isLame then [c.storedStiffness] else []) ∧
      StatementsAppended w.description w'.description .computeStress (c.stressBlock .midStep) ∧
      StatementsAppended w.description w'.description .computeFinalStress
        (c.stressBlock .endOfStep) ∧ w'.lds = w.lds ∧
      w'.brick = { w.brick with tracker := w.brick.tracker.complete .stressWithStiffnessTensor,
                                stressPath := some .stiffnessTensor } := by
  unfold declareStressWithStiffnessTensor
  rw [Build.run_bind, Build.run_enter_of_ok hk hc]
  dsimp only
  have hs' : (c.storage != .constant) = false := by simp [hs]
  simp only [hs', Bool.false_eq_true, if_false]
  have hblock : ∀ stage, c.stressBlock stage = c.tensorStress stage := by
    simp [Config.stressBlock, hs]
  simp only [hblock]
  by_cases hl : c.representation.isLame = true
  · -- `D` is declared, or reused, before the three blocks
    obtain ⟨d₁, h₁, f₁⟩ := frame_of_declareIfAbsent (c := .localVariable)
      (v := { type := .stiffnessTensor, name := Ident.stiffness,
              description := "stiffness tensor computed once" }) (hD hl)
    simp only [hl, if_true, Build.run_bind, Build.run_edit, h₁, Build.run_appendBlock,
      Build.run_complete]
    refine ⟨_, rfl, ?_, ?_, ?_, ?_, rfl, rfl⟩
    · simpa using (((BlocksAppended.of_blocks_eq f₁.blocks_eq).trans
        (BlocksAppended.appendBlock _ _ _)).trans (BlocksAppended.appendBlock _ _ _)).trans
        (BlocksAppended.appendBlock _ _ _)
    · simpa using (((StatementsAppended.of_blocks_eq f₁.blocks_eq).trans
        (StatementsAppended.appendBlock _ _ _)).trans
        (StatementsAppended.appendBlock_of_ne _ _ (by decide))).trans
        (StatementsAppended.appendBlock_of_ne _ _ (by decide))
    · simpa using (((StatementsAppended.of_blocks_eq (k := .computeStress) f₁.blocks_eq).trans
        (StatementsAppended.appendBlock_of_ne _ _ (by decide))).trans
        (StatementsAppended.appendBlock _ _ _)).trans
        (StatementsAppended.appendBlock_of_ne _ _ (by decide))
    · simpa using (((StatementsAppended.of_blocks_eq (k := .computeFinalStress) f₁.blocks_eq).trans
        (StatementsAppended.appendBlock_of_ne _ _ (by decide))).trans
        (StatementsAppended.appendBlock_of_ne _ _ (by decide))).trans
        (StatementsAppended.appendBlock _ _ _)
  · simp only [hl, Bool.false_eq_true, if_false, Build.run_bind, Build.run_appendBlock,
      Build.run_complete]
    refine ⟨_, rfl, ?_, ?_, ?_, ?_, rfl, rfl⟩
    · simpa using (BlocksAppended.appendBlock _ _ _).trans (BlocksAppended.appendBlock _ _ _)
    · simpa using (StatementsAppended.appendBlock_of_ne (k := .initializeLocalVariables) _ _
        (by decide)).trans (StatementsAppended.appendBlock_of_ne _ _ (by decide))
    · simpa using (StatementsAppended.appendBlock _ _ _).trans
        (StatementsAppended.appendBlock_of_ne _ _ (by decide))
    · simpa using (StatementsAppended.appendBlock_of_ne (k := .computeFinalStress) _ _
        (by decide)).trans (StatementsAppended.appendBlock _ _ _)

theorem run_declareIsotropicStress_eq
    (hk : w.brick.tracker.checkHook .isotropicStress = .ok ()) (hc : w.brick.config = some c)
    (hs : c.storage = .fieldDependent) (hl : c.representation.isLame = true) (hlds : w.lds = {}) :
    ∃ w', declareIsotropicStress.run w = (.ok (), w') ∧
      BlocksAppended w.description w'.description [.computeStress, .computeFinalStress] ∧
      StatementsAppended w.description w'.description .computeStress (c.stressBlock .midStep) ∧
      StatementsAppended w.description w'.description .computeFinalStress
        (c.stressBlock .endOfStep) ∧
      w'.brick = { w.brick with tracker := w.brick.tracker.complete .isotropicStress,
                                stressPath := some .isotropic } := by
  obtain ⟨y, p, hr⟩ := Representation.eq_lame_of_isLame hl
  have hblock : ∀ stage, c.stressBlock stage =
      c.isotropicStress stage (lameCoefficients (c.atStage y stage) (c.atStage p stage)).1
        (lameCoefficients (c.atStage y stage) (c.atStage p stage)).2 := by
    simp [Config.stressBlock, hs, Config.lame, hr]
  simp only [hblock]
  have hmid : ∀ b₁ b₂ : Block, StatementsAppended w.description
      ((w.description.appendBlock .computeStress b₁).appendBlock .computeFinalStress b₂)
      .computeStress b₁.statements := fun _ _ => by
    simpa using (StatementsAppended.appendBlock _ _ _).trans
      (StatementsAppended.appendBlock_of_ne _ _ (by decide))
  have hend : ∀ b₁ b₂ : Block, StatementsAppended w.description
      ((w.description.appendBlock .computeStress b₁).appendBlock .computeFinalStress b₂)
      .computeFinalStress b₂.statements := fun _ _ => by
    simpa using (StatementsAppended.appendBlock_of_ne _ _ (by decide)).trans
      (StatementsAppended.appendBlock _ _ _)
  unfold declareIsotropicStress
  rw [Build.run_bind, Build.run_enter_of_ok hk hc]
  simp only [Config.lame, hr]
  split_ifs <;>
    simp (disch := simp [hlds, LocalData.contains, Ident.degradationFactor, Ident.lambdaEndOfStep,
        Ident.muEndOfStep]) only [Build.run_bind, Build.run_addLocal_of_fresh,
      Build.run_appendBlock, Build.run_complete] <;>
    exact ⟨_, rfl, (BlocksAppended.appendBlock _ _ _).trans (BlocksAppended.appendBlock _ _ _),
      hmid _ _, hend _ _, rfl⟩

theorem run_addTangentOperatorSupport_eq
    (hk : w.brick.tracker.checkHook .tangentOperator = .ok ()) (hc : w.brick.config = some c)
    (hp : w.brick.stressPath.isSome) :
    ∃ w', addTangentOperatorSupport.run w = (.ok (), w') ∧
      BlocksAppended w.description w'.description
        (if c.genericTangentOperator then [.tangentOperator] else []) ∧
      w'.brick = { w.brick with tracker := w.brick.tracker.complete .tangentOperator } := by
  obtain ⟨p, hp⟩ := Option.isSome_iff_exists.mp hp
  unfold addTangentOperatorSupport
  rw [Build.run_bind, Build.run_enter_of_ok hk hc]
  dsimp only
  cases hg : c.genericTangentOperator
  · simp only [Bool.not_false, if_true, Build.run_bind, Build.run_complete, Build.run_pure]
    exact ⟨_, rfl, BlocksAppended.of_blocks_eq rfl, rfl⟩
  · simp only [Bool.not_true, Bool.false_eq_true, if_true, if_false]
    repeat' split
    all_goals
      simp only [Build.run_bind, Build.run_pure, Build.run_throw, Build.run_appendBlock,
        Build.run_complete]
      first
        | exact ⟨_, rfl, BlocksAppended.appendBlock _ _ _, rfl⟩
        | (exfalso; cases p <;> simp_all)

theorem run_addPredictionOperatorSupport_eq
    (hk : w.brick.tracker.checkHook .predictionOperator = .ok ()) (hc : w.brick.config = some c) :
    ∃ w', addPredictionOperatorSupport.run w = (.ok (), w') ∧
      BlocksAppended w.description w'.description
        (if c.genericPredictionOperator then [.predictionOperator] else []) ∧
      w'.brick = { w.brick with tracker := w.brick.tracker.complete .predictionOperator } := by
  unfold addPredictionOperatorSupport
  rw [Build.run_bind, Build.run_enter_of_ok hk hc]
  dsimp only
  cases hg : c.genericPredictionOperator
  · simp only [Bool.not_false, if_true, Build.run_bind, Build.run_complete, Build.run_pure]
    exact ⟨_, rfl, BlocksAppended.of_blocks_eq rfl, rfl⟩
  · simp only [Bool.not_true, Bool.false_eq_true, if_false, Build.run_bind, Build.run_appendBlock,
      Build.run_complete]
    exact ⟨_, rfl, BlocksAppended.appendBlock _ _ _, rfl⟩

end Hooks

/-- The kinds of block `finalize` appends, in order: the elastic prediction; with constant
storage and Lamé coefficients, the stiffness tensor computed once; the stress and the final
stress; and each operator the options ask for. -/
def Config.finalizedKinds (c : Config) : List BlockKind :=
  [BlockKind.computeElasticPrediction] ++
    (if c.storage = .constant ∧ c.representation.isLame then [.initializeLocalVariables] else []) ++
    [BlockKind.computeStress, .computeFinalStress] ++
    (if c.genericTangentOperator then [BlockKind.tangentOperator] else []) ++
    (if c.genericPredictionOperator then [BlockKind.predictionOperator] else [])

theorem run_operators_eq {w : Workbench} {c : Config} (hc : w.brick.config = some c)
    (hi : w.brick.tracker.initialized = true)
    (ht : Hook.tangentOperator ∉ w.brick.tracker.completed)
    (hp : Hook.predictionOperator ∉ w.brick.tracker.completed) (hpath : w.brick.stressPath.isSome) :
    ∃ w', (addTangentOperatorSupport >>= fun _ => addPredictionOperatorSupport).run w =
        (.ok (), w') ∧
      BlocksAppended w.description w'.description
        ((if c.genericTangentOperator then [.tangentOperator] else []) ++
          (if c.genericPredictionOperator then [.predictionOperator] else [])) ∧
      w'.brick.config = some c ∧ w'.brick.tracker.initialized = true ∧
      w'.brick.stressPath = w.brick.stressPath := by
  obtain ⟨w₁, h₁, hb₁, hw₁⟩ := run_addTangentOperatorSupport_eq (c := c)
    (Tracker.checkHook_eq_ok hi ht) hc hpath
  obtain ⟨w₂, h₂, hb₂, hw₂⟩ := run_addPredictionOperatorSupport_eq (c := c) (w := w₁)
    (Tracker.checkHook_eq_ok (by simp [hw₁, Tracker.complete_initialized, hi])
      (by simp [hw₁, Tracker.complete, ht, hp])) (by rw [hw₁]; exact hc)
  rw [Build.run_bind, h₁]
  exact ⟨w₂, h₂, hb₁.trans hb₂, by rw [hw₂, hw₁]; exact hc,
    by simp [hw₂, hw₁, Tracker.complete_initialized, hi], by simp [hw₂, hw₁]⟩

/-- From an initialized brick with no hook run and fresh local data, `finalize` goes through
unless it must declare `D` over another variable: it takes the stiffness tensor path exactly
with constant storage, and appends the blocks of `Config.finalizedKinds`. These carry `D`,
computed once, with constant storage and Lamé coefficients, and the stress block at mid step
and at the end of the step. -/
theorem run_finalize_eq {w : Workbench} {c : Config} (hc : w.brick.config = some c)
    (hres : c.Resolved) (hi : w.brick.tracker.initialized = true)
    (hnil : w.brick.tracker.completed = []) (hlds : w.lds = {})
    (hD : c.storage = .constant → c.representation.isLame = true →
      checkReusable w.description .localVariable .stiffnessTensor Ident.stiffness = .ok ()) :
    ∃ w₂, finalize.run w = (.ok (), w₂) ∧
      BlocksAppended w.description w₂.description c.finalizedKinds ∧
      StatementsAppended w.description w₂.description .initializeLocalVariables
        (if c.storage = .constant ∧ c.representation.isLame then [c.storedStiffness] else []) ∧
      StatementsAppended w.description w₂.description .computeStress (c.stressBlock .midStep) ∧
      StatementsAppended w.description w₂.description .computeFinalStress
        (c.stressBlock .endOfStep) ∧
      w₂.brick.config = some c ∧ w₂.brick.tracker.initialized = true ∧
      w₂.brick.stressPath = some (if c.storage = .constant then .stiffnessTensor else .isotropic) := by
  unfold finalize
  obtain ⟨w₁, h₁, hb₁, hd₁, hl₁, hw₁⟩ :=
    run_declareElasticPrediction_eq (Tracker.checkHook_eq_ok hi (by simp [hnil])) hc
  have hc₁ : w₁.brick.config = some c := by rw [hw₁]; exact hc
  have hi₁ : w₁.brick.tracker.initialized = true := by
    simp [hw₁, Tracker.complete_initialized, hi]
  rw [Build.run_bind, h₁]
  dsimp only
  simp only [Build.run_bind, Build.run_brick, Build.run_ofExcept, Brick.storage, hc₁]
  have hops : ∀ k ∈ [BlockKind.initializeLocalVariables, .computeStress, .computeFinalStress],
      k ∉ [BlockKind.computeElasticPrediction] ∧
      k ∉ (if c.genericTangentOperator then [BlockKind.tangentOperator] else []) ++
        (if c.genericPredictionOperator then [BlockKind.predictionOperator] else []) := by
    intro k hk
    simp only [List.mem_cons, List.not_mem_nil, or_false] at hk
    rcases hk with rfl | rfl | rfl <;> split_ifs <;> simp
  cases hs : c.storage with
  | constant =>
    obtain ⟨w₂, h₂, hb₂, hI₂, hS₂, hF₂, -, hw₂⟩ := run_declareStressWithStiffnessTensor_eq
      (Tracker.checkHook_eq_ok hi₁ (by simp [hw₁, Tracker.complete, hnil])) hc₁ hs
      (fun hl => (checkReusable_congr (hd₁ _)).trans (hD hs hl))
    obtain ⟨w₃, h₃, hb₃, hc₃, hi₃, hp₃⟩ := run_operators_eq (w := w₂) (by rw [hw₂]; exact hc₁)
      (by simp [hw₂, Tracker.complete_initialized, hi₁]) (by simp [hw₂, hw₁, Tracker.complete, hnil])
      (by simp [hw₂, hw₁, Tracker.complete, hnil]) (by simp [hw₂])
    rw [Build.run_bind, h₂]
    refine ⟨w₃, h₃, ?_, ?_, ?_, ?_, hc₃, hi₃, by simp [hp₃, hw₂]⟩
    · simpa [Config.finalizedKinds, hs] using (hb₁.trans hb₂).trans hb₃
    · simpa using hI₂.around hb₁ hb₃ (hops _ (by simp))
    · exact hS₂.around hb₁ hb₃ (hops _ (by simp))
    · exact hF₂.around hb₁ hb₃ (hops _ (by simp))
  | fieldDependent =>
    have hl : c.representation.isLame = true := by
      cases hr : c.representation with
      | lame => rfl
      | stiffnessTensor => simp [hres.constant_of_stiffnessTensor hr] at hs
    obtain ⟨w₂, h₂, hb₂, hS₂, hF₂, hw₂⟩ := run_declareIsotropicStress_eq
      (Tracker.checkHook_eq_ok hi₁ (by simp [hw₁, Tracker.complete, hnil])) hc₁ hs hl
      (hl₁.trans hlds)
    obtain ⟨w₃, h₃, hb₃, hc₃, hi₃, hp₃⟩ := run_operators_eq (w := w₂) (by rw [hw₂]; exact hc₁)
      (by simp [hw₂, Tracker.complete_initialized, hi₁]) (by simp [hw₂, hw₁, Tracker.complete, hnil])
      (by simp [hw₂, hw₁, Tracker.complete, hnil]) (by simp [hw₂])
    rw [Build.run_bind, h₂]
    refine ⟨w₃, h₃, ?_, ?_, ?_, ?_, hc₃, hi₃, by simp [hp₃, hw₂]⟩
    · simpa [Config.finalizedKinds, hs] using (hb₁.trans hb₂).trans hb₃
    · simpa using StatementsAppended.of_blocksAppended ((hb₁.trans hb₂).trans hb₃) (by
        split_ifs <;> simp)
    · exact hS₂.around hb₁ hb₃ (hops _ (by simp))
    · exact hF₂.around hb₁ hb₃ (hops _ (by simp))

/-! ### The stress derivatives

The mid-step stress the derivatives start from is made of members: the degradation factor,
the stiffness of the members and the mid-step elastic strain. It has no `min`, and its one
applied stiffness mentions the Lamé members or `D`, never the elastic strain increment. The
Lamé coefficients are the Young modulus and the Poisson ratio at mid step, with a sum of
members put for each evolving variable, so they have no `min` when the properties have
none. -/

namespace Config

variable {α : Type} [Number α] (c : Config α)

theorem refusalFree_weight (v : Option String) : c.weight.refusalFree v := by
  unfold weight
  split <;> rfl

theorem refusalFree_atStage {e : Scalar α} (he : e.refusalFree none) (stage : Stage) :
    (c.atStage e stage).refusalFree none := by
  unfold atStage
  generalize c.evolving = l
  induction l generalizing e with
  | nil => exact he
  | cons p l ih =>
    rw [List.foldl_cons]
    apply ih
    obtain ⟨name, category⟩ := p
    dsimp only
    split
    · exact he
    · exact Scalar.refusalFree_substScalar (Scalar.refusalFree_mkAdd rfl
        (Scalar.refusalFree_mkMul (c.refusalFree_weight none) rfl)) _ he
    · exact Scalar.refusalFree_substScalar (Scalar.refusalFree_mkAdd rfl rfl) _ he
    · exact he

theorem refusalFree_lameCoefficients {e nu : Scalar α} (he : e.refusalFree none)
    (hn : nu.refusalFree none) :
    (lameCoefficients e nu).1.refusalFree none ∧ (lameCoefficients e nu).2.refusalFree none := by
  unfold lameCoefficients
  split
  · exact ⟨rfl, rfl⟩
  · simp only [Scalar.mul_eq_mkMul, Scalar.add_eq_mkAdd, Scalar.sub_eq_mkSub]
    open Scalar in
    exact ⟨refusalFree_mkDiv (refusalFree_mkMul he hn)
        (refusalFree_mkMul (refusalFree_mkAdd rfl hn) (refusalFree_mkSub rfl (refusalFree_mkMul rfl hn))),
      refusalFree_mkDiv he (refusalFree_mkMul rfl (refusalFree_mkAdd rfl hn))⟩

variable {c}

theorem refusalFree_lame
    (hmin : ∀ y nu, c.representation = .lame y nu → y.refusalFree none ∧ nu.refusalFree none)
    {stage : Stage} {l m : Scalar α} (h : c.lame stage = some (l, m)) :
    l.refusalFree none ∧ m.refusalFree none := by
  unfold lame at h
  split at h
  · rename_i y nu hr
    obtain ⟨hy, hnu⟩ := hmin y nu hr
    have hlm := refusalFree_lameCoefficients (c.refusalFree_atStage hy stage)
      (c.refusalFree_atStage hnu stage)
    rwa [Option.some.inj h] at hlm
  · cases h

variable (c)

theorem dependsOn_memberStiffness :
    c.memberStiffness.toTensor.dependsOn (increment Ident.elasticStrain) = false := by
  unfold memberStiffness
  split
  · simp only [Stiffness.toTensor, Stensor4.dependsOn, List.contains_eq_mem, decide_eq_false_iff_not]
    intro hm
    rcases Stensor4.mem_names_isotropic hm with hm | hm <;>
      simp [Scalar.member, Scalar.names, increment, Ident.elasticStrain, Ident.lambda, Ident.mu] at hm
  · rfl

theorem refusalFree_degradationFactor {v : Option String} :
    (c.degradationFactor .midStep).refusalFree v := by
  unfold degradationFactor Degradation.factor
  split
  · rfl
  · simp only [if_true, Scalar.add_eq_mkAdd, Scalar.mul_eq_mkMul, Scalar.sub_eq_mkSub]
    exact Scalar.refusalFree_mkSub rfl
      (Scalar.refusalFree_mkAdd rfl (Scalar.refusalFree_mkMul (c.refusalFree_weight _) rfl))

theorem refusalFree_midStepStress :
    c.midStepStress.refusalFree (some (increment Ident.elasticStrain)) := by
  unfold midStepStress midStep degradationFactor
  simp only [Stensor.hMul_eq_mkScale, Stensor.hMul_eq_mkApply, Stensor.add_eq_mkAdd]
  refine Stensor.refusalFree_mkScale ?factor (Stensor.refusalFree_mkApply ?free ?stiffness ?strain)
  case factor => exact c.refusalFree_degradationFactor
  case free => simp [c.dependsOn_memberStiffness]
  case stiffness =>
    unfold memberStiffness
    split
    · exact Stensor4.refusalFree_isotropic rfl rfl
    · rfl
  case strain => exact Stensor.refusalFree_mkAdd rfl (Stensor.refusalFree_mkScale (c.refusalFree_weight _) rfl)

variable {c}

/-- Every `min` of the Lamé coefficients at mid step is steady in the increment of each state
variable the properties read: both its operands' derivatives in that increment fold to zero. -/
def propertiesSteady (c : Config α) : Bool :=
  match c.lame .midStep with
  | some (l, m) => c.stateDependencies.all fun x =>
      l.minsSteady (increment x) && m.minsSteady (increment x)
  | none => true

theorem throughProperties_ok_iff (x : String) :
    (∃ t, c.throughProperties c.midStepStress x = .ok t) ↔
      (x ∈ c.stateDependencies → ∀ l m, c.lame .midStep = some (l, m) →
        l.minsSteady (increment x) = true ∧ m.minsSteady (increment x) = true) := by
  unfold throughProperties
  by_cases hx : x ∈ c.stateDependencies
  · rcases hl : c.lame .midStep with _ | ⟨l, m⟩
    · simp [hx]
    -- the stress has derivatives in the members, so only the coefficients may refuse
    have hs := c.refusalFree_midStepStress
    obtain ⟨sl, hsl⟩ := Stensor.dScalar_ok (x := Ident.lambda) c.midStepStress hs
    obtain ⟨sm, hsm⟩ := Stensor.dScalar_ok (x := Ident.mu) c.midStepStress hs
    rcases hdl : l.dScalar (increment x) with el | dl <;>
      rcases hdm : m.dScalar (increment x) with em | dm <;>
      simp [hx, hsl, hsm, hdl, hdm, liftExpr, Except.mapError, ← Scalar.dScalar_ok_iff]
  · simp [hx]

theorem throughProperties_ok_of_not_mem {x : String} (hx : x ∉ c.stateDependencies) :
    ∃ t, c.throughProperties c.midStepStress x = .ok t :=
  (throughProperties_ok_iff x).mpr fun h => absurd h hx

theorem propertiesSteady_iff :
    c.propertiesSteady = true ↔ ∀ x, ∃ t, c.throughProperties c.midStepStress x = .ok t := by
  simp only [throughProperties_ok_iff, propertiesSteady]
  split
  · rename_i l m hl
    simp [hl]
  · rename_i hl
    simp [hl]

theorem derivativeEntries_ok_iff (d : Description) :
    (∃ es, c.derivativeEntries d = .ok es) ↔ c.propertiesSteady = true := by
  have hs := c.refusalFree_midStepStress
  obtain ⟨g, hg⟩ := Stensor.dStensor_ok c.midStepStress hs
  rw [propertiesSteady_iff]
  unfold derivativeEntries
  simp only [except_ok_bind, pure_bind, hg, liftExpr, Except.mapError]
  rcases hv : c.degradation.damage? with _ | v
  · -- without damage, each state variable read has an entry of its own
    simp only [except_bind_pure_ok_iff, except_mapM_ok_iff]
    refine ⟨fun h x => ?_, fun h x _ => h x⟩
    by_cases hx : x ∈ c.stateDependencies
    · exact h x (List.mem_filter.mpr ⟨hx, by simp⟩)
    · exact throughProperties_ok_of_not_mem hx
  · -- the damage entry takes the chain rule in the damage variable, the others their own
    obtain ⟨a, ha⟩ := Stensor.dScalar_ok (x := increment v) c.midStepStress hs
    simp only [ha, except_ok_bind, except_bind₂_pure_ok_iff, except_mapM_ok_iff,
      except_bind_pure_ok_iff]
    refine ⟨?_, fun h => ⟨h v, fun x _ => h x⟩⟩
    rintro ⟨hdam, hrest⟩ x
    by_cases hxv : x = v
    · exact hxv ▸ hdam
    by_cases hx : x ∈ c.stateDependencies
    · exact hrest x (List.mem_filter.mpr ⟨hx, by simpa using hxv⟩)
    · exact throughProperties_ok_of_not_mem hx

theorem propertiesSteady_of_refusalFree
    (hmin : ∀ y nu, c.representation = .lame y nu → y.refusalFree none ∧ nu.refusalFree none) :
    c.propertiesSteady = true := by
  unfold propertiesSteady
  split
  · rename_i l m hlm
    obtain ⟨hl, hm⟩ := refusalFree_lame hmin hlm
    simp only [List.all_eq_true, Bool.and_eq_true]
    exact fun x _ => ⟨(Scalar.dScalar_ok_iff l).mp (Scalar.dScalar_ok l hl),
      (Scalar.dScalar_ok_iff m).mp (Scalar.dScalar_ok m hm)⟩
  · rfl

theorem derivativeEntries_ok (d : Description)
    (hmin : ∀ y nu, c.representation = .lame y nu → y.refusalFree none ∧ nu.refusalFree none) :
    ∃ es, c.derivativeEntries d = .ok es :=
  (derivativeEntries_ok_iff d).mpr (propertiesSteady_of_refusalFree hmin)

end Config

/-- The stress derivatives of an initialized brick are all found exactly when its properties
are steady. -/
theorem stressDerivatives_ok_iff {b : Brick} {c : Config} (d : Description)
    (hi : b.tracker.initialized = true) (hc : b.config = some c) :
    (∃ ds, b.stressDerivatives d = .ok ds) ↔ c.propertiesSteady = true := by
  unfold stressDerivatives
  simp only [Tracker.requireInitialized, hi, if_true, Brick.getConfig, hc, except_ok_bind]
  exact Config.derivativeEntries_ok_iff d

/-- A configuration whose Young modulus `young` may read the state variable `p`. -/
def stateModulusConfig (young : Scalar) : Config :=
  { representation := .lame young (Scalar.member "nu"), storage := .fieldDependent,
    fieldDependent := true, stateDependencies := ["p"], thermalExpansion := none,
    planeStress := false, genericTangentOperator := true, genericPredictionOperator := true,
    degradation := .none, implicit := true, evolving := [("p", .stateVariable)] }

-- a `min` of members the state does not move is steady; `min(p, 2)` is not
example : (stateModulusConfig (.add (.min (Scalar.member "E0") (Scalar.member "E1"))
    (Scalar.member "p"))).propertiesSteady = true := by decide

example : (stateModulusConfig (.min (Scalar.member "p") (.const 2))).propertiesSteady = false := by
  decide

theorem stressDerivatives_eq_ok {b : Brick} {c : Config} (d : Description)
    (hi : b.tracker.initialized = true) (hc : b.config = some c)
    (hmin : ∀ y nu, c.representation = .lame y nu → y.refusalFree none ∧ nu.refusalFree none) :
    ∃ ds, b.stressDerivatives d = .ok ds :=
  (stressDerivatives_ok_iff d hi hc).mpr (Config.propertiesSteady_of_refusalFree hmin)

/-- From a fresh brick, once initialization goes through, `finalize` on fresh local data goes
through whenever the stiffness tensor `D` it may declare is free or already a stiffness tensor
local variable: initialization declares the Lamé coefficients but never `D`, which is
reserved. -/
theorem run_finalize_after_configure {d : Description} {p : Potential} {data : DataMap}
    {w₁ : Workbench} {c : Config}
    (hw : (configure data).run { description := d, brick := Brick.new p } = (.ok (), w₁))
    (hc : w₁.brick.config = some c)
    (hD : c.storage = .constant → c.representation.isLame = true →
      checkReusable d .localVariable .stiffnessTensor Ident.stiffness = .ok ()) :
    ∃ w₂, finalize.run { w₁ with lds := {} } = (.ok (), w₂) ∧
      BlocksAppended w₁.description w₂.description c.finalizedKinds ∧
      StatementsAppended w₁.description w₂.description .initializeLocalVariables
        (if c.storage = .constant ∧ c.representation.isLame then [c.storedStiffness] else []) ∧
      StatementsAppended w₁.description w₂.description .computeStress (c.stressBlock .midStep) ∧
      StatementsAppended w₁.description w₂.description .computeFinalStress
        (c.stressBlock .endOfStep) ∧
      w₂.brick.config = some c ∧ w₂.brick.tracker.initialized = true ∧
      w₂.brick.stressPath = some (if c.storage = .constant then .stiffnessTensor else .isotropic) := by
  obtain ⟨c', hres, hg, hdecl, -, hb, -⟩ := configure_eq_ok hw
  obtain rfl : c' = c := by simpa [hb] using hc
  have hfree : c'.representation.isLame = true → Ident.stiffness ∉ c'.declaredNames := by
    intro hl hm
    obtain ⟨y, nu, hr⟩ := Representation.eq_lame_of_isLame hl
    simp only [Config.declaredNames, hr, List.mem_append, List.mem_cons, List.not_mem_nil,
      Option.mem_toList, or_false] at hm
    rcases hm with ((h | h) | h | h) | h
    · exact absurd h (by decide)
    · exact absurd (hg _ h) (by decide)
    all_goals exact absurd h (by decide)
  exact run_finalize_eq (w := { w₁ with lds := {} }) hc hres (by simp [hb])
    (by simp [hb, Brick.new]) rfl
    (fun hs hl => (checkReusable_congr (hdecl _ (hfree hl))).trans (hD hs hl))

/-- Everything a compilation needs is checked by initialization but one name, and one
kind of property. From a fresh brick, once initialization goes through, `finalize` on fresh
local data goes through whenever the stiffness tensor `D` it may declare is free or already
a stiffness tensor local variable: it takes the stiffness tensor path exactly with constant
storage and appends one block of each kind of `Config.finalizedKinds`, in order. The stress
derivatives then all exist exactly when the properties are steady: every `min` of the Lamé
coefficients at mid step has operands whose derivatives in the increment of each state
variable read fold to zero. -/
theorem finalize_succeeds_after_configure {d : Description} {p : Potential} {data : DataMap}
    {w₁ : Workbench} {c : Config}
    (hw : (configure data).run { description := d, brick := Brick.new p } = (.ok (), w₁))
    (hc : w₁.brick.config = some c)
    (hD : c.storage = .constant → c.representation.isLame = true →
      checkReusable d .localVariable .stiffnessTensor Ident.stiffness = .ok ()) :
    ∃ w₂, finalize.run { w₁ with lds := {} } = (.ok (), w₂) ∧
      BlocksAppended w₁.description w₂.description c.finalizedKinds ∧
      w₂.brick.stressPath = some (if c.storage = .constant then .stiffnessTensor else .isotropic) ∧
      ((∃ ds, w₂.brick.stressDerivatives w₂.description = .ok ds) ↔ c.propertiesSteady = true) := by
  obtain ⟨w₂, h₂, hb₂, -, -, -, hc₂, hi₂, hp₂⟩ := run_finalize_after_configure hw hc hD
  exact ⟨w₂, h₂, hb₂, hp₂, stressDerivatives_ok_iff w₂.description hi₂ hc₂⟩

/-- The code a compilation writes is the code the stages of a step are proved about. Once
initialization and `finalize` go through from a fresh brick, the InitializeLocalVariables
blocks they append carry `Config.initialization`: the Lamé members set once, then `D` when
the stress goes through a stored tensor. The ComputeStress and ComputeFinalStress blocks carry
the stress block at mid step and at the end of the step, on the path the storage chooses. -/
theorem compiled_blocks_carry_stages {d : Description} {p : Potential} {data : DataMap}
    {w₁ : Workbench} {c : Config}
    (hw : (configure data).run { description := d, brick := Brick.new p } = (.ok (), w₁))
    (hc : w₁.brick.config = some c)
    (hD : c.storage = .constant → c.representation.isLame = true →
      checkReusable d .localVariable .stiffnessTensor Ident.stiffness = .ok ()) :
    ∃ w₂, finalize.run { w₁ with lds := {} } = (.ok (), w₂) ∧
      StatementsAppended d w₂.description .initializeLocalVariables c.initialization ∧
      StatementsAppended d w₂.description .computeStress (c.stressBlock .midStep) ∧
      StatementsAppended d w₂.description .computeFinalStress (c.stressBlock .endOfStep) := by
  obtain ⟨c', -, -, -, -, hb, hB₁, hI₁⟩ := configure_eq_ok hw
  obtain rfl : c' = c := by simpa [hb] using hc
  obtain ⟨w₂, h₂, -, hI₂, hS₂, hF₂, -⟩ := run_finalize_after_configure hw hc hD
  have hnone : ∀ k ∈ [BlockKind.computeStress, .computeFinalStress],
      k ∉ (if c'.initialLame.isEmpty then [] else [BlockKind.initializeLocalVariables]) ++
        [.integrator] := by
    intro k hk
    simp only [List.mem_cons, List.not_mem_nil, or_false] at hk
    rcases hk with rfl | rfl <;> split_ifs <;> simp
  refine ⟨w₂, h₂, hI₁.trans hI₂, ?_, ?_⟩
  · simpa using (StatementsAppended.of_blocksAppended hB₁ (hnone _ (by simp))).trans hS₂
  · simpa using (StatementsAppended.of_blocksAppended hB₁ (hnone _ (by simp))).trans hF₂

/-- A behaviour declaring its Young modulus `E` and its Poisson ratio `nu` as material
properties known to solvers. -/
def declaredElasticity : Description :=
  { Description.new "Elastic" .implicit with
    declarations := (Description.new "Elastic" .implicit).declarations ++
      [(.materialProperty, { type := .stress, name := "E", entryName := some "YoungModulus" }),
       (.materialProperty, { type := .real, name := "nu", entryName := some "PoissonRatio" })] }

/-- The same behaviour with one more material property, named `D`. -/
def declaredElasticityAndD : Description :=
  { declaredElasticity with
    declarations := declaredElasticity.declarations ++
      [(.materialProperty, { type := .real, name := "D" })] }

/-- A Hooke brick over a behaviour that declares its elastic properties, with the stiffness
tensor stored once: `finalize` goes through with every block, and the stress derivatives are
found, the properties having no `min`. -/
theorem finalize_succeeds_on_declared_elasticity :
    ∃ w₂, finalize.run { ((configure [(Opt.stiffnessTensorStorage, .str "constant")]).run
          { description := declaredElasticity, brick := Brick.new .hooke }).2 with lds := {} } =
        (.ok (), w₂) ∧
      BlocksAppended ((configure [(Opt.stiffnessTensorStorage, .str "constant")]).run
          { description := declaredElasticity, brick := Brick.new .hooke }).2.description
        w₂.description
        [.computeElasticPrediction, .initializeLocalVariables, .computeStress, .computeFinalStress,
          .tangentOperator, .predictionOperator] ∧
      w₂.brick.stressPath = some .stiffnessTensor ∧
      ∃ ds, w₂.brick.stressDerivatives w₂.description = .ok ds := by
  obtain ⟨w₂, h₂, hb₂, hp₂, hds⟩ := @finalize_succeeds_after_configure declaredElasticity .hooke
    [(Opt.stiffnessTensorStorage, .str "constant")]
    ((configure [(Opt.stiffnessTensorStorage, .str "constant")]).run
      { description := declaredElasticity, brick := Brick.new .hooke }).2
    { representation := .lame (Scalar.member "E") (Scalar.member "nu"), storage := .constant,
      fieldDependent := false, stateDependencies := [], thermalExpansion := none,
      planeStress := false, genericTangentOperator := true, genericPredictionOperator := true,
      degradation := .none, implicit := true, evolving := [] }
    (Prod.ext rfl rfl) rfl (fun _ _ => rfl)
  exact ⟨w₂, h₂, hb₂, hp₂, hds.mpr rfl⟩

/-- Initialization does not check the name `D`: over a behaviour that declares a material
property `D`, a Hooke brick with the stiffness tensor stored once initializes, and `finalize`
then fails to declare `D`, after the elastic prediction block. -/
theorem finalize_refuses_declared_stiffness_name :
    ((configure [(Opt.stiffnessTensorStorage, .str "constant")]).run
        { description := declaredElasticityAndD, brick := Brick.new .hooke }).1 = .ok () ∧
      (finalize.run { ((configure [(Opt.stiffnessTensorStorage, .str "constant")]).run
          { description := declaredElasticityAndD, brick := Brick.new .hooke }).2 with lds := {} }).1 =
        .error (.behaviour (.duplicateVariable "D")) :=
  ⟨rfl, rfl⟩

end Elasto.Brick
