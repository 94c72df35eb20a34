import Mathlib
import Elasto.Brick.Config
import Elasto.Proofs.Exact
import Elasto.Proofs.Refusal

/-!
# Running the stress statements

Over the reals no value needs a finiteness check, so a list of statements runs as soon as
every expression in it evaluates. The strain a stress is computed from reads `eel`, `deel`
and `theta` only, and the degradation factor the damage variable, its increment and
`theta`: setting the Lamé coefficients, the stored stiffness tensor or the scratch factor
leaves both as they were. Each way the brick computes the stress then runs to the
isotropic law `λ tr(ε) I + 2μ ε` scaled by the degradation factor, which gives the main
statement: the stress through the stiffness tensor stored once and the stress by the
isotropic law are the same.
-/

namespace Elasto.Code

open Elasto.Tensor

section Execution

variable {α : Type} [Number α]

/-- Runs statements in exact arithmetic, where every value passes. -/
def executeExact (stmts : List (Statement α)) (env : Env α) : Except ExprError (Env α) :=
  executeWith (fun _ => pure ()) stmts env

@[simp] theorem executeExact_nil (env : Env α) : executeExact [] env = .ok env := rfl

theorem executeExact_append (ss ts : List (Statement α)) (env : Env α) :
    executeExact (ss ++ ts) env = executeExact ss env >>= executeExact ts :=
  List.foldlM_append ..

theorem executeExact_assign_set {env : Env α} {e : Expr α} {v : Value α}
    (he : e.eval env = .ok v) (t : Symbol) (rest : List (Statement α)) :
    executeExact (.assign t .set e :: rest) env = executeExact rest (env.set t.name v) := by
  simp [executeExact, executeWith, Statement.execWith, he]

end Execution

end Elasto.Code

namespace Elasto.Tensor

section Names

theorem mem_insertName {x y : String} {ys : List String} :
    x ∈ insertName y ys ↔ x = y ∨ x ∈ ys := by
  induction ys with
  | nil => simp [insertName]
  | cons z zs ih =>
    unfold insertName
    split_ifs with hlt heq
    · simp
    · subst heq
      simp
    · simp only [List.mem_cons, ih]
      tauto

theorem mem_sortedNames {x : String} {xs : List String} : x ∈ sortedNames xs ↔ x ∈ xs := by
  induction xs with
  | nil => simp [sortedNames]
  | cons y ys ih =>
    rw [sortedNames, List.foldr_cons, mem_insertName, ← sortedNames, ih, List.mem_cons]

theorem Scalar.mem_symbols {α : Type} {e : Scalar α} {n : String} : n ∈ e.symbols ↔ n ∈ e.names :=
  mem_sortedNames

variable {α : Type} [Number α] {n : String}

theorem Scalar.mem_names_mkNeg {a : Scalar α} (h : n ∈ (Scalar.mkNeg a).names) : n ∈ a.names := by
  unfold Scalar.mkNeg at h
  split at h <;> simp_all [Scalar.names]

theorem Scalar.mem_names_mkAdd {a b : Scalar α} (h : n ∈ (Scalar.mkAdd a b).names) :
    n ∈ a.names ∨ n ∈ b.names := by
  unfold Scalar.mkAdd at h
  split at h <;> (try split_ifs at h) <;> simp_all [Scalar.names]

theorem Scalar.mem_names_add {a b : Scalar α} : n ∈ (a + b).names ↔ n ∈ a.names ∨ n ∈ b.names := by
  refine ⟨Scalar.mem_names_mkAdd, fun h => ?_⟩
  show n ∈ (Scalar.mkAdd a b).names
  unfold Scalar.mkAdd
  split <;> (try split_ifs) <;> simp_all [Scalar.names]

theorem Scalar.mem_names_mkDiv {a b : Scalar α} (h : n ∈ (Scalar.mkDiv a b).names) :
    n ∈ a.names ∨ n ∈ b.names := by
  unfold Scalar.mkDiv at h
  split at h <;> (try split_ifs at h) <;> simp_all [Scalar.names, Scalar.zero]

theorem Scalar.mem_names_mkSub {a b : Scalar α} (h : n ∈ (Scalar.mkSub a b).names) :
    n ∈ a.names ∨ n ∈ b.names := by
  unfold Scalar.mkSub at h
  split at h <;> (try split_ifs at h)
  all_goals first
    | exact .inr (Scalar.mem_names_mkNeg h)
    | simp_all [Scalar.names]

omit [Number α] in
theorem Stensor.mem_names_mkAdd {t u : Stensor α} (h : n ∈ (Stensor.mkAdd t u).names) :
    n ∈ t.names ∨ n ∈ u.names := by
  unfold Stensor.mkAdd at h
  split at h <;> simp_all [Stensor.names]

theorem Stensor.mem_names_mkScale {s : Scalar α} {t : Stensor α}
    (h : n ∈ (Stensor.mkScale s t).names) : n ∈ s.names ∨ n ∈ t.names := by
  unfold Stensor.mkScale at h
  split_ifs at h
  · simp [Stensor.names] at h
  · exact .inr h
  · split at h
    · simp only [Stensor.names, List.mem_append] at h ⊢
      rcases h with h | h
      · rcases Scalar.mem_names_mkMul h with h | h <;> simp [h]
      · simp [h]
    · simpa [Stensor.names] using h

end Names

section Frame

open Elasto.Mandel

variable {env : Env ℝ} {n : String} {x : Value ℝ}

theorem Scalar.eval_member {v : ℝ} (h : env.get? n = some (.scalar v)) :
    (Scalar.member n).eval env = .ok v := by
  simp [Scalar.member, Scalar.eval, Env.scalar, Env.lookup, h]

theorem Scalar.eval_temp {v : ℝ} (h : env.get? n = some (.scalar v)) :
    (Scalar.temp n).eval env = .ok v := by
  simp [Scalar.temp, Scalar.eval, Env.scalar, Env.lookup, h]

theorem Stensor4.eval_member {C : Mat6 ℝ} (h : env.get? n = some (.stensor4 C)) :
    (Stensor4.member n).eval env = .ok C := by
  simp [Stensor4.member, Stensor4.eval, Env.stensor4, Env.lookup, h]

end Frame

end Elasto.Tensor

namespace Elasto.Brick

open Elasto.Behaviour Elasto.Tensor Elasto.Code Elasto.Mandel

/-- The members and temporaries the stress statements set before the stress itself. -/
def scratchNames : List String :=
  [Ident.lambda, Ident.mu, Ident.stiffness, Ident.degradationFactor, Ident.lambdaEndOfStep,
    Ident.muEndOfStep]

theorem increment_not_mem_scratchNames (v : String) : increment v ∉ scratchNames := by
  intro h
  simp only [scratchNames, List.mem_cons, List.not_mem_nil, or_false] at h
  rcases h with h | h | h | h | h | h <;>
    simpa [increment, Ident.lambda, Ident.mu, Ident.stiffness, Ident.degradationFactor,
      Ident.lambdaEndOfStep, Ident.muEndOfStep] using congrArg String.toList h

theorem mem_names_lameCoefficients_snd {α : Type} [Number α] {y p : Scalar α} {n : String}
    (h : n ∈ (lameCoefficients y p).2.names) : n ∈ y.names ∨ n ∈ p.names := by
  unfold lameCoefficients at h
  split at h
  · simp [Scalar.names] at h
  · rcases Scalar.mem_names_mkDiv h with h | h
    · exact .inl h
    rcases Scalar.mem_names_mkMul h with h | h
    · simp [Scalar.num, Scalar.names] at h
    rcases Scalar.mem_names_mkAdd h with h | h
    · simp [Scalar.one, Scalar.names] at h
    · exact .inr h

/-- An environment that differs from another at most at scratch names. -/
def AgreeOffScratch {α : Type} (env env' : Env α) : Prop :=
  ∀ n, n ∉ scratchNames → env'.get? n = env.get? n

theorem AgreeOffScratch.refl {α : Type} (env : Env α) : AgreeOffScratch env env := fun _ _ => rfl

theorem AgreeOffScratch.set {α : Type} {env env' : Env α} (h : AgreeOffScratch env env')
    {n : String} (hn : n ∈ scratchNames) (x : Value α) : AgreeOffScratch env (env'.set n x) :=
  fun m hm => by rw [Env.get?_set, if_neg fun (h' : n = m) => hm (h' ▸ hn)]; exact h m hm

namespace Config

section Names

variable {α : Type} [Number α] {c : Config α} {stage : Stage} {n : String}

theorem mem_names_weight (h : n ∈ c.weight.names) : n = thetaName := by
  unfold weight at h
  split at h <;> simp_all [Scalar.member, Scalar.zero, Scalar.names]

theorem mem_names_strainAt (h : n ∈ (c.strainAt stage).names) :
    n = Ident.elasticStrain ∨ n = increment Ident.elasticStrain ∨ n = thetaName := by
  unfold strainAt midStep at h
  split at h
  · rcases Stensor.mem_names_mkAdd h with h | h
    · simp_all [Stensor.member, Stensor.names]
    · rcases Stensor.mem_names_mkScale h with h | h
      · exact .inr (.inr (mem_names_weight h))
      · simp_all [Stensor.member, Stensor.names]
  · simp_all [Stensor.member, Stensor.names]

theorem mem_names_degradationFactor (h : n ∈ (c.degradationFactor stage).names) :
    n = thetaName ∨ ∃ v ∈ c.degradation.damage?, n = v ∨ n = increment v := by
  unfold degradationFactor Degradation.factor at h
  split at h
  · simp [Scalar.one, Scalar.names] at h
  · rename_i v _ hg
    rcases Scalar.mem_names_mkSub h with h | h
    · simp [Scalar.one, Scalar.names] at h
    split_ifs at h
    · rcases Scalar.mem_names_mkAdd h with h | h
      · simp_all [Scalar.member, Scalar.names, Degradation.damage?]
      · rcases Scalar.mem_names_mkMul h with h | h
        · exact .inl (mem_names_weight h)
        · simp_all [Scalar.member, Scalar.names, Degradation.damage?]
    · simp_all [Scalar.member, Scalar.names, Degradation.damage?]

theorem not_mem_scratchNames_of_strainAt (h : n ∈ (c.strainAt stage).names) :
    n ∉ scratchNames := by
  rcases mem_names_strainAt h with rfl | rfl | rfl <;> decide

theorem not_mem_scratchNames_of_degradationFactor
    (hd : ∀ v ∈ c.degradation.damage?, v ∉ scratchNames)
    (h : n ∈ (c.degradationFactor stage).names) : n ∉ scratchNames := by
  intro hn
  rcases mem_names_degradationFactor h with rfl | ⟨v, hv, rfl | rfl⟩
  · revert hn; decide
  · exact hd n hv hn
  · exact increment_not_mem_scratchNames v hn

end Names

section Scratch

variable {c : Config ℝ} {stage : Stage} {env env' : Env ℝ}

theorem eval_strainAt_of_agree (h : AgreeOffScratch env env') :
    (c.strainAt stage).eval env' = (c.strainAt stage).eval env :=
  Stensor.eval_congr _ fun n hn => h n (not_mem_scratchNames_of_strainAt hn)

theorem eval_degradationFactor_of_agree (hd : ∀ v ∈ c.degradation.damage?, v ∉ scratchNames)
    (h : AgreeOffScratch env env') :
    (c.degradationFactor stage).eval env' = (c.degradationFactor stage).eval env :=
  Scalar.eval_congr _ fun n hn => h n (not_mem_scratchNames_of_degradationFactor hd hn)

end Scratch

theorem atStage_beginningOfStep {α : Type} [Number α] (c : Config α) (e : Scalar α) :
    c.atStage e .beginningOfStep = e := by
  unfold atStage
  induction c.evolving generalizing e with
  | nil => rfl
  | cons x xs ih => exact ih e

theorem initialLame_of_static {α : Type} [Number α] {c : Config α} {y p : Scalar α}
    (hrep : c.representation = .lame y p) (hs : c.fieldDependent = false) :
    c.initialLame = [setMember Ident.lambda (.scalar (lameCoefficients y p).1),
      setMember Ident.mu (.scalar (lameCoefficients y p).2)] := by
  simp [initialLame, lame, hrep, hs, atStage_beginningOfStep]

end Config

section Exact

variable {env : Env ℝ}

/-- Hooke's isotropic law `λ tr(ε) I + 2μ ε`. -/
def isotropicLaw (l m : ℝ) (e : Vec6 ℝ) : Vec6 ℝ :=
  Vec6.add (Vec6.scale (l * Vec6.trace e) Vec6.identity) (Vec6.scale ((2 : ℕ) * m) e)

/-- The isotropic stiffness tensor `λ I⊗I + 2μ Id`. -/
def isotropicTensor (l m : ℝ) : Mat6 ℝ :=
  Mat6.add (Mat6.scale l Mat6.ixi) (Mat6.scale ((2 : ℕ) * m) Mat6.id)

theorem apply_isotropicTensor (l m : ℝ) (e : Vec6 ℝ) :
    Mat6.apply (isotropicTensor l m) e = isotropicLaw l m e := by
  rw [isotropicTensor, Mat6.apply_add_left, Mat6.apply_scale_left, Mat6.apply_scale_left,
    Mat6.apply_ixi, Mat6.apply_id, Vec6.scale_scale, isotropicLaw]

theorem Stensor4.eval_isotropic {l m : Scalar ℝ} {Λ M : ℝ} (hl : l.eval env = .ok Λ)
    (hm : m.eval env = .ok M) : (Stensor4.isotropic l m).eval env = .ok (isotropicTensor Λ M) := by
  have h2 := Scalar.eval_mkMul (@Scalar.eval_num env 2) hm
  rw [Stensor4.isotropic, Stensor4.eval_mkAdd (Stensor4.eval_mkScale hl rfl)
    (Stensor4.eval_mkScale h2 rfl)]
  simp [isotropicTensor]

theorem Stiffness.eval_apply_lame {l m : Scalar ℝ} {e : Stensor ℝ} {Λ M : ℝ} {E : Vec6 ℝ}
    (hl : l.eval env = .ok Λ) (hm : m.eval env = .ok M) (he : e.eval env = .ok E) :
    ((Stiffness.lame l m).apply e).eval env = .ok (isotropicLaw Λ M E) := by
  have htr := Scalar.eval_mkMul hl (Scalar.eval_mkTrace he)
  have h2 := Scalar.eval_mkMul (@Scalar.eval_num env 2) hm
  simp only [Stiffness.apply, Stensor.add_eq_mkAdd, Stensor.hMul_eq_mkScale, Scalar.mul_eq_mkMul]
  rw [Stensor.eval_mkAdd (Stensor.eval_mkScale htr rfl) (Stensor.eval_mkScale h2 he)]
  simp [isotropicLaw]

theorem eval_lameCoefficients {y p : Scalar ℝ} {Y P : ℝ} (hy : y.eval env = .ok Y)
    (hp : p.eval env = .ok P) :
    (lameCoefficients y p).1.eval env = .ok (Numeric.Lame.ofYoungPoisson Y P).lambda ∧
      (lameCoefficients y p).2.eval env = .ok (Numeric.Lame.ofYoungPoisson Y P).mu := by
  unfold lameCoefficients
  split
  · rename_i e nu
    obtain rfl : e = Y := by simpa [Scalar.eval] using hy
    obtain rfl : nu = P := by simpa [Scalar.eval] using hp
    exact ⟨rfl, rfl⟩
  · have h1 := Scalar.eval_mkAdd (@Scalar.eval_one env) hp
    have h2 := Scalar.eval_mkMul (@Scalar.eval_num env 2) hp
    simp only [Scalar.add_eq_mkAdd, Scalar.sub_eq_mkSub, Scalar.mul_eq_mkMul]
    exact ⟨Scalar.eval_mkDiv (Scalar.eval_mkMul hy hp)
        (Scalar.eval_mkMul h1 (Scalar.eval_mkSub Scalar.eval_one h2)),
      Scalar.eval_mkDiv hy (Scalar.eval_mkMul (Scalar.eval_num 2) h1)⟩

end Exact

namespace Config

section Runs

variable {c : Config ℝ} {stage : Stage} {env : Env ℝ} {y p : Scalar ℝ}

theorem run_initialLame (hrep : c.representation = .lame y p) (hs : c.fieldDependent = false)
    (hprops : ∀ n ∈ y.names ++ p.names, n ∉ scratchNames) {Y P : ℝ}
    (hy : y.eval env = .ok Y) (hp : p.eval env = .ok P) :
    executeExact c.initialLame env =
      .ok ((env.set Ident.lambda (.scalar (Numeric.Lame.ofYoungPoisson Y P).lambda)).set
        Ident.mu (.scalar (Numeric.Lame.ofYoungPoisson Y P).mu)) := by
  obtain ⟨hl, hm⟩ := eval_lameCoefficients hy hp
  have hfree : Ident.lambda ∉ (lameCoefficients y p).2.names := fun h =>
    hprops _ (List.mem_append.mpr (mem_names_lameCoefficients_snd h)) (by decide)
  rw [initialLame_of_static hrep hs, setMember, executeExact_assign_set (Expr.eval_scalar hl),
    setMember, executeExact_assign_set
      (Expr.eval_scalar ((Scalar.eval_set_of_not_mem hfree).trans hm))]
  rfl

theorem run_storedStiffness (hrep : c.representation = .lame y p) {Λ M : ℝ}
    (hl : env.get? Ident.lambda = some (.scalar Λ)) (hm : env.get? Ident.mu = some (.scalar M)) :
    executeExact [c.storedStiffness] env =
      .ok (env.set Ident.stiffness (.stensor4 (isotropicTensor Λ M))) := by
  have hD := Stensor4.eval_isotropic (Scalar.eval_member hl) (Scalar.eval_member hm)
  simp only [storedStiffness, memberStiffness, hrep, Stiffness.toTensor, setMember]
  rw [executeExact_assign_set (Expr.eval_stensor4 hD)]
  rfl

/-- The degraded stress of a stiffness applied to a strain, with the factor inline or first
computed into its scratch temporary. -/
theorem run_degradedStress {s : Stiffness ℝ} {e : Stensor ℝ} (scratch : Bool) {F : ℝ}
    {S : Vec6 ℝ} (hF : (c.degradationFactor stage).eval env = .ok F)
    (hS : (s.apply e).eval env = .ok S)
    (hS' : (s.apply e).eval (env.set Ident.degradationFactor (.scalar F)) = .ok S) :
    ∃ env', executeExact (c.degradedStress stage s e scratch) env = .ok env' ∧
      env'.get? Ident.stress = some (.stensor (Vec6.scale F S)) := by
  unfold degradedStress
  split
  · rename_i hg
    obtain rfl : 1 = F := by simpa [degradationFactor, Degradation.factor, hg] using hF
    refine ⟨env.set Ident.stress (.stensor S), ?_, by simp⟩
    rw [setMember, executeExact_assign_set (Expr.eval_stensor hS)]
    rfl
  · cases scratch with
    | false =>
      refine ⟨env.set Ident.stress (.stensor (Vec6.scale F S)), ?_, by simp⟩
      rw [if_neg Bool.false_ne_true, setMember, Stensor.hMul_eq_mkScale,
        executeExact_assign_set (Expr.eval_stensor (Stensor.eval_mkScale hF hS))]
      rfl
    | true =>
      have hω : (env.set Ident.degradationFactor (.scalar F)).get? Ident.degradationFactor =
          some (.scalar F) := by simp
      refine ⟨(env.set Ident.degradationFactor (.scalar F)).set Ident.stress
        (.stensor (Vec6.scale F S)), ?_, by simp⟩
      rw [if_pos rfl, setTemp, executeExact_assign_set (Expr.eval_scalar hF), setMember,
        Stensor.hMul_eq_mkScale, executeExact_assign_set
          (Expr.eval_stensor (Stensor.eval_mkScale (Scalar.eval_temp hω) hS'))]
      rfl

theorem isotropicStress_of_static (hs : c.fieldDependent = false) (l m : Scalar ℝ) :
    c.isotropicStress stage l m =
      c.degradedStress stage c.memberStiffness (c.strainAt stage) true := by
  simp [isotropicStress, hs]

end Runs

section Paths

variable {c : Config ℝ} {stage : Stage} {env env₀ : Env ℝ} {y p : Scalar ℝ} {Λ M F : ℝ}
  {ε : Vec6 ℝ}

theorem run_tensorStress_of_stiffness {C : Mat6 ℝ} (hd : ∀ v ∈ c.degradation.damage?, v ∉ scratchNames)
    (hA : AgreeOffScratch env env₀) (hD : env₀.get? Ident.stiffness = some (.stensor4 C))
    (hε : (c.strainAt stage).eval env = .ok ε)
    (hF : (c.degradationFactor stage).eval env = .ok F) :
    ∃ env', executeExact (c.tensorStress stage) env₀ = .ok env' ∧
      env'.get? Ident.stress = some (.stensor (Vec6.scale F (Mat6.apply C ε))) := by
  have hS : ∀ {env'}, AgreeOffScratch env env' →
      env'.get? Ident.stiffness = some (.stensor4 C) →
      ((Stiffness.tensor (Stensor4.member Ident.stiffness)).apply (c.strainAt stage)).eval env' =
        .ok (Mat6.apply C ε) := fun hA' hget =>
    Stensor.eval_mkApply (Stensor4.eval_member hget) ((eval_strainAt_of_agree hA').trans hε)
  exact run_degradedStress false ((eval_degradationFactor_of_agree hd hA).trans hF) (hS hA hD)
    (hS (hA.set (by decide) _) (by rw [Env.get?_set, if_neg (by decide)]; exact hD))

/-- The stress through the stiffness tensor stored once, from the Lamé members `Λ` and `M`,
in an environment that differs from `env` at scratch names only. -/
theorem run_tensorStress (hrep : c.representation = .lame y p)
    (hd : ∀ v ∈ c.degradation.damage?, v ∉ scratchNames) (hA : AgreeOffScratch env env₀)
    (hl : env₀.get? Ident.lambda = some (.scalar Λ)) (hm : env₀.get? Ident.mu = some (.scalar M))
    (hε : (c.strainAt stage).eval env = .ok ε)
    (hF : (c.degradationFactor stage).eval env = .ok F) :
    ∃ env', executeExact ([c.storedStiffness] ++ c.tensorStress stage) env₀ = .ok env' ∧
      env'.get? Ident.stress = some (.stensor (Vec6.scale F (isotropicLaw Λ M ε))) := by
  have hD : (env₀.set Ident.stiffness (.stensor4 (isotropicTensor Λ M))).get? Ident.stiffness =
      some (.stensor4 (isotropicTensor Λ M)) := by
    rw [Env.get?_set, if_pos rfl]
  obtain ⟨env', hrun, hsig⟩ := run_tensorStress_of_stiffness hd (hA.set (by decide) _) hD hε hF
  refine ⟨env', ?_, by rw [hsig, apply_isotropicTensor]⟩
  rw [executeExact_append, run_storedStiffness hrep hl hm, except_ok_bind]
  exact hrun

theorem run_lameStress {ln mn : String} {sl sm : Scope} (hln : ln ≠ Ident.degradationFactor)
    (hmn : mn ≠ Ident.degradationFactor) (hd : ∀ v ∈ c.degradation.damage?, v ∉ scratchNames)
    (hA : AgreeOffScratch env env₀)
    (hl : env₀.get? ln = some (.scalar Λ)) (hm : env₀.get? mn = some (.scalar M))
    (hε : (c.strainAt stage).eval env = .ok ε)
    (hF : (c.degradationFactor stage).eval env = .ok F) :
    ∃ env', executeExact (c.degradedStress stage (.lame (.sym ⟨ln, sl⟩) (.sym ⟨mn, sm⟩))
        (c.strainAt stage) true) env₀ = .ok env' ∧
      env'.get? Ident.stress = some (.stensor (Vec6.scale F (isotropicLaw Λ M ε))) := by
  have hI : ∀ {env'}, AgreeOffScratch env env' →
      env'.get? ln = some (.scalar Λ) → env'.get? mn = some (.scalar M) →
      ((Stiffness.lame (.sym ⟨ln, sl⟩) (.sym ⟨mn, sm⟩)).apply (c.strainAt stage)).eval env' =
        .ok (isotropicLaw Λ M ε) := fun hA' hl' hm' =>
    Stiffness.eval_apply_lame (by simp [Scalar.eval, Env.scalar, Env.lookup, hl'])
      (by simp [Scalar.eval, Env.scalar, Env.lookup, hm']) ((eval_strainAt_of_agree hA').trans hε)
  exact run_degradedStress true ((eval_degradationFactor_of_agree hd hA).trans hF) (hI hA hl hm)
    (hI (hA.set (by decide) _) (by rw [Env.get?_set, if_neg (Ne.symm hln)]; exact hl)
      (by rw [Env.get?_set, if_neg (Ne.symm hmn)]; exact hm))

/-- The stress by the isotropic law of the Lamé members `Λ` and `M`, when the properties do
not evolve, in an environment that differs from `env` at scratch names only. -/
theorem run_isotropicStress_of_static (hrep : c.representation = .lame y p)
    (hs : c.fieldDependent = false) (hd : ∀ v ∈ c.degradation.damage?, v ∉ scratchNames)
    (l m : Scalar ℝ) (hA : AgreeOffScratch env env₀)
    (hl : env₀.get? Ident.lambda = some (.scalar Λ)) (hm : env₀.get? Ident.mu = some (.scalar M))
    (hε : (c.strainAt stage).eval env = .ok ε)
    (hF : (c.degradationFactor stage).eval env = .ok F) :
    ∃ env', executeExact (c.isotropicStress stage l m) env₀ = .ok env' ∧
      env'.get? Ident.stress = some (.stensor (Vec6.scale F (isotropicLaw Λ M ε))) := by
  rw [isotropicStress_of_static hs]
  simp only [memberStiffness, hrep, Scalar.member]
  exact run_lameStress (by decide) (by decide) hd hA hl hm hε hF

/-- The stress through the stiffness tensor stored once and the stress by the isotropic law
are the same, at every stage. Both run to the isotropic law of the Lamé coefficients of
the properties' values, applied to the strain at the stage and scaled by the degradation
factor there. -/
theorem storedStiffness_stress_eq_isotropic_stress (hrep : c.representation = .lame y p)
    (hs : c.fieldDependent = false) (hprops : ∀ n ∈ y.names ++ p.names, n ∉ scratchNames)
    (hd : ∀ v ∈ c.degradation.damage?, v ∉ scratchNames) (stage : Stage) (l m : Scalar ℝ)
    {Y P : ℝ} (hy : y.eval env = .ok Y) (hp : p.eval env = .ok P)
    (hε : (c.strainAt stage).eval env = .ok ε)
    (hF : (c.degradationFactor stage).eval env = .ok F) :
    ∃ env₁ env₂,
      executeExact (c.initialLame ++ [c.storedStiffness] ++ c.tensorStress stage) env = .ok env₁ ∧
      executeExact (c.initialLame ++ c.isotropicStress stage l m) env = .ok env₂ ∧
      env₁.get? Ident.stress = some (.stensor (Vec6.scale F (isotropicLaw
        (Numeric.Lame.ofYoungPoisson Y P).lambda (Numeric.Lame.ofYoungPoisson Y P).mu ε))) ∧
      env₂.get? Ident.stress = env₁.get? Ident.stress := by
  set L := Numeric.Lame.ofYoungPoisson Y P
  set env₀ := (env.set Ident.lambda (.scalar L.lambda)).set Ident.mu (.scalar L.mu)
  have hinit : executeExact c.initialLame env = .ok env₀ := run_initialLame hrep hs hprops hy hp
  have hA : AgreeOffScratch env env₀ :=
    ((AgreeOffScratch.refl env).set (by decide) _).set (by decide) _
  have hl : env₀.get? Ident.lambda = some (.scalar L.lambda) := by
    rw [Env.get?_set, if_neg (by decide), Env.get?_set, if_pos rfl]
  have hm : env₀.get? Ident.mu = some (.scalar L.mu) := by rw [Env.get?_set, if_pos rfl]
  obtain ⟨env₁, hrun₁, hsig₁⟩ := run_tensorStress hrep hd hA hl hm hε hF
  obtain ⟨env₂, hrun₂, hsig₂⟩ := run_isotropicStress_of_static hrep hs hd l m hA hl hm hε hF
  refine ⟨env₁, env₂, ?_, ?_, hsig₁, hsig₂.trans hsig₁.symm⟩
  · rw [List.append_assoc, executeExact_append, hinit, except_ok_bind]
    exact hrun₁
  · rw [executeExact_append, hinit, except_ok_bind]
    exact hrun₂

end Paths

end Config

end Elasto.Brick

namespace Elasto.Brick

open Elasto.Behaviour Elasto.Tensor Elasto.Code Elasto.Mandel

/-- A damaged material whose Young modulus and Poisson ratio are the members `E` and `nu`,
in an implicit scheme. -/
def dampedIsotropicConfig : Config ℝ where
  representation := .lame (Scalar.member "E") (Scalar.member "nu")
  storage := .constant
  fieldDependent := false
  stateDependencies := []
  thermalExpansion := none
  planeStress := false
  genericTangentOperator := true
  genericPredictionOperator := true
  degradation := .isotropic "d" ((99 / 100 : ℚ) : ℝ)
  implicit := true
  evolving := []

/-- The properties, the elastic strain and its increment, `theta`, the damage and its
increment. -/
noncomputable def dampedIsotropicEnv : Env ℝ where
  entries := [("E", .scalar (200 : ℚ)), ("nu", .scalar (1 / 4 : ℚ)),
    ("eel", .stensor #v[1, 0, 0, 0, 0, 0]), ("deel", .stensor #v[0, 1, 0, 0, 0, 1]),
    ("theta", .scalar (1 / 2 : ℚ)), ("d", .scalar (1 / 10 : ℚ)), ("dd", .scalar (1 / 5 : ℚ))]

/-- With damage `d + θ Δd = 1/5` at mid step, both computations give `4/5` of the isotropic
law of `E = 200` and `ν = 1/4` applied to `eel + θ Δeel`. -/
theorem storedStiffness_stress_eq_isotropic_stress_of_damped :
    dampedIsotropicConfig.representation = .lame (Scalar.member "E") (Scalar.member "nu") ∧
    dampedIsotropicConfig.fieldDependent = false ∧
    (∀ n ∈ (Scalar.member "E" : Scalar ℝ).names ++ (Scalar.member "nu" : Scalar ℝ).names,
      n ∉ scratchNames) ∧
    (∀ v ∈ dampedIsotropicConfig.degradation.damage?, v ∉ scratchNames) ∧
    (Scalar.member "E" : Scalar ℝ).eval dampedIsotropicEnv = .ok ((200 : ℚ) : ℝ) ∧
    (Scalar.member "nu" : Scalar ℝ).eval dampedIsotropicEnv = .ok ((1 / 4 : ℚ) : ℝ) ∧
    (dampedIsotropicConfig.strainAt .midStep).eval dampedIsotropicEnv =
      .ok (Vec6.add #v[1, 0, 0, 0, 0, 0] (Vec6.scale ((1 / 2 : ℚ) : ℝ) #v[0, 1, 0, 0, 0, 1])) ∧
    (dampedIsotropicConfig.degradationFactor .midStep).eval dampedIsotropicEnv =
      .ok (1 - (((1 / 10 : ℚ) : ℝ) + ((1 / 2 : ℚ) : ℝ) * ((1 / 5 : ℚ) : ℝ))) ∧
    ∃ env₁ env₂,
      executeExact (dampedIsotropicConfig.initialLame ++ [dampedIsotropicConfig.storedStiffness] ++
        dampedIsotropicConfig.tensorStress .midStep) dampedIsotropicEnv = .ok env₁ ∧
      executeExact (dampedIsotropicConfig.initialLame ++
        dampedIsotropicConfig.isotropicStress .midStep Scalar.zero Scalar.zero)
        dampedIsotropicEnv = .ok env₂ ∧
      env₁.get? Ident.stress = some (.stensor (Vec6.scale
        (1 - (((1 / 10 : ℚ) : ℝ) + ((1 / 2 : ℚ) : ℝ) * ((1 / 5 : ℚ) : ℝ)))
        (isotropicLaw (Numeric.Lame.ofYoungPoisson ((200 : ℚ) : ℝ) ((1 / 4 : ℚ) : ℝ)).lambda
          (Numeric.Lame.ofYoungPoisson ((200 : ℚ) : ℝ) ((1 / 4 : ℚ) : ℝ)).mu
          (Vec6.add #v[1, 0, 0, 0, 0, 0] (Vec6.scale ((1 / 2 : ℚ) : ℝ) #v[0, 1, 0, 0, 0, 1]))))) ∧
      env₂.get? Ident.stress = env₁.get? Ident.stress := by
  have hε : (dampedIsotropicConfig.strainAt .midStep).eval dampedIsotropicEnv =
      .ok (Vec6.add #v[1, 0, 0, 0, 0, 0] (Vec6.scale ((1 / 2 : ℚ) : ℝ) #v[0, 1, 0, 0, 0, 1])) :=
    rfl
  have hF : (dampedIsotropicConfig.degradationFactor .midStep).eval dampedIsotropicEnv =
      .ok (1 - (((1 / 10 : ℚ) : ℝ) + ((1 / 2 : ℚ) : ℝ) * ((1 / 5 : ℚ) : ℝ))) := by
    show Scalar.eval dampedIsotropicEnv
      (Scalar.one - (Scalar.member "d" + Scalar.member thetaName * Scalar.member (increment "d")) :
        Scalar ℝ) = _
    exact Scalar.eval_mkSub Scalar.eval_one (Scalar.eval_mkAdd rfl (Scalar.eval_mkMul rfl rfl))
  exact ⟨rfl, rfl, by decide, by decide, rfl, rfl, hε, hF,
    Config.storedStiffness_stress_eq_isotropic_stress rfl rfl (by decide) (by decide) .midStep
      Scalar.zero Scalar.zero rfl rfl hε hF⟩

end Elasto.Brick
