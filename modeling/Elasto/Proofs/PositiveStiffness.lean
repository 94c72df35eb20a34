import Mathlib
import Elasto.Proofs.Stress

/-! # Positive stiffness

Initialization accepts constant elastic properties with a positive Young modulus `E` and a
Poisson ratio `ν` in `(-1, 1/2)`, and a damage upper bound in `(0, 1]`. Over the reals these
ranges keep the Lamé formulas away from a division by zero and give a shear modulus `μ > 0`
and `3λ + 2μ = E / (1 - 2ν) > 0`. The energy of the isotropic stiffness is
`λ tr(x)² + 2μ x:x`; since the trace reads three of the six Mandel components,
`tr(x)² ≤ 3 x:x`, and the energy is at least `min(2μ, 3λ + 2μ) x:x`.

The tangent and prediction operators scale the stiffness by `1 - min(d, d_max)`. The factor is
never negative, and it is positive unless the damage has reached a bound of one: the bound `1`,
which the half-open range admits, lets the degraded stiffness vanish at `d ≥ 1`.

Main statement: `accepted_elasticity_positive_definite`, with
`full_damage_bound_zeroes_operators` for the damage that vanishes the operators.
-/

namespace Elasto.Mandel

open Finset

namespace Vec6

theorem trace_sq_le_three_dot (x : Vec6 ℝ) : trace x ^ 2 ≤ 3 * dot x x := by
  have hsplit : dot x x = x[0] * x[0] + x[1] * x[1] + x[2] * x[2] +
      (x[3] * x[3] + x[4] * x[4] + x[5] * x[5]) := by
    simp [dot_eq, Fin.sum_univ_succ, Vector.get_eq_getElem]
    ring
  have hshear : (0 : ℝ) ≤ x[3] * x[3] + x[4] * x[4] + x[5] * x[5] :=
    add_nonneg (add_nonneg (mul_self_nonneg _) (mul_self_nonneg _)) (mul_self_nonneg _)
  rw [trace, hsplit]
  nlinarith [sq_nonneg (x[0] - x[1]), sq_nonneg (x[1] - x[2]), sq_nonneg (x[0] - x[2])]

theorem dot_self_pos {x : Vec6 ℝ} (hx : x ≠ zero) : 0 < dot x x := by
  obtain ⟨k, hk⟩ : ∃ k : Fin 6, x.get k ≠ 0 := by
    by_contra hall
    simp only [ne_eq, not_exists, not_not] at hall
    exact hx (Vector.ext fun i hi => by simpa [zero, Vector.get_eq_getElem] using hall ⟨i, hi⟩)
  rw [dot_eq]
  exact sum_pos' (fun i _ => mul_self_nonneg _) ⟨k, mem_univ k, mul_self_pos.mpr hk⟩

theorem identity_ne_zero : (identity : Vec6 ℝ) ≠ zero := by
  intro h
  have htr := congrArg trace h
  rw [trace_identity, trace_zero] at htr
  norm_num at htr

end Vec6

namespace Mat6

/-- Positive definite on Mandel vectors: every non-zero strain has a positive energy. -/
def PosDef (D : Mat6 ℝ) : Prop := ∀ x, x ≠ Vec6.zero → 0 < Vec6.dot x (apply D x)

theorem PosDef.scale {D : Mat6 ℝ} {f : ℝ} (hD : PosDef D) (hf : 0 < f) : PosDef (scale f D) := by
  intro x hx
  rw [apply_scale_left, Vec6.dot_scale_right]
  exact mul_pos hf (hD x hx)

theorem not_posDef_zero : ¬ PosDef (zero : Mat6 ℝ) := fun h => by
  simpa using h Vec6.identity Vec6.identity_ne_zero

theorem posDef_scale_iff {D : Mat6 ℝ} {f : ℝ} (hD : PosDef D) (hf : 0 ≤ f) :
    PosDef (scale f D) ↔ 0 < f := by
  refine ⟨fun h => ?_, hD.scale⟩
  rcases hf.lt_or_eq with hpos | rfl
  · exact hpos
  · rw [scale_zero_left] at h
    exact absurd h not_posDef_zero

end Mat6

end Elasto.Mandel

namespace Elasto.Numeric.Lame

variable {E ν : ℝ}

theorem ofYoungPoisson_lambda (E ν : ℝ) :
    (ofYoungPoisson E ν).lambda = E * ν / ((1 + ν) * (1 - 2 * ν)) := by
  simp [ofYoungPoisson]

theorem ofYoungPoisson_mu (E ν : ℝ) : (ofYoungPoisson E ν).mu = E / (2 * (1 + ν)) := by
  simp [ofYoungPoisson]

theorem denominators_pos (hν₁ : -1 < ν) (hν₂ : ν < 1 / 2) :
    0 < (1 + ν) * (1 - 2 * ν) ∧ 0 < 2 * (1 + ν) := by
  have h₁ : 0 < 1 + ν := by linarith
  have h₂ : 0 < 1 - 2 * ν := by linarith
  exact ⟨mul_pos h₁ h₂, mul_pos two_pos h₁⟩

theorem mu_pos (hE : 0 < E) (hν₁ : -1 < ν) (hν₂ : ν < 1 / 2) : 0 < (ofYoungPoisson E ν).mu := by
  rw [ofYoungPoisson_mu]
  exact div_pos hE (denominators_pos hν₁ hν₂).2

/-- `3λ + 2μ = E / (1 - 2ν)`, three times the bulk modulus. -/
theorem three_lambda_add_two_mu (hν₁ : -1 < ν) (hν₂ : ν < 1 / 2) :
    3 * (ofYoungPoisson E ν).lambda + 2 * (ofYoungPoisson E ν).mu = E / (1 - 2 * ν) := by
  obtain ⟨hA, hB⟩ := denominators_pos hν₁ hν₂
  have h₂ : 1 - 2 * ν ≠ 0 := (show (0 : ℝ) < 1 - 2 * ν by linarith).ne'
  rw [ofYoungPoisson_lambda, ofYoungPoisson_mu, mul_div_assoc', mul_div_assoc',
    div_add_div _ _ hA.ne' hB.ne', div_eq_div_iff (mul_ne_zero hA.ne' hB.ne') h₂]
  ring

theorem bulk_pos (hE : 0 < E) (hν₁ : -1 < ν) (hν₂ : ν < 1 / 2) :
    0 < 3 * (ofYoungPoisson E ν).lambda + 2 * (ofYoungPoisson E ν).mu := by
  rw [three_lambda_add_two_mu hν₁ hν₂]
  exact div_pos hE (by linarith)

end Elasto.Numeric.Lame

namespace Elasto.Brick

open Elasto.Tensor Elasto.Mandel

/-- The energy of the isotropic stiffness: `λ tr(x)² + 2μ x:x`. -/
theorem dot_apply_isotropicTensor (l m : ℝ) (x : Vec6 ℝ) :
    Vec6.dot x (Mat6.apply (isotropicTensor l m) x) =
      l * Vec6.trace x ^ 2 + 2 * m * Vec6.dot x x := by
  rw [apply_isotropicTensor, isotropicLaw, Vec6.dot_comm x, Vec6.dot_add_left,
    Vec6.dot_scale_left, Vec6.dot_scale_left, Vec6.dot_identity_left]
  push_cast
  ring

/-- With `μ > 0` and `3λ + 2μ > 0` the isotropic stiffness is positive definite: a negative `λ`
takes at most `3|λ| x:x` from the energy, since `tr(x)² ≤ 3 x:x`. -/
theorem isotropicTensor_posDef {l m : ℝ} (hm : 0 < m) (hk : 0 < 3 * l + 2 * m) :
    Mat6.PosDef (isotropicTensor l m) := by
  intro x hx
  have hq := Vec6.dot_self_pos hx
  rw [dot_apply_isotropicTensor]
  rcases le_or_gt 0 l with hl | hl
  · have hbulk : 0 ≤ l * Vec6.trace x ^ 2 := mul_nonneg hl (sq_nonneg _)
    have hshear : 0 < 2 * m * Vec6.dot x x := mul_pos (mul_pos two_pos hm) hq
    linarith
  · calc 0 < (3 * l + 2 * m) * Vec6.dot x x := mul_pos hk hq
      _ = l * (3 * Vec6.dot x x) + 2 * m * Vec6.dot x x := by ring
      _ ≤ l * Vec6.trace x ^ 2 + 2 * m * Vec6.dot x x := by
        gcongr ?_ + _
        exact mul_le_mul_of_nonpos_left (Vec6.trace_sq_le_three_dot x) hl.le

namespace Degradation

variable {env : Env ℝ} {v : String} {ub d : ℝ}

theorem eval_boundedFactor (hd : env.get? v = some (.scalar d)) :
    (isotropic v ub).boundedFactor.eval env = .ok (1 - min d ub) := by
  have hmin := Scalar.eval_mkMin (Scalar.eval_member hd)
    (show (Scalar.const ub).eval env = .ok ub from rfl)
  rw [Number.min_real] at hmin
  exact Scalar.eval_mkSub Scalar.eval_one hmin

theorem eval_boundedFactor_mul_isotropic {Λ M : ℝ} (hd : env.get? v = some (.scalar d)) :
    ((isotropic v ub).boundedFactor * Stensor4.isotropic (.const Λ) (.const M)).eval env =
      .ok (Mat6.scale (1 - min d ub) (isotropicTensor Λ M)) := by
  rw [Stensor4.hMul_eq_mkScale]
  exact Stensor4.eval_mkScale (eval_boundedFactor hd) (Stensor4.eval_isotropic rfl rfl)

end Degradation

/-- Constant elastic properties in the ranges initialization accepts give Lamé coefficients by
exact divisions, with `μ > 0` and `3λ + 2μ > 0`, and a positive definite stiffness. Under a
bound of at most one the factor `1 - min(d, d_max)` is never negative, and the degraded
stiffness of the tangent and prediction operators is positive definite exactly when the damage
or the bound is below one. -/
theorem accepted_elasticity_positive_definite (E ν ub : ℝ) (hE : 0 < E) (hν₁ : -1 < ν)
    (hν₂ : ν < 1 / 2) (hub : ub ≤ 1) :
    lameCoefficients (.const E) (.const ν) = (.const (Numeric.Lame.ofYoungPoisson E ν).lambda,
        .const (Numeric.Lame.ofYoungPoisson E ν).mu) ∧
      (1 + ν) * (1 - 2 * ν) ≠ 0 ∧
      (Numeric.Lame.ofYoungPoisson E ν).lambda * ((1 + ν) * (1 - 2 * ν)) = E * ν ∧
      2 * (1 + ν) ≠ 0 ∧ (Numeric.Lame.ofYoungPoisson E ν).mu * (2 * (1 + ν)) = E ∧
      0 < (Numeric.Lame.ofYoungPoisson E ν).mu ∧
      0 < 3 * (Numeric.Lame.ofYoungPoisson E ν).lambda + 2 * (Numeric.Lame.ofYoungPoisson E ν).mu ∧
      Mat6.PosDef (isotropicTensor (Numeric.Lame.ofYoungPoisson E ν).lambda
        (Numeric.Lame.ofYoungPoisson E ν).mu) ∧
      ∀ (v : String) (env : Env ℝ) (d : ℝ), env.get? v = some (.scalar d) →
        (Degradation.isotropic v ub).boundedFactor.eval env = .ok (1 - min d ub) ∧
        0 ≤ 1 - min d ub ∧
        ((Degradation.isotropic v ub).boundedFactor *
            Stensor4.isotropic (.const (Numeric.Lame.ofYoungPoisson E ν).lambda)
              (.const (Numeric.Lame.ofYoungPoisson E ν).mu)).eval env =
          .ok (Mat6.scale (1 - min d ub) (isotropicTensor (Numeric.Lame.ofYoungPoisson E ν).lambda
            (Numeric.Lame.ofYoungPoisson E ν).mu)) ∧
        (Mat6.PosDef (Mat6.scale (1 - min d ub) (isotropicTensor
            (Numeric.Lame.ofYoungPoisson E ν).lambda (Numeric.Lame.ofYoungPoisson E ν).mu)) ↔
          d < 1 ∨ ub < 1) := by
  obtain ⟨hden, htwo⟩ := Numeric.Lame.denominators_pos hν₁ hν₂
  have hD := isotropicTensor_posDef (Numeric.Lame.mu_pos hE hν₁ hν₂)
    (Numeric.Lame.bulk_pos hE hν₁ hν₂)
  refine ⟨rfl, hden.ne', ?_, htwo.ne', ?_, Numeric.Lame.mu_pos hE hν₁ hν₂,
    Numeric.Lame.bulk_pos hE hν₁ hν₂, hD, fun v env d hd => ?_⟩
  · rw [Numeric.Lame.ofYoungPoisson_lambda, div_mul_cancel₀ _ hden.ne']
  · rw [Numeric.Lame.ofYoungPoisson_mu, div_mul_cancel₀ _ htwo.ne']
  -- the factor is at least `1 - d_max`, and positive when the minimum stays below one
  have hf : 0 ≤ 1 - min d ub := by linarith [min_le_right d ub]
  refine ⟨Degradation.eval_boundedFactor hd, hf,
    Degradation.eval_boundedFactor_mul_isotropic hd, ?_⟩
  rw [Mat6.posDef_scale_iff hD hf, sub_pos, min_lt_iff]

/-- Steel-like constants with a damage bound of one half: at full damage the operators keep
half of the stiffness, which stays positive definite. -/
theorem half_bound_keeps_operators_positive :
    let env : Env ℝ := Env.set {} "d" (.scalar 1)
    (0 : ℝ) < 200 ∧ (-1 : ℝ) < 3 / 10 ∧ (3 / 10 : ℝ) < 1 / 2 ∧ (1 / 2 : ℝ) ≤ 1 ∧
      ((Degradation.isotropic "d" (1 / 2 : ℝ)).boundedFactor *
          Stensor4.isotropic (.const (Numeric.Lame.ofYoungPoisson (200 : ℝ) (3 / 10)).lambda)
            (.const (Numeric.Lame.ofYoungPoisson (200 : ℝ) (3 / 10)).mu)).eval env =
        .ok (Mat6.scale (1 / 2) (isotropicTensor (Numeric.Lame.ofYoungPoisson (200 : ℝ) (3 / 10)).lambda
          (Numeric.Lame.ofYoungPoisson (200 : ℝ) (3 / 10)).mu)) ∧
      Mat6.PosDef (Mat6.scale (1 / 2) (isotropicTensor
        (Numeric.Lame.ofYoungPoisson (200 : ℝ) (3 / 10)).lambda
        (Numeric.Lame.ofYoungPoisson (200 : ℝ) (3 / 10)).mu)) := by
  intro env
  have hd : env.get? "d" = some (.scalar 1) := by simp [env]
  have hhalf : (1 : ℝ) - min 1 (1 / 2) = 1 / 2 := by norm_num
  obtain ⟨-, -, -, -, -, -, -, -, hops⟩ := accepted_elasticity_positive_definite 200 (3 / 10) (1 / 2)
    (by norm_num) (by norm_num) (by norm_num) (by norm_num)
  obtain ⟨-, -, heval, hpos⟩ := hops "d" env 1 hd
  rw [hhalf] at heval hpos
  exact ⟨by norm_num, by norm_num, by norm_num, by norm_num, heval, hpos.mpr (.inr (by norm_num))⟩

/-- With the bound `1`, which initialization accepts, a damage of one makes the bounded factor
zero, and with it the stiffness of the tangent and prediction operators. -/
theorem full_damage_bound_zeroes_operators :
    let env : Env ℝ := Env.set {} "d" (.scalar 1)
    (Degradation.isotropic "d" (1 : ℝ)).boundedFactor.eval env = .ok 0 ∧
      ((Degradation.isotropic "d" (1 : ℝ)).boundedFactor *
          Stensor4.isotropic (.const (Numeric.Lame.ofYoungPoisson (200 : ℝ) (3 / 10)).lambda)
            (.const (Numeric.Lame.ofYoungPoisson (200 : ℝ) (3 / 10)).mu)).eval env =
        .ok Mat6.zero ∧
      ¬ Mat6.PosDef Mat6.zero := by
  intro env
  have hd : env.get? "d" = some (.scalar 1) := by simp [env]
  have hzero : (1 : ℝ) - min 1 1 = 0 := by norm_num
  refine ⟨?_, ?_, Mat6.not_posDef_zero⟩
  · rw [Degradation.eval_boundedFactor hd, hzero]
  · rw [Degradation.eval_boundedFactor_mul_isotropic hd, hzero, Mat6.scale_zero_left]

end Elasto.Brick
