import Mathlib
import Elasto.Proofs.Derivative

/-!
# Gradients with respect to a second-order tensor

`dStensor v` builds the gradient with respect to the tensor symbol `v`: for a scalar a
second-order tensor, for a second-order tensor a fourth-order one stored by rows. Over the
reals its component `j` (for a scalar) or its column `j` (for a tensor) is the partial
derivative along component `j` of `v`, that is the derivative along the line that moves that
component alone. The proof goes node by node as for `dScalar`; the cases that differ are the
symbol `v` itself, whose derivative along component `j` is the `j`-th unit vector, and the
product `C : t`, where `C` does not mention `v` and so does not move.
-/

namespace Elasto.Tensor

open Elasto.Mandel Filter Topology

theorem Scalar.dStensor_min_eq_ok {v : String} {a b : Scalar ℝ} {g : Stensor ℝ}
    (h : (Scalar.min a b).dStensor v = .ok g) :
    a.dStensor v = .ok .zero ∧ b.dStensor v = .ok .zero ∧ g = .zero := by
  obtain ⟨ga, hga, h⟩ := except_bind_eq_ok.mp h
  by_cases hza : ga.isZero = true
  · obtain rfl := Stensor.isZero_iff.mp hza
    rw [if_pos hza] at h
    obtain ⟨gb, hgb, h⟩ := except_bind_eq_ok.mp h
    by_cases hzb : gb.isZero = true
    · obtain rfl := Stensor.isZero_iff.mp hzb
      rw [if_pos hzb] at h
      exact ⟨hga, hgb, (Except.ok.inj h).symm⟩
    · rw [if_neg hzb] at h
      cases h
  · rw [if_neg hza] at h
    cases h

section ComponentLine

variable {env : Env ℝ} {v : String} {V : Vec6 ℝ} {j : Fin 6}

/-- The environments that bind `v` to `V` with its component `j` replaced by `r`. -/
def Env.componentLine (env : Env ℝ) (v : String) (V : Vec6 ℝ) (j : Fin 6) (r : ℝ) : Env ℝ :=
  env.set v (.stensor (Vec6.setComponent V j r))

@[simp] theorem Env.get?_componentLine (r : ℝ) (n : String) :
    (env.componentLine v V j r).get? n =
      if v = n then some (.stensor (Vec6.setComponent V j r)) else env.get? n := by
  simp [Env.componentLine]

theorem Env.get?_componentLine_self (h : env.get? v = some (.stensor V)) (n : String) :
    (env.componentLine v V j (V.get j)).get? n = env.get? n := by
  by_cases hn : v = n
  · subst hn
    simp [h]
  · simp [hn]

private theorem componentLine_frame {names : List String} (hv : v ∉ names) (τ r : ℝ) :
    ∀ n ∈ names, (env.componentLine v V j r).get? n = (env.componentLine v V j τ).get? n := by
  intro n hn
  have hne : v ≠ n := fun h => hv (h ▸ hn)
  simp [hne]

mutual

theorem Scalar.dStensor_hasDerivAlong : ∀ (e : Scalar ℝ) {g : Stensor ℝ} {τ : ℝ},
    e.dStensor v = .ok g → (∀ᶠ r in 𝓝 τ, e.Regular (env.componentLine v V j r)) →
    ∃ G, g.eval (env.componentLine v V j τ) = .ok G ∧
      e.HasDerivAlong (env.componentLine v V j) (G.get j) τ
  | .const _, g, τ, hg, _ => by
    obtain rfl : Stensor.zero = g := by simpa [Scalar.dStensor] using hg
    exact ⟨Vec6.zero, rfl,
      (Scalar.HasDerivAlong.of_eventually_const (.of_forall fun _ => rfl)).congr_deriv
        (by simp [Vector.get_eq_getElem])⟩
  | .sym s, g, τ, hg, hr => by
    obtain rfl : Stensor.zero = g := by simpa [Scalar.dStensor] using hg
    obtain ⟨c, hc⟩ := hr.self_of_nhds
    -- a scalar symbol named `v` cannot be read where `v` is a tensor
    have hv : v ∉ [s.name] := by
      intro h
      rw [List.mem_singleton] at h
      subst h
      simp [Env.scalar, Env.lookup] at hc
    have h0 : (Scalar.sym s).HasDerivAlong (env.componentLine v V j) 0 τ :=
      .of_frame (componentLine_frame hv τ) hc
    exact ⟨Vec6.zero, rfl, h0.congr_deriv (by simp [Vector.get_eq_getElem])⟩
  | .neg a, g, τ, hg, hr => by
    obtain ⟨ga, hga, rfl⟩ := except_bind_pure_eq_ok.mp hg
    obtain ⟨G, hG, ha⟩ := Scalar.dStensor_hasDerivAlong a hga hr
    exact ⟨_, Stensor.eval_mkNeg hG, ha.neg.congr_deriv (by simp [Vector.get_eq_getElem])⟩
  | .add a b, g, τ, hg, hr => by
    obtain ⟨ga, hga, gb, hgb, rfl⟩ := except_bind₂_pure_eq_ok.mp hg
    obtain ⟨G, hG, ha⟩ := Scalar.dStensor_hasDerivAlong a hga (hr.mono fun _ h => h.1)
    obtain ⟨G', hG', hb⟩ := Scalar.dStensor_hasDerivAlong b hgb (hr.mono fun _ h => h.2)
    exact ⟨_, Stensor.eval_mkAdd hG hG', (ha.add hb).congr_deriv (by simp [Vector.get_eq_getElem])⟩
  | .sub a b, g, τ, hg, hr => by
    obtain ⟨ga, hga, gb, hgb, rfl⟩ := except_bind₂_pure_eq_ok.mp hg
    obtain ⟨G, hG, ha⟩ := Scalar.dStensor_hasDerivAlong a hga (hr.mono fun _ h => h.1)
    obtain ⟨G', hG', hb⟩ := Scalar.dStensor_hasDerivAlong b hgb (hr.mono fun _ h => h.2)
    exact ⟨_, Stensor.eval_mkSub hG hG', (ha.sub hb).congr_deriv (by simp [Vector.get_eq_getElem])⟩
  | .mul a b, g, τ, hg, hr => by
    obtain ⟨ga, hga, gb, hgb, rfl⟩ := except_bind₂_pure_eq_ok.mp hg
    obtain ⟨G, hG, ha⟩ := Scalar.dStensor_hasDerivAlong a hga (hr.mono fun _ h => h.1)
    obtain ⟨G', hG', hb⟩ := Scalar.dStensor_hasDerivAlong b hgb (hr.mono fun _ h => h.2)
    obtain ⟨A, hA⟩ := ha.eval_ok
    obtain ⟨B, hB⟩ := hb.eval_ok
    refine ⟨_, Stensor.eval_mkAdd (Stensor.eval_mkScale hB hG) (Stensor.eval_mkScale hA hG'),
      (ha.mul hb hA hB).congr_deriv ?_⟩
    simp only [Vector.get_eq_getElem, Vec6.getElem_add, Vec6.getElem_scale]
    ring
  | .div a b, g, τ, hg, hr => by
    obtain ⟨ga, hga, gb, hgb, rfl⟩ := except_bind₂_pure_eq_ok.mp hg
    obtain ⟨G, hG, ha⟩ := Scalar.dStensor_hasDerivAlong a hga (hr.mono fun _ h => h.1)
    obtain ⟨G', hG', hb⟩ := Scalar.dStensor_hasDerivAlong b hgb (hr.mono fun _ h => h.2.1)
    obtain ⟨A, hA⟩ := ha.eval_ok
    obtain ⟨B, hB⟩ := hb.eval_ok
    have hB0 : B ≠ 0 := fun h => hr.self_of_nhds.2.2 (h ▸ hB)
    have hinv := Scalar.eval_mkDiv Scalar.eval_one hB
    have hquot := Scalar.eval_mkDiv hA (Scalar.eval_mkMul hB hB)
    refine ⟨_, Stensor.eval_mkSub (Stensor.eval_mkScale hinv hG) (Stensor.eval_mkScale hquot hG'),
      (ha.div hb hA hB hB0).congr_deriv ?_⟩
    simp only [Vector.get_eq_getElem, Vec6.getElem_sub, Vec6.getElem_scale]
    ring
  | .pow a b, g, τ, hg, hr => by
    simp only [Scalar.dStensor, except_bind_eq_ok] at hg
    obtain ⟨ga, hga, gb, hgb, hg⟩ := hg
    obtain ⟨G, hG, ha⟩ := Scalar.dStensor_hasDerivAlong a hga (hr.mono fun _ h => h.1)
    obtain ⟨G', hG', hb⟩ := Scalar.dStensor_hasDerivAlong b hgb (hr.mono fun _ h => h.2.1)
    obtain ⟨A, hA⟩ := ha.eval_ok
    obtain ⟨B, hB⟩ := hb.eval_ok
    have hrule := ha.pow hb hA hB (hr.self_of_nhds.2.2 A hA)
    have hpower := Stensor.eval_mkScale
      (Scalar.eval_mkMul hB (Scalar.eval_mkPow hA (Scalar.eval_mkSub hB Scalar.eval_one))) hG
    split_ifs at hg with hz
    · obtain rfl := Except.ok.inj hg
      obtain rfl : gb = .zero := Stensor.isZero_iff.mp hz
      obtain rfl : Vec6.zero = G' := by simpa [Stensor.eval] using hG'
      exact ⟨_, hpower, hrule.congr_deriv (by simp [Vector.get_eq_getElem])⟩
    · obtain rfl := Except.ok.inj hg
      have hlog := Scalar.eval_mkMul (Scalar.eval_mkPow hA hB) (Scalar.eval_mkCall .log hA)
      refine ⟨_, Stensor.eval_mkAdd hpower (Stensor.eval_mkScale hlog hG'), hrule.congr_deriv ?_⟩
      simp only [Vector.get_eq_getElem, Vec6.getElem_add, Vec6.getElem_scale, Fn.apply_log]
  | .min a b, g, τ, hg, hr => by
    obtain ⟨hga, hgb, rfl⟩ := Scalar.dStensor_min_eq_ok hg
    -- neither operand moves anywhere near `τ`, so neither does their minimum
    have hnear := eventually_eventually_nhds.mpr hr
    refine ⟨Vec6.zero, rfl,
      (Scalar.HasDerivAlong.min ?_ ?_).congr_deriv (by simp [Vector.get_eq_getElem])⟩
    · filter_upwards [hnear] with r hr'
      obtain ⟨G, hG0, ha⟩ := Scalar.dStensor_hasDerivAlong a hga (hr'.mono fun _ h => h.1)
      obtain rfl : Vec6.zero = G := by simpa [Stensor.eval] using hG0
      exact ha.congr_deriv (by simp [Vector.get_eq_getElem])
    · filter_upwards [hnear] with r hr'
      obtain ⟨G, hG0, hb⟩ := Scalar.dStensor_hasDerivAlong b hgb (hr'.mono fun _ h => h.2)
      obtain rfl : Vec6.zero = G := by simpa [Stensor.eval] using hG0
      exact hb.congr_deriv (by simp [Vector.get_eq_getElem])
  | .call f a, g, τ, hg, hr => by
    obtain ⟨ga, hga, rfl⟩ := except_bind_pure_eq_ok.mp hg
    obtain ⟨G, hG, ha⟩ := Scalar.dStensor_hasDerivAlong a hga (hr.mono fun _ h => h.1)
    obtain ⟨A, hA⟩ := ha.eval_ok
    have hpos : f = .exp ∨ 0 < A := hr.self_of_nhds.2.imp id fun h => h A hA
    exact ⟨_, Stensor.eval_mkScale (f.eval_deriv hA) hG,
      (ha.call f hA hpos).congr_deriv (by simp [Vector.get_eq_getElem])⟩
  | .trace t, g, τ, hg, hr => by
    obtain ⟨gt, hgt, rfl⟩ := except_bind_pure_eq_ok.mp hg
    obtain ⟨G, hG, ht⟩ := Stensor.dStensor_hasDerivAlong t hgt hr
    refine ⟨_, Stensor.eval_mkApply (Stensor4.eval_mkTranspose hG) rfl,
      (Scalar.HasDerivAlong.trace ht).congr_deriv ?_⟩
    rw [Vector.get_eq_getElem, Mat6.getElem_apply_transpose _ _ j.isLt, Vec6.dot_identity_right]
  | .contract t u, g, τ, hg, hr => by
    obtain ⟨gt, hgt, gu, hgu, rfl⟩ := except_bind₂_pure_eq_ok.mp hg
    obtain ⟨G, hG, ht⟩ := Stensor.dStensor_hasDerivAlong t hgt (hr.mono fun _ h => h.1)
    obtain ⟨G', hG', hu⟩ := Stensor.dStensor_hasDerivAlong u hgu (hr.mono fun _ h => h.2)
    obtain ⟨T, hT⟩ := ht.eval_ok
    obtain ⟨U, hU⟩ := hu.eval_ok
    refine ⟨_, Stensor.eval_mkAdd (Stensor.eval_mkApply (Stensor4.eval_mkTranspose hG) hU)
      (Stensor.eval_mkApply (Stensor4.eval_mkTranspose hG') hT),
      (Scalar.HasDerivAlong.contract ht hu hT hU).congr_deriv ?_⟩
    simp only [Vector.get_eq_getElem, Vec6.getElem_add, Mat6.getElem_apply_transpose _ _ j.isLt]
    rw [Vec6.dot_comm T]

theorem Stensor.dStensor_hasDerivAlong : ∀ (e : Stensor ℝ) {g : Stensor4 ℝ} {τ : ℝ},
    e.dStensor v = .ok g → (∀ᶠ r in 𝓝 τ, e.Regular (env.componentLine v V j r)) →
    ∃ G, g.eval (env.componentLine v V j τ) = .ok G ∧
      e.HasDerivAlong (env.componentLine v V j) (Mat6.column G j) τ
  | .zero, g, τ, hg, _ | .identity, g, τ, hg, _ => by
    obtain rfl : Stensor4.zero = g := by simpa [Stensor.dStensor] using hg
    exact ⟨Mat6.zero, rfl,
      (Stensor.HasDerivAlong.of_eventually_const (.of_forall fun _ => rfl)).congr_deriv (by simp)⟩
  | .sym s, g, τ, hg, hr => by
    by_cases hv : s.name = v
    · -- the variable itself: component `j` is the parameter and the others stay
      obtain rfl : Stensor4.id = g := by simpa [Stensor.dStensor, hv] using hg
      refine ⟨Mat6.id, rfl, fun r => Vec6.setComponent V j r, .of_forall fun r => ?_,
        fun i hi => ?_⟩
      · simp [Stensor.eval, Env.stensor, Env.lookup, hv]
      · simp only [Vec6.getElem_setComponent, Mat6.getElem_column, Vector.get_eq_getElem,
          Mat6.getElem_id]
        by_cases hij : (j : Nat) = i
        · simpa [hij] using hasDerivAt_id' τ
        · simpa [hij, Ne.symm hij] using hasDerivAt_const τ V[i]
    · obtain rfl : Stensor4.zero = g := by simpa [Stensor.dStensor, hv] using hg
      obtain ⟨T, hT⟩ := hr.self_of_nhds
      have hv' : v ∉ [s.name] := by simpa [eq_comm] using hv
      have h0 : (Stensor.sym s).HasDerivAlong (env.componentLine v V j) Vec6.zero τ :=
        .of_frame (componentLine_frame hv' τ) hT
      exact ⟨Mat6.zero, rfl, h0.congr_deriv (by simp)⟩
  | .neg t, g, τ, hg, hr => by
    obtain ⟨gt, hgt, rfl⟩ := except_bind_pure_eq_ok.mp hg
    obtain ⟨G, hG, ht⟩ := Stensor.dStensor_hasDerivAlong t hgt hr
    exact ⟨_, Stensor4.eval_mkNeg hG, ht.neg.congr_deriv (by simp)⟩
  | .add t u, g, τ, hg, hr => by
    obtain ⟨gt, hgt, gu, hgu, rfl⟩ := except_bind₂_pure_eq_ok.mp hg
    obtain ⟨G, hG, ht⟩ := Stensor.dStensor_hasDerivAlong t hgt (hr.mono fun _ h => h.1)
    obtain ⟨G', hG', hu⟩ := Stensor.dStensor_hasDerivAlong u hgu (hr.mono fun _ h => h.2)
    exact ⟨_, Stensor4.eval_mkAdd hG hG', (ht.add hu).congr_deriv (by simp)⟩
  | .sub t u, g, τ, hg, hr => by
    obtain ⟨gt, hgt, gu, hgu, rfl⟩ := except_bind₂_pure_eq_ok.mp hg
    obtain ⟨G, hG, ht⟩ := Stensor.dStensor_hasDerivAlong t hgt (hr.mono fun _ h => h.1)
    obtain ⟨G', hG', hu⟩ := Stensor.dStensor_hasDerivAlong u hgu (hr.mono fun _ h => h.2)
    exact ⟨_, Stensor4.eval_mkSub hG hG', (ht.sub hu).congr_deriv (by simp)⟩
  | .scale s t, g, τ, hg, hr => by
    obtain ⟨gt, hgt, gs, hgs, rfl⟩ := except_bind₂_pure_eq_ok.mp hg
    obtain ⟨G, hG, ht⟩ := Stensor.dStensor_hasDerivAlong t hgt (hr.mono fun _ h => h.2)
    obtain ⟨G', hG', hs⟩ := Scalar.dStensor_hasDerivAlong s hgs (hr.mono fun _ h => h.1)
    obtain ⟨S, hS⟩ := hs.eval_ok
    obtain ⟨T, hT⟩ := ht.eval_ok
    refine ⟨_, Stensor4.eval_mkAdd (Stensor4.eval_mkScale hS hG) (Stensor4.eval_mkOuter hT hG'),
      (Stensor.HasDerivAlong.scale hs ht hS hT).congr_deriv ?_⟩
    rw [Mat6.column_add, Mat6.column_scale, Mat6.column_outer, Vec6.add_comm]
  | .apply c t, g, τ, hg, hr => by
    by_cases hdep : c.dependsOn v = true
    · simp [Stensor.dStensor, hdep] at hg
    rw [Stensor.dStensor, if_neg hdep] at hg
    obtain ⟨gt, hgt, hg⟩ := except_bind_eq_ok.mp hg
    obtain rfl := Except.ok.inj hg
    obtain ⟨G, hG, ht⟩ := Stensor.dStensor_hasDerivAlong t hgt (hr.mono fun _ h => h.2)
    obtain ⟨C, hC⟩ := Stensor4.eval_ok_of_regular c hr.self_of_nhds.1
    obtain ⟨T, hT⟩ := ht.eval_ok
    have hv : v ∉ c.names := by simpa [Stensor4.dependsOn] using hdep
    have hc := Stensor4.HasDerivAlong.of_frame (componentLine_frame hv τ) hC
    exact ⟨_, Stensor4.eval_mkProduct hC hG,
      (Stensor.HasDerivAlong.apply hc ht hC hT).congr_deriv (by simp)⟩

end

end ComponentLine

/-- Symbolic differentiation agrees with evaluation over the reals. Where `x` holds the scalar
`t₀`, the derivative that `dScalar x` builds evaluates to the derivative at `t₀` of the
expression as `x` moves, for the three kinds of expressions. Where `v` holds the tensor `V`,
the gradient that `dStensor v` builds has as component `j` (for a scalar) or column `j` (for a
tensor) the derivative along component `j` of `v`. Both hold wherever the expression is regular
around the point. -/
theorem dScalar_dStensor_eval_hasDerivAlong (env : Env ℝ) :
    (∀ (x : String) (t₀ : ℝ), env.get? x = some (.scalar t₀) →
      (∀ e de : Scalar ℝ, e.dScalar x = .ok de →
        (∀ᶠ r in 𝓝 t₀, e.Regular (env.scalarLine x r)) →
        ∃ d, de.eval env = .ok d ∧ e.HasDerivAlong (env.scalarLine x) d t₀) ∧
      (∀ e de : Stensor ℝ, e.dScalar x = .ok de →
        (∀ᶠ r in 𝓝 t₀, e.Regular (env.scalarLine x r)) →
        ∃ D, de.eval env = .ok D ∧ e.HasDerivAlong (env.scalarLine x) D t₀) ∧
      (∀ e de : Stensor4 ℝ, e.dScalar x = .ok de →
        (∀ᶠ r in 𝓝 t₀, e.Regular (env.scalarLine x r)) →
        ∃ D, de.eval env = .ok D ∧ e.HasDerivAlong (env.scalarLine x) D t₀)) ∧
    (∀ (v : String) (V : Vec6 ℝ), env.get? v = some (.stensor V) →
      (∀ (e : Scalar ℝ) (g : Stensor ℝ), e.dStensor v = .ok g →
        (∀ j : Fin 6, ∀ᶠ r in 𝓝 (V.get j), e.Regular (env.componentLine v V j r)) →
        ∃ G, g.eval env = .ok G ∧
          ∀ j : Fin 6, e.HasDerivAlong (env.componentLine v V j) (G.get j) (V.get j)) ∧
      (∀ (e : Stensor ℝ) (g : Stensor4 ℝ), e.dStensor v = .ok g →
        (∀ j : Fin 6, ∀ᶠ r in 𝓝 (V.get j), e.Regular (env.componentLine v V j r)) →
        ∃ G, g.eval env = .ok G ∧
          ∀ j : Fin 6,
            e.HasDerivAlong (env.componentLine v V j) (Mat6.column G j) (V.get j))) := by
  refine ⟨fun x t₀ hx => ⟨fun e de hd hr => ?_, fun e de hd hr => ?_, fun e de hd hr => ?_⟩,
    fun v V hv => ⟨fun e g hg hr => ?_, fun e g hg hr => ?_⟩⟩
  -- along a scalar: the derivative is found at `env` with `x` bound to the value it holds
  · obtain ⟨d, hde, he⟩ := Scalar.dScalar_hasDerivAlong e hd hr
    exact ⟨d, (Scalar.eval_congr de fun n _ => (Env.get?_scalarLine_self hx n).symm).trans hde, he⟩
  · obtain ⟨D, hde, he⟩ := Stensor.dScalar_hasDerivAlong e hd hr
    exact ⟨D, (Stensor.eval_congr de fun n _ => (Env.get?_scalarLine_self hx n).symm).trans hde, he⟩
  · obtain ⟨D, hde, he⟩ := Stensor4.dScalar_hasDerivAlong e hd hr
    exact ⟨D, (Stensor4.eval_congr de fun n _ => (Env.get?_scalarLine_self hx n).symm).trans hde,
      he⟩
  -- along a tensor: the six lines give one value of the gradient, the one at `env`
  · have hline : ∀ j : Fin 6, ∃ G, g.eval env = .ok G ∧
        e.HasDerivAlong (env.componentLine v V j) (G.get j) (V.get j) := fun j => by
      obtain ⟨G, hGe, he⟩ := Scalar.dStensor_hasDerivAlong e hg (hr j)
      exact ⟨G, (Stensor.eval_congr g fun n _ => (Env.get?_componentLine_self hv n).symm).trans hGe,
        he⟩
    obtain ⟨G, hG, -⟩ := hline 0
    refine ⟨G, hG, fun j => ?_⟩
    obtain ⟨G', hG', he⟩ := hline j
    rw [hG, Except.ok.injEq] at hG'
    exact hG' ▸ he
  · have hline : ∀ j : Fin 6, ∃ G, g.eval env = .ok G ∧
        e.HasDerivAlong (env.componentLine v V j) (Mat6.column G j) (V.get j) := fun j => by
      obtain ⟨G, hGe, he⟩ := Stensor.dStensor_hasDerivAlong e hg (hr j)
      exact ⟨G,
        (Stensor4.eval_congr g fun n _ => (Env.get?_componentLine_self hv n).symm).trans hGe, he⟩
    obtain ⟨G, hG, -⟩ := hline 0
    refine ⟨G, hG, fun j => ?_⟩
    obtain ⟨G', hG', he⟩ := hline j
    rw [hG, Except.ok.injEq] at hG'
    exact hG' ▸ he

/-- With `x` at `2`, the derivative of `x * x` is `4`; with the strain `e` at zero, the
gradient of its trace is the identity. -/
theorem hasDerivAlong_mul_self_and_trace :
    (∃ d, (Scalar.mul (.sym ⟨"x", .member⟩) (.sym ⟨"x", .member⟩) : Scalar ℝ).HasDerivAlong
        ((({} : Env ℝ).set "x" (.scalar 2)).scalarLine "x") d 2 ∧ d = 4) ∧
    (∃ G : Vec6 ℝ, G = Vec6.identity ∧ ∀ j : Fin 6,
      (Scalar.trace (.sym ⟨"e", .member⟩) : Scalar ℝ).HasDerivAlong
        ((({} : Env ℝ).set "e" (.stensor Vec6.zero)).componentLine "e" Vec6.zero j)
        (G.get j) ((Vec6.zero : Vec6 ℝ).get j)) := by
  constructor
  · -- `dScalar` folds `1 * x + x * 1` to `x + x`
    have hd : (Scalar.mul (.sym ⟨"x", .member⟩) (.sym ⟨"x", .member⟩) : Scalar ℝ).dScalar "x" =
        .ok (.add (.sym ⟨"x", .member⟩) (.sym ⟨"x", .member⟩)) := by
      simp [Scalar.dScalar, Scalar.mkMul, Scalar.mkAdd, Scalar.one]
    obtain ⟨d, hde, he⟩ := ((dScalar_dStensor_eval_hasDerivAlong
      (({} : Env ℝ).set "x" (.scalar 2))).1 "x" 2 (by simp)).1 _ _ hd
      (.of_forall fun r =>
        ⟨⟨r, by simp [Env.scalar, Env.lookup]⟩, ⟨r, by simp [Env.scalar, Env.lookup]⟩⟩)
    refine ⟨d, he, ?_⟩
    simp [Scalar.eval, Env.scalar, Env.lookup] at hde
    linarith
  · -- `dStensor` folds the transposed identity applied to `I` to `I`
    have hg : (Scalar.trace (.sym ⟨"e", .member⟩) : Scalar ℝ).dStensor "e" = .ok .identity := by
      simp [Scalar.dStensor, Stensor.dStensor, Stensor.mkApply, Stensor4.mkTranspose]
    obtain ⟨G, hG, he⟩ := ((dScalar_dStensor_eval_hasDerivAlong
      (({} : Env ℝ).set "e" (.stensor Vec6.zero))).2 "e" Vec6.zero (by simp)).1 _ _ hg
      (fun j => .of_forall fun r =>
        ⟨Vec6.setComponent Vec6.zero j r, by simp [Env.stensor, Env.lookup]⟩)
    exact ⟨G, by simpa [Stensor.eval] using hG.symm, he⟩

end Elasto.Tensor
