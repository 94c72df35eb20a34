import Mathlib
import Elasto.Proofs.Exact

/-!
# Derivatives along a family of environments

A family `E : ℝ → Env ℝ` moves an environment with a real parameter. An expression has
derivative `d` along it at `τ` when near `τ` it evaluates to a function of the parameter whose
derivative at `τ` is `d`; tensors are differentiated component by component. Every node of the
three kinds has its rule, giving the derivative of the node from the values and derivatives of
its operands in the form the symbolic differentiation writes it. An operand whose derivative
vanishes all around a point is constant there, which is what the rule for `min` rests on.
-/

namespace Elasto.Tensor

open Elasto.Mandel Filter Topology

variable {E : ℝ → Env ℝ} {τ : ℝ}

/-- Along `E`, the scalar `e` has derivative `d` at `τ`. -/
def Scalar.HasDerivAlong (E : ℝ → Env ℝ) (e : Scalar ℝ) (d τ : ℝ) : Prop :=
  ∃ F : ℝ → ℝ, (∀ᶠ r in 𝓝 τ, e.eval (E r) = .ok (F r)) ∧ HasDerivAt F d τ

/-- Along `E`, the second-order tensor `e` has derivative `D` at `τ`, component by component. -/
def Stensor.HasDerivAlong (E : ℝ → Env ℝ) (e : Stensor ℝ) (D : Vec6 ℝ) (τ : ℝ) : Prop :=
  ∃ F : ℝ → Vec6 ℝ, (∀ᶠ r in 𝓝 τ, e.eval (E r) = .ok (F r)) ∧
    ∀ i (h : i < 6), HasDerivAt (fun r => (F r)[i]) D[i] τ

/-- Along `E`, the fourth-order tensor `e` has derivative `D` at `τ`, entry by entry. -/
def Stensor4.HasDerivAlong (E : ℝ → Env ℝ) (e : Stensor4 ℝ) (D : Mat6 ℝ) (τ : ℝ) : Prop :=
  ∃ F : ℝ → Mat6 ℝ, (∀ᶠ r in 𝓝 τ, e.eval (E r) = .ok (F r)) ∧
    ∀ i j (hi : i < 6) (hj : j < 6), HasDerivAt (fun r => (F r)[i][j]) D[i][j] τ

/-- The derivative of a function at `x`. -/
noncomputable def Fn.derivValue : Fn → ℝ → ℝ
  | .exp, x => Real.exp x
  | .log, x => 1 / x
  | .sqrt, x => 1 / (2 * Real.sqrt x)

theorem Fn.eval_deriv {env : Env ℝ} {a : Scalar ℝ} {A : ℝ} (f : Fn) (ha : a.eval env = .ok A) :
    (f.deriv a).eval env = .ok (f.derivValue A) := by
  cases f with
  | exp => simpa [Fn.deriv, Fn.derivValue] using Scalar.eval_mkCall .exp ha
  | log => simpa [Fn.deriv, Fn.derivValue] using Scalar.eval_mkDiv Scalar.eval_one ha
  | sqrt =>
    have h2n : (Scalar.num 2 : Scalar ℝ).eval env = .ok ((2 : ℕ) : ℝ) := Scalar.eval_num 2
    have h2 := Scalar.eval_mkMul h2n (Scalar.eval_mkCall .sqrt ha)
    simpa [Fn.deriv, Fn.derivValue] using Scalar.eval_mkDiv Scalar.eval_one h2

theorem Fn.hasDerivAt_apply {F : ℝ → ℝ} {d : ℝ} (f : Fn) (hd : HasDerivAt F d τ)
    (hpos : f = .exp ∨ 0 < F τ) : HasDerivAt (fun r => f.apply (F r)) (f.derivValue (F τ) * d) τ := by
  cases f with
  | exp => simpa [Fn.derivValue, mul_comm] using hd.exp
  | log =>
    have hF : F τ ≠ 0 := (hpos.resolve_left nofun).ne'
    simpa [Fn.derivValue, div_eq_inv_mul] using hd.log hF
  | sqrt =>
    have hF : F τ ≠ 0 := (hpos.resolve_left nofun).ne'
    simpa [Fn.derivValue, div_eq_inv_mul] using hd.sqrt hF

private theorem eq_of_eventually_ok {β : Type} {G : ℝ → Except ExprError β} {F : ℝ → β} {A : β}
    (hF : ∀ᶠ r in 𝓝 τ, G r = .ok (F r)) (hA : G τ = .ok A) : F τ = A := by
  have h := hF.self_of_nhds
  rw [hA, Except.ok.injEq] at h
  exact h.symm

/-- The product rule under a sum of six terms, the shape of contractions and matrix products. -/
private theorem hasDerivAt_sum_mul {f g : Fin 6 → ℝ → ℝ} {f' g' : Fin 6 → ℝ}
    (hf : ∀ k, HasDerivAt (f k) (f' k) τ) (hg : ∀ k, HasDerivAt (g k) (g' k) τ) :
    HasDerivAt (fun r => ∑ k, f k r * g k r) (∑ k, f' k * g k τ + ∑ k, f k τ * g' k) τ := by
  rw [← Finset.sum_add_distrib]
  exact HasDerivAt.fun_sum fun k _ => (hf k).mul (hg k)

namespace Scalar.HasDerivAlong

variable {a b e : Scalar ℝ} {t u : Stensor ℝ} {d d' A B : ℝ} {D D' T U : Vec6 ℝ}

theorem congr_deriv (h : e.HasDerivAlong E d τ) (hd : d = d') : e.HasDerivAlong E d' τ :=
  hd ▸ h

theorem eval_ok (h : e.HasDerivAlong E d τ) : ∃ A, e.eval (E τ) = .ok A :=
  let ⟨F, hF, _⟩ := h
  ⟨F τ, hF.self_of_nhds⟩

theorem of_eventually_const {c : ℝ} (h : ∀ᶠ r in 𝓝 τ, e.eval (E r) = .ok c) :
    e.HasDerivAlong E 0 τ :=
  ⟨fun _ => c, h, hasDerivAt_const τ c⟩

theorem of_frame (hE : ∀ r, ∀ n ∈ e.names, (E r).get? n = (E τ).get? n)
    (hA : e.eval (E τ) = .ok A) : e.HasDerivAlong E 0 τ :=
  of_eventually_const (.of_forall fun r => (Scalar.eval_congr e (hE r)).trans hA)

theorem eventually_const (h : ∀ᶠ r in 𝓝 τ, e.HasDerivAlong E 0 r) :
    ∃ c, ∀ᶠ r in 𝓝 τ, e.eval (E r) = .ok c := by
  obtain ⟨F, hF, -⟩ := h.self_of_nhds
  have hnear : ∀ᶠ r in 𝓝 τ, e.eval (E r) = .ok (F r) ∧ HasDerivAt F 0 r := by
    filter_upwards [h, eventually_eventually_nhds.mpr hF] with r ⟨G, hG, hd⟩ hFr
    refine ⟨hFr.self_of_nhds, hd.congr_of_eventuallyEq ?_⟩
    filter_upwards [hFr, hG] with q h1 h2
    rw [h1, Except.ok.injEq] at h2
    exact h2
  obtain ⟨ε, hε, hball⟩ := Metric.eventually_nhds_iff_ball.mp hnear
  have hconst : ∀ r ∈ Metric.ball τ ε, F r = F τ := fun r hr =>
    Metric.isOpen_ball.is_const_of_deriv_eq_zero (convex_ball τ ε).isPreconnected
      (fun q hq => (hball q hq).2.differentiableAt.differentiableWithinAt)
      (fun q hq => (hball q hq).2.deriv) hr (Metric.mem_ball_self hε)
  refine ⟨F τ, Metric.eventually_nhds_iff_ball.mpr ⟨ε, hε, fun r hr => ?_⟩⟩
  rw [← hconst r hr]
  exact (hball r hr).1

theorem neg (ha : a.HasDerivAlong E d τ) : (Scalar.neg a).HasDerivAlong E (-d) τ := by
  obtain ⟨F, hF, hd⟩ := ha
  exact ⟨fun r => -F r, hF.mono fun r h => by simp [Scalar.eval, h], hd.neg⟩

theorem add (ha : a.HasDerivAlong E d τ) (hb : b.HasDerivAlong E d' τ) :
    (Scalar.add a b).HasDerivAlong E (d + d') τ := by
  obtain ⟨F, hF, hd⟩ := ha
  obtain ⟨G, hG, hd'⟩ := hb
  exact ⟨fun r => F r + G r, (hF.and hG).mono fun r h => by simp [Scalar.eval, h.1, h.2],
    hd.add hd'⟩

theorem sub (ha : a.HasDerivAlong E d τ) (hb : b.HasDerivAlong E d' τ) :
    (Scalar.sub a b).HasDerivAlong E (d - d') τ := by
  obtain ⟨F, hF, hd⟩ := ha
  obtain ⟨G, hG, hd'⟩ := hb
  exact ⟨fun r => F r - G r, (hF.and hG).mono fun r h => by simp [Scalar.eval, h.1, h.2],
    hd.sub hd'⟩

theorem mul (ha : a.HasDerivAlong E d τ) (hb : b.HasDerivAlong E d' τ)
    (hA : a.eval (E τ) = .ok A) (hB : b.eval (E τ) = .ok B) :
    (Scalar.mul a b).HasDerivAlong E (d * B + A * d') τ := by
  obtain ⟨F, hF, hd⟩ := ha
  obtain ⟨G, hG, hd'⟩ := hb
  refine ⟨fun r => F r * G r, (hF.and hG).mono fun r h => by simp [Scalar.eval, h.1, h.2], ?_⟩
  obtain rfl := eq_of_eventually_ok hF hA
  obtain rfl := eq_of_eventually_ok hG hB
  exact hd.mul hd'

theorem div (ha : a.HasDerivAlong E d τ) (hb : b.HasDerivAlong E d' τ)
    (hA : a.eval (E τ) = .ok A) (hB : b.eval (E τ) = .ok B) (hB0 : B ≠ 0) :
    (Scalar.div a b).HasDerivAlong E (d / B - A * d' / (B * B)) τ := by
  obtain ⟨F, hF, hd⟩ := ha
  obtain ⟨G, hG, hd'⟩ := hb
  refine ⟨fun r => F r / G r, (hF.and hG).mono fun r h => by simp [Scalar.eval, h.1, h.2], ?_⟩
  obtain rfl := eq_of_eventually_ok hF hA
  obtain rfl := eq_of_eventually_ok hG hB
  refine (hd.fun_div hd' hB0).congr_deriv ?_
  field_simp

/-- The rule for a power with a positive base, where both base and exponent may vary. -/
theorem pow (ha : a.HasDerivAlong E d τ) (hb : b.HasDerivAlong E d' τ)
    (hA : a.eval (E τ) = .ok A) (hB : b.eval (E τ) = .ok B) (hA0 : 0 < A) :
    (Scalar.pow a b).HasDerivAlong E (B * A ^ (B - 1) * d + A ^ B * Real.log A * d') τ := by
  obtain ⟨F, hF, hd⟩ := ha
  obtain ⟨G, hG, hd'⟩ := hb
  refine ⟨fun r => F r ^ G r, (hF.and hG).mono fun r h => by simp [Scalar.eval, h.1, h.2], ?_⟩
  obtain rfl := eq_of_eventually_ok hF hA
  obtain rfl := eq_of_eventually_ok hG hB
  refine (hd.rpow hd' hA0).congr_deriv ?_
  ring

theorem call (f : Fn) (ha : a.HasDerivAlong E d τ) (hA : a.eval (E τ) = .ok A)
    (hpos : f = .exp ∨ 0 < A) : (Scalar.call f a).HasDerivAlong E (f.derivValue A * d) τ := by
  obtain ⟨F, hF, hd⟩ := ha
  refine ⟨fun r => f.apply (F r), hF.mono fun r h => by simp [Scalar.eval, h], ?_⟩
  obtain rfl := eq_of_eventually_ok hF hA
  exact f.hasDerivAt_apply hd hpos

theorem min (ha : ∀ᶠ r in 𝓝 τ, a.HasDerivAlong E 0 r) (hb : ∀ᶠ r in 𝓝 τ, b.HasDerivAlong E 0 r) :
    (Scalar.min a b).HasDerivAlong E 0 τ := by
  obtain ⟨A, hA⟩ := eventually_const ha
  obtain ⟨B, hB⟩ := eventually_const hb
  have hmin : ∀ᶠ r in 𝓝 τ, (Scalar.min a b).eval (E r) = .ok (Min.min A B) :=
    (hA.and hB).mono fun r h => by simp [Scalar.eval, h.1, h.2]
  exact of_eventually_const hmin

theorem trace (ht : t.HasDerivAlong E D τ) : (Scalar.trace t).HasDerivAlong E (Vec6.trace D) τ := by
  obtain ⟨F, hF, hD⟩ := ht
  refine ⟨fun r => Vec6.trace (F r), hF.mono fun r h => by simp [Scalar.eval, h], ?_⟩
  simp only [Vec6.trace]
  exact ((hD 0 (by decide)).add (hD 1 (by decide))).add (hD 2 (by decide))

theorem contract (ht : t.HasDerivAlong E D τ) (hu : u.HasDerivAlong E D' τ)
    (hT : t.eval (E τ) = .ok T) (hU : u.eval (E τ) = .ok U) :
    (Scalar.contract t u).HasDerivAlong E (Vec6.dot D U + Vec6.dot T D') τ := by
  obtain ⟨F, hF, hD⟩ := ht
  obtain ⟨G, hG, hD'⟩ := hu
  refine ⟨fun r => Vec6.dot (F r) (G r),
    (hF.and hG).mono fun r h => by simp [Scalar.eval, h.1, h.2], ?_⟩
  obtain rfl := eq_of_eventually_ok hF hT
  obtain rfl := eq_of_eventually_ok hG hU
  simp only [Vec6.dot_eq]
  exact hasDerivAt_sum_mul (fun k => hD k k.isLt) (fun k => hD' k k.isLt)

end Scalar.HasDerivAlong

namespace Stensor.HasDerivAlong

variable {s : Scalar ℝ} {c : Stensor4 ℝ} {e t u : Stensor ℝ} {d S : ℝ} {D D' T : Vec6 ℝ}
  {C C' : Mat6 ℝ}

theorem congr_deriv (h : e.HasDerivAlong E D τ) (hD : D = D') : e.HasDerivAlong E D' τ :=
  hD ▸ h

theorem eval_ok (h : e.HasDerivAlong E D τ) : ∃ T, e.eval (E τ) = .ok T :=
  let ⟨F, hF, _⟩ := h
  ⟨F τ, hF.self_of_nhds⟩

theorem of_eventually_const (h : ∀ᶠ r in 𝓝 τ, e.eval (E r) = .ok T) :
    e.HasDerivAlong E Vec6.zero τ :=
  ⟨fun _ => T, h, fun i hi => by simpa [hi] using hasDerivAt_const τ T[i]⟩

theorem of_frame (hE : ∀ r, ∀ n ∈ e.names, (E r).get? n = (E τ).get? n)
    (hT : e.eval (E τ) = .ok T) : e.HasDerivAlong E Vec6.zero τ :=
  of_eventually_const (.of_forall fun r => (Stensor.eval_congr e (hE r)).trans hT)

theorem neg (ht : t.HasDerivAlong E D τ) : (Stensor.neg t).HasDerivAlong E (Vec6.neg D) τ := by
  obtain ⟨F, hF, hD⟩ := ht
  exact ⟨fun r => Vec6.neg (F r), hF.mono fun r h => by simp [Stensor.eval, h],
    fun i hi => by simpa [hi] using (hD i hi).fun_neg⟩

theorem add (ht : t.HasDerivAlong E D τ) (hu : u.HasDerivAlong E D' τ) :
    (Stensor.add t u).HasDerivAlong E (Vec6.add D D') τ := by
  obtain ⟨F, hF, hD⟩ := ht
  obtain ⟨G, hG, hD'⟩ := hu
  exact ⟨fun r => Vec6.add (F r) (G r),
    (hF.and hG).mono fun r h => by simp [Stensor.eval, h.1, h.2],
    fun i hi => by simpa [hi] using (hD i hi).fun_add (hD' i hi)⟩

theorem sub (ht : t.HasDerivAlong E D τ) (hu : u.HasDerivAlong E D' τ) :
    (Stensor.sub t u).HasDerivAlong E (Vec6.sub D D') τ := by
  obtain ⟨F, hF, hD⟩ := ht
  obtain ⟨G, hG, hD'⟩ := hu
  exact ⟨fun r => Vec6.sub (F r) (G r),
    (hF.and hG).mono fun r h => by simp [Stensor.eval, h.1, h.2],
    fun i hi => by simpa [hi] using (hD i hi).fun_sub (hD' i hi)⟩

theorem scale (hs : s.HasDerivAlong E d τ) (ht : t.HasDerivAlong E D τ)
    (hS : s.eval (E τ) = .ok S) (hT : t.eval (E τ) = .ok T) :
    (Stensor.scale s t).HasDerivAlong E (Vec6.add (Vec6.scale d T) (Vec6.scale S D)) τ := by
  obtain ⟨F, hF, hd⟩ := hs
  obtain ⟨G, hG, hD⟩ := ht
  refine ⟨fun r => Vec6.scale (F r) (G r),
    (hF.and hG).mono fun r h => by simp [Stensor.eval, h.1, h.2], fun i hi => ?_⟩
  obtain rfl := eq_of_eventually_ok hF hS
  obtain rfl := eq_of_eventually_ok hG hT
  simpa [hi] using hd.fun_mul (hD i hi)

theorem apply (hc : c.HasDerivAlong E C' τ) (ht : t.HasDerivAlong E D τ)
    (hC : c.eval (E τ) = .ok C) (hT : t.eval (E τ) = .ok T) :
    (Stensor.apply c t).HasDerivAlong E (Vec6.add (Mat6.apply C' T) (Mat6.apply C D)) τ := by
  obtain ⟨F, hF, hC'⟩ := hc
  obtain ⟨G, hG, hD⟩ := ht
  refine ⟨fun r => Mat6.apply (F r) (G r),
    (hF.and hG).mono fun r h => by simp [Stensor.eval, h.1, h.2], fun i hi => ?_⟩
  obtain rfl := eq_of_eventually_ok hF hC
  obtain rfl := eq_of_eventually_ok hG hT
  simp only [Vec6.getElem_add, Mat6.getElem_apply_eq]
  exact hasDerivAt_sum_mul (fun k => hC' i k hi k.isLt) (fun k => hD k k.isLt)

end Stensor.HasDerivAlong

namespace Stensor4.HasDerivAlong

variable {s : Scalar ℝ} {c d e : Stensor4 ℝ} {t u : Stensor ℝ} {δ S : ℝ} {C M D D' : Mat6 ℝ}
  {T U Dt Du : Vec6 ℝ}

theorem congr_deriv (h : e.HasDerivAlong E D τ) (hD : D = D') : e.HasDerivAlong E D' τ :=
  hD ▸ h

theorem eval_ok (h : e.HasDerivAlong E D τ) : ∃ C, e.eval (E τ) = .ok C :=
  let ⟨F, hF, _⟩ := h
  ⟨F τ, hF.self_of_nhds⟩

theorem of_eventually_const (h : ∀ᶠ r in 𝓝 τ, e.eval (E r) = .ok C) :
    e.HasDerivAlong E Mat6.zero τ :=
  ⟨fun _ => C, h, fun i j hi hj => by simpa [hi, hj] using hasDerivAt_const τ C[i][j]⟩

theorem of_frame (hE : ∀ r, ∀ n ∈ e.names, (E r).get? n = (E τ).get? n)
    (hC : e.eval (E τ) = .ok C) : e.HasDerivAlong E Mat6.zero τ :=
  of_eventually_const (.of_forall fun r => (Stensor4.eval_congr e (hE r)).trans hC)

theorem neg (hc : c.HasDerivAlong E D τ) : (Stensor4.neg c).HasDerivAlong E (Mat6.neg D) τ := by
  obtain ⟨F, hF, hD⟩ := hc
  exact ⟨fun r => Mat6.neg (F r), hF.mono fun r h => by simp [Stensor4.eval, h],
    fun i j hi hj => by simpa [hi, hj] using (hD i j hi hj).fun_neg⟩

theorem add (hc : c.HasDerivAlong E D τ) (hd : d.HasDerivAlong E D' τ) :
    (Stensor4.add c d).HasDerivAlong E (Mat6.add D D') τ := by
  obtain ⟨F, hF, hD⟩ := hc
  obtain ⟨G, hG, hD'⟩ := hd
  exact ⟨fun r => Mat6.add (F r) (G r),
    (hF.and hG).mono fun r h => by simp [Stensor4.eval, h.1, h.2],
    fun i j hi hj => by simpa [hi, hj] using (hD i j hi hj).fun_add (hD' i j hi hj)⟩

theorem sub (hc : c.HasDerivAlong E D τ) (hd : d.HasDerivAlong E D' τ) :
    (Stensor4.sub c d).HasDerivAlong E (Mat6.sub D D') τ := by
  obtain ⟨F, hF, hD⟩ := hc
  obtain ⟨G, hG, hD'⟩ := hd
  exact ⟨fun r => Mat6.sub (F r) (G r),
    (hF.and hG).mono fun r h => by simp [Stensor4.eval, h.1, h.2],
    fun i j hi hj => by simpa [hi, hj] using (hD i j hi hj).fun_sub (hD' i j hi hj)⟩

theorem scale (hs : s.HasDerivAlong E δ τ) (hc : c.HasDerivAlong E D τ)
    (hS : s.eval (E τ) = .ok S) (hC : c.eval (E τ) = .ok C) :
    (Stensor4.scale s c).HasDerivAlong E (Mat6.add (Mat6.scale δ C) (Mat6.scale S D)) τ := by
  obtain ⟨F, hF, hδ⟩ := hs
  obtain ⟨G, hG, hD⟩ := hc
  refine ⟨fun r => Mat6.scale (F r) (G r),
    (hF.and hG).mono fun r h => by simp [Stensor4.eval, h.1, h.2], fun i j hi hj => ?_⟩
  obtain rfl := eq_of_eventually_ok hF hS
  obtain rfl := eq_of_eventually_ok hG hC
  simpa [hi, hj] using hδ.fun_mul (hD i j hi hj)

theorem product (hc : c.HasDerivAlong E D τ) (hd : d.HasDerivAlong E D' τ)
    (hC : c.eval (E τ) = .ok C) (hM : d.eval (E τ) = .ok M) :
    (Stensor4.product c d).HasDerivAlong E (Mat6.add (Mat6.mul D M) (Mat6.mul C D')) τ := by
  obtain ⟨F, hF, hD⟩ := hc
  obtain ⟨G, hG, hD'⟩ := hd
  refine ⟨fun r => Mat6.mul (F r) (G r),
    (hF.and hG).mono fun r h => by simp [Stensor4.eval, h.1, h.2], fun i j hi hj => ?_⟩
  obtain rfl := eq_of_eventually_ok hF hC
  obtain rfl := eq_of_eventually_ok hG hM
  simp only [Mat6.getElem_add, Mat6.getElem_mul_eq]
  exact hasDerivAt_sum_mul (fun k => hD i k hi k.isLt) (fun k => hD' k j k.isLt hj)

theorem outer (ht : t.HasDerivAlong E Dt τ) (hu : u.HasDerivAlong E Du τ)
    (hT : t.eval (E τ) = .ok T) (hU : u.eval (E τ) = .ok U) :
    (Stensor4.outer t u).HasDerivAlong E (Mat6.add (Mat6.outer Dt U) (Mat6.outer T Du)) τ := by
  obtain ⟨F, hF, hDt⟩ := ht
  obtain ⟨G, hG, hDu⟩ := hu
  refine ⟨fun r => Mat6.outer (F r) (G r),
    (hF.and hG).mono fun r h => by simp [Stensor4.eval, h.1, h.2], fun i j hi hj => ?_⟩
  obtain rfl := eq_of_eventually_ok hF hT
  obtain rfl := eq_of_eventually_ok hG hU
  simpa [hi, hj] using (hDt i hi).fun_mul (hDu j hj)

theorem transpose (hc : c.HasDerivAlong E D τ) :
    (Stensor4.transpose c).HasDerivAlong E (Mat6.transpose D) τ := by
  obtain ⟨F, hF, hD⟩ := hc
  exact ⟨fun r => Mat6.transpose (F r), hF.mono fun r h => by simp [Stensor4.eval, h],
    fun i j hi hj => by simpa [hi, hj] using hD j i hj hi⟩

end Stensor4.HasDerivAlong

end Elasto.Tensor
