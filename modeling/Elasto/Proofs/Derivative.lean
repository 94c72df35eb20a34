import Mathlib
import Elasto.Proofs.Calculus

/-!
# Derivatives with respect to a scalar

Over the reals, the derivative that `dScalar x` builds is the derivative of the expression as
`x` moves, for expressions of the three kinds: wherever the expression is regular all around
the point, the built expression evaluates to the derivative of the value. Regular means that
every symbol is bound to a value of its kind, every divisor is non-zero, and every base of a
power and every argument of a logarithm or a square root is positive; a regular expression
always evaluates. The proof goes node by node with the rules of the calculus, the folding
builders being exact.
-/

namespace Elasto.Tensor

open Elasto.Mandel Filter Topology

mutual

/-- The conditions under which the derivative rules hold at `env`. -/
def Scalar.Regular (env : Env ℝ) : Scalar ℝ → Prop
  | .const _ => True
  | .sym s => ∃ c, env.scalar s = .ok c
  | .neg a => Scalar.Regular env a
  | .add a b | .sub a b | .mul a b | .min a b => Scalar.Regular env a ∧ Scalar.Regular env b
  | .div a b => Scalar.Regular env a ∧ Scalar.Regular env b ∧ b.eval env ≠ .ok 0
  | .pow a b =>
    Scalar.Regular env a ∧ Scalar.Regular env b ∧ ∀ A, a.eval env = .ok A → 0 < A
  | .call f a => Scalar.Regular env a ∧ (f = .exp ∨ ∀ A, a.eval env = .ok A → 0 < A)
  | .trace t => Stensor.Regular env t
  | .contract t u => Stensor.Regular env t ∧ Stensor.Regular env u

def Stensor.Regular (env : Env ℝ) : Stensor ℝ → Prop
  | .zero | .identity => True
  | .sym s => ∃ T, env.stensor s = .ok T
  | .neg t => Stensor.Regular env t
  | .add t u | .sub t u => Stensor.Regular env t ∧ Stensor.Regular env u
  | .scale s t => Scalar.Regular env s ∧ Stensor.Regular env t
  | .apply c t => Stensor4.Regular env c ∧ Stensor.Regular env t

def Stensor4.Regular (env : Env ℝ) : Stensor4 ℝ → Prop
  | .zero | .id | .ixi => True
  | .sym s => ∃ C, env.stensor4 s = .ok C
  | .neg c | .transpose c => Stensor4.Regular env c
  | .add c d | .sub c d | .product c d => Stensor4.Regular env c ∧ Stensor4.Regular env d
  | .scale s c => Scalar.Regular env s ∧ Stensor4.Regular env c
  | .outer t u => Stensor.Regular env t ∧ Stensor.Regular env u

end

section Unfolding

/-! Regularity of the constructors the builders produce, as the definition states it. Proofs
rewrite with these rather than unfold `Regular`, whose equations are then never generated in
many proofs at once. -/

variable {env : Env ℝ}

theorem Scalar.regular_const (x : ℝ) : (Scalar.const x).Regular env ↔ True := Iff.rfl

theorem Scalar.regular_neg {a : Scalar ℝ} : (Scalar.neg a).Regular env ↔ a.Regular env :=
  Iff.rfl

theorem Scalar.regular_add {a b : Scalar ℝ} :
    (Scalar.add a b).Regular env ↔ a.Regular env ∧ b.Regular env := Iff.rfl

theorem Scalar.regular_sub {a b : Scalar ℝ} :
    (Scalar.sub a b).Regular env ↔ a.Regular env ∧ b.Regular env := Iff.rfl

theorem Scalar.regular_mul {a b : Scalar ℝ} :
    (Scalar.mul a b).Regular env ↔ a.Regular env ∧ b.Regular env := Iff.rfl

theorem Scalar.regular_trace {t : Stensor ℝ} : (Scalar.trace t).Regular env ↔ t.Regular env :=
  Iff.rfl

theorem Scalar.regular_contract {t u : Stensor ℝ} :
    (Scalar.contract t u).Regular env ↔ t.Regular env ∧ u.Regular env := Iff.rfl

theorem Stensor.regular_zero : (Stensor.zero : Stensor ℝ).Regular env ↔ True := Iff.rfl

theorem Stensor.regular_add {t u : Stensor ℝ} :
    (Stensor.add t u).Regular env ↔ t.Regular env ∧ u.Regular env := Iff.rfl

theorem Stensor.regular_scale {s : Scalar ℝ} {t : Stensor ℝ} :
    (Stensor.scale s t).Regular env ↔ s.Regular env ∧ t.Regular env := Iff.rfl

theorem Stensor.regular_apply {c : Stensor4 ℝ} {t : Stensor ℝ} :
    (Stensor.apply c t).Regular env ↔ c.Regular env ∧ t.Regular env := Iff.rfl

theorem Stensor4.regular_add {c d : Stensor4 ℝ} :
    (Stensor4.add c d).Regular env ↔ c.Regular env ∧ d.Regular env := Iff.rfl

theorem Stensor4.regular_scale {s : Scalar ℝ} {c : Stensor4 ℝ} :
    (Stensor4.scale s c).Regular env ↔ s.Regular env ∧ c.Regular env := Iff.rfl

end Unfolding

section Evaluates

variable {env : Env ℝ}

mutual

theorem Scalar.eval_ok_of_regular : ∀ e : Scalar ℝ, e.Regular env → ∃ A, e.eval env = .ok A
  | .const c, _ => ⟨c, rfl⟩
  | .sym _, h => h
  | .neg a, h => by
    obtain ⟨A, hA⟩ := Scalar.eval_ok_of_regular a h
    exact ⟨-A, by simp [Scalar.eval, hA]⟩
  | .call f a, h => by
    obtain ⟨A, hA⟩ := Scalar.eval_ok_of_regular a h.1
    exact ⟨f.apply A, by simp [Scalar.eval, hA]⟩
  | .add a b, h | .sub a b, h | .mul a b, h | .min a b, h => by
    obtain ⟨A, hA⟩ := Scalar.eval_ok_of_regular a h.1
    obtain ⟨B, hB⟩ := Scalar.eval_ok_of_regular b h.2
    simp [Scalar.eval, hA, hB]
  | .div a b, h | .pow a b, h => by
    obtain ⟨A, hA⟩ := Scalar.eval_ok_of_regular a h.1
    obtain ⟨B, hB⟩ := Scalar.eval_ok_of_regular b h.2.1
    simp [Scalar.eval, hA, hB]
  | .trace t, h => by
    obtain ⟨T, hT⟩ := Stensor.eval_ok_of_regular t h
    exact ⟨Vec6.trace T, by simp [Scalar.eval, hT]⟩
  | .contract t u, h => by
    obtain ⟨T, hT⟩ := Stensor.eval_ok_of_regular t h.1
    obtain ⟨U, hU⟩ := Stensor.eval_ok_of_regular u h.2
    exact ⟨Vec6.dot T U, by simp [Scalar.eval, hT, hU]⟩

theorem Stensor.eval_ok_of_regular : ∀ e : Stensor ℝ, e.Regular env → ∃ T, e.eval env = .ok T
  | .zero, _ => ⟨Vec6.zero, rfl⟩
  | .identity, _ => ⟨Vec6.identity, rfl⟩
  | .sym _, h => h
  | .neg t, h => by
    obtain ⟨T, hT⟩ := Stensor.eval_ok_of_regular t h
    exact ⟨Vec6.neg T, by simp [Stensor.eval, hT]⟩
  | .add t u, h | .sub t u, h => by
    obtain ⟨T, hT⟩ := Stensor.eval_ok_of_regular t h.1
    obtain ⟨U, hU⟩ := Stensor.eval_ok_of_regular u h.2
    simp [Stensor.eval, hT, hU]
  | .scale s t, h => by
    obtain ⟨S, hS⟩ := Scalar.eval_ok_of_regular s h.1
    obtain ⟨T, hT⟩ := Stensor.eval_ok_of_regular t h.2
    exact ⟨Vec6.scale S T, by simp [Stensor.eval, hS, hT]⟩
  | .apply c t, h => by
    obtain ⟨C, hC⟩ := Stensor4.eval_ok_of_regular c h.1
    obtain ⟨T, hT⟩ := Stensor.eval_ok_of_regular t h.2
    exact ⟨Mat6.apply C T, by simp [Stensor.eval, hC, hT]⟩

theorem Stensor4.eval_ok_of_regular : ∀ e : Stensor4 ℝ, e.Regular env → ∃ C, e.eval env = .ok C
  | .zero, _ => ⟨Mat6.zero, rfl⟩
  | .id, _ => ⟨Mat6.id, rfl⟩
  | .ixi, _ => ⟨Mat6.ixi, rfl⟩
  | .sym _, h => h
  | .neg c, h | .transpose c, h => by
    obtain ⟨C, hC⟩ := Stensor4.eval_ok_of_regular c h
    simp [Stensor4.eval, hC]
  | .add c d, h | .sub c d, h | .product c d, h => by
    obtain ⟨C, hC⟩ := Stensor4.eval_ok_of_regular c h.1
    obtain ⟨D, hD⟩ := Stensor4.eval_ok_of_regular d h.2
    simp [Stensor4.eval, hC, hD]
  | .scale s c, h => by
    obtain ⟨S, hS⟩ := Scalar.eval_ok_of_regular s h.1
    obtain ⟨C, hC⟩ := Stensor4.eval_ok_of_regular c h.2
    exact ⟨Mat6.scale S C, by simp [Stensor4.eval, hS, hC]⟩
  | .outer t u, h => by
    obtain ⟨T, hT⟩ := Stensor.eval_ok_of_regular t h.1
    obtain ⟨U, hU⟩ := Stensor.eval_ok_of_regular u h.2
    exact ⟨Mat6.outer T U, by simp [Stensor4.eval, hT, hU]⟩

end

end Evaluates

/-- `dScalar` accepts a minimum only when neither operand depends on the variable. -/
theorem Scalar.dScalar_min_eq_ok {x : String} {a b de : Scalar ℝ}
    (h : (Scalar.min a b).dScalar x = .ok de) :
    a.dScalar x = .ok (.const 0) ∧ b.dScalar x = .ok (.const 0) ∧ de = Scalar.zero := by
  obtain ⟨da, hda, h⟩ := except_bind_eq_ok.mp h
  by_cases hza : da.isZero = true
  · obtain rfl := Scalar.isZero_iff.mp hza
    rw [if_pos hza] at h
    obtain ⟨db, hdb, h⟩ := except_bind_eq_ok.mp h
    by_cases hzb : db.isZero = true
    · obtain rfl := Scalar.isZero_iff.mp hzb
      rw [if_pos hzb] at h
      exact ⟨hda, hdb, (Except.ok.inj h).symm⟩
    · rw [if_neg hzb] at h
      cases h
  · rw [if_neg hza] at h
    cases h

section ScalarLine

variable {env : Env ℝ} {x : String}

/-- The environments that bind `x` to the scalar `r`, all else as in `env`. -/
def Env.scalarLine (env : Env ℝ) (x : String) (r : ℝ) : Env ℝ := env.set x (.scalar r)

@[simp] theorem Env.get?_scalarLine (r : ℝ) (n : String) :
    (env.scalarLine x r).get? n = if x = n then some (.scalar r) else env.get? n := by
  simp [Env.scalarLine]

theorem Env.get?_scalarLine_self {t₀ : ℝ} (h : env.get? x = some (.scalar t₀)) (n : String) :
    (env.scalarLine x t₀).get? n = env.get? n := by
  by_cases hn : x = n
  · subst hn
    simp [h]
  · simp [hn]

private theorem scalarLine_frame {s : Symbol} (hx : s.name ≠ x) (τ r : ℝ) :
    ∀ n ∈ [s.name], (env.scalarLine x r).get? n = (env.scalarLine x τ).get? n := by
  intro n hn
  rw [List.mem_singleton] at hn
  subst hn
  simp [Ne.symm hx]

mutual

theorem Scalar.dScalar_hasDerivAlong : ∀ (e : Scalar ℝ) {de : Scalar ℝ} {τ : ℝ},
    e.dScalar x = .ok de → (∀ᶠ r in 𝓝 τ, e.Regular (env.scalarLine x r)) →
    ∃ d, de.eval (env.scalarLine x τ) = .ok d ∧ e.HasDerivAlong (env.scalarLine x) d τ
  | .const c, de, τ, hd, _ => by
    obtain rfl : Scalar.zero = de := by simpa [Scalar.dScalar] using hd
    exact ⟨0, rfl, .of_eventually_const (.of_forall fun _ => rfl)⟩
  | .sym s, de, τ, hd, hr => by
    by_cases hx : s.name = x
    · -- the variable itself: its value is the parameter
      obtain rfl : Scalar.one = de := by simpa [Scalar.dScalar, hx] using hd
      refine ⟨1, rfl, id, .of_forall fun r => ?_, hasDerivAt_id τ⟩
      simp [Scalar.eval, Env.scalar, Env.lookup, hx]
    · obtain rfl : Scalar.zero = de := by simpa [Scalar.dScalar, hx] using hd
      obtain ⟨c, hc⟩ := hr.self_of_nhds
      exact ⟨0, rfl, .of_frame (scalarLine_frame hx τ) hc⟩
  | .neg a, de, τ, hd, hr => by
    obtain ⟨da, hda, rfl⟩ := except_bind_pure_eq_ok.mp hd
    obtain ⟨d, hd, ha⟩ := Scalar.dScalar_hasDerivAlong a hda hr
    exact ⟨-d, Scalar.eval_mkNeg hd, ha.neg⟩
  | .add a b, de, τ, hd, hr => by
    obtain ⟨da, hda, db, hdb, rfl⟩ := except_bind₂_pure_eq_ok.mp hd
    obtain ⟨d, hd, ha⟩ := Scalar.dScalar_hasDerivAlong a hda (hr.mono fun _ h => h.1)
    obtain ⟨d', hd', hb⟩ := Scalar.dScalar_hasDerivAlong b hdb (hr.mono fun _ h => h.2)
    exact ⟨d + d', Scalar.eval_mkAdd hd hd', ha.add hb⟩
  | .sub a b, de, τ, hd, hr => by
    obtain ⟨da, hda, db, hdb, rfl⟩ := except_bind₂_pure_eq_ok.mp hd
    obtain ⟨d, hd, ha⟩ := Scalar.dScalar_hasDerivAlong a hda (hr.mono fun _ h => h.1)
    obtain ⟨d', hd', hb⟩ := Scalar.dScalar_hasDerivAlong b hdb (hr.mono fun _ h => h.2)
    exact ⟨d - d', Scalar.eval_mkSub hd hd', ha.sub hb⟩
  | .mul a b, de, τ, hd, hr => by
    obtain ⟨da, hda, db, hdb, rfl⟩ := except_bind₂_pure_eq_ok.mp hd
    obtain ⟨d, hd, ha⟩ := Scalar.dScalar_hasDerivAlong a hda (hr.mono fun _ h => h.1)
    obtain ⟨d', hd', hb⟩ := Scalar.dScalar_hasDerivAlong b hdb (hr.mono fun _ h => h.2)
    obtain ⟨A, hA⟩ := ha.eval_ok
    obtain ⟨B, hB⟩ := hb.eval_ok
    exact ⟨d * B + A * d', Scalar.eval_mkAdd (Scalar.eval_mkMul hd hB) (Scalar.eval_mkMul hA hd'),
      ha.mul hb hA hB⟩
  | .div a b, de, τ, hd, hr => by
    obtain ⟨da, hda, db, hdb, rfl⟩ := except_bind₂_pure_eq_ok.mp hd
    obtain ⟨d, hd, ha⟩ := Scalar.dScalar_hasDerivAlong a hda (hr.mono fun _ h => h.1)
    obtain ⟨d', hd', hb⟩ := Scalar.dScalar_hasDerivAlong b hdb (hr.mono fun _ h => h.2.1)
    obtain ⟨A, hA⟩ := ha.eval_ok
    obtain ⟨B, hB⟩ := hb.eval_ok
    have hB0 : B ≠ 0 := fun h => hr.self_of_nhds.2.2 (h ▸ hB)
    have hquot := Scalar.eval_mkDiv (Scalar.eval_mkMul hA hd') (Scalar.eval_mkMul hB hB)
    exact ⟨_, Scalar.eval_mkSub (Scalar.eval_mkDiv hd hB) hquot, ha.div hb hA hB hB0⟩
  | .pow a b, de, τ, hd, hr => by
    simp only [Scalar.dScalar, except_bind_eq_ok] at hd
    obtain ⟨da, hda, db, hdb, hd⟩ := hd
    obtain ⟨d, hd_a, ha⟩ := Scalar.dScalar_hasDerivAlong a hda (hr.mono fun _ h => h.1)
    obtain ⟨d', hd', hb⟩ := Scalar.dScalar_hasDerivAlong b hdb (hr.mono fun _ h => h.2.1)
    obtain ⟨A, hA⟩ := ha.eval_ok
    obtain ⟨B, hB⟩ := hb.eval_ok
    have hrule := ha.pow hb hA hB (hr.self_of_nhds.2.2 A hA)
    have hpower := Scalar.eval_mkMul
      (Scalar.eval_mkMul hB (Scalar.eval_mkPow hA (Scalar.eval_mkSub hB Scalar.eval_one))) hd_a
    split_ifs at hd with hz
    · obtain rfl := (Except.ok.inj hd)
      obtain rfl : db = .const 0 := Scalar.isZero_iff.mp hz
      obtain rfl : (0 : ℝ) = d' := by simpa [Scalar.eval] using hd'
      exact ⟨_, hpower, hrule.congr_deriv (by ring)⟩
    · obtain rfl := (Except.ok.inj hd)
      have hlog := Scalar.eval_mkMul (Scalar.eval_mkPow hA hB) (Scalar.eval_mkCall .log hA)
      exact ⟨_, Scalar.eval_mkAdd hpower (Scalar.eval_mkMul hlog hd'), hrule⟩
  | .min a b, de, τ, hd, hr => by
    obtain ⟨hda, hdb, rfl⟩ := Scalar.dScalar_min_eq_ok hd
    -- neither operand moves anywhere near `τ`, so neither does their minimum
    have hnear := eventually_eventually_nhds.mpr hr
    refine ⟨0, rfl, .min ?_ ?_⟩
    · filter_upwards [hnear] with r hr'
      obtain ⟨d, hd0, ha⟩ := Scalar.dScalar_hasDerivAlong a hda (hr'.mono fun _ h => h.1)
      obtain rfl : (0 : ℝ) = d := by simpa [Scalar.eval] using hd0
      exact ha
    · filter_upwards [hnear] with r hr'
      obtain ⟨d, hd0, hb⟩ := Scalar.dScalar_hasDerivAlong b hdb (hr'.mono fun _ h => h.2)
      obtain rfl : (0 : ℝ) = d := by simpa [Scalar.eval] using hd0
      exact hb
  | .call f a, de, τ, hd, hr => by
    obtain ⟨da, hda, rfl⟩ := except_bind_pure_eq_ok.mp hd
    obtain ⟨d, hd, ha⟩ := Scalar.dScalar_hasDerivAlong a hda (hr.mono fun _ h => h.1)
    obtain ⟨A, hA⟩ := ha.eval_ok
    have hpos : f = .exp ∨ 0 < A := hr.self_of_nhds.2.imp id fun h => h A hA
    exact ⟨_, Scalar.eval_mkMul (f.eval_deriv hA) hd, ha.call f hA hpos⟩
  | .trace t, de, τ, hd, hr => by
    obtain ⟨dt, hdt, rfl⟩ := except_bind_pure_eq_ok.mp hd
    obtain ⟨D, hD, ht⟩ := Stensor.dScalar_hasDerivAlong t hdt hr
    exact ⟨_, Scalar.eval_mkTrace hD, .trace ht⟩
  | .contract t u, de, τ, hd, hr => by
    obtain ⟨dt, hdt, du, hdu, rfl⟩ := except_bind₂_pure_eq_ok.mp hd
    obtain ⟨D, hD, ht⟩ := Stensor.dScalar_hasDerivAlong t hdt (hr.mono fun _ h => h.1)
    obtain ⟨D', hD', hu⟩ := Stensor.dScalar_hasDerivAlong u hdu (hr.mono fun _ h => h.2)
    obtain ⟨T, hT⟩ := ht.eval_ok
    obtain ⟨U, hU⟩ := hu.eval_ok
    exact ⟨_, Scalar.eval_mkAdd (Scalar.eval_mkContract hD hU) (Scalar.eval_mkContract hT hD'),
      .contract ht hu hT hU⟩

theorem Stensor.dScalar_hasDerivAlong : ∀ (e : Stensor ℝ) {de : Stensor ℝ} {τ : ℝ},
    e.dScalar x = .ok de → (∀ᶠ r in 𝓝 τ, e.Regular (env.scalarLine x r)) →
    ∃ D, de.eval (env.scalarLine x τ) = .ok D ∧ e.HasDerivAlong (env.scalarLine x) D τ
  | .zero, de, τ, hd, _ | .identity, de, τ, hd, _ => by
    obtain rfl : Stensor.zero = de := by simpa [Stensor.dScalar] using hd
    exact ⟨Vec6.zero, rfl, .of_eventually_const (.of_forall fun _ => rfl)⟩
  | .sym s, de, τ, hd, hr => by
    obtain rfl : Stensor.zero = de := by simpa [Stensor.dScalar] using hd
    obtain ⟨T, hT⟩ := hr.self_of_nhds
    -- a tensor symbol named `x` cannot be read where `x` is a scalar
    have hx : s.name ≠ x := by
      rintro rfl
      simp [Env.stensor, Env.lookup] at hT
    exact ⟨Vec6.zero, rfl, .of_frame (scalarLine_frame hx τ) hT⟩
  | .neg t, de, τ, hd, hr => by
    obtain ⟨dt, hdt, rfl⟩ := except_bind_pure_eq_ok.mp hd
    obtain ⟨D, hD, ht⟩ := Stensor.dScalar_hasDerivAlong t hdt hr
    exact ⟨_, Stensor.eval_mkNeg hD, ht.neg⟩
  | .add t u, de, τ, hd, hr => by
    obtain ⟨dt, hdt, du, hdu, rfl⟩ := except_bind₂_pure_eq_ok.mp hd
    obtain ⟨D, hD, ht⟩ := Stensor.dScalar_hasDerivAlong t hdt (hr.mono fun _ h => h.1)
    obtain ⟨D', hD', hu⟩ := Stensor.dScalar_hasDerivAlong u hdu (hr.mono fun _ h => h.2)
    exact ⟨_, Stensor.eval_mkAdd hD hD', ht.add hu⟩
  | .sub t u, de, τ, hd, hr => by
    obtain ⟨dt, hdt, du, hdu, rfl⟩ := except_bind₂_pure_eq_ok.mp hd
    obtain ⟨D, hD, ht⟩ := Stensor.dScalar_hasDerivAlong t hdt (hr.mono fun _ h => h.1)
    obtain ⟨D', hD', hu⟩ := Stensor.dScalar_hasDerivAlong u hdu (hr.mono fun _ h => h.2)
    exact ⟨_, Stensor.eval_mkSub hD hD', ht.sub hu⟩
  | .scale s t, de, τ, hd, hr => by
    obtain ⟨ds, hds, dt, hdt, rfl⟩ := except_bind₂_pure_eq_ok.mp hd
    obtain ⟨d, hd, hs⟩ := Scalar.dScalar_hasDerivAlong s hds (hr.mono fun _ h => h.1)
    obtain ⟨D, hD, ht⟩ := Stensor.dScalar_hasDerivAlong t hdt (hr.mono fun _ h => h.2)
    obtain ⟨S, hS⟩ := hs.eval_ok
    obtain ⟨T, hT⟩ := ht.eval_ok
    exact ⟨_, Stensor.eval_mkAdd (Stensor.eval_mkScale hd hT) (Stensor.eval_mkScale hS hD),
      .scale hs ht hS hT⟩
  | .apply c t, de, τ, hd, hr => by
    obtain ⟨dc, hdc, dt, hdt, rfl⟩ := except_bind₂_pure_eq_ok.mp hd
    obtain ⟨D', hD', hc⟩ := Stensor4.dScalar_hasDerivAlong c hdc (hr.mono fun _ h => h.1)
    obtain ⟨D, hD, ht⟩ := Stensor.dScalar_hasDerivAlong t hdt (hr.mono fun _ h => h.2)
    obtain ⟨C, hC⟩ := hc.eval_ok
    obtain ⟨T, hT⟩ := ht.eval_ok
    exact ⟨_, Stensor.eval_mkAdd (Stensor.eval_mkApply hD' hT) (Stensor.eval_mkApply hC hD),
      .apply hc ht hC hT⟩

theorem Stensor4.dScalar_hasDerivAlong : ∀ (e : Stensor4 ℝ) {de : Stensor4 ℝ} {τ : ℝ},
    e.dScalar x = .ok de → (∀ᶠ r in 𝓝 τ, e.Regular (env.scalarLine x r)) →
    ∃ D, de.eval (env.scalarLine x τ) = .ok D ∧ e.HasDerivAlong (env.scalarLine x) D τ
  | .zero, de, τ, hd, _ | .id, de, τ, hd, _ | .ixi, de, τ, hd, _ => by
    obtain rfl : Stensor4.zero = de := by simpa [Stensor4.dScalar] using hd
    exact ⟨Mat6.zero, rfl, .of_eventually_const (.of_forall fun _ => rfl)⟩
  | .sym s, de, τ, hd, hr => by
    obtain rfl : Stensor4.zero = de := by simpa [Stensor4.dScalar] using hd
    obtain ⟨C, hC⟩ := hr.self_of_nhds
    have hx : s.name ≠ x := by
      rintro rfl
      simp [Env.stensor4, Env.lookup] at hC
    exact ⟨Mat6.zero, rfl, .of_frame (scalarLine_frame hx τ) hC⟩
  | .neg c, de, τ, hd, hr => by
    obtain ⟨dc, hdc, rfl⟩ := except_bind_pure_eq_ok.mp hd
    obtain ⟨D, hD, hc⟩ := Stensor4.dScalar_hasDerivAlong c hdc hr
    exact ⟨_, Stensor4.eval_mkNeg hD, hc.neg⟩
  | .transpose c, de, τ, hd, hr => by
    obtain ⟨dc, hdc, rfl⟩ := except_bind_pure_eq_ok.mp hd
    obtain ⟨D, hD, hc⟩ := Stensor4.dScalar_hasDerivAlong c hdc hr
    exact ⟨_, Stensor4.eval_mkTranspose hD, hc.transpose⟩
  | .add c d, de, τ, hd, hr => by
    obtain ⟨dc, hdc, dd, hdd, rfl⟩ := except_bind₂_pure_eq_ok.mp hd
    obtain ⟨D, hD, hc⟩ := Stensor4.dScalar_hasDerivAlong c hdc (hr.mono fun _ h => h.1)
    obtain ⟨D', hD', hd⟩ := Stensor4.dScalar_hasDerivAlong d hdd (hr.mono fun _ h => h.2)
    exact ⟨_, Stensor4.eval_mkAdd hD hD', hc.add hd⟩
  | .sub c d, de, τ, hd, hr => by
    obtain ⟨dc, hdc, dd, hdd, rfl⟩ := except_bind₂_pure_eq_ok.mp hd
    obtain ⟨D, hD, hc⟩ := Stensor4.dScalar_hasDerivAlong c hdc (hr.mono fun _ h => h.1)
    obtain ⟨D', hD', hd⟩ := Stensor4.dScalar_hasDerivAlong d hdd (hr.mono fun _ h => h.2)
    exact ⟨_, Stensor4.eval_mkSub hD hD', hc.sub hd⟩
  | .scale s c, de, τ, hd, hr => by
    obtain ⟨ds, hds, dc, hdc, rfl⟩ := except_bind₂_pure_eq_ok.mp hd
    obtain ⟨δ, hδ, hs⟩ := Scalar.dScalar_hasDerivAlong s hds (hr.mono fun _ h => h.1)
    obtain ⟨D, hD, hc⟩ := Stensor4.dScalar_hasDerivAlong c hdc (hr.mono fun _ h => h.2)
    obtain ⟨S, hS⟩ := hs.eval_ok
    obtain ⟨C, hC⟩ := hc.eval_ok
    exact ⟨_, Stensor4.eval_mkAdd (Stensor4.eval_mkScale hδ hC) (Stensor4.eval_mkScale hS hD),
      .scale hs hc hS hC⟩
  | .product c d, de, τ, hd, hr => by
    obtain ⟨dc, hdc, dd, hdd, rfl⟩ := except_bind₂_pure_eq_ok.mp hd
    obtain ⟨D, hD, hc⟩ := Stensor4.dScalar_hasDerivAlong c hdc (hr.mono fun _ h => h.1)
    obtain ⟨D', hD', hd⟩ := Stensor4.dScalar_hasDerivAlong d hdd (hr.mono fun _ h => h.2)
    obtain ⟨C, hC⟩ := hc.eval_ok
    obtain ⟨M, hM⟩ := hd.eval_ok
    exact ⟨_, Stensor4.eval_mkAdd (Stensor4.eval_mkProduct hD hM) (Stensor4.eval_mkProduct hC hD'),
      hc.product hd hC hM⟩
  | .outer t u, de, τ, hd, hr => by
    obtain ⟨dt, hdt, du, hdu, rfl⟩ := except_bind₂_pure_eq_ok.mp hd
    obtain ⟨D, hD, ht⟩ := Stensor.dScalar_hasDerivAlong t hdt (hr.mono fun _ h => h.1)
    obtain ⟨D', hD', hu⟩ := Stensor.dScalar_hasDerivAlong u hdu (hr.mono fun _ h => h.2)
    obtain ⟨T, hT⟩ := ht.eval_ok
    obtain ⟨U, hU⟩ := hu.eval_ok
    exact ⟨_, Stensor4.eval_mkAdd (Stensor4.eval_mkOuter hD hU) (Stensor4.eval_mkOuter hT hD'),
      .outer ht hu hT hU⟩

end

end ScalarLine

end Elasto.Tensor
