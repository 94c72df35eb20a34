import Mathlib
import Elasto.Tensor.Deriv
import Elasto.Tensor.Eval
import Elasto.Proofs.Mandel
import Elasto.Proofs.Except

/-!
# Expressions over the real numbers

Over the reals every folding builder means what the node it replaces means: whenever the
operands evaluate, the folded expression evaluates to the exact value of the operation.
This is what lets the derivative rules be checked node by node, whatever the builders
chose to fold. Evaluation also reads an environment only at the names of the expression.
-/

namespace Elasto.Tensor

open Elasto.Mandel

/-- The reals as numbers of expressions: exact arithmetic, the real power, logarithm and
square root. -/
noncomputable instance : Number ℝ where
  toZero := inferInstance
  toOne := inferInstance
  toNatCast := inferInstance
  toAdd := inferInstance
  toSub := inferInstance
  toMul := inferInstance
  toDiv := inferInstance
  toNeg := inferInstance
  isZero x := decide (x = 0)
  isOne x := decide (x = 1)
  pow x y := x ^ y
  min := min
  exp := Real.exp
  log := Real.log
  sqrt := Real.sqrt

@[simp] theorem Number.isZero_real (x : ℝ) : Number.isZero x = decide (x = 0) := rfl
@[simp] theorem Number.isOne_real (x : ℝ) : Number.isOne x = decide (x = 1) := rfl
@[simp] theorem Number.pow_real (x y : ℝ) : Number.pow x y = x ^ y := rfl
@[simp] theorem Number.min_real (x y : ℝ) : Number.min x y = Min.min x y := rfl

@[simp] theorem Fn.apply_exp (x : ℝ) : Fn.exp.apply x = Real.exp x := rfl
@[simp] theorem Fn.apply_log (x : ℝ) : Fn.log.apply x = Real.log x := rfl
@[simp] theorem Fn.apply_sqrt (x : ℝ) : Fn.sqrt.apply x = Real.sqrt x := rfl

section Frame

variable {α : Type} [Number α] {env env' : Env α}

omit [Number α] in
theorem Env.lookup_congr {s : Symbol} (h : env.get? s.name = env'.get? s.name) :
    env.lookup s = env'.lookup s := by
  simp [Env.lookup, h]

mutual

theorem Scalar.eval_congr :
    ∀ e : Scalar α, (∀ n ∈ e.names, env.get? n = env'.get? n) → e.eval env = e.eval env'
  | .const _, _ => rfl
  | .sym s, h => by
    simp [Scalar.eval, Env.scalar, Env.lookup_congr (h s.name (by simp [Scalar.names]))]
  | .neg a, h => by simp [Scalar.eval, Scalar.eval_congr a (by simpa [Scalar.names] using h)]
  | .call f a, h => by
    simp [Scalar.eval, Scalar.eval_congr a (by simpa [Scalar.names] using h)]
  | .trace t, h => by
    simp [Scalar.eval, Stensor.eval_congr t (by simpa [Scalar.names] using h)]
  | .add a b, h | .sub a b, h | .mul a b, h | .div a b, h | .pow a b, h | .min a b, h => by
    have ha := Scalar.eval_congr a fun n hn => h n (by simp [Scalar.names, hn])
    have hb := Scalar.eval_congr b fun n hn => h n (by simp [Scalar.names, hn])
    simp [Scalar.eval, ha, hb]
  | .contract t u, h => by
    have ht := Stensor.eval_congr t fun n hn => h n (by simp [Scalar.names, hn])
    have hu := Stensor.eval_congr u fun n hn => h n (by simp [Scalar.names, hn])
    simp [Scalar.eval, ht, hu]

theorem Stensor.eval_congr :
    ∀ e : Stensor α, (∀ n ∈ e.names, env.get? n = env'.get? n) → e.eval env = e.eval env'
  | .zero, _ | .identity, _ => rfl
  | .sym s, h => by
    simp [Stensor.eval, Env.stensor, Env.lookup_congr (h s.name (by simp [Stensor.names]))]
  | .neg t, h => by simp [Stensor.eval, Stensor.eval_congr t (by simpa [Stensor.names] using h)]
  | .add t u, h | .sub t u, h => by
    have ht := Stensor.eval_congr t fun n hn => h n (by simp [Stensor.names, hn])
    have hu := Stensor.eval_congr u fun n hn => h n (by simp [Stensor.names, hn])
    simp [Stensor.eval, ht, hu]
  | .scale s t, h => by
    have hs := Scalar.eval_congr s fun n hn => h n (by simp [Stensor.names, hn])
    have ht := Stensor.eval_congr t fun n hn => h n (by simp [Stensor.names, hn])
    simp [Stensor.eval, hs, ht]
  | .apply c t, h => by
    have hc := Stensor4.eval_congr c fun n hn => h n (by simp [Stensor.names, hn])
    have ht := Stensor.eval_congr t fun n hn => h n (by simp [Stensor.names, hn])
    simp [Stensor.eval, hc, ht]

theorem Stensor4.eval_congr :
    ∀ e : Stensor4 α, (∀ n ∈ e.names, env.get? n = env'.get? n) → e.eval env = e.eval env'
  | .zero, _ | .id, _ | .ixi, _ => rfl
  | .sym s, h => by
    simp [Stensor4.eval, Env.stensor4, Env.lookup_congr (h s.name (by simp [Stensor4.names]))]
  | .neg c, h => by
    simp [Stensor4.eval, Stensor4.eval_congr c (by simpa [Stensor4.names] using h)]
  | .transpose c, h => by
    simp [Stensor4.eval, Stensor4.eval_congr c (by simpa [Stensor4.names] using h)]
  | .add c d, h | .sub c d, h | .product c d, h => by
    have hc := Stensor4.eval_congr c fun n hn => h n (by simp [Stensor4.names, hn])
    have hd := Stensor4.eval_congr d fun n hn => h n (by simp [Stensor4.names, hn])
    simp [Stensor4.eval, hc, hd]
  | .scale s c, h => by
    have hs := Scalar.eval_congr s fun n hn => h n (by simp [Stensor4.names, hn])
    have hc := Stensor4.eval_congr c fun n hn => h n (by simp [Stensor4.names, hn])
    simp [Stensor4.eval, hs, hc]
  | .outer t u, h => by
    have ht := Stensor.eval_congr t fun n hn => h n (by simp [Stensor4.names, hn])
    have hu := Stensor.eval_congr u fun n hn => h n (by simp [Stensor4.names, hn])
    simp [Stensor4.eval, ht, hu]

end

theorem Expr.eval_scalar {e : Scalar α} {a : α} (h : e.eval env = .ok a) :
    (Expr.scalar e).eval env = .ok (.scalar a) := by
  simp [Expr.eval, h, Functor.map, Except.map]

theorem Expr.eval_stensor {e : Stensor α} {a : Vec6 α} (h : e.eval env = .ok a) :
    (Expr.stensor e).eval env = .ok (.stensor a) := by
  simp [Expr.eval, h, Functor.map, Except.map]

theorem Expr.eval_stensor4 {e : Stensor4 α} {a : Mat6 α} (h : e.eval env = .ok a) :
    (Expr.stensor4 e).eval env = .ok (.stensor4 a) := by
  simp [Expr.eval, h, Functor.map, Except.map]

variable {n : String} {x : Value α}

omit [Number α] in
theorem Env.get?_set_of_ne {m : String} (h : n ≠ m) : (env.set n x).get? m = env.get? m := by
  rw [Env.get?_set, if_neg h]

theorem Scalar.eval_set_of_not_mem {e : Scalar α} (h : n ∉ e.names) :
    e.eval (env.set n x) = e.eval env :=
  Scalar.eval_congr e fun _ hm => Env.get?_set_of_ne fun h' => h (h' ▸ hm)

theorem Stensor.eval_set_of_not_mem {e : Stensor α} (h : n ∉ e.names) :
    e.eval (env.set n x) = e.eval env :=
  Stensor.eval_congr e fun _ hm => Env.get?_set_of_ne fun h' => h (h' ▸ hm)

theorem Stensor4.eval_set_of_not_mem {e : Stensor4 α} (h : n ∉ e.names) :
    e.eval (env.set n x) = e.eval env :=
  Stensor4.eval_congr e fun _ hm => Env.get?_set_of_ne fun h' => h (h' ▸ hm)

end Frame

variable {env : Env ℝ}

namespace Scalar

variable {a b : Scalar ℝ} {x y : ℝ}

theorem isZero_iff {e : Scalar ℝ} : e.isZero = true ↔ e = .const 0 := by
  cases e <;> simp [isZero]

@[simp] theorem eval_zero : (zero : Scalar ℝ).eval env = .ok 0 := rfl
@[simp] theorem eval_one : (one : Scalar ℝ).eval env = .ok 1 := rfl
@[simp] theorem eval_num (n : Nat) : (num n : Scalar ℝ).eval env = .ok (n : ℝ) := rfl

theorem eval_mkNeg (ha : a.eval env = .ok x) : (mkNeg a).eval env = .ok (-x) := by
  unfold mkNeg
  split
  · simp_all [eval]
  · obtain ⟨y, hy, rfl⟩ := except_bind_pure_eq_ok.mp ha
    simp [hy]
  · simp [eval, ha]

theorem eval_mkAdd (ha : a.eval env = .ok x) (hb : b.eval env = .ok y) :
    (mkAdd a b).eval env = .ok (x + y) := by
  unfold mkAdd
  split <;> (try split_ifs) <;> simp_all [eval]

theorem eval_mkSub (ha : a.eval env = .ok x) (hb : b.eval env = .ok y) :
    (mkSub a b).eval env = .ok (x - y) := by
  unfold mkSub
  split <;> (try split_ifs) <;> simp_all [eval]
  rename_i h
  have hneg : (mkNeg b).eval env = .ok (-y) := eval_mkNeg hb
  simpa [h] using hneg

theorem eval_mkMul (ha : a.eval env = .ok x) (hb : b.eval env = .ok y) :
    (mkMul a b).eval env = .ok (x * y) := by
  unfold mkMul
  split <;> (try split_ifs) <;> simp_all [eval, zero]

theorem eval_mkDiv (ha : a.eval env = .ok x) (hb : b.eval env = .ok y) :
    (mkDiv a b).eval env = .ok (x / y) := by
  unfold mkDiv
  split <;> (try split_ifs) <;> simp_all [eval, zero]

theorem eval_mkPow (ha : a.eval env = .ok x) (hb : b.eval env = .ok y) :
    (mkPow a b).eval env = .ok (x ^ y) := by
  unfold mkPow
  split <;> (try split_ifs) <;> simp_all [eval, one]

theorem eval_mkMin (ha : a.eval env = .ok x) (hb : b.eval env = .ok y) :
    (mkMin a b).eval env = .ok (Number.min x y) := by
  unfold mkMin
  split
  · obtain rfl : _ = x := by simpa [eval] using ha
    obtain rfl : _ = y := by simpa [eval] using hb
    rfl
  · simp [eval, ha, hb]

theorem eval_mkCall (f : Fn) (ha : a.eval env = .ok x) : (mkCall f a).eval env = .ok (f.apply x) := by
  unfold mkCall
  split <;> simp_all [eval]

end Scalar

theorem Scalar.eval_mkTrace {t : Stensor ℝ} {T : Vec6 ℝ} (ht : t.eval env = .ok T) :
    (Scalar.mkTrace t).eval env = .ok (Vec6.trace T) := by
  fun_induction Scalar.mkTrace t generalizing T with
  | case1 =>
    obtain rfl : Vec6.zero = T := by simpa [Stensor.eval] using ht
    simp [Scalar.eval, Scalar.zero]
  | case2 =>
    obtain rfl : Vec6.identity = T := by simpa [Stensor.eval] using ht
    simp [Vec6.trace_identity]
  | case3 s t ih =>
    obtain ⟨S, hs, T', ht', rfl⟩ := except_bind₂_pure_eq_ok.mp ht
    rw [Vec6.trace_scale]
    exact Scalar.eval_mkMul hs (ih ht')
  | case4 => simp [Scalar.eval, ht]

theorem Scalar.eval_mkContract {t u : Stensor ℝ} {T U : Vec6 ℝ} (ht : t.eval env = .ok T)
    (hu : u.eval env = .ok U) : (Scalar.mkContract t u).eval env = .ok (Vec6.dot T U) := by
  fun_induction Scalar.mkContract t u generalizing T U with
  | case1 =>
    obtain rfl : Vec6.zero = T := by simpa [Stensor.eval] using ht
    simp [Scalar.eval, Scalar.zero]
  | case2 =>
    obtain rfl : Vec6.zero = U := by simpa [Stensor.eval] using hu
    simp [Scalar.eval, Scalar.zero]
  | case3 t =>
    obtain rfl : Vec6.identity = T := by simpa [Stensor.eval] using ht
    rw [Vec6.dot_identity_left]
    exact Scalar.eval_mkTrace hu
  | case4 t =>
    obtain rfl : Vec6.identity = U := by simpa [Stensor.eval] using hu
    rw [Vec6.dot_identity_right]
    exact Scalar.eval_mkTrace ht
  | case5 s t u _ _ ih =>
    obtain ⟨S, hs, T', ht', rfl⟩ := except_bind₂_pure_eq_ok.mp ht
    rw [Vec6.dot_scale_left]
    exact Scalar.eval_mkMul hs (ih ht' hu)
  | case6 u s t _ _ _ ih =>
    obtain ⟨S, hs, U', hu', rfl⟩ := except_bind₂_pure_eq_ok.mp hu
    rw [Vec6.dot_scale_right, Vec6.dot_comm]
    exact Scalar.eval_mkMul hs (ih hu' ht)
  | case7 => simp [Scalar.eval, ht, hu]

theorem Scalar.isOne_iff {e : Scalar ℝ} : e.isOne = true ↔ e = .const 1 := by
  cases e <;> simp [Scalar.isOne]

namespace Stensor

variable {s : Scalar ℝ} {c : Stensor4 ℝ} {t u : Stensor ℝ} {S : ℝ} {C : Mat6 ℝ} {T U : Vec6 ℝ}

theorem isZero_iff : t.isZero = true ↔ t = .zero := by
  cases t <;> simp [isZero]

theorem eval_mkNeg (ht : t.eval env = .ok T) : (mkNeg t).eval env = .ok (Vec6.neg T) := by
  unfold mkNeg
  split
  · obtain rfl : Vec6.zero = T := by simpa [eval] using ht
    simp [eval]
  · obtain ⟨T', ht', rfl⟩ := except_bind_pure_eq_ok.mp ht
    simp [ht']
  · simp [eval, ht]

theorem eval_mkAdd (ht : t.eval env = .ok T) (hu : u.eval env = .ok U) :
    (mkAdd t u).eval env = .ok (Vec6.add T U) := by
  unfold mkAdd
  split
  · obtain rfl : Vec6.zero = T := by simpa [eval] using ht
    simp [hu]
  · obtain rfl : Vec6.zero = U := by simpa [eval] using hu
    simp [ht]
  · simp [eval, ht, hu]

theorem eval_mkSub (ht : t.eval env = .ok T) (hu : u.eval env = .ok U) :
    (mkSub t u).eval env = .ok (Vec6.sub T U) := by
  unfold mkSub
  split
  · obtain rfl : Vec6.zero = U := by simpa [eval] using hu
    simp [ht]
  · obtain rfl : Vec6.zero = T := by simpa [eval] using ht
    rw [Vec6.sub_zero_left]
    exact eval_mkNeg hu
  · simp [eval, ht, hu]

theorem eval_mkScale (hs : s.eval env = .ok S) (ht : t.eval env = .ok T) :
    (mkScale s t).eval env = .ok (Vec6.scale S T) := by
  unfold mkScale
  by_cases hz : (s.isZero || t.isZero) = true
  · rw [if_pos hz]
    rcases Bool.or_eq_true_iff.mp hz with h | h
    · obtain rfl : s = .const 0 := Scalar.isZero_iff.mp h
      obtain rfl : 0 = S := by simpa [Scalar.eval] using hs
      simp [eval]
    · obtain rfl : t = .zero := isZero_iff.mp h
      obtain rfl : Vec6.zero = T := by simpa [eval] using ht
      simp [eval]
  rw [if_neg hz]
  by_cases h1 : s.isOne = true
  · rw [if_pos h1]
    obtain rfl : s = .const 1 := Scalar.isOne_iff.mp h1
    obtain rfl : 1 = S := by simpa [Scalar.eval] using hs
    simpa using ht
  rw [if_neg h1]
  split
  · obtain ⟨S', hs', U', hu', rfl⟩ := except_bind₂_pure_eq_ok.mp ht
    simp [eval, Scalar.eval_mkMul hs hs', hu', Vec6.scale_scale]
  · simp [eval, hs, ht]

theorem eval_mkApply (hc : c.eval env = .ok C) (ht : t.eval env = .ok T) :
    (mkApply c t).eval env = .ok (Mat6.apply C T) := by
  fun_induction mkApply c t generalizing C T with
  | case1 =>
    obtain rfl : Mat6.zero = C := by simpa [Stensor4.eval] using hc
    simp [eval]
  | case2 =>
    obtain rfl : Vec6.zero = T := by simpa [eval] using ht
    simp [eval]
  | case3 =>
    obtain rfl : Mat6.id = C := by simpa [Stensor4.eval] using hc
    simpa using ht
  | case4 t =>
    obtain rfl : Mat6.ixi = C := by simpa [Stensor4.eval] using hc
    rw [Mat6.apply_ixi]
    exact eval_mkScale (Scalar.eval_mkTrace ht) rfl
  | case5 s c t _ ih =>
    obtain ⟨S, hs, C', hc', rfl⟩ := except_bind₂_pure_eq_ok.mp hc
    rw [Mat6.apply_scale_left]
    exact eval_mkScale hs (ih hc' ht)
  | case6 c s t _ _ _ _ ih =>
    obtain ⟨S, hs, T', ht', rfl⟩ := except_bind₂_pure_eq_ok.mp ht
    rw [Mat6.apply_scale_right]
    exact eval_mkScale hs (ih hc ht')
  | case7 a b t =>
    obtain ⟨A, ha, B, hb, rfl⟩ := except_bind₂_pure_eq_ok.mp hc
    rw [Mat6.apply_outer]
    exact eval_mkScale (Scalar.eval_mkContract hb ht) ha
  | case8 => simp [eval, hc, ht]

end Stensor

namespace Stensor4

variable {s : Scalar ℝ} {c d : Stensor4 ℝ} {t u : Stensor ℝ} {S : ℝ} {C D : Mat6 ℝ}
  {T U : Vec6 ℝ}

theorem isZero_iff : c.isZero = true ↔ c = .zero := by
  cases c <;> simp [isZero]

theorem eval_mkNeg (hc : c.eval env = .ok C) : (mkNeg c).eval env = .ok (Mat6.neg C) := by
  unfold mkNeg
  split
  · obtain rfl : Mat6.zero = C := by simpa [eval] using hc
    simp [eval]
  · obtain ⟨C', hc', rfl⟩ := except_bind_pure_eq_ok.mp hc
    simp [hc']
  · simp [eval, hc]

theorem eval_mkAdd (hc : c.eval env = .ok C) (hd : d.eval env = .ok D) :
    (mkAdd c d).eval env = .ok (Mat6.add C D) := by
  unfold mkAdd
  split
  · obtain rfl : Mat6.zero = C := by simpa [eval] using hc
    simp [hd]
  · obtain rfl : Mat6.zero = D := by simpa [eval] using hd
    simp [hc]
  · simp [eval, hc, hd]

theorem eval_mkSub (hc : c.eval env = .ok C) (hd : d.eval env = .ok D) :
    (mkSub c d).eval env = .ok (Mat6.sub C D) := by
  unfold mkSub
  split
  · obtain rfl : Mat6.zero = D := by simpa [eval] using hd
    simp [hc]
  · obtain rfl : Mat6.zero = C := by simpa [eval] using hc
    rw [Mat6.sub_zero_left]
    exact eval_mkNeg hd
  · simp [eval, hc, hd]

theorem eval_mkScale (hs : s.eval env = .ok S) (hc : c.eval env = .ok C) :
    (mkScale s c).eval env = .ok (Mat6.scale S C) := by
  unfold mkScale
  by_cases hz : (s.isZero || c.isZero) = true
  · rw [if_pos hz]
    rcases Bool.or_eq_true_iff.mp hz with h | h
    · obtain rfl : s = .const 0 := Scalar.isZero_iff.mp h
      obtain rfl : 0 = S := by simpa [Scalar.eval] using hs
      simp [eval]
    · obtain rfl : c = .zero := isZero_iff.mp h
      obtain rfl : Mat6.zero = C := by simpa [eval] using hc
      simp [eval]
  rw [if_neg hz]
  by_cases h1 : s.isOne = true
  · rw [if_pos h1]
    obtain rfl : s = .const 1 := Scalar.isOne_iff.mp h1
    obtain rfl : 1 = S := by simpa [Scalar.eval] using hs
    simpa using hc
  rw [if_neg h1]
  split
  · obtain ⟨S', hs', D', hd', rfl⟩ := except_bind₂_pure_eq_ok.mp hc
    simp [eval, Scalar.eval_mkMul hs hs', hd', Mat6.scale_scale]
  · simp [eval, hs, hc]

theorem eval_mkProduct (hc : c.eval env = .ok C) (hd : d.eval env = .ok D) :
    (mkProduct c d).eval env = .ok (Mat6.mul C D) := by
  fun_induction mkProduct c d generalizing C D with
  | case1 =>
    obtain rfl : Mat6.zero = C := by simpa [eval] using hc
    simp [eval]
  | case2 =>
    obtain rfl : Mat6.zero = D := by simpa [eval] using hd
    simp [eval]
  | case3 =>
    obtain rfl : Mat6.id = C := by simpa [eval] using hc
    simpa using hd
  | case4 =>
    obtain rfl : Mat6.id = D := by simpa [eval] using hd
    simpa using hc
  | case5 s c d _ _ ih =>
    obtain ⟨S, hs, C', hc', rfl⟩ := except_bind₂_pure_eq_ok.mp hc
    rw [Mat6.mul_scale_left]
    exact eval_mkScale hs (ih hc' hd)
  | case6 c s d _ _ _ ih =>
    obtain ⟨S, hs, D', hd', rfl⟩ := except_bind₂_pure_eq_ok.mp hd
    rw [Mat6.mul_scale_right]
    exact eval_mkScale hs (ih hc hd')
  | case7 => simp [eval, hc, hd]

theorem eval_mkOuter (ht : t.eval env = .ok T) (hu : u.eval env = .ok U) :
    (mkOuter t u).eval env = .ok (Mat6.outer T U) := by
  fun_induction mkOuter t u generalizing T U with
  | case1 =>
    obtain rfl : Vec6.zero = T := by simpa [Stensor.eval] using ht
    simp [eval]
  | case2 =>
    obtain rfl : Vec6.zero = U := by simpa [Stensor.eval] using hu
    simp [eval]
  | case3 s t u _ ih =>
    obtain ⟨S, hs, T', ht', rfl⟩ := except_bind₂_pure_eq_ok.mp ht
    rw [Mat6.outer_scale_left]
    exact eval_mkScale hs (ih ht' hu)
  | case4 t s u _ _ ih =>
    obtain ⟨S, hs, U', hu', rfl⟩ := except_bind₂_pure_eq_ok.mp hu
    rw [Mat6.outer_scale_right]
    exact eval_mkScale hs (ih ht hu')
  | case5 =>
    obtain rfl : Vec6.identity = T := by simpa [Stensor.eval] using ht
    obtain rfl : Vec6.identity = U := by simpa [Stensor.eval] using hu
    rfl
  | case6 => simp [eval, ht, hu]

theorem eval_mkTranspose (hc : c.eval env = .ok C) :
    (mkTranspose c).eval env = .ok (Mat6.transpose C) := by
  fun_induction mkTranspose c generalizing C with
  | case1 =>
    obtain rfl : Mat6.zero = C := by simpa [eval] using hc
    simp [eval]
  | case2 =>
    obtain rfl : Mat6.id = C := by simpa [eval] using hc
    simp [eval]
  | case3 =>
    obtain rfl : Mat6.ixi = C := by simpa [eval] using hc
    simp [eval]
  | case4 =>
    obtain ⟨C', hc', rfl⟩ := except_bind_pure_eq_ok.mp hc
    simpa using hc'
  | case5 c ih =>
    obtain ⟨C', hc', rfl⟩ := except_bind_pure_eq_ok.mp hc
    rw [Mat6.transpose_neg]
    exact eval_mkNeg (ih hc')
  | case6 s c ih =>
    obtain ⟨S, hs, C', hc', rfl⟩ := except_bind₂_pure_eq_ok.mp hc
    rw [Mat6.transpose_scale]
    exact eval_mkScale hs (ih hc')
  | case7 c d ihc ihd =>
    obtain ⟨C', hc', D', hd', rfl⟩ := except_bind₂_pure_eq_ok.mp hc
    rw [Mat6.transpose_add]
    exact eval_mkAdd (ihc hc') (ihd hd')
  | case8 c d ihc ihd =>
    obtain ⟨C', hc', D', hd', rfl⟩ := except_bind₂_pure_eq_ok.mp hc
    rw [Mat6.transpose_sub]
    exact eval_mkSub (ihc hc') (ihd hd')
  | case9 t u =>
    obtain ⟨T, ht, U, hu, rfl⟩ := except_bind₂_pure_eq_ok.mp hc
    rw [Mat6.transpose_outer]
    exact eval_mkOuter hu ht
  | case10 => simp [eval, hc]

end Stensor4

end Elasto.Tensor
