import Mathlib
import Elasto.Proofs.Gradient
import Elasto.Proofs.Stress

/-!
# The calculus of the isotropic stress

The stress of the brick is built by the folding builders from a degradation factor, a
stiffness and a strain, all made of members. Such an expression is regular wherever its
members are bound to values of their kinds, and it reads only the names of its parts. Along a
family of environments its derivative is unique, and it is carried over to any expression
that evaluates alike near the point. The degraded isotropic stress `F (λ I⊗I + 2μ Id) : ε`
has the derivative of the product rule, Hooke's law being linear in the Lamé coefficients.
-/

namespace Elasto.Tensor

open Elasto.Mandel Filter Topology

/-- `env` binds `n` to a value of kind `k`. -/
def Env.Binds {α : Type} (env : Env α) (n : String) (k : Kind) : Prop :=
  ∃ v, env.get? n = some v ∧ v.kind = k

namespace Env.Binds

variable {α : Type} {env : Env α} {n x : String} {k k' : Kind}

theorem of_get? {v : Value α} (h : env.get? n = some v) : env.Binds n v.kind := ⟨v, h, rfl⟩

theorem set (h : env.Binds n k) {X : Value α} (hx : env.Binds x X.kind) :
    (env.set x X).Binds n k := by
  obtain ⟨v, hv, rfl⟩ := h
  by_cases hxn : x = n
  · subst hxn
    obtain ⟨w, hw, hk⟩ := hx
    obtain rfl : v = w := Option.some.inj (hv.symm.trans hw)
    exact ⟨X, by simp, hk.symm⟩
  · exact ⟨v, by simp [hxn, hv], rfl⟩

theorem ne (h : env.Binds n k) (h' : env.Binds x k') (hk : k ≠ k') : n ≠ x := by
  rintro rfl
  obtain ⟨v, hv, rfl⟩ := h
  obtain ⟨w, hw, rfl⟩ := h'
  obtain rfl : v = w := Option.some.inj (hv.symm.trans hw)
  exact hk rfl

theorem exists_scalar (h : env.Binds n .scalar) : ∃ a, env.get? n = some (.scalar a) := by
  obtain ⟨v, hv, hk⟩ := h
  cases v with
  | scalar a => exact ⟨a, hv⟩
  | stensor => cases hk
  | stensor4 => cases hk

theorem exists_stensor (h : env.Binds n .stensor) : ∃ T, env.get? n = some (.stensor T) := by
  obtain ⟨v, hv, hk⟩ := h
  cases v with
  | stensor T => exact ⟨T, hv⟩
  | scalar => cases hk
  | stensor4 => cases hk

theorem exists_stensor4 (h : env.Binds n .stensor4) : ∃ C, env.get? n = some (.stensor4 C) := by
  obtain ⟨v, hv, hk⟩ := h
  cases v with
  | stensor4 C => exact ⟨C, hv⟩
  | scalar => cases hk
  | stensor => cases hk

end Env.Binds

section Builders

variable {env : Env ℝ}

namespace Scalar

variable {a b : Scalar ℝ}

theorem regular_member {n : String} (h : env.Binds n .scalar) : (member n : Scalar ℝ).Regular env :=
  let ⟨v, hv⟩ := h.exists_scalar
  ⟨v, by simp [Env.scalar, Env.lookup, hv]⟩

theorem regular_mkNeg (ha : a.Regular env) : (mkNeg a).Regular env := by
  unfold mkNeg
  split <;> simp_all [regular_const, regular_neg]

theorem regular_mkAdd (ha : a.Regular env) (hb : b.Regular env) : (mkAdd a b).Regular env := by
  unfold mkAdd
  split <;> (try split_ifs) <;> simp_all [regular_const, regular_add]

theorem regular_mkSub (ha : a.Regular env) (hb : b.Regular env) : (mkSub a b).Regular env := by
  unfold mkSub
  split <;> (try split_ifs) <;> simp_all [regular_const, regular_sub, regular_mkNeg]

theorem regular_mkMul (ha : a.Regular env) (hb : b.Regular env) : (mkMul a b).Regular env := by
  unfold mkMul
  split <;> (try split_ifs) <;> simp_all [regular_const, regular_mul, zero]

theorem regular_mkTrace {t : Stensor ℝ} (ht : t.Regular env) : (mkTrace t).Regular env := by
  fun_induction mkTrace t <;>
    simp_all [regular_const, regular_trace, Stensor.regular_scale, zero, num, regular_mkMul]

theorem regular_mkContract {t u : Stensor ℝ} (ht : t.Regular env) (hu : u.Regular env) :
    (mkContract t u).Regular env := by
  fun_induction mkContract t u <;>
    simp_all [regular_const, regular_contract, Stensor.regular_scale, zero, regular_mkMul,
      regular_mkTrace]

end Scalar

namespace Stensor

variable {s : Scalar ℝ} {t u : Stensor ℝ}

theorem regular_member {n : String} (h : env.Binds n .stensor) : (member n : Stensor ℝ).Regular env :=
  let ⟨T, hT⟩ := h.exists_stensor
  ⟨T, by simp [Env.stensor, Env.lookup, hT]⟩

theorem regular_mkAdd (ht : t.Regular env) (hu : u.Regular env) : (mkAdd t u).Regular env := by
  unfold mkAdd
  split <;> simp_all [regular_add]

theorem regular_mkScale (hs : s.Regular env) (ht : t.Regular env) : (mkScale s t).Regular env := by
  unfold mkScale
  split_ifs
  · trivial
  · exact ht
  · split <;> simp_all [regular_scale, Scalar.regular_mkMul]

theorem regular_mkApply {c : Stensor4 ℝ} (hc : c.Regular env) (ht : t.Regular env) :
    (mkApply c t).Regular env := by
  fun_induction mkApply c t with
  | case4 t => exact regular_mkScale (Scalar.regular_mkTrace ht) trivial
  | case5 t s c _ ih => exact regular_mkScale hc.1 (ih hc.2 ht)
  | case6 =>
    rename_i ih
    exact regular_mkScale ht.1 (ih hc ht.2)
  | case7 a b t _ _ => exact regular_mkScale (Scalar.regular_mkContract hc.2 ht) hc.1
  | _ => simp_all [regular_zero, regular_apply]

end Stensor

namespace Stensor4

variable {s : Scalar ℝ} {c d : Stensor4 ℝ}

theorem regular_member {n : String} (h : env.Binds n .stensor4) :
    (member n : Stensor4 ℝ).Regular env :=
  let ⟨C, hC⟩ := h.exists_stensor4
  ⟨C, by simp [Env.stensor4, Env.lookup, hC]⟩

theorem regular_mkAdd (hc : c.Regular env) (hd : d.Regular env) : (mkAdd c d).Regular env := by
  unfold mkAdd
  split <;> simp_all [regular_add]

theorem regular_mkScale (hs : s.Regular env) (hc : c.Regular env) : (mkScale s c).Regular env := by
  unfold mkScale
  split_ifs
  · trivial
  · exact hc
  · split <;> simp_all [regular_scale, Scalar.regular_mkMul]

theorem regular_isotropic {l m : Scalar ℝ} (hl : l.Regular env) (hm : m.Regular env) :
    (isotropic l m).Regular env :=
  regular_mkAdd (regular_mkScale hl trivial) (regular_mkScale (Scalar.regular_mkMul trivial hm) trivial)

end Stensor4

end Builders

section Names

/-! ### The names of the builders' results

A builder reads only the names of its operands. -/

variable {α : Type} [Number α] {n : String}

theorem Scalar.mem_names_mkTrace {t : Stensor α} (h : n ∈ (Scalar.mkTrace t).names) :
    n ∈ t.names := by
  fun_induction Scalar.mkTrace t with
  | case3 s t ih =>
    rcases Scalar.mem_names_mkMul h with h | h
    · exact List.mem_append_left _ h
    · exact List.mem_append_right _ (ih h)
  | _ => simp_all [Scalar.names, Scalar.zero, Scalar.num]

theorem Scalar.mem_names_mkContract {t u : Stensor α} (h : n ∈ (Scalar.mkContract t u).names) :
    n ∈ t.names ∨ n ∈ u.names := by
  fun_induction Scalar.mkContract t u with
  | case3 t => exact .inr (Scalar.mem_names_mkTrace h)
  | case4 t => exact .inl (Scalar.mem_names_mkTrace h)
  | case5 =>
    rename_i ih
    rcases Scalar.mem_names_mkMul h with h | h
    · simp [Stensor.names, h]
    · rcases ih h with h | h <;> simp [Stensor.names, h]
  | case6 =>
    rename_i ih
    rcases Scalar.mem_names_mkMul h with h | h
    · simp [Stensor.names, h]
    · rcases ih h with h | h <;> simp [Stensor.names, h]
  | _ => simp_all [Scalar.names, Scalar.zero]

theorem Stensor.mem_names_mkApply {c : Stensor4 α} {t : Stensor α}
    (h : n ∈ (Stensor.mkApply c t).names) : n ∈ c.names ∨ n ∈ t.names := by
  fun_induction Stensor.mkApply c t with
  | case3 t => exact .inr h
  | case4 t =>
    rcases Stensor.mem_names_mkScale h with h | h
    · exact .inr (Scalar.mem_names_mkTrace h)
    · simp [Stensor.names] at h
  | case5 =>
    rename_i ih
    rcases Stensor.mem_names_mkScale h with h | h
    · simp [Stensor4.names, h]
    · rcases ih h with h | h <;> simp [Stensor4.names, h]
  | case6 =>
    rename_i ih
    rcases Stensor.mem_names_mkScale h with h | h
    · simp [Stensor.names, h]
    · rcases ih h with h | h <;> simp [Stensor.names, h]
  | case7 a b t _ _ =>
    rcases Stensor.mem_names_mkScale h with h | h
    · rcases Scalar.mem_names_mkContract h with h | h <;> simp [Stensor4.names, h]
    · simp [Stensor4.names, h]
  | _ => simp_all [Stensor.names]

end Names

namespace Stensor.HasDerivAlong

variable {E : ℝ → Env ℝ} {τ : ℝ} {e e' : Stensor ℝ} {D D' : Vec6 ℝ}

theorem congr_eval (h : e.HasDerivAlong E D τ) (he : ∀ᶠ r in 𝓝 τ, e'.eval (E r) = e.eval (E r)) :
    e'.HasDerivAlong E D τ := by
  obtain ⟨F, hF, hd⟩ := h
  exact ⟨F, (he.and hF).mono fun r h => h.1.trans h.2, hd⟩

theorem unique (h : e.HasDerivAlong E D τ) (h' : e.HasDerivAlong E D' τ) : D = D' := by
  obtain ⟨F, hF, hd⟩ := h
  obtain ⟨F', hF', hd'⟩ := h'
  have heq : ∀ᶠ r in 𝓝 τ, F r = F' r :=
    (hF.and hF').mono fun r h => Except.ok.inj (h.1.symm.trans h.2)
  refine Vector.ext fun i hi => (hd i hi).unique ((hd' i hi).congr_of_eventuallyEq ?_)
  exact heq.mono fun r hr => by simp only [hr]

end Stensor.HasDerivAlong

section ScalarLine

variable {env : Env ℝ} {x : String} {t₀ : ℝ}

theorem Scalar.eval_scalarLine_self (h : env.get? x = some (.scalar t₀)) (e : Scalar ℝ) :
    e.eval (env.scalarLine x t₀) = e.eval env :=
  Scalar.eval_congr e fun n _ => Env.get?_scalarLine_self h n

theorem Stensor.eval_scalarLine_self (h : env.get? x = some (.scalar t₀)) (e : Stensor ℝ) :
    e.eval (env.scalarLine x t₀) = e.eval env :=
  Stensor.eval_congr e fun n _ => Env.get?_scalarLine_self h n

theorem Stensor.eval_scalarLine_of_not_mem {e : Stensor ℝ} (hx : x ∉ e.names) (r : ℝ) :
    e.eval (env.scalarLine x r) = e.eval env :=
  Stensor.eval_congr e fun n hn => by
    rw [Env.get?_scalarLine, if_neg fun (h : x = n) => hx (h ▸ hn)]

theorem Scalar.HasDerivAlong.member {n : String} {a : ℝ} (hn : env.get? n = some (.scalar a)) :
    (Scalar.member n).HasDerivAlong (env.scalarLine x) (if x = n then 1 else 0) t₀ := by
  by_cases hxn : x = n
  · subst hxn
    rw [if_pos rfl]
    exact ⟨fun r => r, .of_forall fun r => by
      simp [Scalar.member, Scalar.eval, Env.scalar, Env.lookup], hasDerivAt_id t₀⟩
  · rw [if_neg hxn]
    have ha : (env.scalarLine x t₀).get? n = some (.scalar a) := by simp [hxn, hn]
    refine .of_frame (fun r n' hn' => ?_) (Scalar.eval_member ha)
    simp only [Scalar.member, Scalar.names, List.mem_singleton] at hn'
    subst hn'
    simp [hxn]

end ScalarLine

end Elasto.Tensor

namespace Elasto.Brick

open Elasto.Tensor Elasto.Mandel Filter Topology

theorem isotropicLaw_getElem (l m : ℝ) (e : Vec6 ℝ) {i : ℕ} (hi : i < 6) :
    (isotropicLaw l m e)[i] = l * (isotropicLaw 1 0 e)[i] + m * (isotropicLaw 0 1 e)[i] := by
  simp only [isotropicLaw, Vec6.getElem_add, Vec6.getElem_scale]
  ring

/-- The chain rule's bookkeeping for the degraded isotropic stress: its derivative, `f'` times
the law plus `f` times the law of the coefficients' derivatives, is the derivative with the
coefficients held, plus each coefficient's derivative times the derivative with respect to
that coefficient alone. -/
theorem isotropicLaw_chainRule (f f' Λ M Λ' M' : ℝ) (ε : Vec6 ℝ) :
    Vec6.add (Vec6.scale f' (isotropicLaw Λ M ε)) (Vec6.scale f (isotropicLaw Λ' M' ε)) =
      Vec6.add (Vec6.add (Vec6.scale f' (isotropicLaw Λ M ε)) (Vec6.scale f (isotropicLaw 0 0 ε)))
        (Vec6.add
          (Vec6.scale Λ' (Vec6.add (Vec6.scale 0 (isotropicLaw Λ M ε))
            (Vec6.scale f (isotropicLaw 1 0 ε))))
          (Vec6.scale M' (Vec6.add (Vec6.scale 0 (isotropicLaw Λ M ε))
            (Vec6.scale f (isotropicLaw 0 1 ε))))) := by
  refine Vector.ext fun i hi => ?_
  simp only [Vec6.getElem_add, Vec6.getElem_scale]
  rw [isotropicLaw_getElem Λ' M' ε hi, isotropicLaw_getElem 0 0 ε hi]
  ring

variable {env : Env ℝ} {E : ℝ → Env ℝ} {τ : ℝ}

theorem Stensor.eval_scale_apply_isotropic {F l m : Scalar ℝ} {s : Stensor ℝ} {f Λ M : ℝ}
    {ε : Vec6 ℝ} (hF : F.eval env = .ok f) (hl : l.eval env = .ok Λ) (hm : m.eval env = .ok M)
    (hs : s.eval env = .ok ε) :
    (F * (Stensor4.isotropic l m * s)).eval env = .ok (Vec6.scale f (isotropicLaw Λ M ε)) := by
  rw [Stensor.hMul_eq_mkScale, Stensor.hMul_eq_mkApply, Stensor.eval_mkScale hF
    (Stensor.eval_mkApply (Stensor4.eval_isotropic hl hm) hs), apply_isotropicTensor]

theorem Stensor.HasDerivAlong.scale_apply_isotropic {F l m : Scalar ℝ} {s : Stensor ℝ}
    {f f' Λ Λ' M M' : ℝ} {ε : Vec6 ℝ} (hF : F.HasDerivAlong E f' τ) (hl : l.HasDerivAlong E Λ' τ)
    (hm : m.HasDerivAlong E M' τ) (hf : F.eval (E τ) = .ok f) (hΛ : l.eval (E τ) = .ok Λ)
    (hM : m.eval (E τ) = .ok M) (hs : ∀ᶠ r in 𝓝 τ, s.eval (E r) = .ok ε) :
    (F * (Stensor4.isotropic l m * s)).HasDerivAlong E
      (Vec6.add (Vec6.scale f' (isotropicLaw Λ M ε)) (Vec6.scale f (isotropicLaw Λ' M' ε))) τ := by
  obtain ⟨fF, hfF, hdF⟩ := hF
  obtain ⟨fl, hfl, hdl⟩ := hl
  obtain ⟨fm, hfm, hdm⟩ := hm
  refine ⟨fun r => Vec6.scale (fF r) (isotropicLaw (fl r) (fm r) ε), ?_, fun i hi => ?_⟩
  · filter_upwards [hfF, hfl, hfm, hs] with r h1 h2 h3 h4
    exact Stensor.eval_scale_apply_isotropic h1 h2 h3 h4
  obtain rfl : fF τ = f := Except.ok.inj (hfF.self_of_nhds.symm.trans hf)
  obtain rfl : fl τ = Λ := Except.ok.inj (hfl.self_of_nhds.symm.trans hΛ)
  obtain rfl : fm τ = M := Except.ok.inj (hfm.self_of_nhds.symm.trans hM)
  have hd := hdF.fun_mul ((hdl.mul_const (isotropicLaw 1 0 ε)[i]).fun_add
    (hdm.mul_const (isotropicLaw 0 1 ε)[i]))
  have hfun : (fun r => (Vec6.scale (fF r) (isotropicLaw (fl r) (fm r) ε))[i]) =
      fun r => fF r * (fl r * (isotropicLaw 1 0 ε)[i] + fm r * (isotropicLaw 0 1 ε)[i]) :=
    funext fun r => by rw [Vec6.getElem_scale, isotropicLaw_getElem _ _ ε hi]
  rw [hfun, Vec6.getElem_add, Vec6.getElem_scale, Vec6.getElem_scale,
    isotropicLaw_getElem Λ' M' ε hi, isotropicLaw_getElem (fl τ) (fm τ) ε hi]
  exact hd.congr_deriv (by ring)

end Elasto.Brick
