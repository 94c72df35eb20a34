import Mathlib
import Elasto.Tensor.Deriv
import Elasto.Tensor.Subst
import Elasto.Proofs.Except
import Elasto.Proofs.Exact

/-! # When differentiation goes through

Symbolic differentiation refuses two things only: a `min` whose operands depend on the
variable, and, for a tensor variable `v`, a stiffness `C : t` whose `C` depends on `v`.
`refusalFree v e` says that `e` holds neither: no `min` at all and, when a tensor variable
`v` is given, no applied stiffness that mentions it. Whether a `min` is refused depends on
the derivatives of its operands folding to zero, a test on numbers; an expression without
`min` never reaches that test.

Every folding builder keeps the property (`mkApply` when its stiffness does not mention
`v`), and so does substituting a scalar; on such expressions both derivatives return a
result. -/

namespace Elasto.Tensor

variable {α : Type}

mutual

/-- No `min`, and, when `v` is given, no applied stiffness depending on `v`. -/
def Scalar.refusalFree (v : Option String) : Scalar α → Bool
  | .const _ | .sym _ => true
  | .neg a | .call _ a => a.refusalFree v
  | .add a b | .sub a b | .mul a b | .div a b | .pow a b => a.refusalFree v && b.refusalFree v
  | .min _ _ => false
  | .trace t => t.refusalFree v
  | .contract t u => t.refusalFree v && u.refusalFree v

def Stensor.refusalFree (v : Option String) : Stensor α → Bool
  | .zero | .identity | .sym _ => true
  | .neg t => t.refusalFree v
  | .add t u | .sub t u => t.refusalFree v && u.refusalFree v
  | .scale s t => s.refusalFree v && t.refusalFree v
  | .apply c t => v.all (!c.dependsOn ·) && c.refusalFree v && t.refusalFree v

def Stensor4.refusalFree (v : Option String) : Stensor4 α → Bool
  | .zero | .id | .ixi | .sym _ => true
  | .neg c | .transpose c => c.refusalFree v
  | .add c d | .sub c d | .product c d => c.refusalFree v && d.refusalFree v
  | .scale s c => s.refusalFree v && c.refusalFree v
  | .outer t u => t.refusalFree v && u.refusalFree v

end

attribute [simp] Scalar.refusalFree Stensor.refusalFree Stensor4.refusalFree

variable [Number α] {v : Option String}

namespace Scalar

variable {a b : Scalar α}

@[simp] theorem refusalFree_zero : (zero : Scalar α).refusalFree v := rfl

@[simp] theorem refusalFree_one : (one : Scalar α).refusalFree v := rfl

@[simp] theorem refusalFree_num (n : Nat) : (num n : Scalar α).refusalFree v := rfl

omit [Number α] in
@[simp] theorem refusalFree_member (n : String) : (member n : Scalar α).refusalFree v := rfl

omit [Number α] in
@[simp] theorem refusalFree_temp (n : String) : (temp n : Scalar α).refusalFree v := rfl

theorem refusalFree_mkNeg (ha : a.refusalFree v) : (mkNeg a).refusalFree v := by
  unfold mkNeg
  split <;> simp_all

theorem refusalFree_mkAdd (ha : a.refusalFree v) (hb : b.refusalFree v) :
    (mkAdd a b).refusalFree v := by
  unfold mkAdd
  split <;> (try split_ifs) <;> simp_all

theorem refusalFree_mkSub (ha : a.refusalFree v) (hb : b.refusalFree v) :
    (mkSub a b).refusalFree v := by
  unfold mkSub
  split <;> (try split_ifs) <;> simp_all [refusalFree_mkNeg]

theorem refusalFree_mkMul (ha : a.refusalFree v) (hb : b.refusalFree v) :
    (mkMul a b).refusalFree v := by
  unfold mkMul
  split <;> (try split_ifs) <;> simp_all

theorem refusalFree_mkDiv (ha : a.refusalFree v) (hb : b.refusalFree v) :
    (mkDiv a b).refusalFree v := by
  unfold mkDiv
  split <;> (try split_ifs) <;> simp_all

theorem refusalFree_mkPow (ha : a.refusalFree v) (hb : b.refusalFree v) :
    (mkPow a b).refusalFree v := by
  unfold mkPow
  split <;> (try split_ifs) <;> simp_all

theorem refusalFree_mkCall (f : Fn) (ha : a.refusalFree v) : (mkCall f a).refusalFree v := by
  unfold mkCall
  split <;> simp_all

theorem refusalFree_mkTrace {t : Stensor α} (ht : t.refusalFree v) : (mkTrace t).refusalFree v := by
  fun_induction mkTrace t <;> simp_all [refusalFree_mkMul]

theorem refusalFree_mkContract {t u : Stensor α} (ht : t.refusalFree v) (hu : u.refusalFree v) :
    (mkContract t u).refusalFree v := by
  fun_induction mkContract t u <;> simp_all [refusalFree_mkTrace, refusalFree_mkMul]

end Scalar

namespace Stensor

variable {s : Scalar α} {t u : Stensor α}

omit [Number α] in
@[simp] theorem refusalFree_member (n : String) : (member n : Stensor α).refusalFree v := rfl

omit [Number α] in
@[simp] theorem refusalFree_temp (n : String) : (temp n : Stensor α).refusalFree v := rfl

omit [Number α] in
theorem refusalFree_mkNeg (ht : t.refusalFree v) : (mkNeg t).refusalFree v := by
  unfold mkNeg
  split <;> simp_all

omit [Number α] in
theorem refusalFree_mkAdd (ht : t.refusalFree v) (hu : u.refusalFree v) :
    (mkAdd t u).refusalFree v := by
  unfold mkAdd
  split <;> simp_all

omit [Number α] in
theorem refusalFree_mkSub (ht : t.refusalFree v) (hu : u.refusalFree v) :
    (mkSub t u).refusalFree v := by
  unfold mkSub
  split <;> simp_all [refusalFree_mkNeg]

theorem refusalFree_mkScale (hs : s.refusalFree v) (ht : t.refusalFree v) :
    (mkScale s t).refusalFree v := by
  unfold mkScale
  split_ifs
  · rfl
  · exact ht
  · split <;> simp_all [Scalar.refusalFree_mkMul]

theorem refusalFree_mkApply {c : Stensor4 α} (hv : v.all (!c.dependsOn ·)) (hc : c.refusalFree v)
    (ht : t.refusalFree v) : (mkApply c t).refusalFree v := by
  fun_induction mkApply c t with
  | case4 t => exact refusalFree_mkScale (Scalar.refusalFree_mkTrace ht) rfl
  | case5 t s c _ ih =>
    simp only [Stensor4.refusalFree, Bool.and_eq_true] at hc
    refine refusalFree_mkScale hc.1 (ih ?_ hc.2 ht)
    cases v <;> simp_all [Stensor4.dependsOn, Stensor4.names]
  | case6 =>
    rename_i ih
    simp only [refusalFree, Bool.and_eq_true] at ht
    exact refusalFree_mkScale ht.1 (ih hv hc ht.2)
  | case7 a b t _ _ =>
    simp only [Stensor4.refusalFree, Bool.and_eq_true] at hc
    exact refusalFree_mkScale (Scalar.refusalFree_mkContract hc.2 ht) hc.1
  | _ => simp_all

end Stensor

namespace Stensor4

variable {s : Scalar α} {c d : Stensor4 α}

omit [Number α] in
@[simp] theorem refusalFree_member (n : String) : (member n : Stensor4 α).refusalFree v := rfl

omit [Number α] in
theorem refusalFree_mkNeg (hc : c.refusalFree v) : (mkNeg c).refusalFree v := by
  unfold mkNeg
  split <;> simp_all

omit [Number α] in
theorem refusalFree_mkAdd (hc : c.refusalFree v) (hd : d.refusalFree v) :
    (mkAdd c d).refusalFree v := by
  unfold mkAdd
  split <;> simp_all

omit [Number α] in
theorem refusalFree_mkSub (hc : c.refusalFree v) (hd : d.refusalFree v) :
    (mkSub c d).refusalFree v := by
  unfold mkSub
  split <;> simp_all [refusalFree_mkNeg]

theorem refusalFree_mkScale (hs : s.refusalFree v) (hc : c.refusalFree v) :
    (mkScale s c).refusalFree v := by
  unfold mkScale
  split_ifs
  · rfl
  · exact hc
  · split <;> simp_all [Scalar.refusalFree_mkMul]

theorem refusalFree_mkProduct (hc : c.refusalFree v) (hd : d.refusalFree v) :
    (mkProduct c d).refusalFree v := by
  fun_induction mkProduct c d <;> simp_all [refusalFree_mkScale]

theorem refusalFree_mkOuter {t u : Stensor α} (ht : t.refusalFree v) (hu : u.refusalFree v) :
    (mkOuter t u).refusalFree v := by
  fun_induction mkOuter t u <;> simp_all [refusalFree_mkScale]

theorem refusalFree_mkTranspose (hc : c.refusalFree v) : (mkTranspose c).refusalFree v := by
  fun_induction mkTranspose c <;>
    simp_all [refusalFree_mkNeg, refusalFree_mkScale, refusalFree_mkAdd, refusalFree_mkSub,
      refusalFree_mkOuter]

theorem refusalFree_isotropic {l m : Scalar α} (hl : l.refusalFree v) (hm : m.refusalFree v) :
    (isotropic l m).refusalFree v :=
  refusalFree_mkAdd (refusalFree_mkScale hl rfl)
    (refusalFree_mkScale (Scalar.refusalFree_mkMul rfl hm) rfl)

end Stensor4

section Names

/-! ### The names a stiffness mentions

The isotropic stiffness of two coefficients mentions their names only, so it depends on no
other variable. -/

variable {n : String}

theorem Scalar.mem_names_mkMul {a b : Scalar α} (h : n ∈ (Scalar.mkMul a b).names) :
    n ∈ a.names ∨ n ∈ b.names := by
  unfold Scalar.mkMul at h
  split at h <;> (try split_ifs at h) <;> simp_all [Scalar.names, Scalar.zero]

theorem Stensor4.mem_names_mkScale {s : Scalar α} {c : Stensor4 α}
    (h : n ∈ (Stensor4.mkScale s c).names) : n ∈ s.names ∨ n ∈ c.names := by
  unfold Stensor4.mkScale at h
  split_ifs at h
  · simp [Stensor4.names] at h
  · exact .inr h
  · split at h
    · simp only [Stensor4.names, List.mem_append] at h ⊢
      rcases h with h | h
      · rcases Scalar.mem_names_mkMul h with h | h <;> simp [h]
      · simp [h]
    · simpa [Stensor4.names] using h

omit [Number α] in
theorem Stensor4.mem_names_mkAdd {c d : Stensor4 α} (h : n ∈ (Stensor4.mkAdd c d).names) :
    n ∈ c.names ∨ n ∈ d.names := by
  unfold Stensor4.mkAdd at h
  split at h <;> simp_all [Stensor4.names]

theorem Stensor4.mem_names_isotropic {l m : Scalar α} (h : n ∈ (Stensor4.isotropic l m).names) :
    n ∈ l.names ∨ n ∈ m.names := by
  rcases Stensor4.mem_names_mkAdd h with h | h
  · rcases Stensor4.mem_names_mkScale h with h | h
    · exact .inl h
    · simp [Stensor4.names] at h
  · rcases Stensor4.mem_names_mkScale h with h | h
    · rcases Scalar.mem_names_mkMul h with h | h
      · simp [Scalar.num, Scalar.names] at h
      · exact .inr h
    · simp [Stensor4.names] at h

end Names

section Subst

variable {name : String} {r : Scalar α}

mutual

theorem Scalar.refusalFree_substScalar (hr : r.refusalFree none) :
    ∀ e : Scalar α, e.refusalFree none → (e.substScalar name r).refusalFree none
  | .const _, _ => rfl
  | .sym s, _ => by
    rw [Scalar.substScalar]
    split
    · exact hr
    · rfl
  | .neg a, h => Scalar.refusalFree_mkNeg (Scalar.refusalFree_substScalar hr a h)
  | .add a b, h => by
    simp only [Scalar.refusalFree, Bool.and_eq_true] at h
    exact Scalar.refusalFree_mkAdd (Scalar.refusalFree_substScalar hr a h.1)
      (Scalar.refusalFree_substScalar hr b h.2)
  | .sub a b, h => by
    simp only [Scalar.refusalFree, Bool.and_eq_true] at h
    exact Scalar.refusalFree_mkSub (Scalar.refusalFree_substScalar hr a h.1)
      (Scalar.refusalFree_substScalar hr b h.2)
  | .mul a b, h => by
    simp only [Scalar.refusalFree, Bool.and_eq_true] at h
    exact Scalar.refusalFree_mkMul (Scalar.refusalFree_substScalar hr a h.1)
      (Scalar.refusalFree_substScalar hr b h.2)
  | .div a b, h => by
    simp only [Scalar.refusalFree, Bool.and_eq_true] at h
    exact Scalar.refusalFree_mkDiv (Scalar.refusalFree_substScalar hr a h.1)
      (Scalar.refusalFree_substScalar hr b h.2)
  | .pow a b, h => by
    simp only [Scalar.refusalFree, Bool.and_eq_true] at h
    exact Scalar.refusalFree_mkPow (Scalar.refusalFree_substScalar hr a h.1)
      (Scalar.refusalFree_substScalar hr b h.2)
  | .min _ _, h => nomatch h
  | .call f a, h => Scalar.refusalFree_mkCall f (Scalar.refusalFree_substScalar hr a h)
  | .trace t, h => Scalar.refusalFree_mkTrace (Stensor.refusalFree_substScalar hr t h)
  | .contract t u, h => by
    simp only [Scalar.refusalFree, Bool.and_eq_true] at h
    exact Scalar.refusalFree_mkContract (Stensor.refusalFree_substScalar hr t h.1)
      (Stensor.refusalFree_substScalar hr u h.2)

theorem Stensor.refusalFree_substScalar (hr : r.refusalFree none) :
    ∀ e : Stensor α, e.refusalFree none → (e.substScalar name r).refusalFree none
  | .zero, _ | .identity, _ | .sym _, _ => rfl
  | .neg t, h => Stensor.refusalFree_mkNeg (Stensor.refusalFree_substScalar hr t h)
  | .add t u, h => by
    simp only [Stensor.refusalFree, Bool.and_eq_true] at h
    exact Stensor.refusalFree_mkAdd (Stensor.refusalFree_substScalar hr t h.1)
      (Stensor.refusalFree_substScalar hr u h.2)
  | .sub t u, h => by
    simp only [Stensor.refusalFree, Bool.and_eq_true] at h
    exact Stensor.refusalFree_mkSub (Stensor.refusalFree_substScalar hr t h.1)
      (Stensor.refusalFree_substScalar hr u h.2)
  | .scale s t, h => by
    simp only [Stensor.refusalFree, Bool.and_eq_true] at h
    exact Stensor.refusalFree_mkScale (Scalar.refusalFree_substScalar hr s h.1)
      (Stensor.refusalFree_substScalar hr t h.2)
  | .apply c t, h => by
    simp only [Stensor.refusalFree, Option.all_none, Bool.true_and, Bool.and_eq_true] at h
    exact Stensor.refusalFree_mkApply rfl (Stensor4.refusalFree_substScalar hr c h.1)
      (Stensor.refusalFree_substScalar hr t h.2)

theorem Stensor4.refusalFree_substScalar (hr : r.refusalFree none) :
    ∀ e : Stensor4 α, e.refusalFree none → (e.substScalar name r).refusalFree none
  | .zero, _ | .id, _ | .ixi, _ | .sym _, _ => rfl
  | .neg c, h => Stensor4.refusalFree_mkNeg (Stensor4.refusalFree_substScalar hr c h)
  | .transpose c, h => Stensor4.refusalFree_mkTranspose (Stensor4.refusalFree_substScalar hr c h)
  | .add c d, h => by
    simp only [Stensor4.refusalFree, Bool.and_eq_true] at h
    exact Stensor4.refusalFree_mkAdd (Stensor4.refusalFree_substScalar hr c h.1)
      (Stensor4.refusalFree_substScalar hr d h.2)
  | .sub c d, h => by
    simp only [Stensor4.refusalFree, Bool.and_eq_true] at h
    exact Stensor4.refusalFree_mkSub (Stensor4.refusalFree_substScalar hr c h.1)
      (Stensor4.refusalFree_substScalar hr d h.2)
  | .product c d, h => by
    simp only [Stensor4.refusalFree, Bool.and_eq_true] at h
    exact Stensor4.refusalFree_mkProduct (Stensor4.refusalFree_substScalar hr c h.1)
      (Stensor4.refusalFree_substScalar hr d h.2)
  | .scale s c, h => by
    simp only [Stensor4.refusalFree, Bool.and_eq_true] at h
    exact Stensor4.refusalFree_mkScale (Scalar.refusalFree_substScalar hr s h.1)
      (Stensor4.refusalFree_substScalar hr c h.2)
  | .outer t u, h => by
    simp only [Stensor4.refusalFree, Bool.and_eq_true] at h
    exact Stensor4.refusalFree_mkOuter (Stensor.refusalFree_substScalar hr t h.1)
      (Stensor.refusalFree_substScalar hr u h.2)

end

end Subst

section Deriv

variable {x : String}

mutual

/-- Differentiation with respect to a scalar refuses only a `min`. -/
theorem Scalar.dScalar_ok : ∀ e : Scalar α, e.refusalFree v → ∃ d, e.dScalar x = .ok d
  | .const _, _ | .sym _, _ => ⟨_, rfl⟩
  | .neg a, h => by
    obtain ⟨da, hda⟩ := Scalar.dScalar_ok a h
    exact ⟨_, by rw [Scalar.dScalar, hda]; rfl⟩
  | .add a b, h | .sub a b, h | .mul a b, h | .div a b, h => by
    simp only [Scalar.refusalFree, Bool.and_eq_true] at h
    obtain ⟨da, hda⟩ := Scalar.dScalar_ok a h.1
    obtain ⟨db, hdb⟩ := Scalar.dScalar_ok b h.2
    exact ⟨_, by rw [Scalar.dScalar, hda, hdb]; rfl⟩
  | .pow a b, h => by
    simp only [Scalar.refusalFree, Bool.and_eq_true] at h
    obtain ⟨da, hda⟩ := Scalar.dScalar_ok a h.1
    obtain ⟨db, hdb⟩ := Scalar.dScalar_ok b h.2
    simp only [Scalar.dScalar, hda, hdb, except_ok_bind]
    split <;> exact ⟨_, rfl⟩
  | .min _ _, h => nomatch h
  | .call f a, h => by
    obtain ⟨da, hda⟩ := Scalar.dScalar_ok a h
    exact ⟨_, by rw [Scalar.dScalar, hda]; rfl⟩
  | .trace t, h => by
    obtain ⟨dt, hdt⟩ := Stensor.dScalar_ok t h
    exact ⟨_, by rw [Scalar.dScalar, hdt]; rfl⟩
  | .contract t u, h => by
    simp only [Scalar.refusalFree, Bool.and_eq_true] at h
    obtain ⟨dt, hdt⟩ := Stensor.dScalar_ok t h.1
    obtain ⟨du, hdu⟩ := Stensor.dScalar_ok u h.2
    exact ⟨_, by rw [Scalar.dScalar, hdt, hdu]; rfl⟩

theorem Stensor.dScalar_ok : ∀ e : Stensor α, e.refusalFree v → ∃ d, e.dScalar x = .ok d
  | .zero, _ | .identity, _ | .sym _, _ => ⟨_, rfl⟩
  | .neg t, h => by
    obtain ⟨dt, hdt⟩ := Stensor.dScalar_ok t h
    exact ⟨_, by rw [Stensor.dScalar, hdt]; rfl⟩
  | .add t u, h | .sub t u, h => by
    simp only [Stensor.refusalFree, Bool.and_eq_true] at h
    obtain ⟨dt, hdt⟩ := Stensor.dScalar_ok t h.1
    obtain ⟨du, hdu⟩ := Stensor.dScalar_ok u h.2
    exact ⟨_, by rw [Stensor.dScalar, hdt, hdu]; rfl⟩
  | .scale s t, h => by
    simp only [Stensor.refusalFree, Bool.and_eq_true] at h
    obtain ⟨ds, hds⟩ := Scalar.dScalar_ok s h.1
    obtain ⟨dt, hdt⟩ := Stensor.dScalar_ok t h.2
    exact ⟨_, by rw [Stensor.dScalar, hds, hdt]; rfl⟩
  | .apply c t, h => by
    simp only [Stensor.refusalFree, Bool.and_eq_true] at h
    obtain ⟨dc, hdc⟩ := Stensor4.dScalar_ok c h.1.2
    obtain ⟨dt, hdt⟩ := Stensor.dScalar_ok t h.2
    exact ⟨_, by rw [Stensor.dScalar, hdc, hdt]; rfl⟩

theorem Stensor4.dScalar_ok : ∀ e : Stensor4 α, e.refusalFree v → ∃ d, e.dScalar x = .ok d
  | .zero, _ | .id, _ | .ixi, _ | .sym _, _ => ⟨_, rfl⟩
  | .neg c, h | .transpose c, h => by
    obtain ⟨dc, hdc⟩ := Stensor4.dScalar_ok c h
    exact ⟨_, by rw [Stensor4.dScalar, hdc]; rfl⟩
  | .add c d, h | .sub c d, h | .product c d, h => by
    simp only [Stensor4.refusalFree, Bool.and_eq_true] at h
    obtain ⟨dc, hdc⟩ := Stensor4.dScalar_ok c h.1
    obtain ⟨dd, hdd⟩ := Stensor4.dScalar_ok d h.2
    exact ⟨_, by rw [Stensor4.dScalar, hdc, hdd]; rfl⟩
  | .scale s c, h => by
    simp only [Stensor4.refusalFree, Bool.and_eq_true] at h
    obtain ⟨ds, hds⟩ := Scalar.dScalar_ok s h.1
    obtain ⟨dc, hdc⟩ := Stensor4.dScalar_ok c h.2
    exact ⟨_, by rw [Stensor4.dScalar, hds, hdc]; rfl⟩
  | .outer t u, h => by
    simp only [Stensor4.refusalFree, Bool.and_eq_true] at h
    obtain ⟨dt, hdt⟩ := Stensor.dScalar_ok t h.1
    obtain ⟨du, hdu⟩ := Stensor.dScalar_ok u h.2
    exact ⟨_, by rw [Stensor4.dScalar, hdt, hdu]; rfl⟩

end

mutual

/-- Differentiation with respect to a tensor `x` refuses only a `min` and a stiffness
depending on `x`. -/
theorem Scalar.dStensor_ok : ∀ e : Scalar α, e.refusalFree (some x) → ∃ g, e.dStensor x = .ok g
  | .const _, _ | .sym _, _ => ⟨_, rfl⟩
  | .neg a, h => by
    obtain ⟨ga, hga⟩ := Scalar.dStensor_ok a h
    exact ⟨_, by rw [Scalar.dStensor, hga]; rfl⟩
  | .add a b, h | .sub a b, h | .mul a b, h | .div a b, h => by
    simp only [Scalar.refusalFree, Bool.and_eq_true] at h
    obtain ⟨ga, hga⟩ := Scalar.dStensor_ok a h.1
    obtain ⟨gb, hgb⟩ := Scalar.dStensor_ok b h.2
    exact ⟨_, by rw [Scalar.dStensor, hga, hgb]; rfl⟩
  | .pow a b, h => by
    simp only [Scalar.refusalFree, Bool.and_eq_true] at h
    obtain ⟨ga, hga⟩ := Scalar.dStensor_ok a h.1
    obtain ⟨gb, hgb⟩ := Scalar.dStensor_ok b h.2
    simp only [Scalar.dStensor, hga, hgb, except_ok_bind]
    split <;> exact ⟨_, rfl⟩
  | .min _ _, h => nomatch h
  | .call f a, h => by
    obtain ⟨ga, hga⟩ := Scalar.dStensor_ok a h
    exact ⟨_, by rw [Scalar.dStensor, hga]; rfl⟩
  | .trace t, h => by
    obtain ⟨gt, hgt⟩ := Stensor.dStensor_ok t h
    exact ⟨_, by rw [Scalar.dStensor, hgt]; rfl⟩
  | .contract t u, h => by
    simp only [Scalar.refusalFree, Bool.and_eq_true] at h
    obtain ⟨gt, hgt⟩ := Stensor.dStensor_ok t h.1
    obtain ⟨gu, hgu⟩ := Stensor.dStensor_ok u h.2
    exact ⟨_, by rw [Scalar.dStensor, hgt, hgu]; rfl⟩

theorem Stensor.dStensor_ok : ∀ e : Stensor α, e.refusalFree (some x) → ∃ g, e.dStensor x = .ok g
  | .zero, _ | .identity, _ | .sym _, _ => ⟨_, rfl⟩
  | .neg t, h => by
    obtain ⟨gt, hgt⟩ := Stensor.dStensor_ok t h
    exact ⟨_, by rw [Stensor.dStensor, hgt]; rfl⟩
  | .add t u, h | .sub t u, h => by
    simp only [Stensor.refusalFree, Bool.and_eq_true] at h
    obtain ⟨gt, hgt⟩ := Stensor.dStensor_ok t h.1
    obtain ⟨gu, hgu⟩ := Stensor.dStensor_ok u h.2
    exact ⟨_, by rw [Stensor.dStensor, hgt, hgu]; rfl⟩
  | .scale s t, h => by
    simp only [Stensor.refusalFree, Bool.and_eq_true] at h
    obtain ⟨gt, hgt⟩ := Stensor.dStensor_ok t h.2
    obtain ⟨gs, hgs⟩ := Scalar.dStensor_ok s h.1
    exact ⟨_, by rw [Stensor.dStensor, hgt, hgs]; rfl⟩
  | .apply c t, h => by
    simp only [Stensor.refusalFree, Option.all_some, Bool.and_eq_true, Bool.not_eq_true'] at h
    obtain ⟨gt, hgt⟩ := Stensor.dStensor_ok t h.2
    exact ⟨_, by rw [Stensor.dStensor, if_neg (by simp [h.1.1]), hgt]; rfl⟩

end

end Deriv

/-! ### Exactly when differentiation in a scalar goes through

Differentiation in a scalar `x` refuses nothing but a `min` whose operands' derivatives do
not both fold to zero. `minsSteady x e` says every `min` of `e` passes that test, and is
equivalent to differentiation going through. -/

section Steady

variable {x : String}

/-- The derivative of `a` in `x` is found and folds to zero. -/
def Scalar.steadyIn (x : String) (a : Scalar α) : Bool :=
  match a.dScalar x with
  | .ok d => d.isZero
  | .error _ => false

mutual

/-- Every `min` has operands whose derivatives in `x` fold to zero. -/
def Scalar.minsSteady (x : String) : Scalar α → Bool
  | .const _ | .sym _ => true
  | .neg a | .call _ a => a.minsSteady x
  | .add a b | .sub a b | .mul a b | .div a b | .pow a b => a.minsSteady x && b.minsSteady x
  | .min a b => a.steadyIn x && b.steadyIn x
  | .trace t => t.minsSteady x
  | .contract t u => t.minsSteady x && u.minsSteady x

def Stensor.minsSteady (x : String) : Stensor α → Bool
  | .zero | .identity | .sym _ => true
  | .neg t => t.minsSteady x
  | .add t u | .sub t u => t.minsSteady x && u.minsSteady x
  | .scale s t => s.minsSteady x && t.minsSteady x
  | .apply c t => c.minsSteady x && t.minsSteady x

def Stensor4.minsSteady (x : String) : Stensor4 α → Bool
  | .zero | .id | .ixi | .sym _ => true
  | .neg c | .transpose c => c.minsSteady x
  | .add c d | .sub c d | .product c d => c.minsSteady x && d.minsSteady x
  | .scale s c => s.minsSteady x && c.minsSteady x
  | .outer t u => t.minsSteady x && u.minsSteady x

end

theorem Scalar.dScalar_min_ok_iff {a b : Scalar α} :
    (∃ d, (Scalar.min a b).dScalar x = .ok d) ↔ a.steadyIn x ∧ b.steadyIn x := by
  simp only [Scalar.dScalar, Scalar.steadyIn]
  rcases a.dScalar x with _ | da
  · simp
  by_cases ha : da.isZero
  · rcases b.dScalar x with _ | db
    · simp [ha]
    · by_cases hb : db.isZero <;> simp [ha, hb, throw, throwThe, MonadExceptOf.throw]
  · simp [ha, throw, throwThe, MonadExceptOf.throw]

mutual

theorem Scalar.dScalar_ok_iff : ∀ e : Scalar α, (∃ d, e.dScalar x = .ok d) ↔ e.minsSteady x
  | .const _ | .sym _ => by simp [Scalar.dScalar, Scalar.minsSteady]
  | .neg a => by
    simp only [Scalar.dScalar, Scalar.minsSteady, except_bind_pure_ok_iff, Scalar.dScalar_ok_iff a]
  | .add a b | .sub a b | .mul a b | .div a b => by
    simp only [Scalar.dScalar, Scalar.minsSteady, except_bind₂_pure_ok_iff, Bool.and_eq_true,
      Scalar.dScalar_ok_iff a, Scalar.dScalar_ok_iff b]
  | .pow a b => by
    rw [Scalar.minsSteady, Bool.and_eq_true, ← Scalar.dScalar_ok_iff a, ← Scalar.dScalar_ok_iff b]
    simp only [Scalar.dScalar]
    rcases a.dScalar x with _ | da
    · simp
    rcases b.dScalar x with _ | db
    · simp
    simp only [except_ok_bind]
    split <;> simp
  | .min a b => by rw [Scalar.dScalar_min_ok_iff, Scalar.minsSteady, Bool.and_eq_true]
  | .call f a => by
    simp only [Scalar.dScalar, Scalar.minsSteady, except_bind_pure_ok_iff, Scalar.dScalar_ok_iff a]
  | .trace t => by
    simp only [Scalar.dScalar, Scalar.minsSteady, except_bind_pure_ok_iff, Stensor.dScalar_ok_iff t]
  | .contract t u => by
    simp only [Scalar.dScalar, Scalar.minsSteady, except_bind₂_pure_ok_iff, Bool.and_eq_true,
      Stensor.dScalar_ok_iff t, Stensor.dScalar_ok_iff u]

theorem Stensor.dScalar_ok_iff : ∀ e : Stensor α, (∃ d, e.dScalar x = .ok d) ↔ e.minsSteady x
  | .zero | .identity | .sym _ => by simp [Stensor.dScalar, Stensor.minsSteady]
  | .neg t => by
    simp only [Stensor.dScalar, Stensor.minsSteady, except_bind_pure_ok_iff,
      Stensor.dScalar_ok_iff t]
  | .add t u | .sub t u => by
    simp only [Stensor.dScalar, Stensor.minsSteady, except_bind₂_pure_ok_iff, Bool.and_eq_true,
      Stensor.dScalar_ok_iff t, Stensor.dScalar_ok_iff u]
  | .scale s t => by
    simp only [Stensor.dScalar, Stensor.minsSteady, except_bind₂_pure_ok_iff, Bool.and_eq_true,
      Scalar.dScalar_ok_iff s, Stensor.dScalar_ok_iff t]
  | .apply c t => by
    simp only [Stensor.dScalar, Stensor.minsSteady, except_bind₂_pure_ok_iff, Bool.and_eq_true,
      Stensor4.dScalar_ok_iff c, Stensor.dScalar_ok_iff t]

theorem Stensor4.dScalar_ok_iff : ∀ e : Stensor4 α, (∃ d, e.dScalar x = .ok d) ↔ e.minsSteady x
  | .zero | .id | .ixi | .sym _ => by simp [Stensor4.dScalar, Stensor4.minsSteady]
  | .neg c | .transpose c => by
    simp only [Stensor4.dScalar, Stensor4.minsSteady, except_bind_pure_ok_iff,
      Stensor4.dScalar_ok_iff c]
  | .add c d | .sub c d | .product c d => by
    simp only [Stensor4.dScalar, Stensor4.minsSteady, except_bind₂_pure_ok_iff, Bool.and_eq_true,
      Stensor4.dScalar_ok_iff c, Stensor4.dScalar_ok_iff d]
  | .scale s c => by
    simp only [Stensor4.dScalar, Stensor4.minsSteady, except_bind₂_pure_ok_iff, Bool.and_eq_true,
      Scalar.dScalar_ok_iff s, Stensor4.dScalar_ok_iff c]
  | .outer t u => by
    simp only [Stensor4.dScalar, Stensor4.minsSteady, except_bind₂_pure_ok_iff, Bool.and_eq_true,
      Stensor.dScalar_ok_iff t, Stensor.dScalar_ok_iff u]

end

end Steady

end Elasto.Tensor
