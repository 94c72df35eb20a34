import Mathlib
import Elasto.Proofs.Refusal
import Elasto.Proofs.Stress

/-! # Derivatives in a name an expression does not read

The folding builders absorb zeros. Every tensor builder given the zero tensor where it
multiplies gives the zero tensor, whatever its numbers; over the reals the scalar builders
do the same with the constant zero, as `0 · b`, `a · 0` and `0 / b` all fold to it. Each
differentiation rule combines the derivatives of the operands by such products and sums, so
differentiating in a name the expression does not mention returns the zero of its kind.

The two refusals of differentiation, a `min` whose operands move and a stiffness that reads
the tensor variable, test exactly that: the operands of a `min` that does not read the
variable differentiate to zero, which the rule accepts. So differentiation goes through on
every expression whose `min` nodes, and for a tensor variable whose applied stiffnesses, do
not read the variable (`clearOf`). The tensor-variable statements hold for any numbers, the
doubles of the program included; the scalar-variable ones take exact arithmetic, where a
product with zero is zero.
-/

namespace Elasto.Tensor

section Absorbing

namespace Scalar

@[simp] theorem isZero_zero : (zero : Scalar ℝ).isZero = true := by
  simp [zero, isZero]

@[simp] theorem mkNeg_zero : mkNeg (zero : Scalar ℝ) = zero := by
  simp [mkNeg, zero]

@[simp] theorem mkAdd_zero_zero : mkAdd (zero : Scalar ℝ) zero = zero := by
  simp [mkAdd, zero]

@[simp] theorem mkSub_zero_zero : mkSub (zero : Scalar ℝ) zero = zero := by
  simp [mkSub, zero]

@[simp] theorem mkMul_zero_left (b : Scalar ℝ) : mkMul zero b = zero := by
  cases b <;> simp [mkMul, zero]

@[simp] theorem mkMul_zero_right (a : Scalar ℝ) : mkMul a zero = zero := by
  cases a <;> simp [mkMul, zero]

@[simp] theorem mkDiv_zero_left (b : Scalar ℝ) : mkDiv zero b = zero := by
  cases b <;> simp [mkDiv, zero]

end Scalar

@[simp] theorem Stensor.mkScale_zero_left (t : Stensor ℝ) : Stensor.mkScale Scalar.zero t = .zero := by
  simp [Stensor.mkScale]

@[simp] theorem Stensor4.mkScale_zero_left (c : Stensor4 ℝ) :
    Stensor4.mkScale Scalar.zero c = .zero := by
  simp [Stensor4.mkScale]

end Absorbing

section Vanishing

variable {x : String}

mutual

theorem Scalar.dScalar_of_not_mem : ∀ e : Scalar ℝ, x ∉ e.names → e.dScalar x = .ok Scalar.zero
  | .const _, _ => rfl
  | .sym s, h => by
    have hs : s.name ≠ x := fun hs => h (by simp [Scalar.names, hs])
    simp [Scalar.dScalar, hs]
  | .neg a, h | .call _ a, h => by
    rw [Scalar.dScalar, Scalar.dScalar_of_not_mem a h]
    simp
  | .add a b, h | .sub a b, h | .mul a b, h | .div a b, h | .pow a b, h | .min a b, h => by
    simp only [Scalar.names, List.mem_append, not_or] at h
    rw [Scalar.dScalar, Scalar.dScalar_of_not_mem a h.1, Scalar.dScalar_of_not_mem b h.2]
    simp
  | .trace t, h => by
    rw [Scalar.dScalar, Stensor.dScalar_of_not_mem t h]
    simp
  | .contract t u, h => by
    simp only [Scalar.names, List.mem_append, not_or] at h
    rw [Scalar.dScalar, Stensor.dScalar_of_not_mem t h.1, Stensor.dScalar_of_not_mem u h.2]
    simp

theorem Stensor.dScalar_of_not_mem : ∀ e : Stensor ℝ, x ∉ e.names → e.dScalar x = .ok .zero
  | .zero, _ | .identity, _ | .sym _, _ => rfl
  | .neg t, h => by
    rw [Stensor.dScalar, Stensor.dScalar_of_not_mem t h]
    simp
  | .add t u, h | .sub t u, h => by
    simp only [Stensor.names, List.mem_append, not_or] at h
    rw [Stensor.dScalar, Stensor.dScalar_of_not_mem t h.1, Stensor.dScalar_of_not_mem u h.2]
    simp
  | .scale s t, h => by
    simp only [Stensor.names, List.mem_append, not_or] at h
    rw [Stensor.dScalar, Scalar.dScalar_of_not_mem s h.1, Stensor.dScalar_of_not_mem t h.2]
    simp
  | .apply c t, h => by
    simp only [Stensor.names, List.mem_append, not_or] at h
    rw [Stensor.dScalar, Stensor4.dScalar_of_not_mem c h.1, Stensor.dScalar_of_not_mem t h.2]
    simp

theorem Stensor4.dScalar_of_not_mem : ∀ e : Stensor4 ℝ, x ∉ e.names → e.dScalar x = .ok .zero
  | .zero, _ | .id, _ | .ixi, _ | .sym _, _ => rfl
  | .neg c, h | .transpose c, h => by
    rw [Stensor4.dScalar, Stensor4.dScalar_of_not_mem c h]
    simp
  | .add c d, h | .sub c d, h | .product c d, h => by
    simp only [Stensor4.names, List.mem_append, not_or] at h
    rw [Stensor4.dScalar, Stensor4.dScalar_of_not_mem c h.1, Stensor4.dScalar_of_not_mem d h.2]
    simp
  | .scale s c, h => by
    simp only [Stensor4.names, List.mem_append, not_or] at h
    rw [Stensor4.dScalar, Scalar.dScalar_of_not_mem s h.1, Stensor4.dScalar_of_not_mem c h.2]
    simp
  | .outer t u, h => by
    simp only [Stensor4.names, List.mem_append, not_or] at h
    rw [Stensor4.dScalar, Stensor.dScalar_of_not_mem t h.1, Stensor.dScalar_of_not_mem u h.2]
    simp

end

variable {α : Type} [Number α]

mutual

theorem Scalar.dStensor_of_not_mem : ∀ e : Scalar α, x ∉ e.names → e.dStensor x = .ok .zero
  | .const _, _ | .sym _, _ => rfl
  | .neg a, h | .call _ a, h => by
    rw [Scalar.dStensor, Scalar.dStensor_of_not_mem a h]
    simp
  | .add a b, h | .sub a b, h | .mul a b, h | .div a b, h | .pow a b, h | .min a b, h => by
    simp only [Scalar.names, List.mem_append, not_or] at h
    rw [Scalar.dStensor, Scalar.dStensor_of_not_mem a h.1, Scalar.dStensor_of_not_mem b h.2]
    simp [Stensor.isZero]
  | .trace t, h => by
    rw [Scalar.dStensor, Stensor.dStensor_of_not_mem t h]
    simp
  | .contract t u, h => by
    simp only [Scalar.names, List.mem_append, not_or] at h
    rw [Scalar.dStensor, Stensor.dStensor_of_not_mem t h.1, Stensor.dStensor_of_not_mem u h.2]
    simp

theorem Stensor.dStensor_of_not_mem : ∀ e : Stensor α, x ∉ e.names → e.dStensor x = .ok .zero
  | .zero, _ | .identity, _ => rfl
  | .sym s, h => by
    have hs : s.name ≠ x := fun hs => h (by simp [Stensor.names, hs])
    simp [Stensor.dStensor, hs]
  | .neg t, h => by
    rw [Stensor.dStensor, Stensor.dStensor_of_not_mem t h]
    simp
  | .add t u, h | .sub t u, h => by
    simp only [Stensor.names, List.mem_append, not_or] at h
    rw [Stensor.dStensor, Stensor.dStensor_of_not_mem t h.1, Stensor.dStensor_of_not_mem u h.2]
    simp
  | .scale s t, h => by
    simp only [Stensor.names, List.mem_append, not_or] at h
    rw [Stensor.dStensor, Stensor.dStensor_of_not_mem t h.2, Scalar.dStensor_of_not_mem s h.1]
    simp
  | .apply c t, h => by
    simp only [Stensor.names, List.mem_append, not_or] at h
    have hc : c.dependsOn x = false := by simpa [Stensor4.dependsOn] using h.1
    rw [Stensor.dStensor, if_neg (by simp [hc]), Stensor.dStensor_of_not_mem t h.2]
    simp

end

end Vanishing

section Clear

variable {α : Type}

mutual

/-- No `min` reads `x`, and, for a tensor variable (`tensor`), no applied stiffness reads it:
the nodes differentiation would refuse stay clear of `x`. -/
def Scalar.clearOf (x : String) (tensor : Bool) : Scalar α → Bool
  | .const _ | .sym _ => true
  | .neg a | .call _ a => a.clearOf x tensor
  | .add a b | .sub a b | .mul a b | .div a b | .pow a b => a.clearOf x tensor && b.clearOf x tensor
  | .min a b => !(a.dependsOn x || b.dependsOn x)
  | .trace t => t.clearOf x tensor
  | .contract t u => t.clearOf x tensor && u.clearOf x tensor

def Stensor.clearOf (x : String) (tensor : Bool) : Stensor α → Bool
  | .zero | .identity | .sym _ => true
  | .neg t => t.clearOf x tensor
  | .add t u | .sub t u => t.clearOf x tensor && u.clearOf x tensor
  | .scale s t => s.clearOf x tensor && t.clearOf x tensor
  | .apply c t => !(tensor && c.dependsOn x) && c.clearOf x tensor && t.clearOf x tensor

def Stensor4.clearOf (x : String) (tensor : Bool) : Stensor4 α → Bool
  | .zero | .id | .ixi | .sym _ => true
  | .neg c | .transpose c => c.clearOf x tensor
  | .add c d | .sub c d | .product c d => c.clearOf x tensor && d.clearOf x tensor
  | .scale s c => s.clearOf x tensor && c.clearOf x tensor
  | .outer t u => t.clearOf x tensor && u.clearOf x tensor

end

theorem Scalar.not_mem_of_clearOf_min {x : String} {tensor : Bool} {a b : Scalar α}
    (h : (Scalar.min a b).clearOf x tensor) : x ∉ a.names ∧ x ∉ b.names := by
  simpa [Scalar.clearOf, Scalar.dependsOn] using h

variable {x : String}

mutual

/-- Differentiation in a scalar name goes through when no `min` reads the name. -/
theorem Scalar.dScalar_ok_of_clearOf :
    ∀ e : Scalar ℝ, e.clearOf x false → ∃ d, e.dScalar x = .ok d
  | .const _, _ | .sym _, _ => ⟨_, rfl⟩
  | .neg a, h | .call _ a, h => by
    obtain ⟨da, hda⟩ := Scalar.dScalar_ok_of_clearOf a h
    exact ⟨_, by rw [Scalar.dScalar, hda]; rfl⟩
  | .add a b, h | .sub a b, h | .mul a b, h | .div a b, h => by
    simp only [Scalar.clearOf, Bool.and_eq_true] at h
    obtain ⟨da, hda⟩ := Scalar.dScalar_ok_of_clearOf a h.1
    obtain ⟨db, hdb⟩ := Scalar.dScalar_ok_of_clearOf b h.2
    exact ⟨_, by rw [Scalar.dScalar, hda, hdb]; rfl⟩
  | .pow a b, h => by
    simp only [Scalar.clearOf, Bool.and_eq_true] at h
    obtain ⟨da, hda⟩ := Scalar.dScalar_ok_of_clearOf a h.1
    obtain ⟨db, hdb⟩ := Scalar.dScalar_ok_of_clearOf b h.2
    simp only [Scalar.dScalar, hda, hdb, except_ok_bind]
    split <;> exact ⟨_, rfl⟩
  | .min a b, h => by
    -- both operands differentiate to zero, which the rule of `min` accepts
    obtain ⟨ha, hb⟩ := Scalar.not_mem_of_clearOf_min h
    exact ⟨Scalar.zero, by rw [Scalar.dScalar, Scalar.dScalar_of_not_mem a ha,
      Scalar.dScalar_of_not_mem b hb]; simp⟩
  | .trace t, h => by
    obtain ⟨dt, hdt⟩ := Stensor.dScalar_ok_of_clearOf t h
    exact ⟨_, by rw [Scalar.dScalar, hdt]; rfl⟩
  | .contract t u, h => by
    simp only [Scalar.clearOf, Bool.and_eq_true] at h
    obtain ⟨dt, hdt⟩ := Stensor.dScalar_ok_of_clearOf t h.1
    obtain ⟨du, hdu⟩ := Stensor.dScalar_ok_of_clearOf u h.2
    exact ⟨_, by rw [Scalar.dScalar, hdt, hdu]; rfl⟩

theorem Stensor.dScalar_ok_of_clearOf :
    ∀ e : Stensor ℝ, e.clearOf x false → ∃ d, e.dScalar x = .ok d
  | .zero, _ | .identity, _ | .sym _, _ => ⟨_, rfl⟩
  | .neg t, h => by
    obtain ⟨dt, hdt⟩ := Stensor.dScalar_ok_of_clearOf t h
    exact ⟨_, by rw [Stensor.dScalar, hdt]; rfl⟩
  | .add t u, h | .sub t u, h => by
    simp only [Stensor.clearOf, Bool.and_eq_true] at h
    obtain ⟨dt, hdt⟩ := Stensor.dScalar_ok_of_clearOf t h.1
    obtain ⟨du, hdu⟩ := Stensor.dScalar_ok_of_clearOf u h.2
    exact ⟨_, by rw [Stensor.dScalar, hdt, hdu]; rfl⟩
  | .scale s t, h => by
    simp only [Stensor.clearOf, Bool.and_eq_true] at h
    obtain ⟨ds, hds⟩ := Scalar.dScalar_ok_of_clearOf s h.1
    obtain ⟨dt, hdt⟩ := Stensor.dScalar_ok_of_clearOf t h.2
    exact ⟨_, by rw [Stensor.dScalar, hds, hdt]; rfl⟩
  | .apply c t, h => by
    simp only [Stensor.clearOf, Bool.false_and, Bool.not_false, Bool.true_and,
      Bool.and_eq_true] at h
    obtain ⟨dc, hdc⟩ := Stensor4.dScalar_ok_of_clearOf c h.1
    obtain ⟨dt, hdt⟩ := Stensor.dScalar_ok_of_clearOf t h.2
    exact ⟨_, by rw [Stensor.dScalar, hdc, hdt]; rfl⟩

theorem Stensor4.dScalar_ok_of_clearOf :
    ∀ e : Stensor4 ℝ, e.clearOf x false → ∃ d, e.dScalar x = .ok d
  | .zero, _ | .id, _ | .ixi, _ | .sym _, _ => ⟨_, rfl⟩
  | .neg c, h | .transpose c, h => by
    obtain ⟨dc, hdc⟩ := Stensor4.dScalar_ok_of_clearOf c h
    exact ⟨_, by rw [Stensor4.dScalar, hdc]; rfl⟩
  | .add c d, h | .sub c d, h | .product c d, h => by
    simp only [Stensor4.clearOf, Bool.and_eq_true] at h
    obtain ⟨dc, hdc⟩ := Stensor4.dScalar_ok_of_clearOf c h.1
    obtain ⟨dd, hdd⟩ := Stensor4.dScalar_ok_of_clearOf d h.2
    exact ⟨_, by rw [Stensor4.dScalar, hdc, hdd]; rfl⟩
  | .scale s c, h => by
    simp only [Stensor4.clearOf, Bool.and_eq_true] at h
    obtain ⟨ds, hds⟩ := Scalar.dScalar_ok_of_clearOf s h.1
    obtain ⟨dc, hdc⟩ := Stensor4.dScalar_ok_of_clearOf c h.2
    exact ⟨_, by rw [Stensor4.dScalar, hds, hdc]; rfl⟩
  | .outer t u, h => by
    simp only [Stensor4.clearOf, Bool.and_eq_true] at h
    obtain ⟨dt, hdt⟩ := Stensor.dScalar_ok_of_clearOf t h.1
    obtain ⟨du, hdu⟩ := Stensor.dScalar_ok_of_clearOf u h.2
    exact ⟨_, by rw [Stensor4.dScalar, hdt, hdu]; rfl⟩

end

variable [Number α]

mutual

theorem Scalar.dStensor_ok_of_clearOf :
    ∀ e : Scalar α, e.clearOf x true → ∃ g, e.dStensor x = .ok g
  | .const _, _ | .sym _, _ => ⟨_, rfl⟩
  | .neg a, h | .call _ a, h => by
    obtain ⟨ga, hga⟩ := Scalar.dStensor_ok_of_clearOf a h
    exact ⟨_, by rw [Scalar.dStensor, hga]; rfl⟩
  | .add a b, h | .sub a b, h | .mul a b, h | .div a b, h => by
    simp only [Scalar.clearOf, Bool.and_eq_true] at h
    obtain ⟨ga, hga⟩ := Scalar.dStensor_ok_of_clearOf a h.1
    obtain ⟨gb, hgb⟩ := Scalar.dStensor_ok_of_clearOf b h.2
    exact ⟨_, by rw [Scalar.dStensor, hga, hgb]; rfl⟩
  | .pow a b, h => by
    simp only [Scalar.clearOf, Bool.and_eq_true] at h
    obtain ⟨ga, hga⟩ := Scalar.dStensor_ok_of_clearOf a h.1
    obtain ⟨gb, hgb⟩ := Scalar.dStensor_ok_of_clearOf b h.2
    simp only [Scalar.dStensor, hga, hgb, except_ok_bind]
    split <;> exact ⟨_, rfl⟩
  | .min a b, h => by
    obtain ⟨ha, hb⟩ := Scalar.not_mem_of_clearOf_min h
    exact ⟨.zero, by rw [Scalar.dStensor, Scalar.dStensor_of_not_mem a ha,
      Scalar.dStensor_of_not_mem b hb]; simp [Stensor.isZero]⟩
  | .trace t, h => by
    obtain ⟨gt, hgt⟩ := Stensor.dStensor_ok_of_clearOf t h
    exact ⟨_, by rw [Scalar.dStensor, hgt]; rfl⟩
  | .contract t u, h => by
    simp only [Scalar.clearOf, Bool.and_eq_true] at h
    obtain ⟨gt, hgt⟩ := Stensor.dStensor_ok_of_clearOf t h.1
    obtain ⟨gu, hgu⟩ := Stensor.dStensor_ok_of_clearOf u h.2
    exact ⟨_, by rw [Scalar.dStensor, hgt, hgu]; rfl⟩

theorem Stensor.dStensor_ok_of_clearOf :
    ∀ e : Stensor α, e.clearOf x true → ∃ g, e.dStensor x = .ok g
  | .zero, _ | .identity, _ | .sym _, _ => ⟨_, rfl⟩
  | .neg t, h => by
    obtain ⟨gt, hgt⟩ := Stensor.dStensor_ok_of_clearOf t h
    exact ⟨_, by rw [Stensor.dStensor, hgt]; rfl⟩
  | .add t u, h | .sub t u, h => by
    simp only [Stensor.clearOf, Bool.and_eq_true] at h
    obtain ⟨gt, hgt⟩ := Stensor.dStensor_ok_of_clearOf t h.1
    obtain ⟨gu, hgu⟩ := Stensor.dStensor_ok_of_clearOf u h.2
    exact ⟨_, by rw [Stensor.dStensor, hgt, hgu]; rfl⟩
  | .scale s t, h => by
    simp only [Stensor.clearOf, Bool.and_eq_true] at h
    obtain ⟨gt, hgt⟩ := Stensor.dStensor_ok_of_clearOf t h.2
    obtain ⟨gs, hgs⟩ := Scalar.dStensor_ok_of_clearOf s h.1
    exact ⟨_, by rw [Stensor.dStensor, hgt, hgs]; rfl⟩
  | .apply c t, h => by
    simp only [Stensor.clearOf, Bool.true_and, Bool.and_eq_true, Bool.not_eq_true'] at h
    obtain ⟨gt, hgt⟩ := Stensor.dStensor_ok_of_clearOf t h.2
    exact ⟨_, by rw [Stensor.dStensor, if_neg (by simp [h.1.1]), hgt]; rfl⟩

end

end Clear

/-- Differentiating in a name an expression does not mention gives the zero of its kind and
never fails: in a scalar name with exact arithmetic, in a tensor name for the program's
expressions as they are. More generally, differentiation goes through whenever no `min`
reads the variable and, for a tensor variable, no applied stiffness reads it. -/
theorem derivative_in_unread_name_is_zero :
    (∀ (x : String) (e : Scalar ℝ), x ∉ e.symbols → e.dScalar x = .ok Scalar.zero) ∧
    (∀ (x : String) (e : Stensor ℝ), x ∉ e.symbols → e.dScalar x = .ok .zero) ∧
    (∀ (x : String) (e : Stensor4 ℝ), x ∉ e.symbols → e.dScalar x = .ok .zero) ∧
    (∀ (v : String) (e : Scalar), v ∉ e.symbols → e.dStensor v = .ok .zero) ∧
    (∀ (v : String) (e : Stensor), v ∉ e.symbols → e.dStensor v = .ok .zero) ∧
    (∀ (x : String) (e : Scalar ℝ), e.clearOf x false → ∃ d, e.dScalar x = .ok d) ∧
    (∀ (x : String) (e : Stensor ℝ), e.clearOf x false → ∃ d, e.dScalar x = .ok d) ∧
    (∀ (x : String) (e : Stensor4 ℝ), e.clearOf x false → ∃ d, e.dScalar x = .ok d) ∧
    (∀ (v : String) (e : Scalar), e.clearOf v true → ∃ g, e.dStensor v = .ok g) ∧
    (∀ (v : String) (e : Stensor), e.clearOf v true → ∃ g, e.dStensor v = .ok g) := by
  -- the symbols are the names, sorted
  refine ⟨fun x e h => Scalar.dScalar_of_not_mem e (h ∘ mem_sortedNames.mpr),
    fun x e h => Stensor.dScalar_of_not_mem e (h ∘ mem_sortedNames.mpr),
    fun x e h => Stensor4.dScalar_of_not_mem e (h ∘ mem_sortedNames.mpr),
    fun v e h => Scalar.dStensor_of_not_mem e (h ∘ mem_sortedNames.mpr),
    fun v e h => Stensor.dStensor_of_not_mem e (h ∘ mem_sortedNames.mpr), ?_⟩
  exact ⟨fun x e => Scalar.dScalar_ok_of_clearOf e, fun x e => Stensor.dScalar_ok_of_clearOf e,
    fun x e => Stensor4.dScalar_ok_of_clearOf e, fun v e => Scalar.dStensor_ok_of_clearOf e,
    fun v e => Stensor.dStensor_ok_of_clearOf e⟩

/-- The elastic energy density `½ eel : eel` does not move with the temperature, and its
gradient in the strain increment is zero. -/
theorem energy_density_unread_names :
    let energy : Scalar ℝ :=
      .mul (.const (1 / 2)) (.contract (Stensor.member "eel") (Stensor.member "eel"))
    let energy' : Scalar :=
      .mul (.const 0.5) (.contract (Stensor.member "eel") (Stensor.member "eel"))
    ("T" ∉ energy.symbols ∧ energy.dScalar "T" = .ok Scalar.zero) ∧
      ("deel" ∉ energy'.symbols ∧ energy'.dStensor "deel" = .ok .zero) :=
  ⟨⟨by decide, derivative_in_unread_name_is_zero.1 "T" _ (by decide)⟩,
    ⟨by decide, derivative_in_unread_name_is_zero.2.2.2.1 "deel" _ (by decide)⟩⟩

end Elasto.Tensor
