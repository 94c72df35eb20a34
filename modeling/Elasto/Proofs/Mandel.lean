import Mathlib
import Elasto.Mandel.Basic

/-!
# Mandel arithmetic over a commutative ring

With exact numbers the fixed summation orders of the Mandel products do not matter: a dot
product, a matrix-vector and a matrix-matrix product are plain sums over the six
components. This module states them so, and proves the identities the folding builders
rely on: the identity tensors act trivially, `I ⊗ I` takes the trace, an outer product
`a ⊗ b` applied to `t` is `(b : t) a`, and scalings move out of every product.
-/

namespace Elasto.Mandel

open Finset

variable {α : Type} [CommRing α]

@[simp] theorem Mat6.sumFromFirst_eq (f : Fin 6 → α) : Mat6.sumFromFirst f = ∑ k, f k := by
  simp [Mat6.sumFromFirst, Fin.sum_univ_succ]
  ring

namespace Vec6

theorem dot_eq (a b : Vec6 α) : dot a b = ∑ k : Fin 6, a.get k * b.get k := by
  simp [dot, List.finRange, Fin.sum_univ_succ, Vector.get_eq_getElem]
  ring

@[simp] theorem getElem_identity {i : Nat} (h : i < 6) :
    (identity : Vec6 α)[i] = if i < 3 then 1 else 0 := by
  interval_cases i <;> rfl

omit [CommRing α] in
@[simp] theorem getElem_setComponent (a : Vec6 α) (j : Fin 6) (x : α) {i : Nat} (h : i < 6) :
    (setComponent a j x)[i] = if (j : Nat) = i then x else a[i] := by
  simp [setComponent, Vector.getElem_set]

omit [CommRing α] in
@[simp] theorem setComponent_get (a : Vec6 α) (j : Fin 6) : setComponent a j (a.get j) = a :=
  Vector.ext fun i hi => by
    by_cases hji : (j : Nat) = i
    · subst hji
      simp [Vector.get_eq_getElem]
    · simp [hji]

theorem dot_comm (a b : Vec6 α) : dot a b = dot b a := by
  simp only [dot_eq, mul_comm]

@[simp] theorem dot_zero_left (a : Vec6 α) : dot zero a = 0 := by simp [dot_eq, Vector.get_eq_getElem]

@[simp] theorem dot_zero_right (a : Vec6 α) : dot a zero = 0 := by
  simp [dot_eq, Vector.get_eq_getElem]

theorem dot_identity_left (a : Vec6 α) : dot identity a = trace a := by
  simp [dot_eq, trace, Fin.sum_univ_succ, Vector.get_eq_getElem]
  ring

theorem dot_identity_right (a : Vec6 α) : dot a identity = trace a := by
  rw [dot_comm, dot_identity_left]

theorem dot_scale_left (s : α) (a b : Vec6 α) : dot (scale s a) b = s * dot a b := by
  simp [dot_eq, mul_sum, mul_assoc, Vector.get_eq_getElem]

theorem dot_scale_right (s : α) (a b : Vec6 α) : dot a (scale s b) = s * dot a b := by
  rw [dot_comm, dot_scale_left, dot_comm]

theorem dot_add_left (a b c : Vec6 α) : dot (add a b) c = dot a c + dot b c := by
  simp [dot_eq, add_mul, sum_add_distrib, Vector.get_eq_getElem]

theorem add_comm (a b : Vec6 α) : add a b = add b a :=
  Vector.ext fun i hi => by
    simp only [getElem_add]
    ring

@[simp] theorem trace_zero : trace (zero : Vec6 α) = 0 := by simp [trace]

theorem trace_identity : trace (identity : Vec6 α) = 3 := by
  simp [trace]
  norm_num

theorem trace_scale (s : α) (a : Vec6 α) : trace (scale s a) = s * trace a := by
  simp [trace]
  ring

@[simp] theorem scale_zero_left (a : Vec6 α) : scale 0 a = zero :=
  Vector.ext fun i hi => by simp

@[simp] theorem scale_zero_right (s : α) : scale s (zero : Vec6 α) = zero :=
  Vector.ext fun i hi => by simp

@[simp] theorem scale_one (a : Vec6 α) : scale 1 a = a :=
  Vector.ext fun i hi => by simp

theorem scale_scale (s r : α) (a : Vec6 α) : scale s (scale r a) = scale (s * r) a :=
  Vector.ext fun i hi => by simp [mul_assoc]

@[simp] theorem add_zero_left (a : Vec6 α) : add zero a = a :=
  Vector.ext fun i hi => by simp

@[simp] theorem add_zero_right (a : Vec6 α) : add a zero = a :=
  Vector.ext fun i hi => by simp

@[simp] theorem sub_zero_right (a : Vec6 α) : sub a zero = a :=
  Vector.ext fun i hi => by simp

theorem sub_zero_left (a : Vec6 α) : sub zero a = neg a :=
  Vector.ext fun i hi => by simp

@[simp] theorem neg_neg (a : Vec6 α) : neg (neg a) = a :=
  Vector.ext fun i hi => by simp

@[simp] theorem neg_zero : neg (zero : Vec6 α) = zero :=
  Vector.ext fun i hi => by simp

end Vec6

namespace Mat6

theorem getElem_apply_eq (a : Mat6 α) (x : Vec6 α) {i : Nat} (h : i < 6) :
    (apply a x)[i] = ∑ k : Fin 6, a[i].get k * x.get k := by
  simp [Vector.get_eq_getElem]

theorem getElem_mul_eq (a b : Mat6 α) {i j : Nat} (hi : i < 6) (hj : j < 6) :
    (mul a b)[i][j] = ∑ k : Fin 6, a[i].get k * (b.get k)[j] := by
  simp [Vector.get_eq_getElem]

@[simp] theorem getElem_ixi {i j : Nat} (hi : i < 6) (hj : j < 6) :
    (ixi : Mat6 α)[i][j] = (if i < 3 then 1 else 0) * (if j < 3 then 1 else 0) := by
  simp [ixi]

@[simp] theorem apply_zero_left (x : Vec6 α) : apply zero x = Vec6.zero :=
  Vector.ext fun i hi => by simp

@[simp] theorem apply_zero_right (a : Mat6 α) : apply a Vec6.zero = Vec6.zero :=
  Vector.ext fun i hi => by simp

@[simp] theorem apply_id (x : Vec6 α) : apply id x = x :=
  Vector.ext fun i hi => by
    simp [Fin.sum_univ_succ]
    interval_cases i <;> simp

/-- `I ⊗ I` takes the trace: `(I ⊗ I) : t = tr(t) I`. -/
theorem apply_ixi (x : Vec6 α) : apply ixi x = Vec6.scale (Vec6.trace x) Vec6.identity :=
  Vector.ext fun i hi => by
    simp only [getElem_apply_eq _ _ hi, Vec6.getElem_scale hi, Vec6.trace]
    interval_cases i <;> simp [Fin.sum_univ_succ, Vector.get_eq_getElem] <;> ring

theorem apply_scale_left (s : α) (a : Mat6 α) (x : Vec6 α) :
    apply (scale s a) x = Vec6.scale s (apply a x) :=
  Vector.ext fun i hi => by simp [mul_sum, mul_assoc]

theorem apply_scale_right (s : α) (a : Mat6 α) (x : Vec6 α) :
    apply a (Vec6.scale s x) = Vec6.scale s (apply a x) :=
  Vector.ext fun i hi => by
    simp only [getElem_apply_eq _ _ hi, Vec6.getElem_scale hi, Vector.get_eq_getElem,
      Vec6.getElem_scale, mul_sum]
    exact sum_congr rfl fun k _ => by ring

/-- An outer product applied to a vector: `(a ⊗ b) : x = (b : x) a`. -/
theorem apply_outer (a b x : Vec6 α) : apply (outer a b) x = Vec6.scale (Vec6.dot b x) a :=
  Vector.ext fun i hi => by
    simp only [getElem_apply_eq _ _ hi, Vector.get_eq_getElem, getElem_outer,
      Vec6.getElem_scale hi, Vec6.dot_eq, sum_mul]
    exact sum_congr rfl fun k _ => by ring

theorem apply_add_left (a b : Mat6 α) (x : Vec6 α) :
    apply (add a b) x = Vec6.add (apply a x) (apply b x) :=
  Vector.ext fun i hi => by simp [add_mul, sum_add_distrib]

@[simp] theorem scale_zero_left (a : Mat6 α) : scale 0 a = zero :=
  ext_getElem fun i j hi hj => by simp

@[simp] theorem scale_zero_right (s : α) : scale s (zero : Mat6 α) = zero :=
  ext_getElem fun i j hi hj => by simp

@[simp] theorem scale_one (a : Mat6 α) : scale 1 a = a :=
  ext_getElem fun i j hi hj => by simp

theorem scale_scale (s r : α) (a : Mat6 α) : scale s (scale r a) = scale (s * r) a :=
  ext_getElem fun i j hi hj => by simp [mul_assoc]

@[simp] theorem add_zero_left (a : Mat6 α) : add zero a = a :=
  ext_getElem fun i j hi hj => by simp

@[simp] theorem add_zero_right (a : Mat6 α) : add a zero = a :=
  ext_getElem fun i j hi hj => by simp

@[simp] theorem sub_zero_right (a : Mat6 α) : sub a zero = a :=
  ext_getElem fun i j hi hj => by simp

theorem sub_zero_left (a : Mat6 α) : sub zero a = neg a :=
  ext_getElem fun i j hi hj => by simp

@[simp] theorem neg_neg (a : Mat6 α) : neg (neg a) = a :=
  ext_getElem fun i j hi hj => by simp

@[simp] theorem neg_zero : neg (zero : Mat6 α) = zero :=
  ext_getElem fun i j hi hj => by simp

@[simp] theorem mul_zero_left (a : Mat6 α) : mul zero a = zero :=
  ext_getElem fun i j hi hj => by simp

@[simp] theorem mul_zero_right (a : Mat6 α) : mul a zero = zero :=
  ext_getElem fun i j hi hj => by simp

@[simp] theorem mul_id_left (a : Mat6 α) : mul id a = a :=
  ext_getElem fun i j hi hj => by
    simp [Fin.sum_univ_succ]
    interval_cases i <;> simp

@[simp] theorem mul_id_right (a : Mat6 α) : mul a id = a :=
  ext_getElem fun i j hi hj => by
    simp [Fin.sum_univ_succ]
    interval_cases j <;> simp

theorem mul_scale_left (s : α) (a b : Mat6 α) : mul (scale s a) b = scale s (mul a b) :=
  ext_getElem fun i j hi hj => by simp [mul_sum, mul_assoc]

theorem mul_scale_right (s : α) (a b : Mat6 α) : mul a (scale s b) = scale s (mul a b) :=
  ext_getElem fun i j hi hj => by
    simp only [getElem_mul_eq _ _ hi hj, getElem_scale hi hj, Vector.get_eq_getElem, getElem_scale,
      mul_sum]
    exact sum_congr rfl fun k _ => by ring

@[simp] theorem outer_zero_left (a : Vec6 α) : outer Vec6.zero a = zero :=
  ext_getElem fun i j hi hj => by simp

@[simp] theorem outer_zero_right (a : Vec6 α) : outer a Vec6.zero = zero :=
  ext_getElem fun i j hi hj => by simp

theorem outer_scale_left (s : α) (a b : Vec6 α) :
    outer (Vec6.scale s a) b = scale s (outer a b) :=
  ext_getElem fun i j hi hj => by simp [mul_assoc]

theorem outer_scale_right (s : α) (a b : Vec6 α) :
    outer a (Vec6.scale s b) = scale s (outer a b) :=
  ext_getElem fun i j hi hj => by
    simp only [getElem_outer, Vec6.getElem_scale, getElem_scale]
    ring

omit [CommRing α] in
@[simp] theorem transpose_transpose (a : Mat6 α) : transpose (transpose a) = a :=
  ext_getElem fun i j hi hj => by simp

@[simp] theorem transpose_zero : transpose (zero : Mat6 α) = zero :=
  ext_getElem fun i j hi hj => by simp

@[simp] theorem transpose_id : transpose (id : Mat6 α) = id :=
  ext_getElem fun i j hi hj => by simp [eq_comm]

@[simp] theorem transpose_ixi : transpose (ixi : Mat6 α) = ixi :=
  ext_getElem fun i j hi hj => by simp [mul_comm]

theorem transpose_neg (a : Mat6 α) : transpose (neg a) = neg (transpose a) :=
  ext_getElem fun i j hi hj => by simp

theorem transpose_scale (s : α) (a : Mat6 α) : transpose (scale s a) = scale s (transpose a) :=
  ext_getElem fun i j hi hj => by simp

theorem transpose_add (a b : Mat6 α) : transpose (add a b) = add (transpose a) (transpose b) :=
  ext_getElem fun i j hi hj => by simp

theorem transpose_sub (a b : Mat6 α) : transpose (sub a b) = sub (transpose a) (transpose b) :=
  ext_getElem fun i j hi hj => by simp

theorem transpose_outer (a b : Vec6 α) : transpose (outer a b) = outer b a :=
  ext_getElem fun i j hi hj => by simp [mul_comm]

/-! ### Columns

Column `j` of a matrix of derivatives, stored by rows, holds the derivatives along
component `j`. -/

omit [CommRing α] in
/-- Column `j` of a matrix. -/
def column (a : Mat6 α) (j : Fin 6) : Vec6 α := Vector.ofFn fun i => (a.get i).get j

omit [CommRing α] in
@[simp] theorem getElem_column (a : Mat6 α) (j : Fin 6) {i : Nat} (h : i < 6) :
    (column a j)[i] = a[i].get j := by
  simp [column, Vector.get_eq_getElem]

@[simp] theorem column_zero (j : Fin 6) : column (zero : Mat6 α) j = Vec6.zero :=
  Vector.ext fun i hi => by simp [Vector.get_eq_getElem]

@[simp] theorem column_neg (a : Mat6 α) (j : Fin 6) : column (neg a) j = Vec6.neg (column a j) :=
  Vector.ext fun i hi => by simp [Vector.get_eq_getElem]

@[simp] theorem column_add (a b : Mat6 α) (j : Fin 6) :
    column (add a b) j = Vec6.add (column a j) (column b j) :=
  Vector.ext fun i hi => by simp [Vector.get_eq_getElem]

@[simp] theorem column_sub (a b : Mat6 α) (j : Fin 6) :
    column (sub a b) j = Vec6.sub (column a j) (column b j) :=
  Vector.ext fun i hi => by simp [Vector.get_eq_getElem]

@[simp] theorem column_scale (s : α) (a : Mat6 α) (j : Fin 6) :
    column (scale s a) j = Vec6.scale s (column a j) :=
  Vector.ext fun i hi => by simp [Vector.get_eq_getElem]

@[simp] theorem column_outer (a b : Vec6 α) (j : Fin 6) :
    column (outer a b) j = Vec6.scale (b.get j) a :=
  Vector.ext fun i hi => by
    simp only [getElem_column, getElem_outer, Vec6.getElem_scale, Vector.get_eq_getElem]
    ring

@[simp] theorem column_mul (a b : Mat6 α) (j : Fin 6) : column (mul a b) j = apply a (column b j) :=
  Vector.ext fun i hi => by simp [getElem_apply_eq _ _ hi, Vector.get_eq_getElem]

theorem getElem_apply_transpose (a : Mat6 α) (x : Vec6 α) {i : Nat} (h : i < 6) :
    (apply (transpose a) x)[i] = Vec6.dot (column a ⟨i, h⟩) x := by
  simp [Vec6.dot_eq, Vector.get_eq_getElem]

end Mat6

end Elasto.Mandel
