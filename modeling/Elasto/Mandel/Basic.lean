/-! # Mandel notation

A symmetric second-order tensor is stored as six components
`[xx, yy, zz, √2 xy, √2 xz, √2 yz]`, so that the double contraction is the dot product of
the six-vectors; a fourth-order tensor acting on symmetric tensors is a `6 × 6` matrix,
stored by rows. The components are doubles unless said otherwise. The arithmetic is in a
fixed order: a matrix-vector or matrix-matrix product starts from the first term and adds
the next terms one by one, a dot product starts from zero. -/

namespace Elasto.Mandel

/-- Components of a symmetric second-order tensor. -/
abbrev Vec6 (α : Type := Float) := Vector α 6

/-- Components of a fourth-order tensor, by rows. -/
abbrev Mat6 (α : Type := Float) := Vector (Vector α 6) 6

namespace Vec6

variable {α : Type}

def zero [Zero α] : Vec6 α := Vector.replicate 6 0

/-- The second-order identity. -/
def identity [Zero α] [One α] : Vec6 α := #v[1, 1, 1, 0, 0, 0]

def add [Add α] (a b : Vec6 α) : Vec6 α := Vector.ofFn fun i => a[i] + b[i]
def sub [Sub α] (a b : Vec6 α) : Vec6 α := Vector.ofFn fun i => a[i] - b[i]
def neg [Neg α] (a : Vec6 α) : Vec6 α := Vector.ofFn fun i => -a[i]
def scale [Mul α] (s : α) (a : Vec6 α) : Vec6 α := Vector.ofFn fun i => s * a[i]

/-- `a` with component `j` replaced by `x`. -/
def setComponent (a : Vec6 α) (j : Fin 6) (x : α) : Vec6 α := a.set j x j.isLt

/-- Sum of the diagonal components. -/
def trace [Add α] (a : Vec6 α) : α := a[0] + a[1] + a[2]

/-- The double contraction, summed left to right from zero. -/
def dot [Zero α] [Add α] [Mul α] (a b : Vec6 α) : α :=
  (List.finRange 6).foldl (fun acc k => acc + a[k] * b[k]) 0

section Components

variable {i : Nat} (h : i < 6)

@[simp] theorem getElem_zero [Zero α] : (zero : Vec6 α)[i] = 0 := by simp [zero]
@[simp] theorem getElem_add [Add α] (a b : Vec6 α) : (add a b)[i] = a[i] + b[i] := by simp [add]
@[simp] theorem getElem_sub [Sub α] (a b : Vec6 α) : (sub a b)[i] = a[i] - b[i] := by simp [sub]
@[simp] theorem getElem_neg [Neg α] (a : Vec6 α) : (neg a)[i] = -a[i] := by simp [neg]
@[simp] theorem getElem_scale [Mul α] (s : α) (a : Vec6 α) : (scale s a)[i] = s * a[i] := by
  simp [scale]

end Components

/-- Components from the tensor's `xx, yy, zz, xy, xz, yz`: the shear ones are scaled by `√2`. -/
def ofComponents (v : Vector Float 6) : Vec6 :=
  let s2 : Float := Float.sqrt 2
  #v[v[0], v[1], v[2], s2 * v[3], s2 * v[4], s2 * v[5]]

end Vec6

namespace Mat6

variable {α : Type}

def zero [Zero α] : Mat6 α := Vector.replicate 6 Vec6.zero

/-- The identity on symmetric tensors. -/
def id [Zero α] [One α] : Mat6 α := Vector.ofFn fun i => Vector.ofFn fun j => if i = j then 1 else 0

/-- The outer product `a ⊗ b`: entry `(i, j)` is `a_i b_j`. -/
def outer [Mul α] (a b : Vec6 α) : Mat6 α := Vector.ofFn fun i => Vector.ofFn fun j => a[i] * b[j]

/-- `I ⊗ I`. -/
def ixi [Zero α] [One α] [Mul α] : Mat6 α := outer Vec6.identity Vec6.identity

def map₂ (f : α → α → α) (a b : Mat6 α) : Mat6 α :=
  Vector.ofFn fun i => Vector.ofFn fun j => f a[i][j] b[i][j]

def add [Add α] (a b : Mat6 α) : Mat6 α := map₂ (· + ·) a b
def sub [Sub α] (a b : Mat6 α) : Mat6 α := map₂ (· - ·) a b
def neg [Neg α] (a : Mat6 α) : Mat6 α := Vector.ofFn fun i => Vector.ofFn fun j => -a[i][j]
def scale [Mul α] (s : α) (a : Mat6 α) : Mat6 α :=
  Vector.ofFn fun i => Vector.ofFn fun j => s * a[i][j]
def transpose (a : Mat6 α) : Mat6 α := Vector.ofFn fun i => Vector.ofFn fun j => a[j][i]

/-- `Σ_k f k` for `k = 0 … 5`, starting from the first term and adding the others in order. -/
def sumFromFirst [Add α] (f : Fin 6 → α) : α :=
  [1, 2, 3, 4, 5].foldl (fun acc (k : Fin 6) => f k + acc) (f 0)

/-- The matrix applied to a vector. -/
def apply [Add α] [Mul α] (a : Mat6 α) (x : Vec6 α) : Vec6 α :=
  Vector.ofFn fun i => sumFromFirst fun k => a[i][k] * x[k]

/-- The matrix product. -/
def mul [Add α] [Mul α] (a b : Mat6 α) : Mat6 α :=
  Vector.ofFn fun i => Vector.ofFn fun j => sumFromFirst fun k => a[i][k] * b[k][j]

/-- The entries by rows. -/
def entries (a : Mat6 α) : List α := a.toList.flatMap Vector.toList

section Components

variable {i j : Nat} (hi : i < 6) (hj : j < 6)

@[simp] theorem getElem_zero [Zero α] : (zero : Mat6 α)[i][j] = 0 := by simp [zero, Vec6.zero]
@[simp] theorem getElem_id [Zero α] [One α] : (id : Mat6 α)[i][j] = if i = j then 1 else 0 := by
  simp [id, Fin.ext_iff]
@[simp] theorem getElem_outer [Mul α] (a b : Vec6 α) : (outer a b)[i][j] = a[i] * b[j] := by
  simp [outer]
@[simp] theorem getElem_add [Add α] (a b : Mat6 α) : (add a b)[i][j] = a[i][j] + b[i][j] := by
  simp [add, map₂]
@[simp] theorem getElem_sub [Sub α] (a b : Mat6 α) : (sub a b)[i][j] = a[i][j] - b[i][j] := by
  simp [sub, map₂]
@[simp] theorem getElem_neg [Neg α] (a : Mat6 α) : (neg a)[i][j] = -a[i][j] := by simp [neg]
@[simp] theorem getElem_scale [Mul α] (s : α) (a : Mat6 α) : (scale s a)[i][j] = s * a[i][j] := by
  simp [scale]
@[simp] theorem getElem_transpose (a : Mat6 α) : (transpose a)[i][j] = a[j][i] := by
  simp [transpose]

@[simp] theorem getElem_mul [Add α] [Mul α] (a b : Mat6 α) :
    (mul a b)[i][j] = sumFromFirst fun k => a[i][k] * b[k][j] := by
  simp [mul]

end Components

@[simp] theorem getElem_apply [Add α] [Mul α] (a : Mat6 α) (x : Vec6 α) {i : Nat} (h : i < 6) :
    (apply a x)[i] = sumFromFirst fun k => a[i][k] * x[k] := by
  simp [apply]

theorem ext_getElem {a b : Mat6 α}
    (h : ∀ i j (hi : i < 6) (hj : j < 6), a[i][j] = b[i][j]) : a = b :=
  Vector.ext fun i hi => Vector.ext fun j hj => h i j hi hj

end Mat6

end Elasto.Mandel
