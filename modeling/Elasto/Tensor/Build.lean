import Elasto.Tensor.Expr

/-! # Folding builders

Expressions are made through builders that fold constants and drop neutral and absorbing
operands as they go: `0 + a` is `a`, `1 * a` is `a`, `0 * a` is `0`, `Id : t` is `t`,
a scale by a scale multiplies the factors. The rules are tried in a fixed order, left
operand first, which the generated text shows. The arithmetic operators on expressions
are these builders. The zero tensors are absorbing or neutral for every tensor builder;
the lemmas at the end of each namespace say so. -/

namespace Elasto.Tensor

namespace Scalar

variable {α : Type} [Number α]

def zero : Scalar α := .const 0
def one : Scalar α := .const 1

/-- The constant `n`. -/
def num (n : Nat) : Scalar α := .const n

/-- A member of the behaviour. -/
def member (name : String) : Scalar α := .sym ⟨name, .member⟩

/-- A temporary of the current block. -/
def temp (name : String) : Scalar α := .sym ⟨name, .temporary⟩

/-- Whether the expression is a constant equal to zero (either zero). -/
def isZero : Scalar α → Bool
  | .const v => Number.isZero v
  | _ => false

/-- Whether the expression is the constant one. -/
def isOne : Scalar α → Bool
  | .const v => Number.isOne v
  | _ => false

def mkNeg : Scalar α → Scalar α
  | .const v => .const (-v)
  | .neg a => a
  | e => .neg e

def mkAdd (a b : Scalar α) : Scalar α :=
  match a, b with
  | .const x, .const y => .const (x + y)
  | .const x, _ => if Number.isZero x then b else .add a b
  | _, .const y => if Number.isZero y then a else .add a b
  | _, _ => .add a b

def mkSub (a b : Scalar α) : Scalar α :=
  match a, b with
  | .const x, .const y => .const (x - y)
  | .const x, _ => if Number.isZero x then mkNeg b else .sub a b
  | _, .const y => if Number.isZero y then a else .sub a b
  | _, _ => .sub a b

def mkMul (a b : Scalar α) : Scalar α :=
  match a, b with
  | .const x, .const y => .const (x * y)
  | .const x, _ => if Number.isZero x then zero else if Number.isOne x then b else .mul a b
  | _, .const y => if Number.isZero y then zero else if Number.isOne y then a else .mul a b
  | _, _ => .mul a b

/-- Division; a zero numerator folds to zero even over a zero divisor. -/
def mkDiv (a b : Scalar α) : Scalar α :=
  match a, b with
  | .const x, .const y =>
    if !Number.isZero y then .const (x / y) else if Number.isZero x then zero else .div a b
  | .const x, _ => if Number.isZero x then zero else .div a b
  | _, .const y => if Number.isOne y then a else .div a b
  | _, _ => .div a b

def mkPow (a b : Scalar α) : Scalar α :=
  match a, b with
  | .const x, .const y => .const (Number.pow x y)
  | _, .const y => if Number.isOne y then a else if Number.isZero y then one else .pow a b
  | _, _ => .pow a b

def mkMin (a b : Scalar α) : Scalar α :=
  match a, b with
  | .const x, .const y => .const (Number.min x y)
  | _, _ => .min a b

def mkCall (f : Fn) : Scalar α → Scalar α
  | .const x => .const (f.apply x)
  | a => .call f a

def mkTrace : Stensor α → Scalar α
  | .zero => zero
  | .identity => num 3
  | .scale s t => mkMul s (mkTrace t)
  | t => .trace t

/-- Double contraction; the identity turns it into a trace and scales move out, a scale
on the right swapping the operands. -/
def mkContract (a b : Stensor α) : Scalar α :=
  match a, b with
  | .zero, _ => zero
  | _, .zero => zero
  | .identity, t => mkTrace t
  | t, .identity => mkTrace t
  | .scale s t, u => mkMul s (mkContract t u)
  | u, .scale s t => mkMul s (mkContract t u)
  | t, u => .contract t u
termination_by sizeOf a + sizeOf b

instance : Add (Scalar α) := ⟨mkAdd⟩
instance : Sub (Scalar α) := ⟨mkSub⟩
instance : Mul (Scalar α) := ⟨mkMul⟩
instance : Div (Scalar α) := ⟨mkDiv⟩
instance : Neg (Scalar α) := ⟨mkNeg⟩

theorem add_eq_mkAdd (a b : Scalar α) : a + b = mkAdd a b := rfl
theorem sub_eq_mkSub (a b : Scalar α) : a - b = mkSub a b := rfl
theorem mul_eq_mkMul (a b : Scalar α) : a * b = mkMul a b := rfl

@[simp] theorem mkTrace_zero : mkTrace (.zero : Stensor α) = zero := rfl

@[simp] theorem mkContract_zero_left (t : Stensor α) : mkContract .zero t = zero := by
  rw [mkContract]

@[simp] theorem mkContract_zero_right (t : Stensor α) : mkContract t .zero = zero := by
  cases t <;> rw [mkContract] <;> nofun

end Scalar

namespace Stensor

variable {α : Type}

def member (name : String) : Stensor α := .sym ⟨name, .member⟩
def temp (name : String) : Stensor α := .sym ⟨name, .temporary⟩

def isZero : Stensor α → Bool
  | .zero => true
  | _ => false

def mkNeg : Stensor α → Stensor α
  | .zero => .zero
  | .neg t => t
  | t => .neg t

def mkAdd (a b : Stensor α) : Stensor α :=
  match a, b with
  | .zero, t => t
  | t, .zero => t
  | _, _ => .add a b

def mkSub (a b : Stensor α) : Stensor α :=
  match a, b with
  | t, .zero => t
  | .zero, t => mkNeg t
  | _, _ => .sub a b

@[simp] theorem mkAdd_zero_left (t : Stensor α) : mkAdd .zero t = t := rfl

@[simp] theorem mkAdd_zero_right (t : Stensor α) : mkAdd t .zero = t := by
  cases t <;> rfl

@[simp] theorem mkSub_zero_right (t : Stensor α) : mkSub t .zero = t := by
  cases t <;> rfl

@[simp] theorem mkSub_zero_left (t : Stensor α) : mkSub .zero t = mkNeg t := by
  cases t <;> rfl

@[simp] theorem mkNeg_zero : mkNeg (.zero : Stensor α) = .zero := rfl

variable [Number α]

def mkScale (s : Scalar α) (t : Stensor α) : Stensor α :=
  if s.isZero || t.isZero then .zero
  else if s.isOne then t
  else match t with
    | .scale s' u => .scale (Scalar.mkMul s s') u
    | _ => .scale s t

/-- `c : t`; identities vanish, scales move out and an outer product `a ⊗ b` gives
`(b : t) a`. -/
def mkApply (c : Stensor4 α) (t : Stensor α) : Stensor α :=
  match c, t with
  | .zero, _ => .zero
  | _, .zero => .zero
  | .id, t => t
  | .ixi, t => mkScale (Scalar.mkTrace t) .identity
  | .scale s c, t => mkScale s (mkApply c t)
  | c, .scale s t => mkScale s (mkApply c t)
  | .outer a b, t => mkScale (Scalar.mkContract b t) a
  | c, t => .apply c t
termination_by sizeOf c + sizeOf t

instance : Add (Stensor α) := ⟨mkAdd⟩
instance : Sub (Stensor α) := ⟨mkSub⟩
instance : Neg (Stensor α) := ⟨mkNeg⟩
@[default_instance]
instance : HMul (Scalar α) (Stensor α) (Stensor α) := ⟨mkScale⟩
@[default_instance]
instance : HMul (Stensor4 α) (Stensor α) (Stensor α) := ⟨mkApply⟩

omit [Number α] in
theorem add_eq_mkAdd (t u : Stensor α) : t + u = mkAdd t u := rfl
omit [Number α] in
theorem sub_eq_mkSub (t u : Stensor α) : t - u = mkSub t u := rfl
theorem hMul_eq_mkScale (s : Scalar α) (t : Stensor α) : s * t = mkScale s t := rfl
theorem hMul_eq_mkApply (c : Stensor4 α) (t : Stensor α) : c * t = mkApply c t := rfl

@[simp] theorem mkScale_zero_right (s : Scalar α) : mkScale s .zero = .zero := by
  simp [mkScale, isZero]

@[simp] theorem mkApply_zero_left (t : Stensor α) : mkApply .zero t = .zero := by
  rw [mkApply]

@[simp] theorem mkApply_zero_right (c : Stensor4 α) : mkApply c .zero = .zero := by
  cases c <;> rw [mkApply] <;> nofun

end Stensor

namespace Stensor4

variable {α : Type}

def member (name : String) : Stensor4 α := .sym ⟨name, .member⟩
def temp (name : String) : Stensor4 α := .sym ⟨name, .temporary⟩

def isZero : Stensor4 α → Bool
  | .zero => true
  | _ => false

def mkNeg : Stensor4 α → Stensor4 α
  | .zero => .zero
  | .neg c => c
  | c => .neg c

def mkAdd (a b : Stensor4 α) : Stensor4 α :=
  match a, b with
  | .zero, c => c
  | c, .zero => c
  | _, _ => .add a b

def mkSub (a b : Stensor4 α) : Stensor4 α :=
  match a, b with
  | c, .zero => c
  | .zero, c => mkNeg c
  | _, _ => .sub a b

@[simp] theorem mkAdd_zero_left (c : Stensor4 α) : mkAdd .zero c = c := rfl

@[simp] theorem mkAdd_zero_right (c : Stensor4 α) : mkAdd c .zero = c := by
  cases c <;> rfl

@[simp] theorem mkSub_zero_right (c : Stensor4 α) : mkSub c .zero = c := by
  cases c <;> rfl

@[simp] theorem mkSub_zero_left (c : Stensor4 α) : mkSub .zero c = mkNeg c := by
  cases c <;> rfl

@[simp] theorem mkNeg_zero : mkNeg (.zero : Stensor4 α) = .zero := rfl

variable [Number α]

def mkScale (s : Scalar α) (c : Stensor4 α) : Stensor4 α :=
  if s.isZero || c.isZero then .zero
  else if s.isOne then c
  else match c with
    | .scale s' d => .scale (Scalar.mkMul s s') d
    | _ => .scale s c

def mkProduct (a b : Stensor4 α) : Stensor4 α :=
  match a, b with
  | .zero, _ => .zero
  | _, .zero => .zero
  | .id, c => c
  | c, .id => c
  | .scale s c, d => mkScale s (mkProduct c d)
  | c, .scale s d => mkScale s (mkProduct c d)
  | c, d => .product c d
termination_by sizeOf a + sizeOf b

def mkOuter (a b : Stensor α) : Stensor4 α :=
  match a, b with
  | .zero, _ => .zero
  | _, .zero => .zero
  | .scale s t, u => mkScale s (mkOuter t u)
  | t, .scale s u => mkScale s (mkOuter t u)
  | .identity, .identity => .ixi
  | t, u => .outer t u
termination_by sizeOf a + sizeOf b

/-- Transposition, pushed through sums, scales and outer products. -/
def mkTranspose : Stensor4 α → Stensor4 α
  | .zero => .zero
  | .id => .id
  | .ixi => .ixi
  | .transpose c => c
  | .neg c => mkNeg (mkTranspose c)
  | .scale s c => mkScale s (mkTranspose c)
  | .add c d => mkAdd (mkTranspose c) (mkTranspose d)
  | .sub c d => mkSub (mkTranspose c) (mkTranspose d)
  | .outer t u => mkOuter u t
  | c => .transpose c

/-- The isotropic stiffness `λ I⊗I + 2μ Id`. -/
def isotropic (lambda mu : Scalar α) : Stensor4 α :=
  mkAdd (mkScale lambda .ixi) (mkScale (Scalar.mkMul (Scalar.num 2) mu) .id)

instance : Add (Stensor4 α) := ⟨mkAdd⟩
instance : Sub (Stensor4 α) := ⟨mkSub⟩
instance : Neg (Stensor4 α) := ⟨mkNeg⟩
@[default_instance]
instance : HMul (Scalar α) (Stensor4 α) (Stensor4 α) := ⟨mkScale⟩
instance : Mul (Stensor4 α) := ⟨mkProduct⟩

omit [Number α] in
theorem add_eq_mkAdd (c d : Stensor4 α) : c + d = mkAdd c d := rfl
omit [Number α] in
theorem sub_eq_mkSub (c d : Stensor4 α) : c - d = mkSub c d := rfl
theorem hMul_eq_mkScale (s : Scalar α) (c : Stensor4 α) : s * c = mkScale s c := rfl
theorem mul_eq_mkProduct (c d : Stensor4 α) : c * d = mkProduct c d := rfl

@[simp] theorem mkScale_zero_right (s : Scalar α) : mkScale s .zero = .zero := by
  simp [mkScale, isZero]

@[simp] theorem mkTranspose_zero : mkTranspose (.zero : Stensor4 α) = .zero := rfl

@[simp] theorem mkProduct_zero_left (c : Stensor4 α) : mkProduct .zero c = .zero := by
  rw [mkProduct]

@[simp] theorem mkProduct_zero_right (c : Stensor4 α) : mkProduct c .zero = .zero := by
  cases c <;> rw [mkProduct] <;> nofun

@[simp] theorem mkOuter_zero_left (t : Stensor α) : mkOuter .zero t = .zero := by
  rw [mkOuter]

@[simp] theorem mkOuter_zero_right (t : Stensor α) : mkOuter t .zero = .zero := by
  cases t <;> rw [mkOuter] <;> nofun

end Stensor4

end Elasto.Tensor
