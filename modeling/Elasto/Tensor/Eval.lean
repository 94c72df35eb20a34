import Elasto.Tensor.Error
import Elasto.Tensor.Build
import Elasto.Mandel.Basic

/-! # Numeric evaluation

An environment maps names to values of the three kinds, kept sorted by name. Evaluating
an expression looks its symbols up, whatever their scope, and computes in Mandel notation;
the left operand is evaluated first, so its error is the one reported. No finiteness
check is made here. -/

namespace Elasto.Tensor

open Elasto.Mandel

inductive Value (α : Type := Float) where
  | scalar (v : α)
  | stensor (v : Vec6 α)
  | stensor4 (m : Mat6 α)

variable {α : Type}

def Value.kind : Value α → Kind
  | .scalar _ => .scalar
  | .stensor _ => .stensor
  | .stensor4 _ => .stensor4

/-- The components of a value: a scalar alone, the six of a second-order tensor, the
entries of a fourth-order tensor by rows. -/
def Value.components : Value α → List α
  | .scalar v => [v]
  | .stensor v => v.toList
  | .stensor4 m => m.entries

/-- Values by name, sorted by name without repeats. -/
structure Env (α : Type := Float) where
  entries : List (String × Value α) := []

namespace Env

def get? (env : Env α) (name : String) : Option (Value α) :=
  (env.entries.find? (·.1 == name)).map (·.2)

def insertSorted (name : String) (v : Value α) :
    List (String × Value α) → List (String × Value α)
  | [] => [(name, v)]
  | (k, w) :: rest =>
    if name < k then (name, v) :: (k, w) :: rest
    else if name = k then (name, v) :: rest
    else (k, w) :: insertSorted name v rest

/-- The environment with `name` bound to `v`, replacing an earlier binding. -/
def set (env : Env α) (name : String) (v : Value α) : Env α := ⟨insertSorted name v env.entries⟩

/-- The inserted binding is the first of its name, whatever the order of the entries. -/
theorem find?_insertSorted (name y : String) (v : Value α) (l : List (String × Value α)) :
    (insertSorted name v l).find? (·.1 == y) =
      if name = y then some (name, v) else l.find? (·.1 == y) := by
  induction l with
  | nil => by_cases h : name = y <;> simp [insertSorted, h]
  | cons entry rest ih =>
    obtain ⟨k, w⟩ := entry
    by_cases hlt : name < k
    · rw [insertSorted, if_pos hlt]
      by_cases h : name = y <;> simp [h]
    · by_cases hk : name = k
      · subst hk
        rw [insertSorted, if_neg hlt, if_pos rfl]
        by_cases h : name = y <;> simp [h]
      · rw [insertSorted, if_neg hlt, if_neg hk]
        by_cases h : name = y
        · subst h
          have hky : k ≠ name := fun hk' => hk hk'.symm
          simp [ih, hky]
        · by_cases hky : k = y <;> simp [ih, h, hky]

@[simp] theorem get?_set (env : Env α) (name y : String) (v : Value α) :
    (env.set name v).get? y = if name = y then some v else env.get? y := by
  by_cases h : name = y <;> simp [get?, set, find?_insertSorted, h]

def lookup (env : Env α) (s : Symbol) : Except ExprError (Value α) :=
  match env.get? s.name with
  | some v => .ok v
  | none => .error (.unbound s.name)

def scalar (env : Env α) (s : Symbol) : Except ExprError α := do
  match ← env.lookup s with
  | .scalar v => pure v
  | v => throw (.typeMismatch s.name .scalar v.kind)

def stensor (env : Env α) (s : Symbol) : Except ExprError (Vec6 α) := do
  match ← env.lookup s with
  | .stensor v => pure v
  | v => throw (.typeMismatch s.name .stensor v.kind)

def stensor4 (env : Env α) (s : Symbol) : Except ExprError (Mat6 α) := do
  match ← env.lookup s with
  | .stensor4 m => pure m
  | v => throw (.typeMismatch s.name .stensor4 v.kind)

end Env

variable [Number α]

mutual

def Scalar.eval (env : Env α) : Scalar α → Except ExprError α
  | .const v => pure v
  | .sym s => env.scalar s
  | .neg a => do pure (-(← a.eval env))
  | .add a b => do let x ← a.eval env; let y ← b.eval env; pure (x + y)
  | .sub a b => do let x ← a.eval env; let y ← b.eval env; pure (x - y)
  | .mul a b => do let x ← a.eval env; let y ← b.eval env; pure (x * y)
  | .div a b => do let x ← a.eval env; let y ← b.eval env; pure (x / y)
  | .pow a b => do let x ← a.eval env; let y ← b.eval env; pure (Number.pow x y)
  | .min a b => do let x ← a.eval env; let y ← b.eval env; pure (Number.min x y)
  | .call f a => do pure (f.apply (← a.eval env))
  | .trace t => do pure (Vec6.trace (← t.eval env))
  | .contract t u => do let x ← t.eval env; let y ← u.eval env; pure (Vec6.dot x y)

def Stensor.eval (env : Env α) : Stensor α → Except ExprError (Vec6 α)
  | .zero => pure Vec6.zero
  | .identity => pure Vec6.identity
  | .sym s => env.stensor s
  | .neg t => do pure (Vec6.neg (← t.eval env))
  | .add t u => do let x ← t.eval env; let y ← u.eval env; pure (Vec6.add x y)
  | .sub t u => do let x ← t.eval env; let y ← u.eval env; pure (Vec6.sub x y)
  | .scale s t => do let x ← s.eval env; let y ← t.eval env; pure (Vec6.scale x y)
  | .apply c t => do let m ← c.eval env; let y ← t.eval env; pure (Mat6.apply m y)

def Stensor4.eval (env : Env α) : Stensor4 α → Except ExprError (Mat6 α)
  | .zero => pure Mat6.zero
  | .id => pure Mat6.id
  | .ixi => pure Mat6.ixi
  | .sym s => env.stensor4 s
  | .neg c => do pure (Mat6.neg (← c.eval env))
  | .add c d => do let x ← c.eval env; let y ← d.eval env; pure (Mat6.add x y)
  | .sub c d => do let x ← c.eval env; let y ← d.eval env; pure (Mat6.sub x y)
  | .scale s c => do let x ← s.eval env; let y ← c.eval env; pure (Mat6.scale x y)
  | .product c d => do let x ← c.eval env; let y ← d.eval env; pure (Mat6.mul x y)
  | .outer t u => do let x ← t.eval env; let y ← u.eval env; pure (Mat6.outer x y)
  | .transpose c => do pure (Mat6.transpose (← c.eval env))

end

def Expr.eval (env : Env α) : Expr α → Except ExprError (Value α)
  | .scalar e => .scalar <$> e.eval env
  | .stensor e => .stensor <$> e.eval env
  | .stensor4 e => .stensor4 <$> e.eval env

end Elasto.Tensor
