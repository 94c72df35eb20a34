import Mathlib
import Elasto.Proofs.Exact

/-!
# The folding builders keep meaning

A folding builder may return something quite unlike the node it stands for: a constant,
one of its operands, a scale moved outward, a transposition pushed inside an outer product.
`Folding` names one call of a builder on its operands; `Folding.node` is the node the syntax
writes for it, built directly from the same operands, and `Folding.result` what the builder
returns.

Main statement (`Folding.eval_result`): over the reals, wherever the node evaluates, the
builder's result evaluates to the same value. In particular folding never makes an
expression that evaluates fail.
-/

namespace Elasto.Tensor

open Elasto.Mandel

/-- One call of a folding builder, with its operands. -/
inductive Folding (α : Type) where
  | neg (a : Scalar α)
  | add (a b : Scalar α)
  | sub (a b : Scalar α)
  | mul (a b : Scalar α)
  | div (a b : Scalar α)
  | pow (a b : Scalar α)
  | min (a b : Scalar α)
  | call (f : Fn) (a : Scalar α)
  | trace (t : Stensor α)
  | contract (t u : Stensor α)
  | stensorNeg (t : Stensor α)
  | stensorAdd (t u : Stensor α)
  | stensorSub (t u : Stensor α)
  | scale (s : Scalar α) (t : Stensor α)
  | apply (c : Stensor4 α) (t : Stensor α)
  /-- `λ I⊗I + 2μ Id` from the Lamé coefficients. -/
  | isotropic (lambda mu : Scalar α)
  | stensor4Neg (c : Stensor4 α)
  | stensor4Add (c d : Stensor4 α)
  | stensor4Sub (c d : Stensor4 α)
  | stensor4Scale (s : Scalar α) (c : Stensor4 α)
  | product (c d : Stensor4 α)
  | outer (t u : Stensor α)
  | transpose (c : Stensor4 α)

namespace Folding

variable {α : Type} [Number α]

/-- The node the syntax writes for the call, its operands kept as they are. -/
def node : Folding α → Expr α
  | .neg a => .scalar (.neg a)
  | .add a b => .scalar (.add a b)
  | .sub a b => .scalar (.sub a b)
  | .mul a b => .scalar (.mul a b)
  | .div a b => .scalar (.div a b)
  | .pow a b => .scalar (.pow a b)
  | .min a b => .scalar (.min a b)
  | .call f a => .scalar (.call f a)
  | .trace t => .scalar (.trace t)
  | .contract t u => .scalar (.contract t u)
  | .stensorNeg t => .stensor (.neg t)
  | .stensorAdd t u => .stensor (.add t u)
  | .stensorSub t u => .stensor (.sub t u)
  | .scale s t => .stensor (.scale s t)
  | .apply c t => .stensor (.apply c t)
  | .isotropic l m =>
    .stensor4 (.add (.scale l .ixi) (.scale (.mul (Scalar.num 2) m) .id))
  | .stensor4Neg c => .stensor4 (.neg c)
  | .stensor4Add c d => .stensor4 (.add c d)
  | .stensor4Sub c d => .stensor4 (.sub c d)
  | .stensor4Scale s c => .stensor4 (.scale s c)
  | .product c d => .stensor4 (.product c d)
  | .outer t u => .stensor4 (.outer t u)
  | .transpose c => .stensor4 (.transpose c)

/-- What the builder returns for the call. -/
def result : Folding α → Expr α
  | .neg a => .scalar (Scalar.mkNeg a)
  | .add a b => .scalar (Scalar.mkAdd a b)
  | .sub a b => .scalar (Scalar.mkSub a b)
  | .mul a b => .scalar (Scalar.mkMul a b)
  | .div a b => .scalar (Scalar.mkDiv a b)
  | .pow a b => .scalar (Scalar.mkPow a b)
  | .min a b => .scalar (Scalar.mkMin a b)
  | .call f a => .scalar (Scalar.mkCall f a)
  | .trace t => .scalar (Scalar.mkTrace t)
  | .contract t u => .scalar (Scalar.mkContract t u)
  | .stensorNeg t => .stensor (Stensor.mkNeg t)
  | .stensorAdd t u => .stensor (Stensor.mkAdd t u)
  | .stensorSub t u => .stensor (Stensor.mkSub t u)
  | .scale s t => .stensor (Stensor.mkScale s t)
  | .apply c t => .stensor (Stensor.mkApply c t)
  | .isotropic l m => .stensor4 (Stensor4.isotropic l m)
  | .stensor4Neg c => .stensor4 (Stensor4.mkNeg c)
  | .stensor4Add c d => .stensor4 (Stensor4.mkAdd c d)
  | .stensor4Sub c d => .stensor4 (Stensor4.mkSub c d)
  | .stensor4Scale s c => .stensor4 (Stensor4.mkScale s c)
  | .product c d => .stensor4 (Stensor4.mkProduct c d)
  | .outer t u => .stensor4 (Stensor4.mkOuter t u)
  | .transpose c => .stensor4 (Stensor4.mkTranspose c)

end Folding

namespace Folding

/-- Over the reals a folding builder gives the value of the node it replaces: wherever the
node evaluates, the builder's result evaluates to the same value. -/
theorem eval_result (b : Folding ℝ) (env : Env ℝ) (v : Value ℝ)
    (h : b.node.eval env = .ok v) : b.result.eval env = .ok v := by
  cases b with
  | neg a => exact except_map_bind_pure_of_ok h fun _ => Scalar.eval_mkNeg
  | add a b => exact except_map_bind₂_pure_of_ok h fun _ _ => Scalar.eval_mkAdd
  | sub a b => exact except_map_bind₂_pure_of_ok h fun _ _ => Scalar.eval_mkSub
  | mul a b => exact except_map_bind₂_pure_of_ok h fun _ _ => Scalar.eval_mkMul
  | div a b => exact except_map_bind₂_pure_of_ok h fun _ _ => Scalar.eval_mkDiv
  | pow a b => exact except_map_bind₂_pure_of_ok h fun _ _ => Scalar.eval_mkPow
  | min a b => exact except_map_bind₂_pure_of_ok h fun _ _ => Scalar.eval_mkMin
  | call f a => exact except_map_bind_pure_of_ok h fun _ => Scalar.eval_mkCall f
  | trace t => exact except_map_bind_pure_of_ok h fun _ => Scalar.eval_mkTrace
  | contract t u => exact except_map_bind₂_pure_of_ok h fun _ _ => Scalar.eval_mkContract
  | stensorNeg t => exact except_map_bind_pure_of_ok h fun _ => Stensor.eval_mkNeg
  | stensorAdd t u => exact except_map_bind₂_pure_of_ok h fun _ _ => Stensor.eval_mkAdd
  | stensorSub t u => exact except_map_bind₂_pure_of_ok h fun _ _ => Stensor.eval_mkSub
  | scale s t => exact except_map_bind₂_pure_of_ok h fun _ _ => Stensor.eval_mkScale
  | apply c t => exact except_map_bind₂_pure_of_ok h fun _ _ => Stensor.eval_mkApply
  | isotropic l m =>
    -- the node is `λ I⊗I + (2 μ) Id`, each part rebuilt by its own builder
    obtain ⟨_, hlm, rfl⟩ := except_map_eq_ok.mp h
    obtain ⟨_, hl, _, hm, rfl⟩ := except_bind₂_pure_eq_ok.mp hlm
    obtain ⟨L, hL, _, hI, rfl⟩ := except_bind₂_pure_eq_ok.mp hl
    obtain ⟨_, h2M, _, hId, rfl⟩ := except_bind₂_pure_eq_ok.mp hm
    obtain ⟨_, h2, M, hM, rfl⟩ := except_bind₂_pure_eq_ok.mp h2M
    obtain rfl := Except.ok.inj hI
    obtain rfl := Except.ok.inj hId
    obtain rfl := Except.ok.inj h2
    exact Expr.eval_stensor4 (Stensor4.eval_mkAdd (Stensor4.eval_mkScale hL rfl)
      (Stensor4.eval_mkScale (Scalar.eval_mkMul (Scalar.eval_num 2) hM) rfl))
  | stensor4Neg c => exact except_map_bind_pure_of_ok h fun _ => Stensor4.eval_mkNeg
  | stensor4Add c d => exact except_map_bind₂_pure_of_ok h fun _ _ => Stensor4.eval_mkAdd
  | stensor4Sub c d => exact except_map_bind₂_pure_of_ok h fun _ _ => Stensor4.eval_mkSub
  | stensor4Scale s c => exact except_map_bind₂_pure_of_ok h fun _ _ => Stensor4.eval_mkScale
  | product c d => exact except_map_bind₂_pure_of_ok h fun _ _ => Stensor4.eval_mkProduct
  | outer t u => exact except_map_bind₂_pure_of_ok h fun _ _ => Stensor4.eval_mkOuter
  | transpose c => exact except_map_bind_pure_of_ok h fun _ => Stensor4.eval_mkTranspose

/-- `I : (2 e)` folds to `2 tr(e)`, worth the contraction itself. -/
theorem eval_result_contract_identity :
    let b : Folding ℝ := .contract .identity (.scale (.const 2) (Stensor.member "e"))
    let env : Env ℝ := ⟨[("e", .stensor Vec6.identity)]⟩
    b.node.eval env = .ok (.scalar (Vec6.dot Vec6.identity (Vec6.scale 2 Vec6.identity))) ∧
      b.result.eval env = .ok (.scalar (Vec6.dot Vec6.identity (Vec6.scale 2 Vec6.identity))) := by
  intro b env
  have h : b.node.eval env = .ok (.scalar (Vec6.dot Vec6.identity (Vec6.scale 2 Vec6.identity))) :=
    rfl
  exact ⟨h, Folding.eval_result b env _ h⟩

end Folding

end Elasto.Tensor
