import Elasto.Tensor.Build

/-! # Substitution

`substScalar name by e` puts `by` for every scalar symbol called `name`, whatever its
scope; `substStensor` does the same for second-order symbols. Symbols of the other kind
keep their place. The result is rebuilt through the folding builders, so constants that
meet fold at once. -/

namespace Elasto.Tensor

variable {α : Type} [Number α]

mutual

def Scalar.substScalar (e : Scalar α) (name : String) (by_ : Scalar α) : Scalar α :=
  match e with
  | .const v => .const v
  | .sym s => if s.name = name then by_ else .sym s
  | .neg a => Scalar.mkNeg (a.substScalar name by_)
  | .add a b => Scalar.mkAdd (a.substScalar name by_) (b.substScalar name by_)
  | .sub a b => Scalar.mkSub (a.substScalar name by_) (b.substScalar name by_)
  | .mul a b => Scalar.mkMul (a.substScalar name by_) (b.substScalar name by_)
  | .div a b => Scalar.mkDiv (a.substScalar name by_) (b.substScalar name by_)
  | .pow a b => Scalar.mkPow (a.substScalar name by_) (b.substScalar name by_)
  | .min a b => Scalar.mkMin (a.substScalar name by_) (b.substScalar name by_)
  | .call f a => Scalar.mkCall f (a.substScalar name by_)
  | .trace t => Scalar.mkTrace (t.substScalar name by_)
  | .contract t u => Scalar.mkContract (t.substScalar name by_) (u.substScalar name by_)

def Stensor.substScalar (e : Stensor α) (name : String) (by_ : Scalar α) : Stensor α :=
  match e with
  | .zero => .zero
  | .identity => .identity
  | .sym s => .sym s
  | .neg t => Stensor.mkNeg (t.substScalar name by_)
  | .add t u => Stensor.mkAdd (t.substScalar name by_) (u.substScalar name by_)
  | .sub t u => Stensor.mkSub (t.substScalar name by_) (u.substScalar name by_)
  | .scale s t => Stensor.mkScale (s.substScalar name by_) (t.substScalar name by_)
  | .apply c t => Stensor.mkApply (c.substScalar name by_) (t.substScalar name by_)

def Stensor4.substScalar (e : Stensor4 α) (name : String) (by_ : Scalar α) : Stensor4 α :=
  match e with
  | .zero => .zero
  | .id => .id
  | .ixi => .ixi
  | .sym s => .sym s
  | .neg c => Stensor4.mkNeg (c.substScalar name by_)
  | .transpose c => Stensor4.mkTranspose (c.substScalar name by_)
  | .add c d => Stensor4.mkAdd (c.substScalar name by_) (d.substScalar name by_)
  | .sub c d => Stensor4.mkSub (c.substScalar name by_) (d.substScalar name by_)
  | .product c d => Stensor4.mkProduct (c.substScalar name by_) (d.substScalar name by_)
  | .scale s c => Stensor4.mkScale (s.substScalar name by_) (c.substScalar name by_)
  | .outer t u => Stensor4.mkOuter (t.substScalar name by_) (u.substScalar name by_)

end

mutual

def Scalar.substStensor (e : Scalar α) (name : String) (by_ : Stensor α) : Scalar α :=
  match e with
  | .const v => .const v
  | .sym s => .sym s
  | .neg a => Scalar.mkNeg (a.substStensor name by_)
  | .add a b => Scalar.mkAdd (a.substStensor name by_) (b.substStensor name by_)
  | .sub a b => Scalar.mkSub (a.substStensor name by_) (b.substStensor name by_)
  | .mul a b => Scalar.mkMul (a.substStensor name by_) (b.substStensor name by_)
  | .div a b => Scalar.mkDiv (a.substStensor name by_) (b.substStensor name by_)
  | .pow a b => Scalar.mkPow (a.substStensor name by_) (b.substStensor name by_)
  | .min a b => Scalar.mkMin (a.substStensor name by_) (b.substStensor name by_)
  | .call f a => Scalar.mkCall f (a.substStensor name by_)
  | .trace t => Scalar.mkTrace (t.substStensor name by_)
  | .contract t u => Scalar.mkContract (t.substStensor name by_) (u.substStensor name by_)

def Stensor.substStensor (e : Stensor α) (name : String) (by_ : Stensor α) : Stensor α :=
  match e with
  | .zero => .zero
  | .identity => .identity
  | .sym s => if s.name = name then by_ else .sym s
  | .neg t => Stensor.mkNeg (t.substStensor name by_)
  | .add t u => Stensor.mkAdd (t.substStensor name by_) (u.substStensor name by_)
  | .sub t u => Stensor.mkSub (t.substStensor name by_) (u.substStensor name by_)
  | .scale s t => Stensor.mkScale (s.substStensor name by_) (t.substStensor name by_)
  | .apply c t => Stensor.mkApply (c.substStensor name by_) (t.substStensor name by_)

def Stensor4.substStensor (e : Stensor4 α) (name : String) (by_ : Stensor α) : Stensor4 α :=
  match e with
  | .zero => .zero
  | .id => .id
  | .ixi => .ixi
  | .sym s => .sym s
  | .neg c => Stensor4.mkNeg (c.substStensor name by_)
  | .transpose c => Stensor4.mkTranspose (c.substStensor name by_)
  | .add c d => Stensor4.mkAdd (c.substStensor name by_) (d.substStensor name by_)
  | .sub c d => Stensor4.mkSub (c.substStensor name by_) (d.substStensor name by_)
  | .product c d => Stensor4.mkProduct (c.substStensor name by_) (d.substStensor name by_)
  | .scale s c => Stensor4.mkScale (s.substStensor name by_) (c.substStensor name by_)
  | .outer t u => Stensor4.mkOuter (t.substStensor name by_) (u.substStensor name by_)

end

end Elasto.Tensor
