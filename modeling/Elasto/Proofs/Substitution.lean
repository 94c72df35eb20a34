import Mathlib
import Elasto.Tensor.Subst
import Elasto.Proofs.Exact

/-!
# Substitution and evaluation

Both substitutions rebuild an expression node by node through the folding builders and
differ only in what they put for a symbol: `substScalar` replaces the scalar symbols of one
name, `substStensor` the second-order ones. `rebuild σ` is that common shape, with the
symbols of each kind replaced as `σ` says, all at once. Over the reals it evaluates as the
expression does in an environment where each symbol reads what `σ` puts for it
(`Scalar.eval_rebuild`), since every folding builder computes the value of the node it
replaces.

Main statement: substituting an expression for a name evaluates as binding the name to the
expression's value (`Expr.eval_subst_of_eval_set`), for expressions of every kind. A symbol
of the other kinds with that name never stands in the way: evaluation finds symbols by
name alone and checks the kind of what it finds, so such a symbol does not evaluate once the
name is bound.
-/

namespace Elasto.Tensor

open Elasto.Mandel

/-- What a rebuild puts in place of a symbol of each kind. -/
structure Leaves (α : Type) where
  scalar : Symbol → Scalar α
  stensor : Symbol → Stensor α
  stensor4 : Symbol → Stensor4 α

variable {α : Type} [Number α]

mutual

/-- The expression rebuilt through the folding builders, each symbol replaced as `σ` says. -/
def Scalar.rebuild (σ : Leaves α) : Scalar α → Scalar α
  | .const v => .const v
  | .sym s => σ.scalar s
  | .neg a => Scalar.mkNeg (a.rebuild σ)
  | .add a b => Scalar.mkAdd (a.rebuild σ) (b.rebuild σ)
  | .sub a b => Scalar.mkSub (a.rebuild σ) (b.rebuild σ)
  | .mul a b => Scalar.mkMul (a.rebuild σ) (b.rebuild σ)
  | .div a b => Scalar.mkDiv (a.rebuild σ) (b.rebuild σ)
  | .pow a b => Scalar.mkPow (a.rebuild σ) (b.rebuild σ)
  | .min a b => Scalar.mkMin (a.rebuild σ) (b.rebuild σ)
  | .call f a => Scalar.mkCall f (a.rebuild σ)
  | .trace t => Scalar.mkTrace (t.rebuild σ)
  | .contract t u => Scalar.mkContract (t.rebuild σ) (u.rebuild σ)

def Stensor.rebuild (σ : Leaves α) : Stensor α → Stensor α
  | .zero => .zero
  | .identity => .identity
  | .sym s => σ.stensor s
  | .neg t => Stensor.mkNeg (t.rebuild σ)
  | .add t u => Stensor.mkAdd (t.rebuild σ) (u.rebuild σ)
  | .sub t u => Stensor.mkSub (t.rebuild σ) (u.rebuild σ)
  | .scale s t => Stensor.mkScale (s.rebuild σ) (t.rebuild σ)
  | .apply c t => Stensor.mkApply (c.rebuild σ) (t.rebuild σ)

def Stensor4.rebuild (σ : Leaves α) : Stensor4 α → Stensor4 α
  | .zero => .zero
  | .id => .id
  | .ixi => .ixi
  | .sym s => σ.stensor4 s
  | .neg c => Stensor4.mkNeg (c.rebuild σ)
  | .transpose c => Stensor4.mkTranspose (c.rebuild σ)
  | .add c d => Stensor4.mkAdd (c.rebuild σ) (d.rebuild σ)
  | .sub c d => Stensor4.mkSub (c.rebuild σ) (d.rebuild σ)
  | .product c d => Stensor4.mkProduct (c.rebuild σ) (d.rebuild σ)
  | .scale s c => Stensor4.mkScale (s.rebuild σ) (c.rebuild σ)
  | .outer t u => Stensor4.mkOuter (t.rebuild σ) (u.rebuild σ)

end

namespace Leaves

/-- `r` for the scalar symbols called `name`, every other symbol kept. -/
def ofScalar (name : String) (r : Scalar α) : Leaves α :=
  ⟨fun s => if s.name = name then r else .sym s, .sym, .sym⟩

/-- `r` for the second-order symbols called `name`, every other symbol kept. -/
def ofStensor (name : String) (r : Stensor α) : Leaves α :=
  ⟨.sym, fun s => if s.name = name then r else .sym s, .sym⟩

end Leaves

section Instances

variable (name : String)

mutual

theorem Scalar.substScalar_eq_rebuild (r : Scalar α) :
    ∀ e : Scalar α, e.substScalar name r = e.rebuild (.ofScalar name r)
  | .const _ => rfl
  | .sym _ => by simp [Scalar.substScalar, Scalar.rebuild, Leaves.ofScalar]
  | .neg a | .call _ a => by
    simp only [Scalar.substScalar, Scalar.rebuild, Scalar.substScalar_eq_rebuild r a]
  | .add a b | .sub a b | .mul a b | .div a b | .pow a b | .min a b => by
    simp only [Scalar.substScalar, Scalar.rebuild, Scalar.substScalar_eq_rebuild r a,
      Scalar.substScalar_eq_rebuild r b]
  | .trace t => by
    simp only [Scalar.substScalar, Scalar.rebuild, Stensor.substScalar_eq_rebuild r t]
  | .contract t u => by
    simp only [Scalar.substScalar, Scalar.rebuild, Stensor.substScalar_eq_rebuild r t,
      Stensor.substScalar_eq_rebuild r u]

theorem Stensor.substScalar_eq_rebuild (r : Scalar α) :
    ∀ e : Stensor α, e.substScalar name r = e.rebuild (.ofScalar name r)
  | .zero | .identity | .sym _ => rfl
  | .neg t => by simp only [Stensor.substScalar, Stensor.rebuild, Stensor.substScalar_eq_rebuild r t]
  | .add t u | .sub t u => by
    simp only [Stensor.substScalar, Stensor.rebuild, Stensor.substScalar_eq_rebuild r t,
      Stensor.substScalar_eq_rebuild r u]
  | .scale s t => by
    simp only [Stensor.substScalar, Stensor.rebuild, Scalar.substScalar_eq_rebuild r s,
      Stensor.substScalar_eq_rebuild r t]
  | .apply c t => by
    simp only [Stensor.substScalar, Stensor.rebuild, Stensor4.substScalar_eq_rebuild r c,
      Stensor.substScalar_eq_rebuild r t]

theorem Stensor4.substScalar_eq_rebuild (r : Scalar α) :
    ∀ e : Stensor4 α, e.substScalar name r = e.rebuild (.ofScalar name r)
  | .zero | .id | .ixi | .sym _ => rfl
  | .neg c | .transpose c => by
    simp only [Stensor4.substScalar, Stensor4.rebuild, Stensor4.substScalar_eq_rebuild r c]
  | .add c d | .sub c d | .product c d => by
    simp only [Stensor4.substScalar, Stensor4.rebuild, Stensor4.substScalar_eq_rebuild r c,
      Stensor4.substScalar_eq_rebuild r d]
  | .scale s c => by
    simp only [Stensor4.substScalar, Stensor4.rebuild, Scalar.substScalar_eq_rebuild r s,
      Stensor4.substScalar_eq_rebuild r c]
  | .outer t u => by
    simp only [Stensor4.substScalar, Stensor4.rebuild, Stensor.substScalar_eq_rebuild r t,
      Stensor.substScalar_eq_rebuild r u]

end

mutual

theorem Scalar.substStensor_eq_rebuild (r : Stensor α) :
    ∀ e : Scalar α, e.substStensor name r = e.rebuild (.ofStensor name r)
  | .const _ | .sym _ => rfl
  | .neg a | .call _ a => by
    simp only [Scalar.substStensor, Scalar.rebuild, Scalar.substStensor_eq_rebuild r a]
  | .add a b | .sub a b | .mul a b | .div a b | .pow a b | .min a b => by
    simp only [Scalar.substStensor, Scalar.rebuild, Scalar.substStensor_eq_rebuild r a,
      Scalar.substStensor_eq_rebuild r b]
  | .trace t => by
    simp only [Scalar.substStensor, Scalar.rebuild, Stensor.substStensor_eq_rebuild r t]
  | .contract t u => by
    simp only [Scalar.substStensor, Scalar.rebuild, Stensor.substStensor_eq_rebuild r t,
      Stensor.substStensor_eq_rebuild r u]

theorem Stensor.substStensor_eq_rebuild (r : Stensor α) :
    ∀ e : Stensor α, e.substStensor name r = e.rebuild (.ofStensor name r)
  | .zero | .identity => rfl
  | .sym _ => by simp [Stensor.substStensor, Stensor.rebuild, Leaves.ofStensor]
  | .neg t => by
    simp only [Stensor.substStensor, Stensor.rebuild, Stensor.substStensor_eq_rebuild r t]
  | .add t u | .sub t u => by
    simp only [Stensor.substStensor, Stensor.rebuild, Stensor.substStensor_eq_rebuild r t,
      Stensor.substStensor_eq_rebuild r u]
  | .scale s t => by
    simp only [Stensor.substStensor, Stensor.rebuild, Scalar.substStensor_eq_rebuild r s,
      Stensor.substStensor_eq_rebuild r t]
  | .apply c t => by
    simp only [Stensor.substStensor, Stensor.rebuild, Stensor4.substStensor_eq_rebuild r c,
      Stensor.substStensor_eq_rebuild r t]

theorem Stensor4.substStensor_eq_rebuild (r : Stensor α) :
    ∀ e : Stensor4 α, e.substStensor name r = e.rebuild (.ofStensor name r)
  | .zero | .id | .ixi | .sym _ => rfl
  | .neg c | .transpose c => by
    simp only [Stensor4.substStensor, Stensor4.rebuild, Stensor4.substStensor_eq_rebuild r c]
  | .add c d | .sub c d | .product c d => by
    simp only [Stensor4.substStensor, Stensor4.rebuild, Stensor4.substStensor_eq_rebuild r c,
      Stensor4.substStensor_eq_rebuild r d]
  | .scale s c => by
    simp only [Stensor4.substStensor, Stensor4.rebuild, Scalar.substStensor_eq_rebuild r s,
      Stensor4.substStensor_eq_rebuild r c]
  | .outer t u => by
    simp only [Stensor4.substStensor, Stensor4.rebuild, Stensor.substStensor_eq_rebuild r t,
      Stensor.substStensor_eq_rebuild r u]

end

end Instances

/-- Each symbol `σ` replaces evaluates in `env` as the symbol reads in `env'`. -/
structure Leaves.Sound (σ : Leaves ℝ) (env env' : Env ℝ) : Prop where
  scalar : ∀ s v, env'.scalar s = .ok v → (σ.scalar s).eval env = .ok v
  stensor : ∀ s v, env'.stensor s = .ok v → (σ.stensor s).eval env = .ok v
  stensor4 : ∀ s v, env'.stensor4 s = .ok v → (σ.stensor4 s).eval env = .ok v

section Rebuild

variable {σ : Leaves ℝ} {env env' : Env ℝ}

mutual

theorem Scalar.eval_rebuild (hσ : σ.Sound env env') :
    ∀ (e : Scalar ℝ) (v : ℝ), e.eval env' = .ok v → (e.rebuild σ).eval env = .ok v
  | .const _, _, h => h
  | .sym s, v, h => hσ.scalar s v h
  | .neg a, v, h => by
    obtain ⟨a', ha, rfl⟩ := except_bind_pure_eq_ok.mp h
    exact Scalar.eval_mkNeg (Scalar.eval_rebuild hσ a _ ha)
  | .add a b, v, h => by
    obtain ⟨a', ha, b', hb, rfl⟩ := except_bind₂_pure_eq_ok.mp h
    exact Scalar.eval_mkAdd (Scalar.eval_rebuild hσ a _ ha) (Scalar.eval_rebuild hσ b _ hb)
  | .sub a b, v, h => by
    obtain ⟨a', ha, b', hb, rfl⟩ := except_bind₂_pure_eq_ok.mp h
    exact Scalar.eval_mkSub (Scalar.eval_rebuild hσ a _ ha) (Scalar.eval_rebuild hσ b _ hb)
  | .mul a b, v, h => by
    obtain ⟨a', ha, b', hb, rfl⟩ := except_bind₂_pure_eq_ok.mp h
    exact Scalar.eval_mkMul (Scalar.eval_rebuild hσ a _ ha) (Scalar.eval_rebuild hσ b _ hb)
  | .div a b, v, h => by
    obtain ⟨a', ha, b', hb, rfl⟩ := except_bind₂_pure_eq_ok.mp h
    exact Scalar.eval_mkDiv (Scalar.eval_rebuild hσ a _ ha) (Scalar.eval_rebuild hσ b _ hb)
  | .pow a b, v, h => by
    obtain ⟨a', ha, b', hb, rfl⟩ := except_bind₂_pure_eq_ok.mp h
    exact Scalar.eval_mkPow (Scalar.eval_rebuild hσ a _ ha) (Scalar.eval_rebuild hσ b _ hb)
  | .min a b, v, h => by
    obtain ⟨a', ha, b', hb, rfl⟩ := except_bind₂_pure_eq_ok.mp h
    exact Scalar.eval_mkMin (Scalar.eval_rebuild hσ a _ ha) (Scalar.eval_rebuild hσ b _ hb)
  | .call f a, v, h => by
    obtain ⟨a', ha, rfl⟩ := except_bind_pure_eq_ok.mp h
    exact Scalar.eval_mkCall f (Scalar.eval_rebuild hσ a _ ha)
  | .trace t, v, h => by
    obtain ⟨t', ht, rfl⟩ := except_bind_pure_eq_ok.mp h
    exact Scalar.eval_mkTrace (Stensor.eval_rebuild hσ t _ ht)
  | .contract t u, v, h => by
    obtain ⟨t', ht, u', hu, rfl⟩ := except_bind₂_pure_eq_ok.mp h
    exact Scalar.eval_mkContract (Stensor.eval_rebuild hσ t _ ht) (Stensor.eval_rebuild hσ u _ hu)

theorem Stensor.eval_rebuild (hσ : σ.Sound env env') :
    ∀ (e : Stensor ℝ) (v : Vec6 ℝ), e.eval env' = .ok v → (e.rebuild σ).eval env = .ok v
  | .zero, _, h | .identity, _, h => h
  | .sym s, v, h => hσ.stensor s v h
  | .neg t, v, h => by
    obtain ⟨t', ht, rfl⟩ := except_bind_pure_eq_ok.mp h
    exact Stensor.eval_mkNeg (Stensor.eval_rebuild hσ t _ ht)
  | .add t u, v, h => by
    obtain ⟨t', ht, u', hu, rfl⟩ := except_bind₂_pure_eq_ok.mp h
    exact Stensor.eval_mkAdd (Stensor.eval_rebuild hσ t _ ht) (Stensor.eval_rebuild hσ u _ hu)
  | .sub t u, v, h => by
    obtain ⟨t', ht, u', hu, rfl⟩ := except_bind₂_pure_eq_ok.mp h
    exact Stensor.eval_mkSub (Stensor.eval_rebuild hσ t _ ht) (Stensor.eval_rebuild hσ u _ hu)
  | .scale s t, v, h => by
    obtain ⟨s', hs, t', ht, rfl⟩ := except_bind₂_pure_eq_ok.mp h
    exact Stensor.eval_mkScale (Scalar.eval_rebuild hσ s _ hs) (Stensor.eval_rebuild hσ t _ ht)
  | .apply c t, v, h => by
    obtain ⟨c', hc, t', ht, rfl⟩ := except_bind₂_pure_eq_ok.mp h
    exact Stensor.eval_mkApply (Stensor4.eval_rebuild hσ c _ hc) (Stensor.eval_rebuild hσ t _ ht)

theorem Stensor4.eval_rebuild (hσ : σ.Sound env env') :
    ∀ (e : Stensor4 ℝ) (v : Mat6 ℝ), e.eval env' = .ok v → (e.rebuild σ).eval env = .ok v
  | .zero, _, h | .id, _, h | .ixi, _, h => h
  | .sym s, v, h => hσ.stensor4 s v h
  | .neg c, v, h => by
    obtain ⟨c', hc, rfl⟩ := except_bind_pure_eq_ok.mp h
    exact Stensor4.eval_mkNeg (Stensor4.eval_rebuild hσ c _ hc)
  | .transpose c, v, h => by
    obtain ⟨c', hc, rfl⟩ := except_bind_pure_eq_ok.mp h
    exact Stensor4.eval_mkTranspose (Stensor4.eval_rebuild hσ c _ hc)
  | .add c d, v, h => by
    obtain ⟨c', hc, d', hd, rfl⟩ := except_bind₂_pure_eq_ok.mp h
    exact Stensor4.eval_mkAdd (Stensor4.eval_rebuild hσ c _ hc) (Stensor4.eval_rebuild hσ d _ hd)
  | .sub c d, v, h => by
    obtain ⟨c', hc, d', hd, rfl⟩ := except_bind₂_pure_eq_ok.mp h
    exact Stensor4.eval_mkSub (Stensor4.eval_rebuild hσ c _ hc) (Stensor4.eval_rebuild hσ d _ hd)
  | .product c d, v, h => by
    obtain ⟨c', hc, d', hd, rfl⟩ := except_bind₂_pure_eq_ok.mp h
    exact Stensor4.eval_mkProduct (Stensor4.eval_rebuild hσ c _ hc)
      (Stensor4.eval_rebuild hσ d _ hd)
  | .scale s c, v, h => by
    obtain ⟨s', hs, c', hc, rfl⟩ := except_bind₂_pure_eq_ok.mp h
    exact Stensor4.eval_mkScale (Scalar.eval_rebuild hσ s _ hs) (Stensor4.eval_rebuild hσ c _ hc)
  | .outer t u, v, h => by
    obtain ⟨t', ht, u', hu, rfl⟩ := except_bind₂_pure_eq_ok.mp h
    exact Stensor4.eval_mkOuter (Stensor.eval_rebuild hσ t _ ht) (Stensor.eval_rebuild hσ u _ hu)

end

end Rebuild

section Single

variable {env : Env ℝ} {x : String}

theorem Env.lookup_set_of_ne {s : Symbol} {v : Value ℝ} (h : x ≠ s.name) :
    (env.set x v).lookup s = env.lookup s :=
  Env.lookup_congr (Env.get?_set_of_ne h)

theorem Leaves.sound_ofScalar {r : Scalar ℝ} {V : ℝ} (hr : r.eval env = .ok V) :
    (Leaves.ofScalar x r).Sound env (env.set x (.scalar V)) where
  scalar s v h := by
    by_cases hs : s.name = x
    · obtain rfl : V = v := by simpa [Env.scalar, Env.lookup, hs] using h
      simpa [Leaves.ofScalar, hs] using hr
    · simpa [Leaves.ofScalar, hs, Scalar.eval, Env.scalar, Env.lookup_set_of_ne (Ne.symm hs)]
        using h
  stensor s v h := by
    by_cases hs : s.name = x
    · simp [Env.stensor, Env.lookup, hs] at h
    · simpa [Leaves.ofScalar, Stensor.eval, Env.stensor, Env.lookup_set_of_ne (Ne.symm hs)]
        using h
  stensor4 s v h := by
    by_cases hs : s.name = x
    · simp [Env.stensor4, Env.lookup, hs] at h
    · simpa [Leaves.ofScalar, Stensor4.eval, Env.stensor4, Env.lookup_set_of_ne (Ne.symm hs)]
        using h

theorem Leaves.sound_ofStensor {r : Stensor ℝ} {V : Vec6 ℝ} (hr : r.eval env = .ok V) :
    (Leaves.ofStensor x r).Sound env (env.set x (.stensor V)) where
  scalar s v h := by
    by_cases hs : s.name = x
    · simp [Env.scalar, Env.lookup, hs] at h
    · simpa [Leaves.ofStensor, Scalar.eval, Env.scalar, Env.lookup_set_of_ne (Ne.symm hs)]
        using h
  stensor s v h := by
    by_cases hs : s.name = x
    · obtain rfl : V = v := by simpa [Env.stensor, Env.lookup, hs] using h
      simpa [Leaves.ofStensor, hs] using hr
    · simpa [Leaves.ofStensor, hs, Stensor.eval, Env.stensor, Env.lookup_set_of_ne (Ne.symm hs)]
        using h
  stensor4 s v h := by
    by_cases hs : s.name = x
    · simp [Env.stensor4, Env.lookup, hs] at h
    · simpa [Leaves.ofStensor, Stensor4.eval, Env.stensor4, Env.lookup_set_of_ne (Ne.symm hs)]
        using h

variable {r : Scalar ℝ} {V : ℝ}

/-- Substituting `r` for the scalar `x` evaluates as binding `x` to the value of `r`. -/
theorem Scalar.eval_substScalar (hr : r.eval env = .ok V) (e : Scalar ℝ) (w : ℝ)
    (he : e.eval (env.set x (.scalar V)) = .ok w) : (e.substScalar x r).eval env = .ok w := by
  rw [Scalar.substScalar_eq_rebuild]
  exact Scalar.eval_rebuild (Leaves.sound_ofScalar hr) e w he

theorem Stensor.eval_substScalar (hr : r.eval env = .ok V) (e : Stensor ℝ) (w : Vec6 ℝ)
    (he : e.eval (env.set x (.scalar V)) = .ok w) : (e.substScalar x r).eval env = .ok w := by
  rw [Stensor.substScalar_eq_rebuild]
  exact Stensor.eval_rebuild (Leaves.sound_ofScalar hr) e w he

theorem Stensor4.eval_substScalar (hr : r.eval env = .ok V) (e : Stensor4 ℝ) (w : Mat6 ℝ)
    (he : e.eval (env.set x (.scalar V)) = .ok w) : (e.substScalar x r).eval env = .ok w := by
  rw [Stensor4.substScalar_eq_rebuild]
  exact Stensor4.eval_rebuild (Leaves.sound_ofScalar hr) e w he

end Single

/-- Substitution for a scalar name in an expression of any kind. -/
def Expr.substScalar (e : Expr α) (name : String) (r : Scalar α) : Expr α :=
  match e with
  | .scalar e => .scalar (e.substScalar name r)
  | .stensor e => .stensor (e.substScalar name r)
  | .stensor4 e => .stensor4 (e.substScalar name r)

/-- Substitution for a second-order name in an expression of any kind. -/
def Expr.substStensor (e : Expr α) (name : String) (r : Stensor α) : Expr α :=
  match e with
  | .scalar e => .scalar (e.substStensor name r)
  | .stensor e => .stensor (e.substStensor name r)
  | .stensor4 e => .stensor4 (e.substStensor name r)

/-- An expression of any kind rebuilt with the leaves `σ`. -/
def Expr.rebuild (σ : Leaves α) : Expr α → Expr α
  | .scalar e => .scalar (e.rebuild σ)
  | .stensor e => .stensor (e.rebuild σ)
  | .stensor4 e => .stensor4 (e.rebuild σ)

theorem Expr.substScalar_eq_rebuild (e : Expr α) (name : String) (r : Scalar α) :
    e.substScalar name r = e.rebuild (.ofScalar name r) := by
  cases e <;> simp only [Expr.substScalar, Expr.rebuild, Scalar.substScalar_eq_rebuild,
    Stensor.substScalar_eq_rebuild, Stensor4.substScalar_eq_rebuild]

theorem Expr.substStensor_eq_rebuild (e : Expr α) (name : String) (r : Stensor α) :
    e.substStensor name r = e.rebuild (.ofStensor name r) := by
  cases e <;> simp only [Expr.substStensor, Expr.rebuild, Scalar.substStensor_eq_rebuild,
    Stensor.substStensor_eq_rebuild, Stensor4.substStensor_eq_rebuild]

theorem Expr.eval_eq_ok {env : Env ℝ} {e : Expr ℝ} {v : Value ℝ} (h : e.eval env = .ok v) :
    match e with
    | .scalar e => ∃ w, e.eval env = .ok w ∧ v = .scalar w
    | .stensor e => ∃ w, e.eval env = .ok w ∧ v = .stensor w
    | .stensor4 e => ∃ w, e.eval env = .ok w ∧ v = .stensor4 w := by
  cases e with
  | scalar e | stensor e | stensor4 e =>
    obtain ⟨w, hw, rfl⟩ := except_map_eq_ok.mp h
    exact ⟨w, hw, rfl⟩

/-- A rebuild evaluates, whatever the kind of the expression, as the expression does in the
environment the leaves stand for. -/
theorem Expr.eval_rebuild {σ : Leaves ℝ} {env env' : Env ℝ} (hσ : σ.Sound env env')
    {e : Expr ℝ} {v : Value ℝ} (he : e.eval env' = .ok v) : (e.rebuild σ).eval env = .ok v := by
  have hk := Expr.eval_eq_ok he
  cases e with
  | scalar e =>
    obtain ⟨w, hw, rfl⟩ := hk
    simp [Expr.rebuild, Expr.eval, Scalar.eval_rebuild hσ e w hw, Functor.map, Except.map]
  | stensor e =>
    obtain ⟨w, hw, rfl⟩ := hk
    simp [Expr.rebuild, Expr.eval, Stensor.eval_rebuild hσ e w hw, Functor.map, Except.map]
  | stensor4 e =>
    obtain ⟨w, hw, rfl⟩ := hk
    simp [Expr.rebuild, Expr.eval, Stensor4.eval_rebuild hσ e w hw, Functor.map, Except.map]

/-- Substitution commutes with evaluation: substituting `r` for the scalar (or second-order)
symbols called `n` evaluates in `env` as the expression does in `env` with `n` bound to the
value of `r`, whenever that evaluation succeeds. -/
theorem Expr.eval_subst_of_eval_set (e : Expr ℝ) (n : String) (env : Env ℝ) :
    (∀ (r : Scalar ℝ) (V : ℝ) (v : Value ℝ), r.eval env = .ok V →
      e.eval (env.set n (.scalar V)) = .ok v → (e.substScalar n r).eval env = .ok v) ∧
    (∀ (r : Stensor ℝ) (V : Vec6 ℝ) (v : Value ℝ), r.eval env = .ok V →
      e.eval (env.set n (.stensor V)) = .ok v → (e.substStensor n r).eval env = .ok v) := by
  constructor
  · intro r V v hr he
    rw [Expr.substScalar_eq_rebuild]
    exact Expr.eval_rebuild (Leaves.sound_ofScalar hr) he
  · intro r V v hr he
    rw [Expr.substStensor_eq_rebuild]
    exact Expr.eval_rebuild (Leaves.sound_ofStensor hr) he

/-- In `a e`, with `a = 2` and `e = I`: putting `3` for the scalar `a` gives `3 I`, and putting
`2 I` for the tensor `e` gives `4 I`, as binding the names does. -/
theorem eval_subst_scale_of_members :
    let e : Expr ℝ := .stensor (.scale (Scalar.member "a") (Stensor.member "e"))
    let env : Env ℝ := ⟨[("a", .scalar 2), ("e", .stensor Vec6.identity)]⟩
    (Scalar.const 3).eval env = .ok 3 ∧
      e.eval (env.set "a" (.scalar 3)) = .ok (.stensor (Vec6.scale 3 Vec6.identity)) ∧
      (e.substScalar "a" (.const 3)).eval env = .ok (.stensor (Vec6.scale 3 Vec6.identity)) ∧
    (Stensor.scale (.const 2) .identity).eval env = .ok (Vec6.scale 2 Vec6.identity) ∧
      e.eval (env.set "e" (.stensor (Vec6.scale 2 Vec6.identity))) =
        .ok (.stensor (Vec6.scale 2 (Vec6.scale 2 Vec6.identity))) ∧
      (e.substStensor "e" (.scale (.const 2) .identity)).eval env =
        .ok (.stensor (Vec6.scale 2 (Vec6.scale 2 Vec6.identity))) := by
  intro e env
  have h₁ : e.eval (env.set "a" (.scalar 3)) = .ok (.stensor (Vec6.scale 3 Vec6.identity)) := rfl
  have h₂ : e.eval (env.set "e" (.stensor (Vec6.scale 2 Vec6.identity))) =
      .ok (.stensor (Vec6.scale 2 (Vec6.scale 2 Vec6.identity))) := rfl
  have hr : (Stensor.scale (.const 2) .identity).eval env = .ok (Vec6.scale 2 Vec6.identity) := rfl
  exact ⟨rfl, h₁, (Expr.eval_subst_of_eval_set e "a" env).1 _ _ _ rfl h₁, hr, h₂,
    (Expr.eval_subst_of_eval_set e "e" env).2 _ _ _ hr h₂⟩

end Elasto.Tensor
