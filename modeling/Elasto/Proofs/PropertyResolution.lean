import Mathlib
import Elasto.Proofs.EntryOrder

/-! # Resolving material properties

A material property given as a formula resolves against the declarations of a behaviour: the
formula is read, and each name of the expression it reads as, in sorted order, must be
declared with a scalar type. The check runs over the expression the reader builds, and the
reader folds as it goes: `0 * x`, `x ^ 0` and `0 / x` lose `x`, so a name the text writes can
go unchecked. What resolves is therefore stated over the names of the expression read.

Every refusal names the option. A text that does not read is an invalid option; otherwise the
least refused name decides, an unresolved symbol when it is not declared and an invalid option
when it is declared with a tensor type.

Main statement: `resolveProperty_formula_verdict`.
-/

namespace Elasto.Tensor

theorem pairwise_insertName {x : String} {ys : List String} (h : ys.Pairwise (· < ·)) :
    (insertName x ys).Pairwise (· < ·) := by
  induction ys with
  | nil => simp [insertName]
  | cons y ys ih =>
    obtain ⟨hy, hys⟩ := List.pairwise_cons.mp h
    unfold insertName
    split_ifs with hlt heq
    · refine List.pairwise_cons.mpr ⟨fun z hz => ?_, h⟩
      rcases List.mem_cons.mp hz with rfl | hz
      exacts [hlt, hlt.trans (hy z hz)]
    · exact h
    · have hyx : y < x := lt_of_le_of_ne (not_lt.mp hlt) (Ne.symm heq)
      refine List.pairwise_cons.mpr ⟨fun z hz => ?_, ih hys⟩
      rcases mem_insertName.mp hz with rfl | hz
      exacts [hyx, hy z hz]

theorem pairwise_sortedNames (xs : List String) : (sortedNames xs).Pairwise (· < ·) := by
  induction xs with
  | nil => simp [sortedNames]
  | cons x xs ih =>
    rw [sortedNames, List.foldr_cons, ← sortedNames]
    exact pairwise_insertName ih

theorem mem_pre_of_lt_of_pairwise {pre post : List String} {n x : String}
    (hs : (pre ++ n :: post).Pairwise (· < ·)) (hx : x ∈ pre ++ n :: post) (hlt : x < n) :
    x ∈ pre := by
  rcases List.mem_append.mp hx with h | h
  · exact h
  rcases List.mem_cons.mp h with rfl | h
  · exact absurd hlt (lt_irrefl _)
  · have hgt : n < x := (List.pairwise_cons.mp (List.pairwise_append.mp hs).2.1).1 x h
    exact absurd (hlt.trans hgt) (lt_irrefl _)

end Elasto.Tensor

namespace Elasto.Behaviour

open Elasto.Tensor Elasto.Brick

/-- The check resolution makes of each name of a property's expression. -/
def Description.checkSymbol (d : Description) (option name : String) :
    Except BehaviourError Unit :=
  match d.declared? name with
  | none => throw (.unresolvedSymbol option name)
  | some (_, v) =>
    if v.type.isScalar then pure ()
    else throw (.invalidOption option
      ("'" ++ name ++ "' is a " ++ v.type.name ++ " and cannot appear in a scalar formula"))

theorem Description.resolveProperty_eq (d : Description) (option : String) (p : Property) :
    d.resolveProperty option p =
      (p.expression option >>= fun e => e.symbols.forM (d.checkSymbol option) >>= fun _ => pure e) :=
  rfl

/-- Why the resolution of `option` refuses a name, with the error it gives. -/
inductive SymbolRefusal (d : Description) (option : String) : String → BehaviourError → Prop
  | undeclared {n : String} : d.declared? n = none →
      SymbolRefusal d option n (.unresolvedSymbol option n)
  | notScalar {n : String} {c : Category} {v : Variable} : d.declared? n = some (c, v) →
      v.type.isScalar = false →
      SymbolRefusal d option n (.invalidOption option
        ("'" ++ n ++ "' is a " ++ v.type.name ++ " and cannot appear in a scalar formula"))

section Check

variable {d : Description} {option n : String} {err : BehaviourError}

theorem checkSymbol_eq_ok_iff : d.checkSymbol option n = .ok () ↔ DeclaredScalar d n := by
  unfold Description.checkSymbol DeclaredScalar
  cases hd : d.declared? n with
  | none => simp [throw, throwThe, MonadExceptOf.throw]
  | some cv =>
    obtain ⟨c, v⟩ := cv
    by_cases hs : v.type.isScalar <;> simp [hs, throw, throwThe, MonadExceptOf.throw]

theorem checkSymbol_eq_error_iff :
    d.checkSymbol option n = .error err ↔ SymbolRefusal d option n err := by
  unfold Description.checkSymbol
  constructor
  · cases hd : d.declared? n with
    | none =>
      rintro ⟨⟩
      exact .undeclared hd
    | some cv =>
      obtain ⟨c, v⟩ := cv
      by_cases hs : v.type.isScalar
      · simp [hs]
      · rintro h
        simp only [hs, Bool.false_eq_true, if_false] at h
        cases h
        exact .notScalar hd (Bool.eq_false_iff.mpr hs)
  · rintro (hd | ⟨hd, hs⟩)
    · rw [hd]
      rfl
    · simp only [hd, hs, Bool.false_eq_true, if_false]
      rfl

theorem SymbolRefusal.not_declaredScalar (h : SymbolRefusal d option n err) :
    ¬ DeclaredScalar d n := fun hd => by
  have hok : d.checkSymbol option n = .ok () := checkSymbol_eq_ok_iff.mpr hd
  rw [checkSymbol_eq_error_iff.mpr h] at hok
  cases hok

theorem SymbolRefusal.unique {err' : BehaviourError} (h : SymbolRefusal d option n err)
    (h' : SymbolRefusal d option n err') : err = err' := by
  have he := (checkSymbol_eq_error_iff.mpr h).symm.trans (checkSymbol_eq_error_iff.mpr h')
  cases he
  rfl

end Check

section Resolve

variable {d : Description} {option : String} {p : Property}

theorem Property.expression_formula_eq_error {text : String} {err : BehaviourError} :
    (Property.formula text).expression option = .error err ↔
      ∃ m, Formula.read text = .error m ∧
        err = .invalidOption option ("invalid formula: " ++ m.message) := by
  simp only [Property.expression]
  cases Formula.read text <;> simp [eq_comm]

theorem Property.expression_formula_eq_ok_iff {text : String} {e : Scalar} :
    (Property.formula text).expression option = .ok e ↔ Formula.read text = .ok e := by
  simp only [Property.expression]
  cases Formula.read text <;> simp

theorem resolveProperty_eq_ok_iff {e : Scalar} :
    d.resolveProperty option p = .ok e ↔
      p.expression option = .ok e ∧ ∀ x ∈ e.names, DeclaredScalar d x := by
  rw [Description.resolveProperty_eq, except_bind_eq_ok]
  constructor
  · rintro ⟨e', he', hrest⟩
    obtain ⟨⟨⟩, hall, hpure⟩ := except_bind_eq_ok.mp hrest
    cases hpure
    exact ⟨he', fun x hx =>
      checkSymbol_eq_ok_iff.mp (except_forM_eq_ok.mp hall x (Scalar.mem_symbols.mpr hx))⟩
  · rintro ⟨he, hall⟩
    have hcheck : e.symbols.forM (d.checkSymbol option) = .ok () :=
      except_forM_eq_ok.mpr fun x hx => checkSymbol_eq_ok_iff.mpr (hall x (Scalar.mem_symbols.mp hx))
    exact ⟨e, he, by rw [hcheck]; rfl⟩

/-- A refused property either has no expression or stops at its least refused name. -/
theorem resolveProperty_eq_error {err : BehaviourError}
    (h : d.resolveProperty option p = .error err) :
    p.expression option = .error err ∨
      ∃ e n, p.expression option = .ok e ∧ n ∈ e.names ∧ SymbolRefusal d option n err ∧
        ∀ x ∈ e.names, x < n → DeclaredScalar d x := by
  rw [Description.resolveProperty_eq, except_bind_eq_error] at h
  rcases h with h | ⟨e, he, h⟩
  · exact .inl h
  rcases except_bind_eq_error.mp h with h | ⟨_, -, h⟩
  · -- the names are walked in increasing order, so the names below the refused one passed
    obtain ⟨pre, n, post, hsym, hpre, hn⟩ := except_forM_eq_error.mp h
    have hsorted : (pre ++ n :: post).Pairwise (· < ·) := hsym ▸ pairwise_sortedNames e.names
    refine .inr ⟨e, n, he, Scalar.mem_symbols.mp (hsym ▸ by simp), checkSymbol_eq_error_iff.mp hn,
      fun x hx hlt => checkSymbol_eq_ok_iff.mp (hpre x ?_)⟩
    exact mem_pre_of_lt_of_pairwise hsorted (hsym ▸ Scalar.mem_symbols.mpr hx) hlt
  · cases h

theorem least_refused_unique {e : Scalar} {n n' : String} {err err' : BehaviourError}
    (hn : SymbolRefusal d option n err) (hleast : ∀ x ∈ e.names, x < n → DeclaredScalar d x)
    (hn' : SymbolRefusal d option n' err') (hleast' : ∀ x ∈ e.names, x < n' → DeclaredScalar d x)
    (hmem : n ∈ e.names) (hmem' : n' ∈ e.names) : n = n' := by
  rcases lt_trichotomy n n' with hlt | heq | hgt
  · exact absurd (hleast' n hmem hlt) hn.not_declaredScalar
  · exact heq
  · exact absurd (hleast n' hmem' hgt) hn'.not_declaredScalar

end Resolve

/-- A formula resolves exactly when it reads and every name of the expression it reads as is
a declared scalar. Otherwise the error names the option: the reading error when the text does
not read, and else the refusal of the least name that is not a declared scalar. -/
theorem resolveProperty_formula_verdict (d : Description) (option text : String) :
    (∀ e, d.resolveProperty option (.formula text) = .ok e ↔
        Formula.read text = .ok e ∧ ∀ x ∈ e.names, DeclaredScalar d x) ∧
      ∀ err, d.resolveProperty option (.formula text) = .error err ↔
        (∃ m, Formula.read text = .error m ∧
            err = .invalidOption option ("invalid formula: " ++ m.message)) ∨
          ∃ e n, Formula.read text = .ok e ∧ n ∈ e.names ∧ SymbolRefusal d option n err ∧
            ∀ x ∈ e.names, x < n → DeclaredScalar d x := by
  refine ⟨fun e => by rw [resolveProperty_eq_ok_iff, Property.expression_formula_eq_ok_iff],
    fun err => ⟨fun h => ?_, fun h => ?_⟩⟩
  · rcases resolveProperty_eq_error h with h | ⟨e, n, he, hmem, hn, hleast⟩
    · exact .inl (Property.expression_formula_eq_error.mp h)
    · exact .inr ⟨e, n, Property.expression_formula_eq_ok_iff.mp he, hmem, hn, hleast⟩
  rcases h with ⟨m, hm, rfl⟩ | ⟨e, n, he, hmem, hn, hleast⟩
  · rw [Description.resolveProperty_eq,
      Property.expression_formula_eq_error.mpr ⟨m, hm, rfl⟩]
    rfl
  -- the text reads as one expression only, and the resolution of it fails at its least
  -- refused name, which is `n`
  have hsame : ∀ e', (Property.formula text).expression option = .ok e' → e' = e :=
    fun e' he' => Except.ok.inj ((Property.expression_formula_eq_ok_iff.mp he').symm.trans he)
  rcases hres : d.resolveProperty option (.formula text) with err' | e'
  · rcases resolveProperty_eq_error hres with h | ⟨e', n', he', hmem', hn', hleast'⟩
    · rw [Property.expression_formula_eq_ok_iff.mpr he] at h
      cases h
    · obtain rfl := hsame e' he'
      obtain rfl := least_refused_unique hn' hleast' hn hleast hmem' hmem
      rw [hn'.unique hn]
  · obtain ⟨he', hall⟩ := resolveProperty_eq_ok_iff.mp hres
    obtain rfl := hsame e' he'
    exact absurd (hall n hmem) hn.not_declaredScalar

end Elasto.Behaviour
