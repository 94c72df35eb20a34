import Mathlib
import Elasto.Proofs.Grammar

/-! # The formula reader terminates

The tokenizer moves its byte index forward at every turn and never past the end of the
formula, so it turns at most once per byte. The parser is a family of procedures that call
one another: every call either consumes a token, or stays where it is and goes one level
down the descent `call`, `arguments`, `expr`, `term`, `unary`, `power`, `primary`. The pair
(tokens left, level) falls at every call, so calls nest at most seven deep per token.

`ScanStep` and `Calls` are the turns of the tokenizer and the calls of the parser, one
constructor for each recursive call in their definitions; a call made after another one starts
where that one stopped. `Calls.measure_lt` shows that every call falls in the measure the
parser's definitions are proved to terminate by, (tokens left, `Procedure.level`). Main
statement: `formula_reader_terminates`. -/

namespace Elasto.Formula

open Elasto.Tensor

theorem length_le_of_isChain {α : Type} {R : α → α → Prop} (f : α → Nat)
    (hR : ∀ {a b}, R a b → f b < f a) {a : α} {l : List α} (h : List.IsChain R (a :: l)) :
    l.length ≤ f a := by
  induction l generalizing a with
  | nil => simp
  | cons b l ih =>
    rw [List.isChain_cons_cons] at h
    have hl := ih h.2
    have hb := hR h.1
    simp only [List.length_cons]
    omega

section Tokenizer

/-- Where the tokenizer stands: its byte index and the characters from there on. -/
structure Cursor where
  index : Nat
  chars : List Char

/-- One turn of the tokenizer: the blank or the token at the front is read, and the index
moves past the characters it took. -/
inductive ScanStep : Cursor → Cursor → Prop
  | read {pos : Nat} {c : Char} {rest : List Char} {t : Option Token} {n : Nat} (hn : 0 < n) :
      lexOne c rest pos = .ok (t, ⟨n, hn⟩) →
      ScanStep ⟨pos, c :: rest⟩ ⟨pos + n, (c :: rest).drop n⟩

theorem ScanStep.advances {s s' : Cursor} (h : ScanStep s s') :
    s.index < s'.index ∧ s'.index + s'.chars.length = s.index + s.chars.length := by
  cases h with
  | read hn hlex =>
    have hle := (lexOne_eq_ok hlex).1
    simp only [List.length_drop, List.length_cons]
    omega

theorem scanStep_chain_length_le (src : String) {l : List Cursor}
    (h : List.IsChain ScanStep (⟨0, bytesAsChars src⟩ :: l)) : l.length ≤ src.utf8ByteSize := by
  have hfall : ∀ {s s'}, ScanStep s s' → s'.chars.length < s.chars.length := fun h => by
    have := h.advances
    omega
  simpa [length_bytesAsChars] using length_le_of_isChain (fun s => s.chars.length) hfall h

end Tokenizer

section Parser

theorem Procedure.level_le (p : Procedure) : p.level ≤ 6 := by
  cases p <;> simp [level]

/-- A procedure called on the tokens that remain. -/
structure Invocation where
  proc : Procedure
  tokens : List Lexeme

variable {len : Nat} {ts : List Lexeme} {a : Scalar} {r : List Lexeme}

/-! Every rule from `expr` down to `primary` that succeeds consumes at least one token, since
each reads a `primary` first and a `primary` starts with a number, a name or a bracket. This
is what makes the loops of `expr` and `term` progress. -/

theorem primary_consumes {hr : r.length ≤ ts.length} (h : primary len ts = .ok (a, ⟨r, hr⟩)) :
    r.length < ts.length := by
  rw [primary.eq_def] at h
  split at h
  · cases h
    simp
  · obtain ⟨⟨e', r₁, hr₁⟩, -, h⟩ := except_bind_eq_ok.mp h
    cases h
    simp only [List.length_cons]
    omega
  · cases h
    simp
  · obtain ⟨⟨e', r₁, hr₁⟩, -, h⟩ := except_bind_eq_ok.mp h
    dsimp only at h
    split at h
    · next hclose =>
      cases h
      simp only [List.length_cons] at hclose ⊢
      omega
    · cases h
  · cases h

theorem power_consumes {hr : r.length ≤ ts.length} (h : power len ts = .ok (a, ⟨r, hr⟩)) :
    r.length < ts.length := by
  rw [power] at h
  obtain ⟨⟨base, r₁, hr₁⟩, h₁, h⟩ := except_bind_eq_ok.mp h
  have hlt := primary_consumes h₁
  dsimp only at h
  split at h
  · obtain ⟨⟨b, r₂, hr₂⟩, -, h⟩ := except_bind_eq_ok.mp h
    cases h
    simp only [List.length_cons] at hr₂ hlt ⊢
    omega
  · cases h
    exact hlt

theorem unary_consumes {hr : r.length ≤ ts.length} (h : unary len ts = .ok (a, ⟨r, hr⟩)) :
    r.length < ts.length := by
  rw [unary.eq_def] at h
  split at h
  · obtain ⟨⟨a', r₁, hr₁⟩, -, h⟩ := except_bind_eq_ok.mp h
    cases h
    simp only [List.length_cons]
    omega
  · exact power_consumes h

theorem term_consumes {hr : r.length ≤ ts.length} (h : term len ts = .ok (a, ⟨r, hr⟩)) :
    r.length < ts.length := by
  rw [term] at h
  obtain ⟨⟨lhs, r₁, hr₁⟩, h₁, h⟩ := except_bind_eq_ok.mp h
  obtain ⟨⟨e, r₂, hr₂⟩, -, h⟩ := except_bind_eq_ok.mp h
  cases h
  have := unary_consumes h₁
  omega

theorem expr_consumes {hr : r.length ≤ ts.length} (h : expr len ts = .ok (a, ⟨r, hr⟩)) :
    r.length < ts.length := by
  rw [expr] at h
  obtain ⟨⟨lhs, r₁, hr₁⟩, h₁, h⟩ := except_bind_eq_ok.mp h
  obtain ⟨⟨e, r₂, hr₂⟩, -, h⟩ := except_bind_eq_ok.mp h
  cases h
  have := term_consumes h₁
  omega

/-- The calls of the parser: `Calls len a b` when the invocation `a` calls `b`. A call that
follows another one in the same procedure starts where the first stopped, so it asks that
the first succeeded there. -/
inductive Calls (len : Nat) : Invocation → Invocation → Prop
  | exprTerm (ts : List Lexeme) : Calls len ⟨.expr, ts⟩ ⟨.term, ts⟩
  | exprLoop {ts : List Lexeme} {lhs : Scalar} {r : List Lexeme} {hr : r.length ≤ ts.length} :
      term len ts = .ok (lhs, ⟨r, hr⟩) → Calls len ⟨.expr, ts⟩ ⟨.exprTail, r⟩
  | exprTailTerm {o : Nat} {t : Token} {rest : List Lexeme} :
      t = .plus ∨ t = .minus → Calls len ⟨.exprTail, ⟨o, t⟩ :: rest⟩ ⟨.term, rest⟩
  | exprTailLoop {o : Nat} {t : Token} {rest : List Lexeme} {rhs : Scalar} {r : List Lexeme}
      {hr : r.length ≤ rest.length} :
      t = .plus ∨ t = .minus → term len rest = .ok (rhs, ⟨r, hr⟩) →
      Calls len ⟨.exprTail, ⟨o, t⟩ :: rest⟩ ⟨.exprTail, r⟩
  | termUnary (ts : List Lexeme) : Calls len ⟨.term, ts⟩ ⟨.unary, ts⟩
  | termLoop {ts : List Lexeme} {lhs : Scalar} {r : List Lexeme} {hr : r.length ≤ ts.length} :
      unary len ts = .ok (lhs, ⟨r, hr⟩) → Calls len ⟨.term, ts⟩ ⟨.termTail, r⟩
  | termTailUnary {o : Nat} {t : Token} {rest : List Lexeme} :
      t = .star ∨ t = .slash → Calls len ⟨.termTail, ⟨o, t⟩ :: rest⟩ ⟨.unary, rest⟩
  | termTailLoop {o : Nat} {t : Token} {rest : List Lexeme} {rhs : Scalar} {r : List Lexeme}
      {hr : r.length ≤ rest.length} :
      t = .star ∨ t = .slash → unary len rest = .ok (rhs, ⟨r, hr⟩) →
      Calls len ⟨.termTail, ⟨o, t⟩ :: rest⟩ ⟨.termTail, r⟩
  | unaryNeg {o : Nat} {rest : List Lexeme} :
      Calls len ⟨.unary, ⟨o, .minus⟩ :: rest⟩ ⟨.unary, rest⟩
  | unaryPower {ts : List Lexeme} :
      (∀ o rest, ts ≠ ⟨o, .minus⟩ :: rest) → Calls len ⟨.unary, ts⟩ ⟨.power, ts⟩
  | powerBase (ts : List Lexeme) : Calls len ⟨.power, ts⟩ ⟨.primary, ts⟩
  | powerExponent {ts : List Lexeme} {base : Scalar} {o : Nat} {rest : List Lexeme}
      {hr : (⟨o, .caret⟩ :: rest : List Lexeme).length ≤ ts.length} :
      primary len ts = .ok (base, ⟨⟨o, .caret⟩ :: rest, hr⟩) →
      Calls len ⟨.power, ts⟩ ⟨.unary, rest⟩
  | primaryCall {o o' : Nat} {name : String} {rest : List Lexeme} :
      Calls len ⟨.primary, ⟨o, .ident name⟩ :: ⟨o', .lparen⟩ :: rest⟩ ⟨.call, rest⟩
  | primaryParen {o : Nat} {rest : List Lexeme} :
      Calls len ⟨.primary, ⟨o, .lparen⟩ :: rest⟩ ⟨.expr, rest⟩
  | callArguments (ts : List Lexeme) : Calls len ⟨.call, ts⟩ ⟨.arguments, ts⟩
  | argumentsFirst (ts : List Lexeme) : Calls len ⟨.arguments, ts⟩ ⟨.expr, ts⟩
  | argumentsLoop {ts : List Lexeme} {first : Scalar} {r : List Lexeme}
      {hr : r.length ≤ ts.length} :
      expr len ts = .ok (first, ⟨r, hr⟩) → Calls len ⟨.arguments, ts⟩ ⟨.argumentsTail, r⟩
  | argumentsTailExpr {o : Nat} {rest : List Lexeme} :
      Calls len ⟨.argumentsTail, ⟨o, .comma⟩ :: rest⟩ ⟨.expr, rest⟩
  | argumentsTailLoop {o : Nat} {rest : List Lexeme} {a : Scalar} {r : List Lexeme}
      {hr : r.length ≤ rest.length} :
      expr len rest = .ok (a, ⟨r, hr⟩) →
      Calls len ⟨.argumentsTail, ⟨o, .comma⟩ :: rest⟩ ⟨.argumentsTail, r⟩

/-- Every call consumes a token, or stays on the same tokens and goes exactly one level
down. -/
theorem Calls.consumes_or_descends {i j : Invocation} (h : Calls len i j) :
    j.tokens.length < i.tokens.length ∨ j.tokens = i.tokens ∧ j.proc.level + 1 = i.proc.level := by
  cases h with
  | exprTerm | termUnary | unaryPower | powerBase | callArguments | argumentsFirst =>
    exact .inr ⟨rfl, rfl⟩
  | exprLoop h => exact .inl (term_consumes h)
  | termLoop h => exact .inl (unary_consumes h)
  | argumentsLoop h => exact .inl (expr_consumes h)
  | exprTailTerm | termTailUnary | unaryNeg | primaryCall | primaryParen | argumentsTailExpr =>
    left
    simp
  | @exprTailLoop _ _ _ _ _ hr | @termTailLoop _ _ _ _ _ hr | @argumentsTailLoop _ _ _ _ hr =>
    left
    simp only [List.length_cons]
    omega
  | @powerExponent _ _ _ _ hr =>
    left
    simp only [List.length_cons] at hr ⊢
    omega

/-- The measure the parser's procedures terminate by. -/
def Invocation.measure (i : Invocation) : Nat × Nat := (i.tokens.length, i.proc.level)

/-- Every call falls in the parser's termination measure, ordered lexicographically. -/
theorem Calls.measure_lt {i j : Invocation} (h : Calls len i j) :
    Prod.Lex (· < ·) (· < ·) j.measure i.measure := by
  rcases h.consumes_or_descends with hlt | ⟨heq, hlevel⟩
  · exact .left _ _ hlt
  · simp only [Invocation.measure, heq]
    exact .right _ (by omega)

/-- The measure as one number; levels stay below seven. -/
def Invocation.rank (i : Invocation) : Nat := 7 * i.tokens.length + i.proc.level

theorem Calls.rank_lt {i j : Invocation} (h : Calls len i j) : j.rank < i.rank := by
  have hj := j.proc.level_le
  rcases Prod.lex_def.mp h.measure_lt with hlt | ⟨heq, hlevel⟩
  · simp only [Invocation.measure] at hlt
    simp only [Invocation.rank]
    omega
  · simp only [Invocation.measure] at heq hlevel
    simp only [Invocation.rank, heq]
    omega

theorem calls_chain_length_le {i : Invocation} {l : List Invocation}
    (h : List.IsChain (Calls len) (i :: l)) : l.length ≤ 7 * i.tokens.length + i.proc.level :=
  length_le_of_isChain Invocation.rank (fun h => h.rank_lt) h

/-- The formula reader terminates on every input. The tokenizer's byte index moves forward at
every turn and never past the end, so it turns at most once per byte of the formula; every
call of the parser consumes a token or goes one level down on the same tokens, so calls nest
at most seven deep per token. -/
theorem formula_reader_terminates (src : String) (len : Nat) :
    (∀ {s s' : Cursor}, ScanStep s s' →
      s.index < s'.index ∧ s'.index + s'.chars.length = s.index + s.chars.length) ∧
    (∀ l, List.IsChain ScanStep (⟨0, bytesAsChars src⟩ :: l) → l.length ≤ src.utf8ByteSize) ∧
    (∀ {i j : Invocation}, Calls len i j →
      j.tokens.length < i.tokens.length ∨ j.tokens = i.tokens ∧ j.proc.level + 1 = i.proc.level) ∧
    (∀ i l, List.IsChain (Calls len) (i :: l) → l.length ≤ 7 * i.tokens.length + i.proc.level) :=
  ⟨ScanStep.advances, fun _ h => scanStep_chain_length_le src h, Calls.consumes_or_descends,
    fun _ _ h => calls_chain_length_le h⟩

end Parser

end Elasto.Formula
