import Mathlib
import Elasto.Formula.Read
import Elasto.Proofs.Lexing

/-! # The grammar of formulas

The grammar that `Formula.read` parses, written as derivations over tokens: `IsExpr ts e rest`
says that a prefix of `ts` is an `expr` that reads as `e`, with `rest` after it. The loops of
the grammar are the tail relations, which fold their operands to the left as the builders do.

Main statements: `expr_sound` and `expr_complete`, the parser accepts exactly what the grammar
derives, with its value, where what follows cannot continue the expression;
`IsExpr.unique`, the grammar is unambiguous; `read_eq_ok_iff_lexes_isExpr`, a formula reads as
`e` exactly when its characters lex and their tokens derive `e`, and otherwise it fails with a
parse error at an offset within the formula. -/

namespace Elasto.Formula

open Elasto.Tensor

section Rules

/-- The functions a formula may call, each with its number of arguments, and the node the
call builds. -/
inductive Applies : String → List Scalar → Scalar → Prop
  | exp (a : Scalar) : Applies "exp" [a] (Scalar.mkCall .exp a)
  | log (a : Scalar) : Applies "log" [a] (Scalar.mkCall .log a)
  | sqrt (a : Scalar) : Applies "sqrt" [a] (Scalar.mkCall .sqrt a)
  | pow (a b : Scalar) : Applies "pow" [a, b] (Scalar.mkPow a b)
  | min (a b : Scalar) : Applies "min" [a, b] (Scalar.mkMin a b)

mutual

/-- The rule `expr = term (('+' | '-') term)*`. -/
inductive IsExpr : List Token → Scalar → List Token → Prop
  | mk {ts lhs r e rest} : IsTerm ts lhs r → IsExprTail lhs r e rest → IsExpr ts e rest

/-- The `(('+' | '-') term)*` after the operand `lhs`. -/
inductive IsExprTail : Scalar → List Token → Scalar → List Token → Prop
  | stop {lhs ts} : IsExprTail lhs ts lhs ts
  | add {lhs ts rhs r e rest} : IsTerm ts rhs r → IsExprTail (Scalar.mkAdd lhs rhs) r e rest →
      IsExprTail lhs (.plus :: ts) e rest
  | sub {lhs ts rhs r e rest} : IsTerm ts rhs r → IsExprTail (Scalar.mkSub lhs rhs) r e rest →
      IsExprTail lhs (.minus :: ts) e rest

/-- The rule `term = unary (('*' | '/') unary)*`. -/
inductive IsTerm : List Token → Scalar → List Token → Prop
  | mk {ts lhs r e rest} : IsUnary ts lhs r → IsTermTail lhs r e rest → IsTerm ts e rest

/-- The `(('*' | '/') unary)*` after the operand `lhs`. -/
inductive IsTermTail : Scalar → List Token → Scalar → List Token → Prop
  | stop {lhs ts} : IsTermTail lhs ts lhs ts
  | mul {lhs ts rhs r e rest} : IsUnary ts rhs r → IsTermTail (Scalar.mkMul lhs rhs) r e rest →
      IsTermTail lhs (.star :: ts) e rest
  | div {lhs ts rhs r e rest} : IsUnary ts rhs r → IsTermTail (Scalar.mkDiv lhs rhs) r e rest →
      IsTermTail lhs (.slash :: ts) e rest

/-- The rule `unary = '-' unary | power`. -/
inductive IsUnary : List Token → Scalar → List Token → Prop
  | neg {ts a rest} : IsUnary ts a rest → IsUnary (.minus :: ts) (Scalar.mkNeg a) rest
  | power {ts a rest} : IsPower ts a rest → IsUnary ts a rest

/-- The rule `power = primary ('^' unary)?`. -/
inductive IsPower : List Token → Scalar → List Token → Prop
  | base {ts a rest} : IsPrimary ts a rest → IsPower ts a rest
  | pow {ts a r b rest} : IsPrimary ts a (.caret :: r) → IsUnary r b rest →
      IsPower ts (Scalar.mkPow a b) rest

/-- The rule `primary = number | name | name '(' expr (',' expr)* ')' | '(' expr ')'`, a call
naming a known function with as many arguments as it takes. -/
inductive IsPrimary : List Token → Scalar → List Token → Prop
  | number {v rest} : IsPrimary (.number v :: rest) (.const v) rest
  | name {n rest} : IsPrimary (.ident n :: rest) (Scalar.member n) rest
  | call {n ts a r args e rest} : IsExpr ts a r → IsArgumentsTail r args rest →
      Applies n (a :: args) e → IsPrimary (.ident n :: .lparen :: ts) e rest
  | paren {ts e rest} : IsExpr ts e (.rparen :: rest) → IsPrimary (.lparen :: ts) e rest

/-- The `(',' expr)* ')'` after the first argument of a call. -/
inductive IsArgumentsTail : List Token → List Scalar → List Token → Prop
  | close {rest} : IsArgumentsTail (.rparen :: rest) [] rest
  | next {ts a r args rest} : IsExpr ts a r → IsArgumentsTail r args rest →
      IsArgumentsTail (.comma :: ts) (a :: args) rest

end

/-- How tightly a token binds the operand before it: closing tokens not at all, then the
additive, multiplicative and power operators; a token that starts an operand never
follows one. -/
def Token.binding : Token → Nat
  | .rparen | .comma => 0
  | .plus | .minus => 1
  | .star | .slash => 2
  | .caret => 3
  | .number _ | .ident _ | .lparen => 4

/-- The front of `ts` binds looser than `k`: a phrase of level `k` read up to here cannot
go on. The levels are 1 for `expr`, 2 for `term`, 3 for `unary` and `power`, 4 for
`primary`. -/
def Ends (k : Nat) : List Token → Prop
  | t :: _ => t.binding < k
  | [] => True

end Rules

section Follow

/-! What may follow each phrase: the looser levels' operators, or what ends an `expr`. -/

theorem Ends.mono {k k' : Nat} {ts : List Token} (h : Ends k ts) (hk : k ≤ k') : Ends k' ts := by
  cases ts with
  | nil => trivial
  | cons t _ => exact Nat.lt_of_lt_of_le h hk

theorem IsExprTail.ends {lhs e : Scalar} {ts rest : List Token} (h : IsExprTail lhs ts e rest)
    (hend : Ends 1 rest) : Ends 2 ts := by
  cases h with
  | stop => exact hend.mono (by omega)
  | add => exact (by decide : 1 < 2)
  | sub => exact (by decide : 1 < 2)

theorem IsTermTail.ends {lhs e : Scalar} {ts rest : List Token} (h : IsTermTail lhs ts e rest)
    (hend : Ends 2 rest) : Ends 3 ts := by
  cases h with
  | stop => exact hend.mono (by omega)
  | mul => exact (by decide : 2 < 3)
  | div => exact (by decide : 2 < 3)

theorem IsArgumentsTail.ends {ts rest : List Token} {args : List Scalar}
    (h : IsArgumentsTail ts args rest) : Ends 1 ts := by
  cases h with
  | close => exact (by decide : 0 < 1)
  | next => exact (by decide : 0 < 1)

theorem IsPrimary.exists_cons {ts rest : List Token} {a : Scalar} (h : IsPrimary ts a rest) :
    ∃ t ts', ts = t :: ts' ∧ t.binding = 4 := by
  cases h with
  | number => exact ⟨_, _, rfl, rfl⟩
  | name => exact ⟨_, _, rfl, rfl⟩
  | call => exact ⟨_, _, rfl, rfl⟩
  | paren => exact ⟨_, _, rfl, rfl⟩

theorem IsPower.exists_cons {ts rest : List Token} {a : Scalar} (h : IsPower ts a rest) :
    ∃ t ts', ts = t :: ts' ∧ t.binding = 4 := by
  cases h with
  | base hp => exact hp.exists_cons
  | pow hp => exact hp.exists_cons

end Follow

section Functions

theorem applyFunction_eq_ok {name : String} {at_ : Nat} {args : List Scalar} {e : Scalar} :
    applyFunction name at_ args = .ok e ↔ Applies name args e := by
  constructor
  · intro h
    unfold applyFunction at h
    dsimp only at h
    split at h
    all_goals (try split at h)
    all_goals first | (cases h; constructor) | cases h
  · rintro (_ | _ | _ | _ | _) <;> rfl

theorem applyFunction_eq_error {name : String} {at_ : Nat} {args : List Scalar}
    {err : ExprError} (h : applyFunction name at_ args = .error err) :
    ∃ m, err = .parse at_ m := by
  unfold applyFunction at h
  dsimp only at h
  split at h
  all_goals (try split at h)
  all_goals first | (cases h; exact ⟨_, rfl⟩) | cases h

end Functions

section Sound

/-! Every value the parser returns is derived by the grammar from the tokens it consumed.
The proofs recurse as the parser does, on the length of the input and, at equal length, on
the level of the grammar. -/

variable {len : Nat}

mutual

theorem expr_sound {ls : List Lexeme} {e : Scalar} {r : List Lexeme} {hr : r.length ≤ ls.length}
    (h : expr len ls = .ok (e, ⟨r, hr⟩)) :
    IsExpr (ls.map Lexeme.token) e (r.map Lexeme.token) := by
  rw [expr] at h
  obtain ⟨⟨lhs, r₁, hr₁⟩, h₁, h⟩ := except_bind_eq_ok.mp h
  obtain ⟨⟨e', r₂, hr₂⟩, h₂, h⟩ := except_bind_eq_ok.mp h
  cases h
  exact .mk (term_sound h₁) (exprTail_sound h₂)
termination_by (ls.length, 5)
decreasing_by all_goals (rw [Prod.lex_def]; omega)

theorem exprTail_sound {lhs : Scalar} {ls : List Lexeme} {e : Scalar}
    {r : List Lexeme} {hr : r.length ≤ ls.length} (h : exprTail len lhs ls = .ok (e, ⟨r, hr⟩)) :
    IsExprTail lhs (ls.map Lexeme.token) e (r.map Lexeme.token) := by
  rw [exprTail.eq_def] at h
  generalize hts : ls = ts at hr h
  split at h
  · next rest =>
    obtain ⟨⟨rhs, r₁, hr₁⟩, h₁, h⟩ := except_bind_eq_ok.mp h
    obtain ⟨⟨e', r₂, hr₂⟩, h₂, h⟩ := except_bind_eq_ok.mp h
    cases h
    exact .add (term_sound h₁) (exprTail_sound h₂)
  · next rest =>
    obtain ⟨⟨rhs, r₁, hr₁⟩, h₁, h⟩ := except_bind_eq_ok.mp h
    obtain ⟨⟨e', r₂, hr₂⟩, h₂, h⟩ := except_bind_eq_ok.mp h
    cases h
    exact .sub (term_sound h₁) (exprTail_sound h₂)
  · cases h
    exact .stop
termination_by (ls.length, 4)
decreasing_by all_goals (rw [Prod.lex_def]; subst_vars; simp only [List.length_cons]; omega)

theorem term_sound {ls : List Lexeme} {e : Scalar} {r : List Lexeme} {hr : r.length ≤ ls.length}
    (h : term len ls = .ok (e, ⟨r, hr⟩)) :
    IsTerm (ls.map Lexeme.token) e (r.map Lexeme.token) := by
  rw [term] at h
  obtain ⟨⟨lhs, r₁, hr₁⟩, h₁, h⟩ := except_bind_eq_ok.mp h
  obtain ⟨⟨e', r₂, hr₂⟩, h₂, h⟩ := except_bind_eq_ok.mp h
  cases h
  exact .mk (unary_sound h₁) (termTail_sound h₂)
termination_by (ls.length, 4)
decreasing_by all_goals (rw [Prod.lex_def]; omega)

theorem termTail_sound {lhs : Scalar} {ls : List Lexeme} {e : Scalar}
    {r : List Lexeme} {hr : r.length ≤ ls.length} (h : termTail len lhs ls = .ok (e, ⟨r, hr⟩)) :
    IsTermTail lhs (ls.map Lexeme.token) e (r.map Lexeme.token) := by
  rw [termTail.eq_def] at h
  generalize hts : ls = ts at hr h
  split at h
  · next rest =>
    obtain ⟨⟨rhs, r₁, hr₁⟩, h₁, h⟩ := except_bind_eq_ok.mp h
    obtain ⟨⟨e', r₂, hr₂⟩, h₂, h⟩ := except_bind_eq_ok.mp h
    cases h
    exact .mul (unary_sound h₁) (termTail_sound h₂)
  · next rest =>
    obtain ⟨⟨rhs, r₁, hr₁⟩, h₁, h⟩ := except_bind_eq_ok.mp h
    obtain ⟨⟨e', r₂, hr₂⟩, h₂, h⟩ := except_bind_eq_ok.mp h
    cases h
    exact .div (unary_sound h₁) (termTail_sound h₂)
  · cases h
    exact .stop
termination_by (ls.length, 3)
decreasing_by all_goals (rw [Prod.lex_def]; subst_vars; simp only [List.length_cons]; omega)

theorem unary_sound {ls : List Lexeme} {e : Scalar}
    {r : List Lexeme} {hr : r.length ≤ ls.length} (h : unary len ls = .ok (e, ⟨r, hr⟩)) :
    IsUnary (ls.map Lexeme.token) e (r.map Lexeme.token) := by
  rw [unary.eq_def] at h
  generalize hts : ls = ts at hr h
  split at h
  · next rest =>
    obtain ⟨⟨a, r₁, hr₁⟩, h₁, h⟩ := except_bind_eq_ok.mp h
    cases h
    exact .neg (unary_sound h₁)
  · exact .power (power_sound h)
termination_by (ls.length, 3)
decreasing_by all_goals (rw [Prod.lex_def]; subst_vars; simp only [List.length_cons, true_and]; omega)

theorem power_sound {ls : List Lexeme} {e : Scalar}
    {r : List Lexeme} {hr : r.length ≤ ls.length} (h : power len ls = .ok (e, ⟨r, hr⟩)) :
    IsPower (ls.map Lexeme.token) e (r.map Lexeme.token) := by
  rw [power] at h
  obtain ⟨⟨base, r₁, hr₁⟩, h₁, h⟩ := except_bind_eq_ok.mp h
  dsimp only at h
  split at h
  · next rest hcaret =>
    have hlt : rest.length < ls.length := by simpa using hcaret
    obtain ⟨⟨b, r₂, hr₂⟩, h₂, h⟩ := except_bind_eq_ok.mp h
    cases h
    exact .pow (primary_sound h₁) (unary_sound h₂)
  · cases h
    exact .base (primary_sound h₁)
termination_by (ls.length, 2)
decreasing_by all_goals (rw [Prod.lex_def]; omega)

theorem primary_sound {ls : List Lexeme} {e : Scalar}
    {r : List Lexeme} {hr : r.length ≤ ls.length} (h : primary len ls = .ok (e, ⟨r, hr⟩)) :
    IsPrimary (ls.map Lexeme.token) e (r.map Lexeme.token) := by
  rw [primary.eq_def] at h
  generalize hts : ls = ts at hr h
  split at h
  · cases h
    exact .number
  · next name rest =>
    obtain ⟨⟨e', r₁, hr₁⟩, h₁, h⟩ := except_bind_eq_ok.mp h
    cases h
    obtain ⟨a, args, r₂, hexpr, hargs, happ⟩ := call_sound h₁
    exact .call hexpr hargs happ
  · cases h
    exact .name
  · next rest =>
    obtain ⟨⟨e', r₁, hr₁⟩, h₁, h⟩ := except_bind_eq_ok.mp h
    dsimp only at h
    split at h
    · cases h
      exact .paren (expr_sound h₁)
    · cases h
  · cases h
termination_by (ls.length, 1)
decreasing_by all_goals (rw [Prod.lex_def]; subst_vars; simp only [List.length_cons]; omega)

theorem call_sound {name : String} {ls : List Lexeme} {e : Scalar}
    {r : List Lexeme} {hr : r.length ≤ ls.length} (h : call len name ls = .ok (e, ⟨r, hr⟩)) :
    ∃ a args r₁, IsExpr (ls.map Lexeme.token) a r₁ ∧
      IsArgumentsTail r₁ args (r.map Lexeme.token) ∧ Applies name (a :: args) e := by
  rw [call] at h
  obtain ⟨⟨args, r₁, hr₁⟩, h₁, h⟩ := except_bind_eq_ok.mp h
  obtain ⟨e', h₂, h⟩ := except_bind_eq_ok.mp h
  cases h
  obtain ⟨a, more, r₂, rfl, hexpr, htail⟩ := arguments_sound h₁
  exact ⟨a, more, r₂, hexpr, htail, applyFunction_eq_ok.mp h₂⟩
termination_by (ls.length, 7)
decreasing_by all_goals (rw [Prod.lex_def]; omega)

theorem arguments_sound {ls : List Lexeme} {args : List Scalar}
    {r : List Lexeme} {hr : r.length ≤ ls.length} (h : arguments len ls = .ok (args, ⟨r, hr⟩)) :
    ∃ a more r₁, args = a :: more ∧ IsExpr (ls.map Lexeme.token) a r₁ ∧
      IsArgumentsTail r₁ more (r.map Lexeme.token) := by
  rw [arguments] at h
  obtain ⟨⟨a, r₁, hr₁⟩, h₁, h⟩ := except_bind_eq_ok.mp h
  obtain ⟨⟨args', r₂, hr₂⟩, h₂, h⟩ := except_bind_eq_ok.mp h
  cases h
  obtain ⟨more, rfl, htail⟩ := argumentsTail_sound h₂
  exact ⟨a, more, _, rfl, expr_sound h₁, htail⟩
termination_by (ls.length, 6)
decreasing_by all_goals (rw [Prod.lex_def]; omega)

theorem argumentsTail_sound {acc : List Scalar} {ls : List Lexeme} {args : List Scalar}
    {r : List Lexeme} {hr : r.length ≤ ls.length}
    (h : argumentsTail len acc ls = .ok (args, ⟨r, hr⟩)) :
    ∃ more, args = acc ++ more ∧ IsArgumentsTail (ls.map Lexeme.token) more
      (r.map Lexeme.token) := by
  rw [argumentsTail.eq_def] at h
  generalize hts : ls = ts at hr h
  split at h
  · next rest =>
    obtain ⟨⟨a, r₁, hr₁⟩, h₁, h⟩ := except_bind_eq_ok.mp h
    obtain ⟨⟨args', r₂, hr₂⟩, h₂, h⟩ := except_bind_eq_ok.mp h
    cases h
    obtain ⟨more, rfl, htail⟩ := argumentsTail_sound h₂
    exact ⟨a :: more, by simp, .next (expr_sound h₁) htail⟩
  · cases h
    exact ⟨[], by simp, .close⟩
  · cases h
termination_by (ls.length, 5)
decreasing_by all_goals (rw [Prod.lex_def]; subst_vars; simp only [List.length_cons]; omega)

end

end Sound

section Complete

/-! Every derivation is read by the parser, when what follows it cannot continue it. The
proofs recurse on the derivation; the one-step equations below say what the parser does on
a list whose front is known. -/

variable {len : Nat}

theorem map_token_eq_cons {ls : List Lexeme} {t : Token} {ts : List Token}
    (h : ls.map Lexeme.token = t :: ts) :
    ∃ o ls', ls = ⟨o, t⟩ :: ls' ∧ ls'.map Lexeme.token = ts := by
  obtain ⟨⟨o, t'⟩, ls', rfl, rfl, hmap⟩ := List.map_eq_cons_iff.mp h
  exact ⟨o, ls', rfl, hmap⟩

theorem Ends.ne_cons {k : Nat} {ls : List Lexeme} {t : Token} (h : Ends k (ls.map Lexeme.token))
    (ht : k ≤ t.binding) (o : Nat) (rest : List Lexeme) : ls ≠ ⟨o, t⟩ :: rest := by
  rintro rfl
  exact absurd h (by simp only [List.map_cons, Ends]; omega)

theorem exprTail_of_ends {lhs : Scalar} {ls : List Lexeme} (h : Ends 1 (ls.map Lexeme.token)) :
    exprTail len lhs ls = .ok (lhs, ⟨ls, le_refl _⟩) := by
  rw [exprTail.eq_3 _ _ _ (fun o rest => h.ne_cons (by decide) o rest)
    (fun o rest => h.ne_cons (by decide) o rest)]
  rfl

theorem termTail_of_ends {lhs : Scalar} {ls : List Lexeme} (h : Ends 2 (ls.map Lexeme.token)) :
    termTail len lhs ls = .ok (lhs, ⟨ls, le_refl _⟩) := by
  rw [termTail.eq_3 _ _ _ (fun o rest => h.ne_cons (by decide) o rest)
    (fun o rest => h.ne_cons (by decide) o rest)]
  rfl

theorem power_of_ends {ls r : List Lexeme} {hr : r.length ≤ ls.length} {a : Scalar}
    (hp : primary len ls = .ok (a, ⟨r, hr⟩)) (h : Ends 3 (r.map Lexeme.token)) :
    power len ls = .ok (a, ⟨r, hr⟩) := by
  rw [power, hp, except_ok_bind]
  dsimp only
  split
  · simp [Ends, Token.binding] at h
  · rfl

theorem unary_of_binding {ls : List Lexeme} {o : Nat} {t : Token} {rest : List Lexeme}
    (hls : ls = ⟨o, t⟩ :: rest) (ht : t.binding = 4) : unary len ls = power len ls := by
  subst hls
  rw [unary.eq_2]
  rintro o' rest' h
  obtain ⟨⟨-, rfl⟩, -⟩ : (o = o' ∧ t = .minus) ∧ rest = rest' := by simpa using h
  exact absurd ht (by decide)

mutual

theorem expr_complete {ts rest : List Token} {e : Scalar} (h : IsExpr ts e rest)
    (hend : Ends 1 rest) {ls : List Lexeme} (hls : ls.map Lexeme.token = ts) :
    ∃ r hr, expr len ls = .ok (e, ⟨r, hr⟩) ∧ r.map Lexeme.token = rest := by
  match h with
  | .mk ht htail =>
    obtain ⟨r₁, hr₁, h₁, hls₁⟩ := term_complete ht (htail.ends hend) hls
    obtain ⟨r₂, hr₂, h₂, hls₂⟩ := exprTail_complete htail hend hls₁
    refine ⟨r₂, le_trans hr₂ hr₁, ?_, hls₂⟩
    rw [expr, h₁, except_ok_bind]
    simp only [h₂, except_ok_bind]
    rfl

theorem exprTail_complete {lhs : Scalar} {ts rest : List Token} {e : Scalar}
    (h : IsExprTail lhs ts e rest) (hend : Ends 1 rest) {ls : List Lexeme}
    (hls : ls.map Lexeme.token = ts) :
    ∃ r hr, exprTail len lhs ls = .ok (e, ⟨r, hr⟩) ∧ r.map Lexeme.token = rest := by
  match h with
  | .stop => exact ⟨ls, le_refl _, exprTail_of_ends (hls ▸ hend), hls⟩
  | .add ht htail =>
    obtain ⟨o, ls', rfl, hls'⟩ := map_token_eq_cons hls
    obtain ⟨r₁, hr₁, h₁, hls₁⟩ := term_complete ht (htail.ends hend) hls'
    obtain ⟨r₂, hr₂, h₂, hls₂⟩ := exprTail_complete htail hend hls₁
    refine ⟨r₂, by simp only [List.length_cons]; omega, ?_, hls₂⟩
    rw [exprTail.eq_1, h₁, except_ok_bind]
    simp only [h₂, except_ok_bind]
    rfl
  | .sub ht htail =>
    obtain ⟨o, ls', rfl, hls'⟩ := map_token_eq_cons hls
    obtain ⟨r₁, hr₁, h₁, hls₁⟩ := term_complete ht (htail.ends hend) hls'
    obtain ⟨r₂, hr₂, h₂, hls₂⟩ := exprTail_complete htail hend hls₁
    refine ⟨r₂, by simp only [List.length_cons]; omega, ?_, hls₂⟩
    rw [exprTail.eq_2, h₁, except_ok_bind]
    simp only [h₂, except_ok_bind]
    rfl

theorem term_complete {ts rest : List Token} {e : Scalar} (h : IsTerm ts e rest)
    (hend : Ends 2 rest) {ls : List Lexeme} (hls : ls.map Lexeme.token = ts) :
    ∃ r hr, term len ls = .ok (e, ⟨r, hr⟩) ∧ r.map Lexeme.token = rest := by
  match h with
  | .mk hu htail =>
    obtain ⟨r₁, hr₁, h₁, hls₁⟩ := unary_complete hu (htail.ends hend) hls
    obtain ⟨r₂, hr₂, h₂, hls₂⟩ := termTail_complete htail hend hls₁
    refine ⟨r₂, le_trans hr₂ hr₁, ?_, hls₂⟩
    rw [term, h₁, except_ok_bind]
    simp only [h₂, except_ok_bind]
    rfl

theorem termTail_complete {lhs : Scalar} {ts rest : List Token} {e : Scalar}
    (h : IsTermTail lhs ts e rest) (hend : Ends 2 rest) {ls : List Lexeme}
    (hls : ls.map Lexeme.token = ts) :
    ∃ r hr, termTail len lhs ls = .ok (e, ⟨r, hr⟩) ∧ r.map Lexeme.token = rest := by
  match h with
  | .stop => exact ⟨ls, le_refl _, termTail_of_ends (hls ▸ hend), hls⟩
  | .mul hu htail =>
    obtain ⟨o, ls', rfl, hls'⟩ := map_token_eq_cons hls
    obtain ⟨r₁, hr₁, h₁, hls₁⟩ := unary_complete hu (htail.ends hend) hls'
    obtain ⟨r₂, hr₂, h₂, hls₂⟩ := termTail_complete htail hend hls₁
    refine ⟨r₂, by simp only [List.length_cons]; omega, ?_, hls₂⟩
    rw [termTail.eq_1, h₁, except_ok_bind]
    simp only [h₂, except_ok_bind]
    rfl
  | .div hu htail =>
    obtain ⟨o, ls', rfl, hls'⟩ := map_token_eq_cons hls
    obtain ⟨r₁, hr₁, h₁, hls₁⟩ := unary_complete hu (htail.ends hend) hls'
    obtain ⟨r₂, hr₂, h₂, hls₂⟩ := termTail_complete htail hend hls₁
    refine ⟨r₂, by simp only [List.length_cons]; omega, ?_, hls₂⟩
    rw [termTail.eq_2, h₁, except_ok_bind]
    simp only [h₂, except_ok_bind]
    rfl

theorem unary_complete {ts rest : List Token} {a : Scalar} (h : IsUnary ts a rest)
    (hend : Ends 3 rest) {ls : List Lexeme} (hls : ls.map Lexeme.token = ts) :
    ∃ r hr, unary len ls = .ok (a, ⟨r, hr⟩) ∧ r.map Lexeme.token = rest := by
  match h with
  | .neg hu =>
    obtain ⟨o, ls', rfl, hls'⟩ := map_token_eq_cons hls
    obtain ⟨r₁, hr₁, h₁, hls₁⟩ := unary_complete hu hend hls'
    refine ⟨r₁, by simp only [List.length_cons]; omega, ?_, hls₁⟩
    rw [unary.eq_1, h₁, except_ok_bind]
    rfl
  | .power hp =>
    obtain ⟨r, hr, h₁, hls₁⟩ := power_complete hp hend hls
    -- a power starts an operand, so `unary` does not take it for a minus sign
    obtain ⟨t, ts', hts, ht⟩ := hp.exists_cons
    obtain ⟨o, ls', hls', -⟩ := map_token_eq_cons (hls.trans hts)
    exact ⟨r, hr, (unary_of_binding hls' ht).trans h₁, hls₁⟩

theorem power_complete {ts rest : List Token} {a : Scalar} (h : IsPower ts a rest)
    (hend : Ends 3 rest) {ls : List Lexeme} (hls : ls.map Lexeme.token = ts) :
    ∃ r hr, power len ls = .ok (a, ⟨r, hr⟩) ∧ r.map Lexeme.token = rest := by
  match h with
  | .base hp =>
    obtain ⟨r, hr, h₁, hls₁⟩ := primary_complete hp (hend.mono (by omega)) hls
    exact ⟨r, hr, power_of_ends h₁ (hls₁ ▸ hend), hls₁⟩
  | .pow hp hu =>
    obtain ⟨r₁, hr₁, h₁, hls₁⟩ := primary_complete hp (by decide : (3 : Nat) < 4) hls
    obtain ⟨o, r₁', rfl, hls₁'⟩ := map_token_eq_cons hls₁
    obtain ⟨r₂, hr₂, h₂, hls₂⟩ := unary_complete hu hend hls₁'
    refine ⟨r₂, by simp only [List.length_cons] at hr₁; omega, ?_, hls₂⟩
    rw [power, h₁, except_ok_bind]
    simp only [h₂, except_ok_bind]
    rfl

theorem primary_complete {ts rest : List Token} {a : Scalar} (h : IsPrimary ts a rest)
    (hend : Ends 4 rest) {ls : List Lexeme} (hls : ls.map Lexeme.token = ts) :
    ∃ r hr, primary len ls = .ok (a, ⟨r, hr⟩) ∧ r.map Lexeme.token = rest := by
  match h with
  | .number =>
    obtain ⟨o, ls', rfl, hls'⟩ := map_token_eq_cons hls
    exact ⟨ls', by simp, by rw [primary.eq_1]; rfl, hls'⟩
  | .name =>
    obtain ⟨o, ls', rfl, hls'⟩ := map_token_eq_cons hls
    -- a bare name is not followed by a parenthesis, so it is no call
    have hnot := (hls' ▸ hend : Ends 4 (ls'.map Lexeme.token)).ne_cons (t := .lparen) (le_refl _)
    exact ⟨ls', by simp, by rw [primary.eq_3 _ _ _ _ fun o rest h => hnot o rest h]; rfl, hls'⟩
  | @IsPrimary.call _ _ first _ _ _ _ hexpr hargs happ =>
    obtain ⟨o, ls', rfl, hls'⟩ := map_token_eq_cons hls
    obtain ⟨o', ls'', rfl, hls''⟩ := map_token_eq_cons hls'
    obtain ⟨r₁, hr₁, h₁, hls₁⟩ := expr_complete hexpr hargs.ends hls''
    obtain ⟨r₂, hr₂, h₂, hls₂⟩ := argumentsTail_complete hargs [first] hls₁
    have hf : applyFunction _ (offsetOf len ls'') _ = .ok _ := applyFunction_eq_ok.mpr happ
    refine ⟨r₂, by simp only [List.length_cons]; omega, ?_, hls₂⟩
    rw [primary.eq_2, call, arguments, h₁, except_ok_bind]
    simp only [h₂, except_ok_bind, except_pure, List.singleton_append, hf]
  | .paren hexpr =>
    obtain ⟨o, ls', rfl, hls'⟩ := map_token_eq_cons hls
    obtain ⟨r₁, hr₁, h₁, hls₁⟩ := expr_complete hexpr (by decide : (0 : Nat) < 1) hls'
    obtain ⟨o', r₁', rfl, hls₁'⟩ := map_token_eq_cons hls₁
    refine ⟨r₁', by simp only [List.length_cons] at hr₁ ⊢; omega, ?_, hls₁'⟩
    rw [primary.eq_4, h₁, except_ok_bind]
    rfl

theorem argumentsTail_complete {ts rest : List Token} {args : List Scalar}
    (h : IsArgumentsTail ts args rest) (acc : List Scalar) {ls : List Lexeme}
    (hls : ls.map Lexeme.token = ts) :
    ∃ r hr, argumentsTail len acc ls = .ok (acc ++ args, ⟨r, hr⟩) ∧
      r.map Lexeme.token = rest := by
  match h with
  | .close =>
    obtain ⟨o, ls', rfl, hls'⟩ := map_token_eq_cons hls
    exact ⟨ls', by simp, by rw [argumentsTail.eq_2, List.append_nil]; rfl, hls'⟩
  | @IsArgumentsTail.next _ a _ _ _ hexpr htail =>
    obtain ⟨o, ls', rfl, hls'⟩ := map_token_eq_cons hls
    obtain ⟨r₁, hr₁, h₁, hls₁⟩ := expr_complete hexpr htail.ends hls'
    obtain ⟨r₂, hr₂, h₂, hls₂⟩ := argumentsTail_complete htail (acc ++ [a]) hls₁
    refine ⟨r₂, by simp only [List.length_cons]; omega, ?_, hls₂⟩
    rw [argumentsTail.eq_1, h₁, except_ok_bind]
    simp only [h₂, except_ok_bind, List.append_assoc, List.singleton_append]
    rfl

end

/-- The grammar is unambiguous: a list of tokens derives at most one value. -/
theorem IsExpr.unique {ts : List Token} {e e' : Scalar} (h : IsExpr ts e []) (h' : IsExpr ts e' []) :
    e = e' := by
  have hls : (ts.map (Lexeme.mk 0)).map Lexeme.token = ts := by simp [Function.comp_def]
  obtain ⟨r, hr, h₁, -⟩ := @expr_complete 0 _ _ _ h trivial _ hls
  obtain ⟨r', hr', h₂, -⟩ := @expr_complete 0 _ _ _ h' trivial _ hls
  rw [h₁] at h₂
  cases h₂
  rfl

end Complete

section Offsets

/-! Every offset the parser reports lies within the formula: the offsets of the tokens it
leaves unread and the offset of its parse error. -/

variable {len : Nat}

/-- Every offset of `ls` lies within a source of `len` bytes. -/
def Within (len : Nat) (ls : List Lexeme) : Prop := ∀ l ∈ ls, l.offset ≤ len

theorem Within.tail {len : Nat} {l : Lexeme} {ls : List Lexeme} (h : Within len (l :: ls)) :
    Within len ls :=
  fun l' hl' => h l' (List.mem_cons_of_mem _ hl')

theorem offsetOf_le {ls : List Lexeme} (h : Within len ls) : offsetOf len ls ≤ len := by
  cases ls with
  | nil => exact le_refl _
  | cons l _ => exact h l List.mem_cons_self

/-- A result whose error, if any, is a parse error at an offset within a source of `len`
bytes, and whose value satisfies `P`. -/
def Reports (len : Nat) {β : Type} (P : β → Prop) : Except ExprError β → Prop
  | .ok b => P b
  | .error err => ∃ p m, err = .parse p m ∧ p ≤ len

theorem Reports.bind {β γ : Type} {P : β → Prop} {Q : γ → Prop} {x : Except ExprError β}
    {f : β → Except ExprError γ} (hx : Reports len P x) (hf : ∀ b, P b → Reports len Q (f b)) :
    Reports len Q (x >>= f) := by
  cases x with
  | ok b => exact hf b hx
  | error e => exact hx

theorem Reports.throw {β : Type} {P : β → Prop} {p : Nat} {m : ParseIssue} (h : p ≤ len) :
    Reports len P (throw (.parse p m)) :=
  ⟨p, m, rfl, h⟩

theorem applyFunction_reports {name : String} {at_ : Nat} {args : List Scalar} (h : at_ ≤ len) :
    Reports len (fun _ => True) (applyFunction name at_ args) := by
  cases hf : applyFunction name at_ args with
  | ok e => trivial
  | error err =>
    obtain ⟨m, rfl⟩ := applyFunction_eq_error hf
    exact ⟨at_, m, rfl, h⟩

mutual

theorem expr_reports {ls : List Lexeme} (hw : Within len ls) :
    Reports len (fun x => Within len x.2.1) (expr len ls) := by
  rw [expr]
  refine (term_reports hw).bind fun ⟨lhs, r, hr⟩ hr' => ?_
  exact (exprTail_reports hr').bind fun _ h => h
termination_by (ls.length, 5)
decreasing_by all_goals (rw [Prod.lex_def]; omega)

theorem exprTail_reports {lhs : Scalar} {ls : List Lexeme} (hw : Within len ls) :
    Reports len (fun x => Within len x.2.1) (exprTail len lhs ls) := by
  rw [exprTail.eq_def]
  generalize hts : ls = ts at hw ⊢
  split
  · refine (term_reports hw.tail).bind fun ⟨rhs, r, hr⟩ hr' => ?_
    exact (exprTail_reports hr').bind fun _ h => h
  · refine (term_reports hw.tail).bind fun ⟨rhs, r, hr⟩ hr' => ?_
    exact (exprTail_reports hr').bind fun _ h => h
  · exact hw
termination_by (ls.length, 4)
decreasing_by all_goals (rw [Prod.lex_def]; subst_vars; simp only [List.length_cons]; omega)

theorem term_reports {ls : List Lexeme} (hw : Within len ls) :
    Reports len (fun x => Within len x.2.1) (term len ls) := by
  rw [term]
  refine (unary_reports hw).bind fun ⟨lhs, r, hr⟩ hr' => ?_
  exact (termTail_reports hr').bind fun _ h => h
termination_by (ls.length, 4)
decreasing_by all_goals (rw [Prod.lex_def]; omega)

theorem termTail_reports {lhs : Scalar} {ls : List Lexeme} (hw : Within len ls) :
    Reports len (fun x => Within len x.2.1) (termTail len lhs ls) := by
  rw [termTail.eq_def]
  generalize hts : ls = ts at hw ⊢
  split
  · refine (unary_reports hw.tail).bind fun ⟨rhs, r, hr⟩ hr' => ?_
    exact (termTail_reports hr').bind fun _ h => h
  · refine (unary_reports hw.tail).bind fun ⟨rhs, r, hr⟩ hr' => ?_
    exact (termTail_reports hr').bind fun _ h => h
  · exact hw
termination_by (ls.length, 3)
decreasing_by all_goals (rw [Prod.lex_def]; subst_vars; simp only [List.length_cons]; omega)

theorem unary_reports {ls : List Lexeme} (hw : Within len ls) :
    Reports len (fun x => Within len x.2.1) (unary len ls) := by
  rw [unary.eq_def]
  generalize hts : ls = ts at hw ⊢
  split
  · exact (unary_reports hw.tail).bind fun _ h => h
  · exact power_reports hw
termination_by (ls.length, 3)
decreasing_by all_goals (rw [Prod.lex_def]; subst_vars; simp only [List.length_cons, true_and]; omega)

theorem power_reports {ls : List Lexeme} (hw : Within len ls) :
    Reports len (fun x => Within len x.2.1) (power len ls) := by
  rw [power]
  refine (primary_reports hw).bind fun ⟨base, r, hr⟩ hr' => ?_
  dsimp only
  split
  · next rest hcaret =>
    have hlt : rest.length < ls.length := by simpa using hcaret
    exact (unary_reports hr'.tail).bind fun _ h => h
  · exact hr'
termination_by (ls.length, 2)
decreasing_by all_goals (rw [Prod.lex_def]; omega)

theorem primary_reports {ls : List Lexeme} (hw : Within len ls) :
    Reports len (fun x => Within len x.2.1) (primary len ls) := by
  rw [primary.eq_def]
  generalize hts : ls = ts at hw ⊢
  split
  · exact hw.tail
  · exact (call_reports hw.tail.tail).bind fun _ h => h
  · exact hw.tail
  · refine (expr_reports hw.tail).bind fun ⟨e, r, hr⟩ hr' => ?_
    dsimp only
    split
    · exact hr'.tail
    · exact Reports.throw (offsetOf_le hr')
  · exact Reports.throw (offsetOf_le hw)
termination_by (ls.length, 1)
decreasing_by all_goals (rw [Prod.lex_def]; subst_vars; simp only [List.length_cons]; omega)

theorem call_reports {name : String} {ls : List Lexeme} (hw : Within len ls) :
    Reports len (fun x => Within len x.2.1) (call len name ls) := by
  rw [call]
  refine (arguments_reports hw).bind fun ⟨args, r, hr⟩ hr' => ?_
  exact (applyFunction_reports (offsetOf_le hw)).bind fun _ _ => hr'
termination_by (ls.length, 7)
decreasing_by all_goals (rw [Prod.lex_def]; omega)

theorem arguments_reports {ls : List Lexeme} (hw : Within len ls) :
    Reports len (fun x => Within len x.2.1) (arguments len ls) := by
  rw [arguments]
  refine (expr_reports hw).bind fun ⟨first, r, hr⟩ hr' => ?_
  exact (argumentsTail_reports hr').bind fun _ h => h
termination_by (ls.length, 6)
decreasing_by all_goals (rw [Prod.lex_def]; omega)

theorem argumentsTail_reports {acc : List Scalar} {ls : List Lexeme} (hw : Within len ls) :
    Reports len (fun x => Within len x.2.1) (argumentsTail len acc ls) := by
  rw [argumentsTail.eq_def]
  generalize hts : ls = ts at hw ⊢
  split
  · refine (expr_reports hw.tail).bind fun ⟨a, r, hr⟩ hr' => ?_
    exact (argumentsTail_reports hr').bind fun _ h => h
  · exact hw.tail
  · exact Reports.throw (offsetOf_le hw)
termination_by (ls.length, 5)
decreasing_by all_goals (rw [Prod.lex_def]; subst_vars; simp only [List.length_cons]; omega)

end

end Offsets

section Read

/-- Reading fails only with a parse error at an offset within the formula. -/
theorem read_error_within {src : String} {err : ExprError} (h : read src = .error err) :
    ∃ p m, err = .parse p m ∧ p ≤ src.utf8ByteSize := by
  unfold read at h
  rcases except_bind_eq_error.mp h with htok | ⟨ls, htok, h⟩
  · obtain ⟨p, m, rfl, -, hp⟩ := scan_error htok
    exact ⟨p, m, rfl, by rw [length_bytesAsChars] at hp; omega⟩
  -- the tokens lie within the formula, so the parser's offsets do too
  have hw : Within src.utf8ByteSize ls := fun l hl => by
    have := (scan_offsets htok l hl).2
    rw [length_bytesAsChars] at this
    omega
  have hrep := expr_reports hw
  dsimp only at h
  rcases except_bind_eq_error.mp h with hexpr | ⟨⟨e, r, hr⟩, hexpr, h⟩
  · rw [hexpr] at hrep
    exact hrep
  · rw [hexpr] at hrep
    dsimp only at h
    split at h
    · cases h
    · cases h
      exact ⟨_, _, rfl, hrep _ List.mem_cons_self⟩

/-- A formula reads as `e` exactly when its characters lex by the rules and their tokens
derive `e` by the grammar; otherwise reading fails with a parse error at an offset within
the formula. -/
theorem read_eq_ok_iff_lexes_isExpr (src : String) :
    (∀ e, read src = .ok e ↔ ∃ ts, Lexes (bytesAsChars src) ts ∧ IsExpr ts e []) ∧
      ∀ err, read src = .error err → ∃ p m, err = .parse p m ∧ p ≤ src.utf8ByteSize := by
  refine ⟨fun e => ⟨fun h => ?_, fun ⟨ts, hlex, hexpr⟩ => ?_⟩, fun _ => read_error_within⟩
  · unfold read at h
    obtain ⟨ls, htok, h⟩ := except_bind_eq_ok.mp h
    obtain ⟨⟨e', r, hr⟩, hexpr, h⟩ := except_bind_eq_ok.mp h
    dsimp only at h
    split at h
    · cases h
      exact ⟨_, scan_sound htok, expr_sound hexpr⟩
    · cases h
  · obtain ⟨ls, hscan, rfl⟩ := scan_complete hlex 0
    obtain ⟨r, hr, h₁, hnil⟩ := @expr_complete src.utf8ByteSize _ _ _ hexpr trivial _ rfl
    obtain rfl : r = [] := List.map_eq_nil_iff.mp hnil
    unfold read
    rw [tokenize, hscan, except_ok_bind]
    simp only [h₁, except_ok_bind]
    rfl

end Read

end Elasto.Formula
