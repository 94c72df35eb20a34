import Elasto.Formula.Token
import Elasto.Tensor.Build

/-! # Reading formulas

The grammar of scalar formulas, loosest first:

* `expr = term (('+' | '-') term)*`
* `term = unary (('*' | '/') unary)*`
* `unary = '-' unary | power`
* `power = primary ('^' unary)?`
* `primary = number | name | name '(' expr (',' expr)* ')' | '(' expr ')'`

A bare name is a member of the behaviour. The functions are `exp`, `log`, `sqrt` of one
argument and `pow`, `min` of two. Every node is made by the folding builders, so a formula
of constants reads as one constant. Each step returns the rest of the input, never longer
than what it was given, and the recursion descends on the length of the input and, at
equal length, on the level of the procedure (`Procedure.level`). -/

namespace Elasto.Formula

open Elasto.Tensor

/-- A value read from a prefix of the input, with the rest of it. -/
abbrev Step (α : Type) (ts : List Lexeme) :=
  Except ExprError (α × {r : List Lexeme // r.length ≤ ts.length})

/-- Offset of the next token, or the length of the source at the end. -/
def offsetOf (len : Nat) : List Lexeme → Nat
  | l :: _ => l.offset
  | [] => len

/-- The node of a known function applied to its arguments, or why there is none. -/
def applyFunction (name : String) (at_ : Nat) (args : List Scalar) : Except ExprError Scalar :=
  let unary (f : Fn) : Except ExprError Scalar :=
    match args with
    | [a] => .ok (Scalar.mkCall f a)
    | _ => .error (.parse at_ (.arity name 1))
  let binary (f : Scalar → Scalar → Scalar) : Except ExprError Scalar :=
    match args with
    | [a, b] => .ok (f a b)
    | _ => .error (.parse at_ (.arity name 2))
  match name with
  | "exp" => unary .exp
  | "log" => unary .log
  | "sqrt" => unary .sqrt
  | "pow" => binary Scalar.mkPow
  | "min" => binary Scalar.mkMin
  | _ => .error (.parse at_ (.unknownFunction name))

/-- The procedures of the parser: one per rule of the grammar, and the loops of `expr`,
`term` and of the argument list. -/
inductive Procedure where
  | expr | exprTail | term | termTail | unary | power | primary | call | arguments
  | argumentsTail

/-- The level of a procedure. A procedure calls another on the same tokens, or on the tokens
a first callee left, only one of a lower level; every other call consumes a token. The
procedures terminate by (tokens left, level). -/
def Procedure.level : Procedure → Nat
  | primary => 0
  | power => 1
  | unary | termTail => 2
  | term | exprTail => 3
  | expr | argumentsTail => 4
  | arguments => 5
  | call => 6

mutual

def expr (len : Nat) (ts : List Lexeme) : Step Scalar ts := do
  let (lhs, ⟨r, hr⟩) ← term len ts
  let (e, ⟨r', hr'⟩) ← exprTail len lhs r
  pure (e, ⟨r', Nat.le_trans hr' hr⟩)
termination_by (ts.length, Procedure.level .expr)
decreasing_by all_goals (rw [Prod.lex_def]; dsimp only [List.length_cons, Procedure.level] at *; omega)

def exprTail (len : Nat) (lhs : Scalar) (ts : List Lexeme) : Step Scalar ts :=
  match ts with
  | ⟨_, .plus⟩ :: rest => do
    let (rhs, ⟨r, hr⟩) ← term len rest
    let (e, ⟨r', hr'⟩) ← exprTail len (Scalar.mkAdd lhs rhs) r
    pure (e, ⟨r', by simp only [List.length_cons]; omega⟩)
  | ⟨_, .minus⟩ :: rest => do
    let (rhs, ⟨r, hr⟩) ← term len rest
    let (e, ⟨r', hr'⟩) ← exprTail len (Scalar.mkSub lhs rhs) r
    pure (e, ⟨r', by simp only [List.length_cons]; omega⟩)
  | other => pure (lhs, ⟨other, Nat.le_refl _⟩)
termination_by (ts.length, Procedure.level .exprTail)
decreasing_by all_goals (rw [Prod.lex_def]; dsimp only [List.length_cons, Procedure.level] at *; omega)

def term (len : Nat) (ts : List Lexeme) : Step Scalar ts := do
  let (lhs, ⟨r, hr⟩) ← unary len ts
  let (e, ⟨r', hr'⟩) ← termTail len lhs r
  pure (e, ⟨r', Nat.le_trans hr' hr⟩)
termination_by (ts.length, Procedure.level .term)
decreasing_by all_goals (rw [Prod.lex_def]; dsimp only [List.length_cons, Procedure.level] at *; omega)

def termTail (len : Nat) (lhs : Scalar) (ts : List Lexeme) : Step Scalar ts :=
  match ts with
  | ⟨_, .star⟩ :: rest => do
    let (rhs, ⟨r, hr⟩) ← unary len rest
    let (e, ⟨r', hr'⟩) ← termTail len (Scalar.mkMul lhs rhs) r
    pure (e, ⟨r', by simp only [List.length_cons]; omega⟩)
  | ⟨_, .slash⟩ :: rest => do
    let (rhs, ⟨r, hr⟩) ← unary len rest
    let (e, ⟨r', hr'⟩) ← termTail len (Scalar.mkDiv lhs rhs) r
    pure (e, ⟨r', by simp only [List.length_cons]; omega⟩)
  | other => pure (lhs, ⟨other, Nat.le_refl _⟩)
termination_by (ts.length, Procedure.level .termTail)
decreasing_by all_goals (rw [Prod.lex_def]; dsimp only [List.length_cons, Procedure.level] at *; omega)

def unary (len : Nat) (ts : List Lexeme) : Step Scalar ts :=
  match ts with
  | ⟨_, .minus⟩ :: rest => do
    let (a, ⟨r, hr⟩) ← unary len rest
    pure (Scalar.mkNeg a, ⟨r, by simp only [List.length_cons]; omega⟩)
  | other => power len other
termination_by (ts.length, Procedure.level .unary)
decreasing_by all_goals (rw [Prod.lex_def]; dsimp only [List.length_cons, Procedure.level] at *; omega)

def power (len : Nat) (ts : List Lexeme) : Step Scalar ts := do
  let (base, ⟨r, hr⟩) ← primary len ts
  match r, hr with
  | ⟨_, .caret⟩ :: rest, hr =>
    let (ex, ⟨r', hr'⟩) ← unary len rest
    pure (Scalar.mkPow base ex, ⟨r', by simp only [List.length_cons] at hr; omega⟩)
  | other, hr => pure (base, ⟨other, hr⟩)
termination_by (ts.length, Procedure.level .power)
decreasing_by all_goals (rw [Prod.lex_def]; dsimp only [List.length_cons, Procedure.level] at *; omega)

def primary (len : Nat) (ts : List Lexeme) : Step Scalar ts :=
  match ts with
  | ⟨_, .number v⟩ :: rest => pure (.const v, ⟨rest, by simp only [List.length_cons]; omega⟩)
  | ⟨_, .ident name⟩ :: ⟨_, .lparen⟩ :: rest => do
    let (e, ⟨r, hr⟩) ← call len name rest
    pure (e, ⟨r, by simp only [List.length_cons]; omega⟩)
  | ⟨_, .ident name⟩ :: rest =>
    pure (Scalar.member name, ⟨rest, by simp only [List.length_cons]; omega⟩)
  | ⟨_, .lparen⟩ :: rest => do
    let (e, ⟨r, hr⟩) ← expr len rest
    match r, hr with
    | ⟨_, .rparen⟩ :: r', hr => pure (e, ⟨r', by simp only [List.length_cons] at hr ⊢; omega⟩)
    | other, _ => throw (.parse (offsetOf len other) .expectedClose)
  | other => throw (.parse (offsetOf len other) .expectedOperand)
termination_by (ts.length, Procedure.level .primary)
decreasing_by all_goals (rw [Prod.lex_def]; dsimp only [List.length_cons, Procedure.level] at *; omega)

/-- The arguments of a call after its `(`, then the function applied to them. -/
def call (len : Nat) (name : String) (ts : List Lexeme) : Step Scalar ts := do
  let (args, ⟨r, hr⟩) ← arguments len ts
  let e ← applyFunction name (offsetOf len ts) args
  pure (e, ⟨r, hr⟩)
termination_by (ts.length, Procedure.level .call)
decreasing_by all_goals (rw [Prod.lex_def]; dsimp only [List.length_cons, Procedure.level] at *; omega)

def arguments (len : Nat) (ts : List Lexeme) : Step (List Scalar) ts := do
  let (first, ⟨r, hr⟩) ← expr len ts
  let (args, ⟨r', hr'⟩) ← argumentsTail len [first] r
  pure (args, ⟨r', Nat.le_trans hr' hr⟩)
termination_by (ts.length, Procedure.level .arguments)
decreasing_by all_goals (rw [Prod.lex_def]; dsimp only [List.length_cons, Procedure.level] at *; omega)

def argumentsTail (len : Nat) (acc : List Scalar) (ts : List Lexeme) : Step (List Scalar) ts :=
  match ts with
  | ⟨_, .comma⟩ :: rest => do
    let (a, ⟨r, hr⟩) ← expr len rest
    let (args, ⟨r', hr'⟩) ← argumentsTail len (acc ++ [a]) r
    pure (args, ⟨r', by simp only [List.length_cons]; omega⟩)
  | ⟨_, .rparen⟩ :: rest => pure (acc, ⟨rest, by simp only [List.length_cons]; omega⟩)
  | other => throw (.parse (offsetOf len other) .expectedClose)
termination_by (ts.length, Procedure.level .argumentsTail)
decreasing_by all_goals (rw [Prod.lex_def]; dsimp only [List.length_cons, Procedure.level] at *; omega)

end

/-- The scalar expression written by a formula. -/
def read (src : String) : Except ExprError Scalar := do
  let ts ← tokenize src
  let len := src.utf8ByteSize
  let (e, ⟨r, _⟩) ← expr len ts
  match r with
  | [] => pure e
  | l :: _ => throw (.parse l.offset .trailingInput)

end Elasto.Formula
