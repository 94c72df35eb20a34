import Elasto.Tensor.Eval
import Elasto.Tensor.Render

/-! # Statements of generated code

A statement defines a temporary, assigns to a symbol (`=`, `+=`, `-=`) or is a raw line of
code. Statements print one per line and can be executed against an environment; the
program checks that every value they produce is finite, which in exact arithmetic is no
check at all, so execution takes the check as a parameter. A raw line cannot be executed. -/

namespace Elasto.Code

open Elasto.Tensor Elasto.Numeric

inductive AssignOp where
  | set
  | addAssign
  | subAssign
  deriving DecidableEq

def AssignOp.token : AssignOp → String
  | .set => "="
  | .addAssign => "+="
  | .subAssign => "-="

inductive Statement (α : Type := Float) where
  /-- `const auto name = value;` -/
  | define (name : String) (value : Expr α)
  /-- `target op value;` -/
  | assign (target : Symbol) (op : AssignOp) (value : Expr α)
  | raw (line : String)

namespace Statement

def render : Statement → String
  | .define name value => "const auto " ++ name ++ " = " ++ value.render ++ ";"
  | .assign target op value => target.render ++ " " ++ op.token ++ " " ++ value.render ++ ";"
  | .raw line => line

/-- Whether the statement can be executed. -/
def isEvaluable {α : Type} : Statement α → Bool
  | .raw _ => false
  | _ => true

end Statement

/-- Every component of a value finite, checked in order. -/
def checkResult (v : Value) : Except ExprError Unit :=
  v.components.forM fun c =>
    match ensureFinite c "statement result" with
    | .ok _ => .ok ()
    | .error e => .error (.numeric e)

variable {α : Type} [Number α]

/-- `old + sign · rhs` for `+=` and `-=`, of values of the same kind. -/
def combine (name : String) (old : Value α) (op : AssignOp) (rhs : Value α) :
    Except ExprError (Value α) :=
  let sign : α := if op = .subAssign then -1 else 1
  match old, rhs with
  | .scalar a, .scalar b => .ok (.scalar (a + sign * b))
  | .stensor a, .stensor b => .ok (.stensor (Mandel.Vec6.add a (Mandel.Vec6.scale sign b)))
  | .stensor4 a, .stensor4 b => .ok (.stensor4 (Mandel.Mat6.add a (Mandel.Mat6.scale sign b)))
  | old, rhs => .error (.typeMismatch name old.kind rhs.kind)

/-- Runs one statement, each value it produces passed through `check`. -/
def Statement.execWith (check : Value α → Except ExprError Unit) (env : Env α) :
    Statement α → Except ExprError (Env α)
  | .define name value => do
    let v ← value.eval env
    check v
    pure (env.set name v)
  | .assign target op value => do
    let rhs ← value.eval env
    let v ← if op = .set then pure rhs
      else match env.get? target.name with
        | some old => combine target.name old op rhs
        | none => throw (.unbound target.name)
    check v
    pure (env.set target.name v)
  | .raw line => throw (.notEvaluable line)

/-- Runs statements in order, stopping at the first failure. -/
def executeWith (check : Value α → Except ExprError Unit) (stmts : List (Statement α))
    (env : Env α) : Except ExprError (Env α) :=
  stmts.foldlM (Statement.execWith check) env

/-- Runs statements in doubles, refusing a value that is not finite. -/
def execute (stmts : List Statement) (env : Env) : Except ExprError Env :=
  executeWith checkResult stmts env

end Elasto.Code
