import ExprLang.Assoc
import ExprLang.Config
import ExprLang.Eval.Evaluator
import ExprLang.Expr.Parser

/-!
# Programs

A program is a compiled expression with its source text and its settings.  It can be executed in
any context.
-/

namespace ExprLang

/-- A compiled expression. -/
structure Program where
  source : List Char
  root : Expr
  config : Config

/-- An error of an execution and the node that it is attributed to. -/
structure Failure where
  error : RuntimeError
  node : Option Nat

/-- What an execution came to: a value or a failure, and the notes and reports on the way, the
oldest first. -/
structure Execution where
  result : Except Failure Value
  journal : List String
  trace : List TraceEvent

namespace Program

/-- Compiles a source text. -/
def compile (config : Config) (source : List Char) : Except (List Problem) Program :=
  (parse config.maxNestingDepth source).map fun root => ⟨source, root, config⟩

/-- How deeply evaluations may nest. -/
def evaluationDepth : Nat := 2000

/-- Executes a program in a context. -/
def execute (p : Program) (context : Context) : Execution :=
  let (result, s) := Eval.evalAt ⟨context, p.config.debug⟩ evaluationDepth p.root .initial
  let result := match result with
    | .ok v => .ok v
    | .error (.failure error node) => .error ⟨error, node⟩
    | .error .outOfDepth => .error ⟨.evaluationDepthExceeded, none⟩
  ⟨result, s.journal.reverse, s.trace.reverse⟩

/-- The table of the nodes by their numbers, in the order of the walk. -/
def nodes (p : Program) : List (Nat × Expr) :=
  Assoc.ofList (· == ·) (p.root.walk.map fun x => (x.id, x))

/-- The node with a given number. -/
def node? (p : Program) (id : Nat) : Option Expr :=
  p.root.walk.find? (·.id == id)

/-- The span of the node with a given number. -/
def spanOf? (p : Program) (id : Option Nat) : Option Text.Span :=
  id.bind fun n => (p.node? n).map (·.span)

end Program
end ExprLang
