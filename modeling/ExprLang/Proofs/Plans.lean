import ExprLang.Proofs.ScopeStack
import ExprLang.Proofs.Sums

/-!
# The plan of an evaluation

The evaluation of a node is a sequence of evaluations of its sub-expressions with decisions in
between.  A `Plan` spells the sequence out: it asks for the value of one sub-expression, goes on by
that value, and ends with a value or an error of its own.  What a node does besides is to look up
variables, to call functions and to report, so that the plan of a node is all there is to know of it.

A sum asks for its two operands, the left one of a chain being the sum of the operands before.

* `Plan.run_bind`: plans compose as the evaluations that follow them do.
* `Plan.run_node`: evaluating a node other than a sum is running its plan.
* `evalAt_eq_run`: so the evaluation of an expression, a sum or not, is its plan, attributed to its
  node.
-/

namespace ExprLang
namespace Eval

open EvalM (attributed Settled)

/-- What the evaluation of a node does, one step after the other. -/
inductive Plan (α : Type) where
  /-- Ends with a result. -/
  | done (a : α)
  /-- Ends with an error of its own. -/
  | fail (error : RuntimeError)
  /-- Looks up a variable of the comprehensions around. -/
  | binder (name : String) (next : Value → Plan α)
  /-- Calls a function. -/
  | call (depth node : Nat) (function : String) (args : List Value) (next : Value → Plan α)
  /-- Reports an event. -/
  | report (event : TraceEvent) (next : Plan α)
  /-- Evaluates a sub-expression, within the bindings of a comprehension's step if there are any. -/
  | ask (depth : Nat) (bindings : Option Bindings) (e : Expr) (next : Value → Plan α)

/-- An evaluation that was started: its depth, its expression, and the state it started in. -/
structure Evaluation where
  depth : Nat
  expr : Expr
  state : EvalState

/-- What an evaluation ends with. -/
def Evaluation.result (env : Environment) (ev : Evaluation) : Except Stop Value :=
  (evalAt env ev.depth ev.expr ev.state).1

/-- Runs an evaluation within bindings, if there are any. -/
def within {α : Type} : Option Bindings → EvalM α → EvalM α
  | none, m => m
  | some bindings, m => EvalM.withBindings bindings m

/-- The state in which an evaluation within bindings starts. -/
def entered : Option Bindings → EvalState → EvalState
  | none, s => s
  | some bindings, s => { s with scopes := bindings :: s.scopes }

@[simp] theorem scopes_entered
    (bindings : Option Bindings) (s : EvalState) :
    (entered bindings s).scopes = bindings.toList ++ s.scopes := by
  cases bindings <;> rfl

@[simp] theorem journal_entered
    (bindings : Option Bindings) (s : EvalState) :
    (entered bindings s).journal = s.journal := by
  cases bindings <;> rfl

@[simp] theorem trace_entered
    (bindings : Option Bindings) (s : EvalState) :
    (entered bindings s).trace = s.trace := by
  cases bindings <;> rfl

theorem within_result
    {α : Type}
    (bindings : Option Bindings) (m : EvalM α) (s : EvalState) :
    (within bindings m s).1 = (m (entered bindings s)).1 := by
  cases bindings <;> rfl

/-- What an evaluation within bindings ends with is the result of the evaluation that was started. -/
theorem Evaluation.result_of_within
    {env : Environment} {depth : Nat} {bindings : Option Bindings} {e : Expr} {s t : EvalState}
    {r : Except Stop Value}
    (evaluated : within bindings (evalAt env depth e) s = (r, t)) :
    Evaluation.result env ⟨depth, e, entered bindings s⟩ = r := by
  rw [Evaluation.result, ← within_result bindings, evaluated]

theorem keepsScopes_within
    {α : Type} {m : EvalM α}
    (keeps : m.KeepsScopes)
    (bindings : Option Bindings) :
    (within bindings m).KeepsScopes := by
  cases bindings with
  | none => exact keeps
  | some bindings => exact EvalM.keepsScopes_withBindings keeps bindings

namespace Plan

variable {α β : Type}

/-- Goes on with the result of a plan. -/
def bind (f : α → Plan β) : Plan α → Plan β
  | done a => f a
  | fail error => fail error
  | binder name next => binder name fun v => bind f (next v)
  | call depth node function args next =>
      call depth node function args fun v => bind f (next v)
  | report event next => report event (bind f next)
  | ask depth bindings e next => ask depth bindings e fun v => bind f (next v)

instance : Monad Plan where
  pure := done
  bind p f := p.bind f

/-- The evaluation that follows a plan. -/
def run (env : Environment) : Plan α → EvalM α
  | done a => return a
  | fail error => EvalM.fail error
  | binder name next => do
      let v ← lookupLocal name
      run env (next v)
  | call depth node function args next => do
      let v ← callFunction env depth (some node) function args
      run env (next v)
  | report event next => do
      EvalM.report env event
      run env next
  | ask depth bindings e next => do
      let v ← within bindings (evalAt env depth e)
      run env (next v)

@[simp] theorem run_pure
    (env : Environment) (a : α) :
    (pure a : Plan α).run env = pure a := rfl

@[simp] theorem run_bind
    (env : Environment)
    (p : Plan α) (f : α → Plan β) :
    (p >>= f).run env = p.run env >>= fun a => (f a).run env := by
  show (p.bind f).run env = _
  induction p with
  | done a => rw [bind, run, pure_bind]
  | fail error => rfl
  | report event next ih => simp only [bind, run, ih, bind_assoc]
  | _ => simp only [bind, run, *, bind_assoc]

/-! ### Steps -/

/-- Evaluates a sub-expression. -/
def value (depth : Nat) (e : Expr) : Plan Value :=
  ask depth none e done

/-- Evaluates an expression with the variables of a step bound. -/
def step (depth : Nat) (binders : List String) (e : Expr) (s : Step) : Plan Value :=
  ask depth (some (binders.zip s.bound)) e done

/-- The value of an outcome, or its error. -/
def ofOutcome : Outcome α → Plan α
  | .ok a => done a
  | .error e => fail e

variable (env : Environment)

@[simp] theorem run_value
    (depth : Nat) (e : Expr) :
    (value depth e).run env = evalAt env depth e :=
  bind_pure _

@[simp] theorem run_step
    (depth : Nat) (binders : List String) (e : Expr) (s : Step) :
    (step depth binders e s).run env = evalStep (evalAt env depth) binders e s :=
  bind_pure _

@[simp] theorem run_ofOutcome
    (o : Outcome α) :
    (ofOutcome o).run env = EvalM.ofOutcome o := by
  cases o <;> rfl

@[simp] theorem run_ite
    (c : Bool) (p q : Plan α) :
    (if c then p else q).run env = if c then p.run env else q.run env := by
  cases c <;> rfl

/-! ### Sequences -/

/-- Evaluates a condition. -/
def condition (depth : Nat) (e : Expr) : Plan Bool := do
  ofOutcome (← value depth e).asBool

/-- Evaluates expressions from left to right. -/
def items (depth : Nat) : List Expr → Plan (List Value)
  | [] => return []
  | e :: rest => do
      let v ← value depth e
      let vs ← items depth rest
      return v :: vs

/-- Evaluates the entries of a map from left to right and writes them into a map. -/
def entries (depth : Nat) (written : List (Key × Value)) :
    List (Expr × Expr) → Plan (List (Key × Value))
  | [] => return written
  | (k, e) :: rest => do
      let key ← value depth k
      let v ← value depth e
      let key ← ofOutcome key.asKey
      entries depth (Value.putEntry written key v) rest

/-- Evaluates a condition with the variables of a step bound. -/
def test (depth : Nat) (binders : List String) (e : Expr) (s : Step) : Plan Bool := do
  ofOutcome (← step depth binders e s).asBool

/-- Whether a test holds for every step. -/
def all (holds : Step → Plan Bool) : List Step → Plan Bool
  | [] => return true
  | s :: rest => do
      if ← holds s then all holds rest else return false

/-- Whether a test holds for some step. -/
def any (holds : Step → Plan Bool) : List Step → Plan Bool
  | [] => return false
  | s :: rest => do
      if ← holds s then return true else any holds rest

/-- The steps for which a test holds. -/
def keep (holds : Step → Plan Bool) : List Step → Plan (List Step)
  | [] => return []
  | s :: rest => do
      let holdsHere ← holds s
      let kept ← keep holds rest
      return if holdsHere then s :: kept else kept

/-- The results of a transformation for the steps that pass. -/
def transform (passes : Step → Plan Bool) (result : Step → Plan Value) :
    List Step → Plan (List Value)
  | [] => return []
  | s :: rest => do
      if ← passes s then
        let v ← result s
        let vs ← transform passes result rest
        return v :: vs
      else
        transform passes result rest

@[simp] theorem run_condition
    (depth : Nat) (e : Expr) :
    (condition depth e).run env = Eval.condition (evalAt env depth) e := by
  simp [condition, Eval.condition]

@[simp] theorem run_items
    (depth : Nat) (es : List Expr) :
    (items depth es).run env = evalItems (evalAt env depth) es := by
  induction es with
  | nil => rfl
  | cons e rest ih => simp [items, evalItems, ih]

@[simp] theorem run_entries
    (depth : Nat) (es : List (Expr × Expr)) (written : List (Key × Value)) :
    (entries depth written es).run env = evalEntries (evalAt env depth) written es := by
  induction es generalizing written with
  | nil => rfl
  | cons e rest ih => simp [entries, evalEntries, ih]

@[simp] theorem run_test
    (depth : Nat) (binders : List String) (e : Expr) (s : Step) :
    (test depth binders e s).run env = testStep (evalAt env depth) binders e s := by
  simp [test, testStep]

@[simp] theorem run_all
    (holds : Step → Plan Bool) (steps : List Step) :
    (all holds steps).run env = allSteps (fun s => (holds s).run env) steps := by
  induction steps with
  | nil => rfl
  | cons s rest ih => simp [all, allSteps, ih]

@[simp] theorem run_any
    (holds : Step → Plan Bool) (steps : List Step) :
    (any holds steps).run env = anyStep (fun s => (holds s).run env) steps := by
  induction steps with
  | nil => rfl
  | cons s rest ih => simp [any, anyStep, ih]

@[simp] theorem run_keep
    (holds : Step → Plan Bool) (steps : List Step) :
    (keep holds steps).run env = keepSteps (fun s => (holds s).run env) steps := by
  induction steps with
  | nil => rfl
  | cons s rest ih => simp [keep, keepSteps, ih]

@[simp] theorem run_transform
    (passes : Step → Plan Bool) (result : Step → Plan Value) (steps : List Step) :
    (transform passes result steps).run env =
      mapStep (fun s => (passes s).run env) (fun s => (result s).run env) steps := by
  induction steps with
  | nil => rfl
  | cons s rest ih => simp [transform, mapStep, ih]

/-! ### Nodes -/

/-- Whether an expression is a sum. -/
def isSum : Expr → Bool
  | .binary _ .add _ _ => true
  | _ => false

/-- The plan of an operator between two operands.  A sum in front of a sum belongs to its chain,
and is evaluated at the same depth. -/
def binary (depth : Nat) (op : BinaryOp) (left right : Expr) : Plan Value := do
  match op with
  | .add => do
      let a ← value (if isSum left then depth + 1 else depth) left
      let b ← value depth right
      ofOutcome (a.add b)
  | .and =>
      if ← condition depth left then
        return .bool (← condition depth right)
      else
        return .bool false
  | .or =>
      if ← condition depth left then
        return .bool true
      else
        return .bool (← condition depth right)
  | op => do
      let a ← value depth left
      let b ← value depth right
      ofOutcome (applyBinary op a b)

/-- Whether a step passes the guard of a comprehension, if it has one. -/
def passes (depth : Nat) (binders : List String) : Option Expr → Step → Plan Bool
  | none, _ => return true
  | some e, s => test depth binders e s

/-- The plan of a comprehension over its steps. -/
def overSteps (depth : Nat) (kind : Comprehension) (binders : List String) (guard : Option Expr)
    (body : Expr) (steps : List Step) : Plan Value := do
  match kind with
  | .all => return .bool (← all (test depth binders body) steps)
  | .any => return .bool (← any (test depth binders body) steps)
  | .one => return .bool ((← keep (test depth binders body) steps).length == 1)
  | .filter => return .list ((← keep (test depth binders body) steps).map (·.element))
  | .map =>
      return .list (← transform (passes depth binders guard) (step depth binders body) steps)

/-- The plan of a comprehension. -/
def comprehension (depth : Nat) (kind : Comprehension) (target : Expr) (binders : List String)
    (guard : Option Expr) (body : Expr) : Plan Value := do
  let v ← value depth target
  report (.comprehension kind.name v.typeName binders) (done ())
  let steps ← ofOutcome (stepsOf kind (binders.length == 1) v)
  overSteps depth kind binders guard body steps

/-- The plan of the test whether an access would succeed. -/
def has (depth : Nat) : Expr → Plan Value
  | .select _ operand field => do
      return .bool ((← value depth operand).hasField field)
  | .index _ operand key => do
      let target ← value depth operand
      return .bool (target.hasIndex (← value depth key))
  | e => fail (.unsupportedOperation "has" [e.form])

/-- The plan of a call of a named function. -/
def callNamed (env : Environment) (depth node : Nat) (function : String) (target : Option Expr)
    (args : List Expr) : Plan Value := do
  if !env.context.hasFunction function then
    fail (.undeclaredReference function)
  else
    let vs ← items depth (target.toList ++ args)
    call depth node function vs done

/-- The plan of a call of a function that an expression refers to. -/
def invoke (depth node : Nat) (callee : Expr) (args : List Expr) : Plan Value := do
  match ← value depth callee with
  | .function name => do
      let vs ← items depth args
      call depth node name vs done
  | v => fail (.typeMismatch "function" v.typeName none)

/-- The plan of a node whose sub-expressions are evaluated at the given depth. -/
def node (env : Environment) (depth : Nat) : Expr → Plan Value
  | .literal _ v => return v
  | .ident _ name => ofOutcome (lookup env name)
  | .localRef _ name => binder name done
  | .unary _ .not operand => do ofOutcome (← value depth operand).logicalNot
  | .unary _ .neg operand => do ofOutcome (← value depth operand).neg
  | .binary _ op left right => binary depth op left right
  | .ternary _ cond ifTrue ifFalse => do
      if ← condition depth cond then value depth ifTrue else value depth ifFalse
  | .list _ es => do return .list (← items depth es)
  | .map _ es => do return .map (← entries depth [] es)
  | .select _ operand field => do ofOutcome ((← value depth operand).member field)
  | .index _ operand key => do
      let target ← value depth operand
      ofOutcome (target.index (← value depth key))
  | .call m function target args => callNamed env depth m.id function target args
  | .invoke m callee args => invoke depth m.id callee args
  | .has _ access => has depth access
  | .comprehension _ kind target binders guard body =>
      comprehension depth kind target binders guard body

theorem run_overSteps
    (depth : Nat) (kind : Comprehension) (binders : List String) (guard : Option Expr)
    (body : Expr) (steps : List Step) :
    (overSteps depth kind binders guard body steps).run env =
      runComprehension (evalAt env depth) kind binders guard body steps := by
  cases kind with
  | map => cases guard <;> simp [overSteps, runComprehension, passes]
  | _ => simp [overSteps, runComprehension]

theorem run_comprehension
    (depth : Nat) (kind : Comprehension) (target : Expr) (binders : List String)
    (guard : Option Expr) (body : Expr) :
    (comprehension depth kind target binders guard body).run env =
      evalComprehension env (evalAt env depth) kind target binders guard body := by
  simp [comprehension, evalComprehension, run_overSteps, run]

theorem run_has
    (depth : Nat) (access : Expr) :
    (has depth access).run env = evalHas (evalAt env depth) access := by
  cases access <;> simp [has, evalHas, run]

theorem run_callNamed
    (depth node : Nat) (function : String) (target : Option Expr) (args : List Expr) :
    (callNamed env depth node function target args).run env =
      evalCall env depth (evalAt env depth) node function target args := by
  cases declared : env.context.hasFunction function <;>
    simp [callNamed, evalCall, declared, run]

theorem run_invoke
    (depth node : Nat) (callee : Expr) (args : List Expr) :
    (invoke depth node callee args).run env =
      evalInvoke env depth (evalAt env depth) node callee args := by
  simp only [invoke, evalInvoke, run_bind, run_value]
  congr 1
  funext v
  cases v <;> simp [run]

/-- Evaluating a node other than a sum is running its plan. -/
theorem run_node
    (depth : Nat)
    {e : Expr}
    (noSum : isSum e = false) :
    (node env depth e).run env = evalNode env depth (evalAt env depth) e := by
  cases e with
  | unary _ op _ => cases op <;> simp [node, evalNode]
  | binary _ op _ _ =>
      cases op with
      | add => cases noSum
      | _ => simp [node, evalNode, binary, evalBinary]
  | comprehension => exact run_comprehension env _ _ _ _ _ _
  | has => exact run_has env _ _
  | call => exact run_callNamed env _ _ _ _ _
  | invoke => exact run_invoke env _ _ _ _
  | _ => simp [node, evalNode, run]

/-- An operand of a sum comes to what it does within the chain. -/
theorem evalPairwise_eq_evalAt
    (depth : Nat) (e : Expr) :
    evalPairwise (evalAt env depth) e = evalAt env (if isSum e then depth + 1 else depth) e := by
  have hrec := settled_evalAt env depth
  unfold isSum
  split
  · rw [if_pos rfl, evalAt, evalNode, evalSum_eq_evalPairwise hrec]
    exact (EvalM.attributed_of_settled (settled_evalPairwise hrec _) _).symm
  next noSum => exact evalPairwise.eq_2 _ _ noSum

theorem run_sum
    (depth : Nat) (m : Mark) (left right : Expr) :
    (node env depth (.binary m .add left right)).run env =
      (do
        let a ← evalPairwise (evalAt env depth) left
        let b ← evalAt env depth right
        EvalM.ofOutcome (a.add b)) := by
  simp [node, binary, evalPairwise_eq_evalAt]

end Plan

/-- The evaluation of an expression is its plan, with an error attributed to its node. -/
theorem evalAt_eq_run
    (env : Environment) (depth : Nat) (e : Expr) :
    evalAt env (depth + 1) e = attributed e.id ((Plan.node env depth e).run env) := by
  cases isSum : Plan.isSum e with
  | false => rw [evalAt, Plan.run_node env depth isSum]
  | true =>
      have inChain := Plan.evalPairwise_eq_evalAt env depth e
      rw [isSum, if_pos rfl] at inChain
      rw [← inChain]
      unfold Plan.isSum at isSum
      split at isSum
      · rw [Plan.run_sum, evalPairwise]
        rfl
      · cases isSum

end Eval
end ExprLang
