import ExprLang.Eval.Call
import ExprLang.Expr

/-!
# Evaluation of expressions

`evalAt` evaluates an expression in an environment, `depth` bounding how deeply expressions may
nest.  One step of it, `evalNode`, is given the evaluation of sub-expressions, so that facts about
it are facts about one node.

A chain of sums is evaluated from left to right in one step, whatever its length: lists (and
strings) that follow one another are gathered and joined once.
-/

namespace ExprLang
namespace Eval

open EvalM (fail ofOutcome)

/-! ### Sums -/

/-- The first operand of a chain of sums, and the operands after it with the nodes that add
them, in front of others. -/
def sumChainOnto : Expr → List (Nat × Expr) → Expr × List (Nat × Expr)
  | .binary m .add left right, steps => sumChainOnto left ((m.id, right) :: steps)
  | e, steps => (e, steps)

/-- A running sum: a value, or pieces of a list or of a string that are still to be joined, the
newest first. -/
inductive RunningSum where
  | single (v : Value)
  | items (pieces : List (List Value))
  | text (pieces : List String)

namespace RunningSum

/-- The value of a running sum. -/
def sealed : RunningSum → Value
  | single v => v
  | items pieces => .list pieces.reverse.flatten
  | text pieces => .string (String.join pieces.reverse)

/-- Gathers one more operand, if it is of the same kind as the sum so far. -/
def gather? : RunningSum → Value → Option RunningSum
  | single (.list a), .list b => some (items [b, a])
  | single (.string a), .string b => some (text [b, a])
  | items pieces, .list b => some (items (b :: pieces))
  | text pieces, .string b => some (text (b :: pieces))
  | _, _ => none

end RunningSum

/-- Adds the operands of a chain to a running sum.  An operand that cannot be gathered is added to
the joined sum; a failure of that is attributed to the node that adds. -/
def addSteps (rec : Expr → EvalM Value) : RunningSum → List (Nat × Expr) → EvalM Value
  | acc, [] => return acc.sealed
  | acc, (node, e) :: steps => do
      let v ← rec e
      match acc.gather? v with
      | some acc => addSteps rec acc steps
      | none => do
          let sum ← EvalM.attributed node (ofOutcome (acc.sealed.add v))
          addSteps rec (.single sum) steps

/-- Evaluates a chain of sums from left to right. -/
def evalSum (rec : Expr → EvalM Value) (e : Expr) : EvalM Value := do
  let (first, steps) := sumChainOnto e []
  let v ← rec first
  addSteps rec (.single v) steps

/-! ### Operators -/

/-- Evaluates a condition. -/
def condition (rec : Expr → EvalM Value) (e : Expr) : EvalM Bool := do
  ofOutcome (← rec e).asBool

/-- The comparison of two values by their order. -/
def compared (a b : Value) (holds : Ordering → Bool) : Outcome Value := do
  let order ← a.compare b
  pure (.bool (holds order))

/-- Applies an operator to two values. -/
def applyBinary : BinaryOp → Value → Value → Outcome Value
  | .eq, a, b => .ok (.bool (a.equals b))
  | .ne, a, b => .ok (.bool !(a.equals b))
  | .lt, a, b => compared a b (· == .lt)
  | .le, a, b => compared a b (· != .gt)
  | .gt, a, b => compared a b (· == .gt)
  | .ge, a, b => compared a b (· != .lt)
  | .isIn, a, b => do pure (.bool (← b.contains a))
  | .add, a, b => a.add b
  | .sub, a, b => a.sub b
  | .mul, a, b => a.mul b
  | .div, a, b => a.div b
  | .mod, a, b => a.mod b
  | .and, a, b => do pure (.bool ((← a.asBool) && (← b.asBool)))
  | .or, a, b => do pure (.bool ((← a.asBool) || (← b.asBool)))

/-- Evaluates an operator between two operands.  The second operand of a conjunction or an
alternative is evaluated only if the first leaves the result open. -/
def evalBinary (rec : Expr → EvalM Value) (op : BinaryOp) (left right : Expr) : EvalM Value := do
  match op with
  | .and =>
      if ← condition rec left then
        return .bool (← condition rec right)
      else
        return .bool false
  | .or =>
      if ← condition rec left then
        return .bool true
      else
        return .bool (← condition rec right)
  | op => do
      let a ← rec left
      let b ← rec right
      ofOutcome (applyBinary op a b)

/-! ### Lists and maps -/

/-- Evaluates expressions from left to right. -/
def evalItems (rec : Expr → EvalM Value) : List Expr → EvalM (List Value)
  | [] => return []
  | e :: rest => do
      let v ← rec e
      let vs ← evalItems rec rest
      return v :: vs

/-- Evaluates the entries of a map from left to right, each key before its value, and writes them
into a map. -/
def evalEntries (rec : Expr → EvalM Value) (entries : List (Key × Value)) :
    List (Expr × Expr) → EvalM (List (Key × Value))
  | [] => return entries
  | (k, e) :: rest => do
      let key ← rec k
      let v ← rec e
      let key ← ofOutcome key.asKey
      evalEntries rec (Value.putEntry entries key v) rest

/-! ### Comprehensions -/

/-- One step of a comprehension: the values that are bound, and the element. -/
structure Step where
  bound : List Value
  element : Value

/-- The steps over a list, from a position on: one variable is bound to the item, two are bound to
the position and the item. -/
def listSteps (single : Bool) : Nat → List Value → List Step
  | _, [] => []
  | position, v :: rest =>
      ⟨if single then [v] else [.int position, v], v⟩ :: listSteps single (position + 1) rest

/-- The steps over a map: one variable is bound to the key, two are bound to key and value. -/
def mapSteps (single : Bool) (entries : List (Key × Value)) : List Step :=
  entries.map fun (k, v) => ⟨if single then [k.toValue] else [k.toValue, v], k.toValue⟩

/-- The steps of a comprehension over a value. -/
def stepsOf (kind : Comprehension) (single : Bool) : Value → Outcome (List Step)
  | .list items => .ok (listSteps single 0 items)
  | .map entries => .ok (mapSteps single entries)
  | v => .error (.unsupportedOperation kind.name [v.typeName])

/-- Evaluates an expression with the variables of a step bound. -/
def evalStep (rec : Expr → EvalM Value) (binders : List String) (e : Expr) (s : Step) :
    EvalM Value :=
  EvalM.withBindings (binders.zip s.bound) (rec e)

/-- Evaluates a condition with the variables of a step bound. -/
def testStep (rec : Expr → EvalM Value) (binders : List String) (e : Expr) (s : Step) :
    EvalM Bool := do
  ofOutcome (← evalStep rec binders e s).asBool

/-- Whether a test holds for every step; the first step for which it does not ends the search. -/
def allSteps (test : Step → EvalM Bool) : List Step → EvalM Bool
  | [] => return true
  | s :: rest => do
      if ← test s then allSteps test rest else return false

/-- Whether a test holds for some step; the first step for which it does ends the search. -/
def anyStep (test : Step → EvalM Bool) : List Step → EvalM Bool
  | [] => return false
  | s :: rest => do
      if ← test s then return true else anyStep test rest

/-- The steps for which a test holds. -/
def keepSteps (test : Step → EvalM Bool) : List Step → EvalM (List Step)
  | [] => return []
  | s :: rest => do
      let holds ← test s
      let kept ← keepSteps test rest
      return if holds then s :: kept else kept

/-- The results of a transformation, in the order of the steps.  A step for which the guard is
false is passed over. -/
def mapStep (guard : Step → EvalM Bool) (transform : Step → EvalM Value) :
    List Step → EvalM (List Value)
  | [] => return []
  | s :: rest => do
      if ← guard s then
        let v ← transform s
        let vs ← mapStep guard transform rest
        return v :: vs
      else
        mapStep guard transform rest

/-- Runs a comprehension over its steps. -/
def runComprehension (rec : Expr → EvalM Value) (kind : Comprehension)
    (binders : List String) (guard : Option Expr) (body : Expr) (steps : List Step) :
    EvalM Value := do
  match kind with
  | .all => return .bool (← allSteps (testStep rec binders body) steps)
  | .any => return .bool (← anyStep (testStep rec binders body) steps)
  | .one => return .bool ((← keepSteps (testStep rec binders body) steps).length == 1)
  | .filter => return .list ((← keepSteps (testStep rec binders body) steps).map (·.element))
  | .map =>
      let passes : Step → EvalM Bool := match guard with
        | none => fun _ => pure true
        | some e => testStep rec binders e
      return .list (← mapStep passes (evalStep rec binders body) steps)

/-- Evaluates a comprehension. -/
def evalComprehension (env : Environment) (rec : Expr → EvalM Value) (kind : Comprehension)
    (target : Expr) (binders : List String) (guard : Option Expr) (body : Expr) :
    EvalM Value := do
  let v ← rec target
  EvalM.report env (.comprehension kind.name v.typeName binders)
  let steps ← ofOutcome (stepsOf kind (binders.length == 1) v)
  runComprehension rec kind binders guard body steps

/-! ### Nodes -/

/-- Tests whether an access would succeed. -/
def evalHas (rec : Expr → EvalM Value) : Expr → EvalM Value
  | .select _ operand field => do
      return .bool ((← rec operand).hasField field)
  | .index _ operand key => do
      let target ← rec operand
      return .bool (target.hasIndex (← rec key))
  | e => fail (.unsupportedOperation "has" [e.form])

/-- Evaluates a call of a named function, the target being the first argument. -/
def evalCall (env : Environment) (depth : Nat) (rec : Expr → EvalM Value) (node : Nat)
    (function : String) (target : Option Expr) (args : List Expr) : EvalM Value := do
  if !env.context.hasFunction function then
    fail (.undeclaredReference function)
  else
    let vs ← evalItems rec (target.toList ++ args)
    callFunction env depth (some node) function vs

/-- Evaluates a call of a function that an expression refers to. -/
def evalInvoke (env : Environment) (depth : Nat) (rec : Expr → EvalM Value) (node : Nat)
    (callee : Expr) (args : List Expr) : EvalM Value := do
  match ← rec callee with
  | .function name => do
      let vs ← evalItems rec args
      callFunction env depth (some node) name vs
  | v => fail (.typeMismatch "function" v.typeName none)

/-- Evaluates a node; `rec` evaluates its sub-expressions. -/
def evalNode (env : Environment) (depth : Nat) (rec : Expr → EvalM Value) (e : Expr) :
    EvalM Value :=
  match e with
  | .literal _ v => return v
  | .ident _ name => ofOutcome (lookup env name)
  | .localRef _ name => lookupLocal name
  | .unary _ .not operand => do ofOutcome (← rec operand).logicalNot
  | .unary _ .neg operand => do ofOutcome (← rec operand).neg
  | .binary _ .add _ _ => evalSum rec e
  | .binary _ op left right => evalBinary rec op left right
  | .ternary _ cond ifTrue ifFalse => do
      if ← condition rec cond then rec ifTrue else rec ifFalse
  | .list _ items => do return .list (← evalItems rec items)
  | .map _ entries => do return .map (← evalEntries rec [] entries)
  | .select _ operand field => do ofOutcome ((← rec operand).member field)
  | .index _ operand key => do
      let target ← rec operand
      ofOutcome (target.index (← rec key))
  | .call m function target args => evalCall env depth rec m.id function target args
  | .invoke m callee args => evalInvoke env depth rec m.id callee args
  | .has _ access => evalHas rec access
  | .comprehension _ kind target binders guard body =>
      evalComprehension env rec kind target binders guard body

/-- Evaluates an expression.  An error is attributed to the innermost node that failed. -/
def evalAt (env : Environment) : Nat → Expr → EvalM Value
  | 0, _ => throw .outOfDepth
  | depth + 1, e => EvalM.attributed e.id (evalNode env depth (evalAt env depth) e)

end Eval
end ExprLang
