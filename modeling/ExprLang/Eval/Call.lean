import ExprLang.Eval.State

/-!
# Names and calls

The meaning of names during an evaluation, and the calls of host functions.  A call chooses among
the functions of a name, converts the arguments, runs the function and converts its result.  A
host function may call functions in its turn; how deeply such calls may nest is limited.
-/

namespace ExprLang
namespace Eval

open EvalM (fail ofOutcome)

/-- The value of a variable of the comprehensions around an expression. -/
def localValue? (scopes : List Bindings) (name : String) : Option Value :=
  scopes.findSome? (·.lookup name)

/-- The meaning of a free name: a variable of the context, or else a reference to a function. -/
def lookup (env : Environment) (name : String) : Outcome Value :=
  match env.context.valueOf? name with
  | some v => .ok v
  | none =>
      if env.context.hasFunction name then .ok (.function name)
      else .error (.undeclaredReference name)

/-- The meaning of a name that a comprehension binds. -/
def lookupLocal (name : String) : EvalM Value := do
  match localValue? (← get).scopes name with
  | some v => return v
  | none => fail (.undeclaredReference name)

/-- The meaning of a name for a host function: a variable of the comprehensions around the call
first, and then what the context gives. -/
def resolve (env : Environment) (name : String) : EvalM Value := do
  match localValue? (← get).scopes name with
  | some v => return v
  | none => ofOutcome (lookup env name)

/-- Runs what a host function does; `call` serves the calls that it makes. -/
def runProgram (env : Environment) (call : String → List Value → EvalM Value)
    (f : HostFunction) : HostProgram → EvalM Value
  | .finish result => ofOutcome (f.resultValue result)
  | .raise e => do
      EvalM.report env (.raised f.name e)
      fail (.functionError f.name e.detail)
  | .fail e => fail e
  | .note entry next => do
      EvalM.note entry
      runProgram env call f next
  | .resolve name next => do
      let found ← EvalM.outcome (resolve env name)
      runProgram env call f (next found)
  | .variable name next => runProgram env call f (next (env.context.valueOf? name))
  | .call function args next => do
      let found ← EvalM.outcome (call function args)
      runProgram env call f (next found)

/-- Calls a function by name.  `depth` bounds the nesting of calls that host functions make. -/
def callFunction (env : Environment) : Nat → Option Nat → String → List Value → EvalM Value
  | 0, _, _, _ => throw .outOfDepth
  | depth + 1, callSite, name, args => do
      match env.context.overloads? name with
      | none => fail (.undeclaredReference name)
      | some functions => do
          EvalM.report env (.call name (args.map Value.typeName))
          let (f, converted) ← ofOutcome (HostFunction.choose name functions args callSite)
          runProgram env (callFunction env depth callSite) f (f.body ⟨name, callSite⟩ converted)

end Eval
end ExprLang
