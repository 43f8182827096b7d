import ExprLang.Proofs.Attribution

/-!
# The scope stack

Comprehensions push the variables of an element on the scope stack and take them off again.  An
evaluation *keeps the scopes* if it leaves the stack as it was, whatever it ends with.  This is
shown for one kind of step after the other, each under the assumption that the evaluations it is
made of keep the scopes.

* `KeepsScopes.bind`, `keepsScopes_withBindings`: sequences and pushed bindings keep the scopes.
* `keepsScopes_callFunction`: so do calls of host functions and all that they call in turn.
* `keepsScopes_evalNode`: so does a node if its sub-expressions do.
* `scopes_evalAt`: the stack after an evaluation is the stack before it.
-/

namespace ExprLang

namespace EvalM

variable {α β : Type}

/-- Whether an evaluation leaves the scope stack as it was. -/
def KeepsScopes (m : EvalM α) : Prop :=
  ∀ s, (m s).2.scopes = s.scopes

theorem KeepsScopes.scopes_eq
    {m : EvalM α} {r : Except Stop α} {s t : EvalState}
    (keeps : KeepsScopes m)
    (ran : m s = (r, t)) :
    t.scopes = s.scopes := by
  have kept := keeps s
  rwa [ran] at kept

theorem keepsScopes_pure
    (a : α) :
    KeepsScopes (pure a : EvalM α) :=
  fun _ => rfl

theorem keepsScopes_throw
    (stop : Stop) :
    KeepsScopes (throw stop : EvalM α) :=
  fun _ => rfl

theorem keepsScopes_fail
    (error : RuntimeError) :
    KeepsScopes (fail error : EvalM α) :=
  fun _ => rfl

theorem KeepsScopes.bind
    {m : EvalM α} {f : α → EvalM β}
    (hm : KeepsScopes m)
    (hf : ∀ a, KeepsScopes (f a)) :
    KeepsScopes (m >>= f) := by
  intro s
  have hs := hm s
  rw [bind_apply]
  rcases h : m s with ⟨stop | a, t⟩ <;> rw [h] at hs
  · exact hs
  · exact (hf a t).trans hs

theorem keepsScopes_ofOutcome
    (o : Outcome α) :
    KeepsScopes (ofOutcome o) := by
  cases o with
  | ok a => exact keepsScopes_pure a
  | error e => exact keepsScopes_fail e

theorem KeepsScopes.attributed
    {m : EvalM α}
    (hm : KeepsScopes m)
    (node : Nat) :
    KeepsScopes (attributed node m) := by
  intro s
  have hs := hm s
  unfold EvalM.attributed
  rcases h : m s with ⟨(⟨e, _ | n⟩ | _) | a, t⟩ <;> rw [h] at hs <;> exact hs

theorem KeepsScopes.outcome
    {m : EvalM α}
    (hm : KeepsScopes m) :
    KeepsScopes (outcome m) := by
  intro s
  have hs := hm s
  unfold EvalM.outcome
  rcases h : m s with ⟨(⟨e, n⟩ | _) | a, t⟩ <;> rw [h] at hs <;> exact hs

/-- Pushed bindings are gone afterwards, and what was below them is untouched. -/
theorem keepsScopes_withBindings
    {m : EvalM α}
    (hm : KeepsScopes m)
    (bindings : Bindings) :
    KeepsScopes (withBindings bindings m) := by
  intro s
  have hs := hm { s with scopes := bindings :: s.scopes }
  unfold withBindings
  rcases h : m { s with scopes := bindings :: s.scopes } with ⟨r, t⟩
  rw [h] at hs
  show t.scopes.tail = s.scopes
  rw [hs, List.tail_cons]

theorem keepsScopes_note
    (entry : String) :
    KeepsScopes (note entry) :=
  fun _ => rfl

theorem keepsScopes_report
    (env : Environment) (event : TraceEvent) :
    KeepsScopes (report env event) := by
  intro s
  unfold report
  split <;> rfl

/-- Looking at the state does not change it. -/
theorem keepsScopes_get_bind
    {f : EvalState → EvalM β}
    (hf : ∀ s, KeepsScopes (f s)) :
    KeepsScopes (get >>= f) :=
  fun s => hf s s

end EvalM

namespace Eval

open EvalM

variable {α : Type}

/-! ### Calls -/

theorem keepsScopes_lookupLocal
    (name : String) :
    KeepsScopes (lookupLocal name) := by
  refine keepsScopes_get_bind fun s => ?_
  split
  · exact keepsScopes_pure _
  · exact keepsScopes_fail _

theorem keepsScopes_resolve
    (env : Environment) (name : String) :
    KeepsScopes (resolve env name) := by
  refine keepsScopes_get_bind fun s => ?_
  split
  · exact keepsScopes_pure _
  · exact keepsScopes_ofOutcome _

/-- What a host function does keeps the scopes if the calls that it makes do. -/
theorem keepsScopes_runProgram
    (env : Environment)
    {call : String → List Value → EvalM Value}
    (hcall : ∀ name args, KeepsScopes (call name args))
    (f : HostFunction) :
    ∀ program : HostProgram, KeepsScopes (runProgram env call f program)
  | .finish _ => keepsScopes_ofOutcome _
  | .raise _ => (keepsScopes_report _ _).bind fun _ => keepsScopes_fail _
  | .fail _ => keepsScopes_fail _
  | .note _ next =>
      (keepsScopes_note _).bind fun _ => keepsScopes_runProgram env hcall f next
  | .resolve name next =>
      (keepsScopes_resolve env name).outcome.bind fun found =>
        keepsScopes_runProgram env hcall f (next found)
  | .variable name next =>
      keepsScopes_runProgram env hcall f (next (env.context.valueOf? name))
  | .call function args next =>
      (hcall function args).outcome.bind fun found =>
        keepsScopes_runProgram env hcall f (next found)

theorem keepsScopes_callFunction
    (env : Environment) (depth : Nat) :
    ∀ (callSite : Option Nat) (name : String) (args : List Value),
      KeepsScopes (callFunction env depth callSite name args) := by
  induction depth with
  | zero =>
      intro callSite name args
      exact keepsScopes_throw _
  | succ depth ih =>
      intro callSite name args
      rw [callFunction]
      split
      · exact keepsScopes_fail _
      · refine (keepsScopes_report _ _).bind fun _ => ?_
        refine (keepsScopes_ofOutcome _).bind fun chosen => ?_
        exact keepsScopes_runProgram env (ih callSite) _ _

/-! ### Loops -/

section Loops

variable {rec : Expr → EvalM Value} (hrec : ∀ e, KeepsScopes (rec e))
include hrec

theorem keepsScopes_addSteps
    (steps : List (Nat × Expr)) :
    ∀ acc : RunningSum, KeepsScopes (addSteps rec acc steps) := by
  induction steps with
  | nil =>
      intro acc
      exact keepsScopes_pure _
  | cons step steps ih =>
      intro acc
      refine (hrec step.2).bind fun v => ?_
      split
      · exact ih _
      · exact ((keepsScopes_ofOutcome _).attributed _).bind fun sum => ih _

theorem keepsScopes_condition
    (e : Expr) :
    KeepsScopes (condition rec e) :=
  (hrec e).bind fun _ => keepsScopes_ofOutcome _

theorem keepsScopes_evalBinary
    (op : BinaryOp) (left right : Expr) :
    KeepsScopes (evalBinary rec op left right) := by
  unfold evalBinary
  split
  · refine (keepsScopes_condition hrec left).bind fun b => ?_
    split
    · exact (keepsScopes_condition hrec right).bind fun _ => keepsScopes_pure _
    · exact keepsScopes_pure _
  · refine (keepsScopes_condition hrec left).bind fun b => ?_
    split
    · exact keepsScopes_pure _
    · exact (keepsScopes_condition hrec right).bind fun _ => keepsScopes_pure _
  · refine (hrec left).bind fun a => (hrec right).bind fun b => ?_
    exact keepsScopes_ofOutcome _

theorem keepsScopes_evalItems
    (items : List Expr) :
    KeepsScopes (evalItems rec items) := by
  induction items with
  | nil => exact keepsScopes_pure _
  | cons e rest ih =>
      exact (hrec e).bind fun v => ih.bind fun vs => keepsScopes_pure _

theorem keepsScopes_evalEntries
    (pairs : List (Expr × Expr)) :
    ∀ entries : List (Key × Value), KeepsScopes (evalEntries rec entries pairs) := by
  induction pairs with
  | nil =>
      intro entries
      exact keepsScopes_pure _
  | cons pair rest ih =>
      intro entries
      refine (hrec pair.1).bind fun key => (hrec pair.2).bind fun v => ?_
      exact (keepsScopes_ofOutcome _).bind fun k => ih _

theorem keepsScopes_evalStep
    (binders : List String) (e : Expr) (step : Step) :
    KeepsScopes (evalStep rec binders e step) :=
  keepsScopes_withBindings (hrec e) _

theorem keepsScopes_testStep
    (binders : List String) (e : Expr) (step : Step) :
    KeepsScopes (testStep rec binders e step) :=
  (keepsScopes_evalStep hrec binders e step).bind fun _ => keepsScopes_ofOutcome _

end Loops

section Steps

variable {test : Step → EvalM Bool} (htest : ∀ step, KeepsScopes (test step))
include htest

theorem keepsScopes_allSteps
    (steps : List Step) :
    KeepsScopes (allSteps test steps) := by
  induction steps with
  | nil => exact keepsScopes_pure _
  | cons step rest ih =>
      refine (htest step).bind fun b => ?_
      split
      · exact ih
      · exact keepsScopes_pure _

theorem keepsScopes_anyStep
    (steps : List Step) :
    KeepsScopes (anyStep test steps) := by
  induction steps with
  | nil => exact keepsScopes_pure _
  | cons step rest ih =>
      refine (htest step).bind fun b => ?_
      split
      · exact keepsScopes_pure _
      · exact ih

theorem keepsScopes_keepSteps
    (steps : List Step) :
    KeepsScopes (keepSteps test steps) := by
  induction steps with
  | nil => exact keepsScopes_pure _
  | cons step rest ih =>
      exact (htest step).bind fun b => ih.bind fun kept => keepsScopes_pure _

theorem keepsScopes_mapStep
    {transform : Step → EvalM Value}
    (htransform : ∀ step, KeepsScopes (transform step))
    (steps : List Step) :
    KeepsScopes (mapStep test transform steps) := by
  induction steps with
  | nil => exact keepsScopes_pure _
  | cons step rest ih =>
      refine (htest step).bind fun b => ?_
      split
      · exact (htransform step).bind fun v => ih.bind fun vs => keepsScopes_pure _
      · exact ih

end Steps

/-! ### Nodes -/

section Nodes

variable {rec : Expr → EvalM Value} (hrec : ∀ e, KeepsScopes (rec e))
include hrec

theorem keepsScopes_runComprehension
    (kind : Comprehension) (binders : List String)
    (guard : Option Expr) (body : Expr) (steps : List Step) :
    KeepsScopes (runComprehension rec kind binders guard body steps) := by
  have htest := keepsScopes_testStep hrec binders body
  cases kind with
  | all => exact (keepsScopes_allSteps htest steps).bind fun _ => keepsScopes_pure _
  | any => exact (keepsScopes_anyStep htest steps).bind fun _ => keepsScopes_pure _
  | one => exact (keepsScopes_keepSteps htest steps).bind fun _ => keepsScopes_pure _
  | filter => exact (keepsScopes_keepSteps htest steps).bind fun _ => keepsScopes_pure _
  | map =>
      have hbody := keepsScopes_evalStep hrec binders body
      refine (keepsScopes_mapStep ?_ hbody steps).bind fun _ => keepsScopes_pure _
      intro step
      cases guard with
      | none => exact keepsScopes_pure _
      | some e => exact keepsScopes_testStep hrec binders e step

theorem keepsScopes_evalComprehension
    (env : Environment) (kind : Comprehension) (target : Expr) (binders : List String)
    (guard : Option Expr) (body : Expr) :
    KeepsScopes (evalComprehension env rec kind target binders guard body) := by
  refine (hrec target).bind fun v => ?_
  refine (keepsScopes_report _ _).bind fun _ => ?_
  refine (keepsScopes_ofOutcome _).bind fun steps => ?_
  exact keepsScopes_runComprehension hrec kind binders guard body steps

theorem keepsScopes_evalHas
    (access : Expr) :
    KeepsScopes (evalHas rec access) := by
  unfold evalHas
  split
  · exact (hrec _).bind fun v => keepsScopes_pure _
  · exact (hrec _).bind fun target => (hrec _).bind fun key => keepsScopes_pure _
  · exact keepsScopes_fail _

/-- A node keeps the scopes if its sub-expressions do. -/
theorem keepsScopes_evalNode
    (env : Environment) (depth : Nat) (e : Expr) :
    KeepsScopes (evalNode env depth rec e) := by
  unfold evalNode
  split
  · exact keepsScopes_pure _
  · exact keepsScopes_ofOutcome _
  · exact keepsScopes_lookupLocal _
  · exact (hrec _).bind fun v => keepsScopes_ofOutcome _
  · exact (hrec _).bind fun v => keepsScopes_ofOutcome _
  · exact (hrec _).bind fun v => keepsScopes_addSteps hrec _ _
  · exact keepsScopes_evalBinary hrec _ _ _
  · refine (keepsScopes_condition hrec _).bind fun b => ?_
    split <;> exact hrec _
  · exact (keepsScopes_evalItems hrec _).bind fun vs => keepsScopes_pure _
  · exact (keepsScopes_evalEntries hrec _ _).bind fun es => keepsScopes_pure _
  · exact (hrec _).bind fun v => keepsScopes_ofOutcome _
  · exact (hrec _).bind fun v => (hrec _).bind fun k => keepsScopes_ofOutcome _
  · unfold evalCall
    split
    · exact keepsScopes_fail _
    · exact (keepsScopes_evalItems hrec _).bind fun vs => keepsScopes_callFunction _ _ _ _ _
  · refine (hrec _).bind fun v => ?_
    split
    · exact (keepsScopes_evalItems hrec _).bind fun vs => keepsScopes_callFunction _ _ _ _ _
    · exact keepsScopes_fail _
  · exact keepsScopes_evalHas hrec _
  · exact keepsScopes_evalComprehension hrec _ _ _ _ _ _

end Nodes

theorem keepsScopes_evalAt
    (env : Environment) (depth : Nat) :
    ∀ e, KeepsScopes (evalAt env depth e) := by
  induction depth with
  | zero =>
      intro e
      exact keepsScopes_throw _
  | succ depth ih =>
      intro e
      exact (keepsScopes_evalNode ih env depth e).attributed _

/-- After an evaluation the scope stack is what it was before. -/
theorem scopes_evalAt
    {env : Environment} {depth : Nat} {e : Expr}
    {s t : EvalState} {r : Except Stop Value}
    (h : evalAt env depth e s = (r, t)) :
    t.scopes = s.scopes := by
  have hkeeps := keepsScopes_evalAt env depth e s
  rwa [h] at hkeeps

end Eval
end ExprLang
