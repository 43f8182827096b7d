import Mathlib.Data.List.Nodup
import ExprLang.Proofs.PrintedMeaning
import ExprLang.Proofs.StartedEvaluations

/-!
# Where errors arise

An error of an execution is attributed to a node of the program: the one whose evaluation failed
although all that it evaluated came to values.  All nodes around it pass the error on as it is.

* `EvalM.Unplaced`: calls of functions fail without a node.
* `Plan.fails_of_run`: a plan fails because an evaluation that it started did, or by itself after
  all of them came to values.
* `FailsAt`: an evaluation fails with an error that arose at a node.
* `fails_at_of_execute`: every error of an execution arose at the node that it is attributed to.
-/

namespace ExprLang

namespace EvalM

variable {α β : Type}

/-- Whether the errors of an evaluation are not attributed to nodes. -/
def Unplaced (m : EvalM α) : Prop :=
  ∀ s t error node, m s = (.error (.failure error node), t) → node = none

theorem Unplaced.bind
    {m : EvalM α} {f : α → EvalM β}
    (first : Unplaced m)
    (second : ∀ a, Unplaced (f a)) :
    Unplaced (m >>= f) := by
  intro s t error node failed
  rcases bind_eq_error.mp failed with failed | ⟨a, s', -, failed⟩
  · exact first s t error node failed
  · exact second a s' t error node failed

theorem unplaced_ofOutcome
    (o : Outcome α) :
    Unplaced (ofOutcome o) := by
  intro s t error node failed
  cases o <;> cases failed
  rfl

theorem unplaced_fail
    (error : RuntimeError) :
    Unplaced (fail error : EvalM α) :=
  unplaced_ofOutcome (.error error)

theorem unplaced_report
    (env : Environment) (event : TraceEvent) :
    Unplaced (report env event) := by
  intro s t error node failed
  unfold report at failed
  split at failed <;> cases failed

theorem unplaced_note
    (entry : String) :
    Unplaced (note entry) :=
  nofun

/-- An outcome that is given back as a value is no error any more. -/
theorem unplaced_outcome
    (m : EvalM α) :
    Unplaced (outcome m) := by
  intro s t error node failed
  unfold outcome at failed
  split at failed <;> cases failed

end EvalM

namespace Eval

open EvalM (Unplaced bind_apply bind_eq_ok attributed)

theorem unplaced_runProgram
    (env : Environment)
    (call : String → List Value → EvalM Value)
    (f : HostFunction) :
    ∀ program : HostProgram, Unplaced (runProgram env call f program)
  | .finish _ => EvalM.unplaced_ofOutcome _
  | .raise _ => (EvalM.unplaced_report _ _).bind fun _ => EvalM.unplaced_fail _
  | .fail _ => EvalM.unplaced_fail _
  | .note _ next =>
      (EvalM.unplaced_note _).bind fun _ => unplaced_runProgram env call f next
  | .resolve _ next =>
      (EvalM.unplaced_outcome _).bind fun found => unplaced_runProgram env call f (next found)
  | .variable name next => unplaced_runProgram env call f (next (env.context.valueOf? name))
  | .call _ _ next =>
      (EvalM.unplaced_outcome _).bind fun found => unplaced_runProgram env call f (next found)

theorem unplaced_callFunction
    (env : Environment) (depth : Nat) (callSite : Option Nat) (name : String)
    (args : List Value) :
    Unplaced (callFunction env depth callSite name args) := by
  cases depth with
  | zero => exact nofun
  | succ depth =>
      rw [callFunction]
      split
      · exact EvalM.unplaced_fail _
      · refine (EvalM.unplaced_report _ _).bind fun _ => ?_
        exact (EvalM.unplaced_ofOutcome _).bind fun chosen => unplaced_runProgram env _ _ _

theorem unplaced_lookupLocal
    (name : String) :
    Unplaced (lookupLocal name) := by
  intro s t error node failed
  rw [lookupLocal_apply] at failed
  cases isBound : localValue? s.scopes name with
  | none =>
      rw [isBound] at failed
      cases failed
      rfl
  | some v =>
      rw [isBound] at failed
      cases failed

variable {env : Environment}

section After

variable {α : Type} {m : EvalM Value} {next : Value → Plan α} {s t : EvalState} {ev : Evaluation}

/-- After something that came to a value, the rest starts what it starts for that value. -/
theorem Plan.starts_after_iff
    {v : Value}
    (ran : m s = (.ok v, t)) :
    (∃ w t', m s = (.ok w, t') ∧ (next w).Starts env t' ev) ↔ (next v).Starts env t ev := by
  constructor
  · rintro ⟨w, t', ran', started⟩
    cases ran.symm.trans ran'
    exact started
  · exact fun started => ⟨v, t, ran, started⟩

/-- After something that failed, nothing is started. -/
theorem Plan.not_starts_after
    {stop : Stop}
    (failed : m s = (.error stop, t)) :
    ¬ ∃ w t', m s = (.ok w, t') ∧ (next w).Starts env t' ev := by
  rintro ⟨w, t', ran, -⟩
  cases failed.symm.trans ran

end After

/-- A plan fails because an evaluation that it started failed, or with an error of its own when all
that it started came to values. -/
theorem Plan.fails_of_run
    {α : Type}
    {p : Plan α} {s t : EvalState} {error : RuntimeError} {node : Option Nat}
    (failed : p.run env s = (.error (.failure error node), t)) :
    (∃ ev, p.Starts env s ev ∧ ev.result env = .error (.failure error node)) ∨
      (node = none ∧ ∀ ev, p.Starts env s ev → ∃ v, ev.result env = .ok v) := by
  induction p generalizing s with
  | done a => cases failed
  | fail own =>
      cases failed
      exact .inr ⟨rfl, nofun⟩
  | report event next ih =>
      rw [run, bind_apply, EvalM.report_apply] at failed
      exact ih failed
  | binder name next ih =>
      rcases EvalM.bind_eq_error.mp failed with failed | ⟨v, s', found, failed⟩
      · exact .inr ⟨unplaced_lookupLocal name s t error node failed,
          fun ev started => absurd started (not_starts_after failed)⟩
      · simpa only [Starts, starts_after_iff found] using ih v failed
  | call depth callSite function args next ih =>
      rcases EvalM.bind_eq_error.mp failed with failed | ⟨v, s', called, failed⟩
      · exact .inr ⟨unplaced_callFunction env depth _ function args s t error node failed,
          fun ev started => absurd started (not_starts_after failed)⟩
      · simpa only [Starts, starts_after_iff called] using ih v failed
  | ask depth bindings e next ih =>
      rcases EvalM.bind_eq_error.mp failed with failed | ⟨v, s', evaluated, failed⟩
      · exact .inl ⟨_, .inl rfl, Evaluation.result_of_within failed⟩
      rcases ih v failed with ⟨ev, started, fails⟩ | ⟨own, others⟩
      · exact .inl ⟨ev, .inr ((starts_after_iff evaluated).mpr started), fails⟩
      · refine .inr ⟨own, fun ev started => ?_⟩
        rcases started with rfl | started
        · exact ⟨v, Evaluation.result_of_within evaluated⟩
        · exact others ev ((starts_after_iff evaluated).mp started)

/-! ### Evaluations -/

/-- An evaluation fails with an error that arose at node `x` and is attributed to it: its own node is
`x`, and all evaluations that it started came to values; or it passes on, as it is, the error of an
evaluation that it started. -/
inductive FailsAt (env : Environment) (error : RuntimeError) (x : Expr) : Evaluation → Prop
  | here {ev} :
      ev.expr = x → ev.result env = .error (.failure error (some x.id)) →
        (∀ ev', ev.Starts env ev' → ∃ v, ev'.result env = .ok v) → FailsAt env error x ev
  | passed {ev ev'} :
      ev.result env = .error (.failure error (some x.id)) → ev.Starts env ev' →
        FailsAt env error x ev' → FailsAt env error x ev

/-- One evaluation: it fails at its own node, or with the error of an evaluation that it started. -/
theorem Evaluation.fails_cases
    {ev : Evaluation} {error : RuntimeError} {node : Option Nat}
    (failed : ev.result env = .error (.failure error node)) :
    (node = some ev.expr.id ∧ ∀ ev', ev.Starts env ev' → ∃ v, ev'.result env = .ok v) ∨
      ∃ ev', ev.Starts env ev' ∧ ev'.result env = .error (.failure error node) := by
  obtain ⟨depth, e, s⟩ := ev
  cases depth with
  | zero => cases failed
  | succ depth =>
      rw [Evaluation.result, evalAt_eq_run] at failed
      obtain ⟨own, t, ran, rfl⟩ := EvalM.attributed_eq_error failed
      rcases Plan.fails_of_run ran with ⟨ev', started, fails⟩ | ⟨rfl, others⟩
      · -- What was started has attributed its error already.
        have settled := settled_evalAt env ev'.depth ev'.expr ev'.state error
        cases own with
        | none => exact absurd fails settled
        | some id => exact .inr ⟨ev', ⟨depth, rfl, started⟩, fails⟩
      · refine .inl ⟨rfl, fun ev' started => ?_⟩
        obtain ⟨depth', same, started⟩ := started
        cases same
        exact others ev' started

/-- Every error of an evaluation arose at a node of its expression. -/
theorem exists_failsAt
    {error : RuntimeError} {node : Option Nat}
    (e : Expr) :
    ∀ {depth s}, Evaluation.result env ⟨depth, e, s⟩ = .error (.failure error node) →
      ∃ x ∈ e.walk, node = some x.id ∧ FailsAt env error x ⟨depth, e, s⟩ := by
  induction e using Expr.induction_inside with
  | node e ih =>
      intro depth s failed
      rcases Evaluation.fails_cases failed with ⟨rfl, others⟩ | ⟨ev', started, fails⟩
      · exact ⟨e, Expr.mem_walk_self e, rfl, .here rfl failed others⟩
      · obtain ⟨x, inside, rfl, failsAt⟩ := ih ev'.expr started.inside fails
        exact ⟨x, Expr.mem_walk_trans started.inside.mem_walk inside, rfl,
          .passed failed started failsAt⟩

end Eval

/-! ### Programs -/

namespace Program

open Eval (FailsAt)

/-- Where no number is given twice, a number finds the node that has it. -/
theorem find?_eq_some_iff
    {xs : List Expr} {n : Nat} {x : Expr}
    (distinct : (xs.map Expr.id).Nodup) :
    xs.find? (·.id == n) = some x ↔ x ∈ xs ∧ x.id = n := by
  constructor
  · exact fun found => ⟨List.mem_of_find?_eq_some found, by simpa using List.find?_some found⟩
  · rintro ⟨member, rfl⟩
    have isFound : (xs.find? (·.id == x.id)).isSome = true :=
      List.find?_isSome.mpr ⟨x, member, by simp⟩
    obtain ⟨y, found⟩ := Option.isSome_iff_exists.mp isFound
    have same : y.id = x.id := by simpa using List.find?_some found
    rw [found, List.inj_on_of_nodup_map distinct (List.mem_of_find?_eq_some found) member same]

/-- In a compiled program a node is found by its number. -/
theorem node?_id
    {config : Config} {source : List Char} {p : Program} {x : Expr}
    (compiled : compile config source = .ok p)
    (inside : x ∈ p.root.walk) :
    p.node? x.id = some x :=
  (find?_eq_some_iff (nodup_of_parse (compile_eq_ok_iff.mp compiled).1)).mpr ⟨inside, rfl⟩

/-- An error of an execution, unless expressions nest too deeply for it, arose at a node of the
program: it is attributed to that node, so that its place is found, the evaluation of the node failed
although all evaluations that it started came to values, and the nodes around it passed the error
on. -/
theorem fails_at_of_execute
    {config : Config} {source : List Char} {p : Program} {context : Context}
    {error : RuntimeError} {node : Option Nat}
    (compiled : compile config source = .ok p)
    (failed : (p.execute context).result = .error ⟨error, node⟩)
    (other : error ≠ .evaluationDepthExceeded) :
    ∃ x ∈ p.root.walk, node = some x.id ∧ p.spanOf? node = some x.span ∧
      FailsAt (p.environment context) error x p.evaluation := by
  obtain ⟨x, inside, rfl, failsAt⟩ :=
    Eval.exists_failsAt p.root (result_of_execute_error failed other)
  refine ⟨x, inside, rfl, ?_, failsAt⟩
  rw [spanOf?, Option.bind_some, node?_id compiled inside]
  rfl

/-- Whether a program divides by zero. -/
def dividesByZero (p : Program) : Bool :=
  match (p.execute []).result with
  | .error ⟨.divisionByZero _ _, _⟩ => true
  | _ => false

/-- The quotient fails in the list around it. -/
theorem fails_at_of_execute_quotient :
    ∃ p error node, compile .standard "[1, 2 / 0]".toList = .ok p ∧
      (p.execute []).result = .error ⟨error, node⟩ ∧ error ≠ .evaluationDepthExceeded ∧
      ∃ x ∈ p.root.walk, node = some x.id ∧ p.spanOf? node = some x.span ∧
        FailsAt (p.environment []) error x p.evaluation := by
  have fails : compilesTo .standard "[1, 2 / 0]".toList dividesByZero = true := by decide +kernel
  obtain ⟨p, compiled, fails⟩ := exists_of_compilesTo fails
  unfold dividesByZero at fails
  split at fails
  next op dividend node failed =>
    have other : RuntimeError.divisionByZero op dividend ≠ .evaluationDepthExceeded := by
      intro same
      cases same
    exact ⟨p, _, node, compiled, failed, other, fails_at_of_execute compiled failed other⟩
  · cases fails

end Program
end ExprLang
