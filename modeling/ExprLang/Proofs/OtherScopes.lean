import ExprLang.Proofs.DeeperEvaluations
import ExprLang.Proofs.Resolution

/-!
# Evaluations in other scopes

An evaluation leaves the scope stack as it was, and it looks at the stack by name only: where an
expression refers to a variable, and where a host function resolves a name.  With another stack that
gives the same values to these names it does the same.

What a host function resolves is known from the run, so that functions which are not called, or which
resolve names on other occasions only, do not matter.

* `EvalM.Unaffected`: evaluations that do the same with another stack.
* `unaffected_callFunction`: calls, whatever functions are called in turn.
* `Plan.Abides.unaffected`, `unaffected_evalAt`: expressions.
* `Evaluation.Resolves.isName`: which names are resolved, by what the host functions keep to.
* `evalAt_restores_scopes`: the stack after an evaluation, and evaluations that do not look at it.
-/

namespace ExprLang

/-! ### Evaluations that do the same -/

namespace EvalM

variable {α β : Type} {scopes : List Bindings} {s : EvalState}

/-- Whether an evaluation does the same with another scope stack in place of that of a state: it comes
to the same result, leaves the same notes and reports, and leaves the stack as it was. -/
def Unaffected
    (scopes : List Bindings)
    (m : EvalM α)
    (s : EvalState) : Prop :=
  m { s with scopes } = ((m s).1, { (m s).2 with scopes })

theorem unaffected_pure
    (a : α) :
    Unaffected scopes (pure a) s := rfl

theorem unaffected_throw
    (stop : Stop) :
    Unaffected scopes (throw stop : EvalM α) s := rfl

theorem unaffected_fail
    (error : RuntimeError) :
    Unaffected scopes (fail error : EvalM α) s := rfl

theorem unaffected_ofOutcome
    (o : Outcome α) :
    Unaffected scopes (ofOutcome o) s := by
  cases o <;> rfl

theorem unaffected_note
    (entry : String) :
    Unaffected scopes (note entry) s := rfl

theorem unaffected_report
    (env : Environment) (event : TraceEvent) :
    Unaffected scopes (report env event) s := by
  unfold Unaffected report
  split <;> rfl

variable {m : EvalM α}

theorem Unaffected.bind
    {f : α → EvalM β}
    (first : Unaffected scopes m s)
    (second : ∀ a t, m s = (.ok a, t) → Unaffected scopes (f a) t) :
    Unaffected scopes (m >>= f) s := by
  unfold Unaffected at first ⊢
  rw [bind_apply, bind_apply, first]
  rcases ran : m s with ⟨stop | a, t⟩
  · rfl
  · exact second a t ran

/-- What follows a report starts from the state with the report. -/
theorem Unaffected.report_bind
    {env : Environment} {event : TraceEvent} {f : Unit → EvalM β}
    (next : Unaffected scopes (f ()) (report env event s).2) :
    Unaffected scopes (report env event >>= f) s := by
  refine (unaffected_report env event).bind fun _ t reported => ?_
  rw [report_apply] at reported
  cases reported
  exact next

theorem Unaffected.attributed
    (unaffected : Unaffected scopes m s)
    (node : Nat) :
    Unaffected scopes (attributed node m) s := by
  unfold Unaffected at unaffected ⊢
  unfold EvalM.attributed
  rw [unaffected]
  rcases m s with ⟨(⟨error, _ | found⟩ | _) | a, t⟩ <;> rfl

theorem Unaffected.outcome
    (unaffected : Unaffected scopes m s) :
    Unaffected scopes (outcome m) s := by
  unfold Unaffected at unaffected ⊢
  unfold EvalM.outcome
  rw [unaffected]
  rcases m s with ⟨(⟨error, found⟩ | _) | a, t⟩ <;> rfl

/-- An evaluation within bindings does the same if it does below the bindings. -/
theorem Unaffected.within
    {bindings : Option Bindings}
    (unaffected : Unaffected (bindings.toList ++ scopes) m (Eval.entered bindings s))
    (keeps : KeepsScopes m) :
    Unaffected scopes (Eval.within bindings m) s := by
  have entered : Eval.entered bindings { s with scopes } =
      { Eval.entered bindings s with scopes := bindings.toList ++ scopes } := by
    cases bindings <;> rfl
  unfold Unaffected at unaffected ⊢
  rw [Eval.within_eq keeps, Eval.within_eq keeps, entered, unaffected]

end EvalM

namespace Eval

open EvalM

variable {env : Environment} {names : String → Prop} {scopes : List Bindings} {s : EvalState}

/-! ### Names -/

theorem unaffected_lookupLocal
    {name : String}
    (same : localValue? scopes name = localValue? s.scopes name) :
    Unaffected scopes (lookupLocal name) s := by
  unfold Unaffected
  rw [lookupLocal_apply, lookupLocal_apply, same]
  cases localValue? s.scopes name <;> rfl

theorem unaffected_outcome_resolve
    {name : String}
    (same : localValue? scopes name = localValue? s.scopes name) :
    Unaffected scopes (outcome (resolve env name)) s := by
  have sameMeaning : meaning env scopes name = meaning env s.scopes name := by
    unfold meaning
    rw [same]
  unfold Unaffected
  rw [outcome_resolve, outcome_resolve, sameMeaning]

/-! ### Calls -/

/-- A host function does the same where the names that it resolves have the same values, if that is so
for the functions that it calls. -/
theorem unaffected_runProgram
    {call : String → List Value → EvalM Value}
    {calls : String → Outcome Value → String → List Value → EvalState → Prop}
    (keeps : ∀ function args, KeepsScopes (call function args))
    (each : ∀ function args s, (∀ name found, calls name found function args s → names name) →
      SameOn names s.scopes scopes → Unaffected scopes (call function args) s)
    (f : HostFunction)
    {program : HostProgram}
    (resolved : ∀ name found, ProgramResolves env name found call (calls name found) program s →
      names name)
    (same : SameOn names s.scopes scopes) :
    Unaffected scopes (runProgram env call f program) s := by
  induction program generalizing s with
  | finish result => exact unaffected_ofOutcome _
  | raise exception => exact .report_bind (unaffected_fail _)
  | fail error => exact unaffected_fail error
  | note entry next ih =>
      refine (unaffected_note entry).bind fun _ t noted => ?_
      cases noted
      exact ih resolved same
  | «variable» other next ih => exact ih _ resolved same
  | resolve other next ih =>
      have known := outcome_resolve env other s
      have isName : names other := resolved other _ ⟨_, _, known, .inl ⟨rfl, rfl⟩⟩
      refine (unaffected_outcome_resolve (same other isName)).bind fun answer t told => ?_
      have later := fun name found resolves => resolved name found ⟨answer, t, told, .inr resolves⟩
      rw [known] at told
      cases told
      exact ih _ later same
  | call function args next ih =>
      have unaffected := each function args s (fun name found inner => resolved name found (.inl inner))
        same
      refine unaffected.outcome.bind fun answer t called => ih answer ?_ ?_
      · exact fun name found later => resolved name found (.inr ⟨answer, t, called, later⟩)
      · rwa [(keeps function args).outcome.scopes_eq called]

/-- A call does the same where the names that are resolved during the call have the same values. -/
theorem unaffected_callFunction
    {depth : Nat} {callSite : Option Nat} {function : String} {args : List Value}
    (resolved : ∀ name found, CallResolves env name found depth callSite function args s → names name)
    (same : SameOn names s.scopes scopes) :
    Unaffected scopes (callFunction env depth callSite function args) s := by
  induction depth generalizing function args s with
  | zero => exact unaffected_throw _
  | succ depth ih =>
      rw [callFunction]
      cases known : env.context.overloads? function with
      | none => exact unaffected_fail _
      | some functions =>
          refine .report_bind ?_
          cases isChosen : HostFunction.choose function functions args callSite with
          | error e => exact unaffected_fail e
          | ok chosen =>
              rw [ofOutcome_ok, pure_bind]
              refine unaffected_runProgram (keepsScopes_callFunction env depth callSite)
                (fun _ _ _ => ih) chosen.1 (fun name found resolves => ?_) ?_
              · exact resolved name found ⟨functions, chosen.1, chosen.2, known, isChosen, resolves⟩
              · rwa [keepsScopes_report]

/-! ### Expressions -/

/-- What is run of a plan does the same where the variables that it looks up and the names that are
resolved have the same values, if that is so for the evaluations that it starts. -/
theorem Plan.Abides.unaffected
    {α : Type} {c : Terms} {post : α → Prop} {p : Plan α}
    (abides : p.Abides c post)
    (good : ∀ v, c.good v)
    (given : ∀ v, c.given v)
    (inUse : ∀ name, c.names name → names name)
    (asks : ∀ ev, p.Starts env s ev → ∀ bindings, c.asks bindings ev.expr → ∀ scopes,
      SameOn names ev.state.scopes scopes →
        Unaffected scopes (evalAt env ev.depth ev.expr) ev.state)
    (resolved : ∀ name found, p.Resolves env name found s → names name)
    (same : SameOn names s.scopes scopes) :
    Unaffected scopes (p.run env) s := by
  induction p generalizing s with
  | done a => exact unaffected_pure a
  | fail error => exact unaffected_fail error
  | report event next ih =>
      refine .report_bind (ih abides asks resolved ?_)
      rwa [keepsScopes_report]
  | binder name next ih =>
      refine (unaffected_lookupLocal (same name (inUse name abides.1))).bind fun v t looked => ?_
      refine ih v (abides.2 v (good v)) (fun ev started => asks ev ⟨v, t, looked, started⟩)
        (fun other found resolves => resolved other found ⟨v, t, looked, resolves⟩) ?_
      rwa [(keepsScopes_lookupLocal name).scopes_eq looked]
  | call depth node function args next ih =>
      have unaffected := unaffected_callFunction
        (fun name found inner => resolved name found (.inl inner)) same
      refine unaffected.bind fun v t called => ?_
      refine ih v (abides.2 v (good v)) (fun ev started => asks ev ⟨v, t, called, started⟩)
        (fun name found resolves => resolved name found (.inr ⟨v, t, called, resolves⟩)) ?_
      rwa [(keepsScopes_callFunction env depth _ function args).scopes_eq called]
  | ask depth bindings e next ih =>
      have keeps := keepsScopes_evalAt env depth e
      have unaffected := asks ⟨depth, e, entered bindings s⟩ (.inl rfl) bindings abides.1
        (bindings.toList ++ scopes) (by rw [scopes_entered]; exact same.enter _)
      refine (unaffected.within keeps).bind fun v t evaluated => ?_
      refine ih v (abides.2 v (given v)) (fun ev started => asks ev (.inr ⟨v, t, evaluated, started⟩))
        (fun name found resolves => resolved name found ⟨v, t, evaluated, resolves⟩) ?_
      rwa [(keepsScopes_within keeps bindings).scopes_eq evaluated]

/-- An evaluation does the same with another scope stack, if the two give the same values to the
variables to which the expression refers and to the names that are resolved on the way. -/
theorem unaffected_evalAt
    {depth : Nat} {e : Expr}
    (refers : RefersWithin names e)
    (resolved : ∀ ev, Evaluation.Makes env ⟨depth, e, s⟩ ev → ∀ name found,
      ev.Resolves env name found → names name)
    (same : SameOn names s.scopes scopes) :
    Unaffected scopes (evalAt env depth e) s := by
  -- By induction on the tree and not on the depth: a sum asks for the sum in front of it at its own
  -- depth.
  induction e using Expr.induction_inside generalizing depth s scopes with
  | node e ih =>
      cases depth with
      | zero => exact unaffected_throw _
      | succ depth =>
          rw [evalAt_eq_run]
          refine Unaffected.attributed ?_ e.id
          refine (Plan.abides_referring env depth e).unaffected (fun _ => trivial) (fun _ => trivial)
            (fun name ⟨m, isRef⟩ => refers.root m name isRef)
            (fun ev started _ inside scopes same => ?_)
            (fun name found resolves => resolved _ .refl name found ⟨depth, rfl, resolves⟩) same
          refine ih ev.expr inside (refers.inside inside) (fun ev' made => ?_) same
          exact resolved ev' (.head ⟨depth, rfl, started⟩ made)

/-! ### The names that are resolved -/

section Resolved

variable {name : String} {found : Outcome Value}

/-- What a host function resolves it may resolve, if that is so for the functions that it calls. -/
theorem ProgramResolves.isName
    {call : String → List Value → EvalM Value}
    {calls : String → List Value → EvalState → Prop}
    (each : ∀ function args s, calls function args s → names name)
    {program : HostProgram}
    (within : program.Within (.resolving names))
    (resolves : ProgramResolves env name found call calls program s) :
    names name := by
  induction program generalizing s with
  | finish result => exact resolves.elim
  | raise exception => exact resolves.elim
  | fail error => exact resolves.elim
  | note entry next ih => exact ih within resolves
  | «variable» other next ih => exact ih _ (within.2 _ fun _ _ => trivial) resolves
  | resolve other next ih =>
      obtain ⟨isName, values, errors⟩ := within
      obtain ⟨answer, t, -, ⟨rfl, -⟩ | later⟩ := resolves
      · exact isName
      · cases answer with
        | ok v => exact ih _ (values v trivial) later
        | error e => exact ih _ (errors e).1 later
  | call function args next ih =>
      obtain ⟨-, -, values, errors⟩ := within
      rcases resolves with inner | ⟨answer, t, -, later⟩
      · exact each function args s inner
      · cases answer with
        | ok v => exact ih _ (values v trivial) later
        | error e => exact ih _ (errors e).1 later

variable (hosts : env.context.HostsWithin (.resolving names))
include hosts

theorem CallResolves.isName
    {depth : Nat} {callSite : Option Nat} {function : String} {args : List Value}
    (resolves : CallResolves env name found depth callSite function args s) :
    names name := by
  induction depth generalizing function args s with
  | zero => exact resolves.elim
  | succ depth ih =>
      obtain ⟨functions, f, converted, known, isChosen, resolves⟩ := resolves
      obtain ⟨member, bound⟩ := HostFunction.mem_of_choose isChosen
      exact resolves.isName (fun _ _ _ => ih)
        (hosts function functions known f member _ args _ (fun _ _ => trivial) bound)

theorem Plan.Resolves.isName
    {α : Type} {p : Plan α}
    (resolves : p.Resolves env name found s) :
    names name := by
  induction p generalizing s with
  | done a => exact resolves.elim
  | fail error => exact resolves.elim
  | report event next ih => exact ih resolves
  | binder other next ih =>
      obtain ⟨v, t, -, later⟩ := resolves
      exact ih v later
  | call depth node function args next ih =>
      rcases resolves with inner | ⟨v, t, -, later⟩
      · exact inner.isName hosts
      · exact ih v later
  | ask depth bindings e next ih =>
      obtain ⟨v, t, -, later⟩ := resolves
      exact ih v later

/-- An evaluation resolves names that its host functions may resolve. -/
theorem Evaluation.Resolves.isName
    {ev : Evaluation}
    (resolves : ev.Resolves env name found) :
    names name :=
  let ⟨_, _, resolves⟩ := resolves
  Plan.Resolves.isName hosts resolves

end Resolved

/-! ### The scope stack -/

/-- After an evaluation the scope stack is what it was before, whatever the evaluation ended with.
Where nothing refers to a variable and no host function that is called resolves a name, the evaluation
does the same with any other stack. -/
theorem evalAt_restores_scopes
    (env : Environment) (depth : Nat) (e : Expr) (s : EvalState) :
    (evalAt env depth e s).2.scopes = s.scopes ∧
      ((∀ x ∈ e.walk, x.isLocalRef = false) →
        (∀ ev, Evaluation.Makes env ⟨depth, e, s⟩ ev → ∀ name found, ¬ev.Resolves env name found) →
          ∀ scopes, evalAt env depth e { s with scopes } =
            ((evalAt env depth e s).1, { (evalAt env depth e s).2 with scopes })) := by
  refine ⟨keepsScopes_evalAt env depth e s, fun noReference noneResolved scopes => ?_⟩
  have refers : RefersWithin (fun _ => False) e := by
    rintro _ member m name rfl
    exact Bool.noConfusion (noReference _ member)
  exact unaffected_evalAt refers noneResolved fun _ => False.elim

/-- A function that calls another, which leaves a note and raises. -/
def raisingContext : Context :=
  [⟨[], [
    ("f", [⟨"f", [], 0, none, true, fun _ _ => .call "g" [] .ofOutcome⟩]),
    ("g", [⟨"g", [], 0, none, false, fun _ _ => .note "called" (.raise ⟨"ValueError", none⟩)⟩])]⟩]

theorem hostsWithin_raisingContext :
    raisingContext.HostsWithin (.resolving fun _ => False) := by
  refine Context.hostsWithin_of_scopes (List.forall_mem_singleton.mpr ?_)
  refine List.forall_mem_cons.mpr ⟨?_, List.forall_mem_singleton.mpr ?_⟩
  · refine List.forall_mem_singleton.mpr fun _ _ _ _ _ => ⟨trivial, fun _ _ => trivial, ?_, ?_⟩
    · exact fun _ _ _ _ => trivial
    · exact fun _ => ⟨trivial, .inl trivial⟩
  · exact List.forall_mem_singleton.mpr fun _ _ _ _ _ => trivial

/-- An error raised by a function that another calls in the body of a comprehension leaves the scopes as
they were, and with other scopes it is the same error. -/
theorem evalAt_restores_scopes_raising :
    let env : Environment := ⟨raisingContext, true⟩
    let e : Expr := .comprehension default .map (.list default [.literal default (.int 1)]) ["x"] none
      (.call ⟨7, default⟩ "f" none [])
    let s : EvalState := ⟨[[("y", .int 2)]], [], []⟩
    (evalAt env 5 e s).1 = .error (.failure (.functionError "g" "ValueError") (some 7)) ∧
      (evalAt env 5 e s).2.scopes = [[("y", .int 2)]] ∧
      (∀ x ∈ e.walk, x.isLocalRef = false) ∧
      (∀ ev, Evaluation.Makes env ⟨5, e, s⟩ ev → ∀ name found, ¬ev.Resolves env name found) ∧
      ∀ scopes, evalAt env 5 e { s with scopes } =
        ((evalAt env 5 e s).1, { (evalAt env 5 e s).2 with scopes }) := by
  intro env e s
  have noReference : ∀ x ∈ e.walk, x.isLocalRef = false := by decide +kernel
  have noneResolved : ∀ ev, Evaluation.Makes env ⟨5, e, s⟩ ev → ∀ name found,
      ¬ev.Resolves env name found :=
    fun _ _ _ _ resolves => resolves.isName hostsWithin_raisingContext
  obtain ⟨restored, same⟩ := evalAt_restores_scopes env 5 e s
  exact ⟨rfl, restored, noReference, noneResolved, same noReference noneResolved⟩

end Eval
end ExprLang
