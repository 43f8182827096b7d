import ExprLang.Proofs.StartedEvaluations

/-!
# Two runs side by side

Two evaluations are coupled if, from states that correspond, the second ends as the first does and in
a state that corresponds to it.  A `Coupling` says which states correspond and whether the second run
has to follow the first into its failures.

* `Coupled.bind`, `Coupled.within`: coupled steps make coupled runs.
* `Plan.retold`: the plan of a node, told of a tree with other variables.
* `Plan.Abides.coupled`: what is run of a plan, and of the plan as it is retold, is coupled if the
  look-ups, the evaluations and the calls are that the plan may make.
-/

namespace ExprLang

open EvalM (KeepsScopes bind_apply)

theorem EvalM.journal_report
    (env : Environment) (event : TraceEvent) (s : EvalState) :
    (report env event s).2.journal = s.journal := by
  unfold report
  split <;> rfl

namespace Eval

/-- An evaluation within bindings runs with them and leaves the scope stack as it was. -/
theorem within_eq
    {α : Type} {m : EvalM α}
    (keeps : KeepsScopes m)
    (bindings : Option Bindings) (s : EvalState) :
    within bindings m s =
      ((m (entered bindings s)).1, { (m (entered bindings s)).2 with scopes := s.scopes }) := by
  have kept := keeps (entered bindings s)
  cases bindings with
  | none => exact Prod.ext rfl (congrArg (fun sc => { (m s).2 with scopes := sc }) kept)
  | some b =>
      refine Prod.ext rfl ?_
      exact congrArg (fun sc => { (m (entered (some b) s)).2 with scopes := sc })
        (congrArg List.tail kept)

end Eval

/-- What two runs have in common. -/
structure Coupling where
  /-- Which scope stacks correspond. -/
  scopes : List Bindings → List Bindings → Prop
  /-- Whether the two traces are the same. -/
  traces : Prop
  /-- Whether a failure of the first run is a failure of the second. -/
  failures : Prop

namespace Coupling

open Eval (entered within_eq localValue? lookupLocal lookupLocal_apply)

variable {α β : Type} {k : Coupling}

/-- Whether two states correspond. -/
structure States (k : Coupling) (s s' : EvalState) : Prop where
  scopes : k.scopes s.scopes s'.scopes
  journal : s'.journal = s.journal
  trace : k.traces → s'.trace = s.trace

/-- Whether the second of two runs ends as the first does: with the same result, which has a property
if it is a value, and in a corresponding state. -/
def Ends (k : Coupling) (post : α → Prop) :
    Except Stop α × EvalState → Except Stop α × EvalState → Prop
  | (.ok a, t), r => post a ∧ ∃ t', r = (.ok a, t') ∧ k.States t t'
  | (.error stop, t), r => k.failures → ∃ t', r = (.error stop, t') ∧ k.States t t'

/-- Whether two evaluations end alike wherever they start from corresponding states. -/
def Coupled (k : Coupling) (post : α → Prop) (m m' : EvalM α) : Prop :=
  ∀ s s', k.States s s' → k.Ends post (m s) (m' s')

/-! ### Steps -/

section Steps

variable {post : α → Prop} {m m' : EvalM α} {node : Nat}

theorem coupled_pure
    {a : α}
    (holds : post a) :
    k.Coupled post (pure a) (pure a) :=
  fun _ s' states => ⟨holds, s', rfl, states⟩

theorem coupled_throw
    (stop : Stop) :
    k.Coupled post (throw stop) (throw stop) :=
  fun _ s' states _ => ⟨s', rfl, states⟩

theorem coupled_fail
    (error : RuntimeError) :
    k.Coupled post (EvalM.fail error) (EvalM.fail error) :=
  coupled_throw _

theorem coupled_ofOutcome
    {o : Outcome α}
    (holds : ∀ a, o = .ok a → post a) :
    k.Coupled post (EvalM.ofOutcome o) (EvalM.ofOutcome o) := by
  cases o with
  | ok a => exact coupled_pure (holds a rfl)
  | error e => exact coupled_fail e

/-- Where the failures do not matter, a failing run is coupled with any other. -/
theorem coupled_of_fails
    (ignored : ¬k.failures)
    (fails : ∀ s, ∃ stop t, m s = (.error stop, t)) :
    k.Coupled post m m' := by
  intro s s' _
  obtain ⟨stop, t, ran⟩ := fails s
  rw [ran]
  exact fun failures => absurd failures ignored

/-- Coupled evaluations go on to coupled evaluations. -/
theorem Coupled.bind
    {f f' : α → EvalM β} {after : β → Prop}
    (first : k.Coupled post m m')
    (second : ∀ a, post a → k.Coupled after (f a) (f' a)) :
    k.Coupled after (m >>= f) (m' >>= f') := by
  intro s s' states
  have ended := first s s' states
  rw [bind_apply, bind_apply]
  generalize m s = run at ended ⊢
  obtain ⟨stop | a, t⟩ := run
  · intro failures
    obtain ⟨t', ran, states⟩ := ended failures
    rw [ran]
    exact ⟨t', rfl, states⟩
  · obtain ⟨holds, t', ran, states⟩ := ended
    rw [ran]
    exact second a holds t t' states

theorem Coupled.attributed
    (coupled : k.Coupled post m m') :
    k.Coupled post (EvalM.attributed node m) (EvalM.attributed node m') := by
  intro s s' states
  have ended := coupled s s' states
  unfold EvalM.attributed
  generalize m s = run at ended ⊢
  obtain ⟨(⟨error, _ | found⟩ | _) | a, t⟩ := run
  case ok =>
    obtain ⟨holds, t', ran, states⟩ := ended
    rw [ran]
    exact ⟨holds, t', rfl, states⟩
  all_goals
    intro failures
    obtain ⟨t', ran, states⟩ := ended failures
    rw [ran]
    exact ⟨t', rfl, states⟩

/-- What is done with the outcome of coupled evaluations is coupled if it is for each value, and for
each error where failures matter; where they do not, nothing may come of an error but a failure. -/
theorem Coupled.outcome_bind
    {f f' : Outcome α → EvalM β} {after : β → Prop}
    (coupled : k.Coupled post m m')
    (ok : ∀ a, post a → k.Coupled after (f (.ok a)) (f' (.ok a)))
    (error : ∀ e, k.failures → k.Coupled after (f (.error e)) (f' (.error e)))
    (passes : ¬k.failures → ∀ e s, ∃ stop t, f (.error e) s = (.error stop, t)) :
    k.Coupled after (EvalM.outcome m >>= f) (EvalM.outcome m' >>= f') := by
  intro s s' states
  have ended := coupled s s' states
  rw [bind_apply, bind_apply]
  unfold EvalM.outcome
  generalize m s = run at ended ⊢
  obtain ⟨(⟨e, found⟩ | _) | a, t⟩ := run
  · by_cases failures : k.failures
    · obtain ⟨t', ran, states⟩ := ended failures
      rw [ran]
      exact error e failures t t' states
    · obtain ⟨stop, u, failed⟩ := passes failures e t
      dsimp only
      rw [failed]
      exact fun failures' => absurd failures' failures
  · intro failures
    obtain ⟨t', ran, states⟩ := ended failures
    rw [ran]
    exact ⟨t', rfl, states⟩
  · obtain ⟨holds, t', ran, states⟩ := ended
    rw [ran]
    exact ok a holds t t' states

theorem coupled_note
    (entry : String) :
    k.Coupled (fun _ => True) (EvalM.note entry) (EvalM.note entry) :=
  fun _ _ states =>
    ⟨trivial, _, rfl, states.scopes, congrArg (entry :: ·) states.journal, states.trace⟩

/-- Reports are coupled; they have to be the same reports if the traces are to be the same. -/
theorem coupled_report
    {env env' : Environment} {event event' : TraceEvent}
    (same : k.traces → env'.debug = env.debug ∧ event' = event) :
    k.Coupled (fun _ => True) (EvalM.report env event) (EvalM.report env' event') := by
  intro s s' states
  rw [EvalM.report_apply, EvalM.report_apply env']
  refine ⟨trivial, _, rfl, ?_, ?_, fun traces => ?_⟩
  · rw [EvalM.keepsScopes_report, EvalM.keepsScopes_report]
    exact states.scopes
  · rw [EvalM.journal_report, EvalM.journal_report]
    exact states.journal
  · obtain ⟨sameDebug, rfl⟩ := same traces
    unfold EvalM.report
    rw [sameDebug]
    split
    · exact congrArg (event' :: ·) (states.trace traces)
    · exact states.trace traces

/-- Evaluations within bindings are coupled if the evaluations are, from states in which the bindings
have been made. -/
theorem Coupled.within
    {scopes : List Bindings → List Bindings → Prop} {b b' : Option Bindings}
    (coupled : { k with scopes }.Coupled post m m')
    (enter : ∀ sc sc', k.scopes sc sc' → scopes (b.toList ++ sc) (b'.toList ++ sc'))
    (keeps : KeepsScopes m)
    (keeps' : KeepsScopes m') :
    k.Coupled post (Eval.within b m) (Eval.within b' m') := by
  intro s s' states
  have ended := coupled (entered b s) (entered b' s')
    ⟨by simpa using enter _ _ states.scopes, by simpa using states.journal,
      by simpa using states.trace⟩
  rw [within_eq keeps, within_eq keeps']
  generalize m (entered b s) = run at ended ⊢
  obtain ⟨stop | a, t⟩ := run
  · intro failures
    obtain ⟨t', ran, after⟩ := ended failures
    rw [ran]
    exact ⟨_, rfl, states.scopes, after.journal, after.trace⟩
  · obtain ⟨holds, t', ran, after⟩ := ended
    rw [ran]
    exact ⟨holds, _, rfl, states.scopes, after.journal, after.trace⟩

/-- Look-ups of variables are coupled if they find the same values, and the second is that of the same
name if the first finds none. -/
theorem coupled_lookupLocal
    {good : Value → Prop} {name name' : String}
    (same : ∀ sc sc', k.scopes sc sc' → localValue? sc' name' = localValue? sc name)
    (found : ∀ sc sc' v, k.scopes sc sc' → localValue? sc name = some v → good v)
    (absent : ∀ sc sc', k.scopes sc sc' → localValue? sc name = none → name' = name) :
    k.Coupled good (lookupLocal name) (lookupLocal name') := by
  intro s s' states
  rw [lookupLocal_apply, lookupLocal_apply, same _ _ states.scopes]
  cases isBound : localValue? s.scopes name with
  | some v => exact coupled_pure (found _ _ v states.scopes isBound) s s' states
  | none =>
      rw [absent _ _ states.scopes isBound]
      exact coupled_fail _ s s' states

end Steps

end Coupling

/-! ### Plans -/

/-- The event that is reported where a comprehension has other variables. -/
def TraceEvent.withBinders (rename : String → String) : TraceEvent → TraceEvent
  | .comprehension name target binders => .comprehension name target (binders.map rename)
  | event => event

namespace Eval

/-- What changes where a node stands in a tree with other variables. -/
structure Retelling where
  /-- The variable that is looked up in place of another. -/
  reference : String → String
  /-- The variable that is bound in place of another. -/
  binder : String → String
  /-- What is evaluated in place of an operand. -/
  operand : Expr → Expr
  /-- What is evaluated in place of an expression in the scope of the node's variables. -/
  inner : Expr → Expr

namespace Retelling

variable (r : Retelling)

/-- The bindings that are made in place of others. -/
def bindings : Option Bindings → Option Bindings :=
  Option.map (List.map (Prod.map r.binder id))

/-- What is evaluated in place of an expression, for which bindings are made or not. -/
def expr : Option Bindings → Expr → Expr
  | none => r.operand
  | some _ => r.inner

/-- The retelling that changes nothing. -/
def refl : Retelling :=
  ⟨id, id, id, id⟩

@[simp] theorem bindings_refl
    (b : Option Bindings) :
    refl.bindings b = b := by
  cases b <;> simp [bindings, refl]

@[simp] theorem expr_refl
    (b : Option Bindings) (e : Expr) :
    refl.expr b e = e := by
  cases b <;> rfl

end Retelling

namespace Plan

open Coupling

variable {α β : Type}

/-- A plan, told of the other tree. -/
def retold (r : Retelling) : Plan α → Plan α
  | done a => done a
  | fail error => fail error
  | binder name next => binder (r.reference name) fun v => (next v).retold r
  | call depth node function args next => call depth node function args fun v => (next v).retold r
  | report event next => report (event.withBinders r.binder) (next.retold r)
  | ask depth bindings e next =>
      ask depth (r.bindings bindings) (r.expr bindings e) fun v => (next v).retold r

theorem retold_refl
    (p : Plan α) :
    p.retold .refl = p := by
  induction p with
  | done | fail => rfl
  | report event next ih =>
      rw [retold, ih]
      cases event <;> simp [TraceEvent.withBinders, Retelling.refl]
  | ask depth bindings e next ih =>
      rw [retold, funext ih, Retelling.bindings_refl, Retelling.expr_refl]
  | _ => simp_all [retold, Retelling.refl]

section Retold

variable {r : Retelling} {depth : Nat}

@[simp] theorem retold_bind
    (p : Plan α) (f : α → Plan β) :
    (p >>= f).retold r = p.retold r >>= fun a => (f a).retold r := by
  show (p.bind f).retold r = (p.retold r).bind fun a => (f a).retold r
  induction p with
  | _ => simp_all [bind, retold]

@[simp] theorem retold_pure
    (a : α) :
    (pure a : Plan α).retold r = pure a := rfl

@[simp] theorem retold_ofOutcome
    (o : Outcome α) :
    (ofOutcome o).retold r = ofOutcome o := by
  cases o <;> rfl

@[simp] theorem retold_ite
    (b : Bool) (p q : Plan α) :
    (if b then p else q).retold r = if b then p.retold r else q.retold r := by
  cases b <;> rfl

@[simp] theorem retold_value
    (e : Expr) :
    (value depth e).retold r = value depth (r.operand e) := rfl

@[simp] theorem retold_step
    (binders : List String) (e : Expr) (s : Step) :
    (step depth binders e s).retold r = step depth (binders.map r.binder) (r.inner e) s := by
  simp [step, retold, Retelling.bindings, Retelling.expr, List.zip_map_left]

@[simp] theorem retold_condition
    (e : Expr) :
    (condition depth e).retold r = condition depth (r.operand e) := by
  simp [condition]

@[simp] theorem retold_test
    (binders : List String) (e : Expr) (s : Step) :
    (test depth binders e s).retold r = test depth (binders.map r.binder) (r.inner e) s := by
  simp [test]

@[simp] theorem retold_passes
    (binders : List String) (guard : Option Expr) (s : Step) :
    (passes depth binders guard s).retold r =
      passes depth (binders.map r.binder) (guard.map r.inner) s := by
  cases guard <;> simp [passes]

@[simp] theorem retold_items
    (es : List Expr) :
    (items depth es).retold r = items depth (es.map r.operand) := by
  induction es with
  | nil => rfl
  | cons e rest ih => simp [items, ih]

@[simp] theorem retold_entries
    (es : List (Expr × Expr)) (written : List (Key × Value)) :
    (entries depth written es).retold r =
      entries depth written (es.map (Prod.map r.operand r.operand)) := by
  induction es generalizing written with
  | nil => rfl
  | cons e rest ih => simp [entries, ih]

@[simp] theorem retold_all
    (holds : Step → Plan Bool) (steps : List Step) :
    (all holds steps).retold r = all (fun s => (holds s).retold r) steps := by
  induction steps with
  | nil => rfl
  | cons s rest ih => simp [all, ih]

@[simp] theorem retold_any
    (holds : Step → Plan Bool) (steps : List Step) :
    (any holds steps).retold r = any (fun s => (holds s).retold r) steps := by
  induction steps with
  | nil => rfl
  | cons s rest ih => simp [any, ih]

@[simp] theorem retold_keep
    (holds : Step → Plan Bool) (steps : List Step) :
    (keep holds steps).retold r = keep (fun s => (holds s).retold r) steps := by
  induction steps with
  | nil => rfl
  | cons s rest ih => simp [keep, ih]

@[simp] theorem retold_transform
    (passing : Step → Plan Bool) (result : Step → Plan Value) (steps : List Step) :
    (transform passing result steps).retold r =
      transform (fun s => (passing s).retold r) (fun s => (result s).retold r) steps := by
  induction steps with
  | nil => rfl
  | cons s rest ih => simp [transform, ih]

end Retold

/-- The plan of a node is the same in environments that give the same meaning to a name at the node and
agree on whether the function that the node calls is there. -/
theorem node_congr
    {env env' : Environment} {depth : Nat} {e : Expr}
    (free : ∀ name, e.identName? = some name → lookup env' name = lookup env name)
    (called : ∀ name, e.calledName? = some name →
      env'.context.hasFunction name = env.context.hasFunction name) :
    node env' depth e = node env depth e := by
  cases e with
  | ident m name => rw [node, node, free name rfl]
  | call m name target args => rw [node, node, callNamed, callNamed, called name rfl]
  | unary m op operand => cases op <;> rfl
  | _ => rfl

/-- A plan and the plan as it is retold run side by side if all that the plan may do does. -/
theorem Abides.coupled
    {k : Coupling} {c : Terms} {post : α → Prop} {p : Plan α} {r : Retelling}
    {env env' : Environment}
    (abides : p.Abides c post)
    (names : ∀ name, c.names name →
      k.Coupled c.good (lookupLocal name) (lookupLocal (r.reference name)))
    (asks : ∀ depth bindings e, c.asks bindings e →
      k.Coupled c.given (within bindings (evalAt env depth e))
        (within (r.bindings bindings) (evalAt env' depth (r.expr bindings e))))
    (calls : ∀ depth callSite function args, c.calls function args →
      k.Coupled c.good (callFunction env depth callSite function args)
        (callFunction env' depth callSite function args))
    (reports : k.traces → env'.debug = env.debug ∧ r.binder = id) :
    k.Coupled post (p.run env) ((p.retold r).run env') := by
  induction p with
  | done a => exact coupled_pure abides
  | fail error => exact coupled_fail error
  | report event next ih =>
      refine (coupled_report fun traces => ?_).bind fun _ _ => ih abides
      obtain ⟨sameDebug, sameBinders⟩ := reports traces
      rw [sameBinders]
      refine ⟨sameDebug, ?_⟩
      cases event <;> simp [TraceEvent.withBinders]
  | binder name next ih =>
      exact (names name abides.1).bind fun v good => ih v (abides.2 v good)
  | call depth node function args next ih =>
      exact (calls _ _ _ _ abides.1).bind fun v good => ih v (abides.2 v good)
  | ask depth bindings e next ih =>
      exact (asks depth bindings e abides.1).bind fun v given => ih v (abides.2 v given)

/-- A plan runs side by side with itself if all that it may do does. -/
theorem Abides.coupled_self
    {k : Coupling} {c : Terms} {post : α → Prop} {p : Plan α} {env env' : Environment}
    (abides : p.Abides c post)
    (names : ∀ name, c.names name → k.Coupled c.good (lookupLocal name) (lookupLocal name))
    (asks : ∀ depth bindings e, c.asks bindings e →
      k.Coupled c.given (within bindings (evalAt env depth e))
        (within bindings (evalAt env' depth e)))
    (calls : ∀ depth callSite function args, c.calls function args →
      k.Coupled c.good (callFunction env depth callSite function args)
        (callFunction env' depth callSite function args))
    (debug : k.traces → env'.debug = env.debug) :
    k.Coupled post (p.run env) (p.run env') := by
  have told : k.Coupled post (p.run env) ((p.retold .refl).run env') := by
    refine abides.coupled names (fun depth bindings e allowed => ?_) calls fun traces =>
      ⟨debug traces, rfl⟩
    rw [Retelling.bindings_refl, Retelling.expr_refl]
    exact asks depth bindings e allowed
  rwa [retold_refl] at told

end Plan

/-- Evaluations of nodes with the same number are coupled if the runs of their plans are. -/
theorem coupled_evalAt_succ
    {k : Coupling} {post : Value → Prop} {env env' : Environment} {depth : Nat} {e e' : Expr}
    (plans : k.Coupled post ((Plan.node env depth e).run env) ((Plan.node env' depth e').run env'))
    (sameNode : e'.id = e.id) :
    k.Coupled post (evalAt env (depth + 1) e) (evalAt env' (depth + 1) e') := by
  rw [evalAt_eq_run, evalAt_eq_run, sameNode]
  exact plans.attributed

end Eval

/-! ### Executions -/

/-- Executions whose evaluations are coupled come to the same result and leave the same notes, and
make the same reports if the coupling asks for it; where failures do not matter, if the first comes to
a value. -/
theorem Program.execute_of_coupled
    {k : Coupling} {post : Value → Prop} {p q : Program} {context context' : Context}
    (coupled : k.Coupled post (Eval.evalAt (p.environment context) evaluationDepth p.root)
      (Eval.evalAt (q.environment context') evaluationDepth q.root))
    (start : k.scopes [] [])
    (ends : k.failures ∨ ∃ v, (p.execute context).result = .ok v) :
    (q.execute context').result = (p.execute context).result ∧
      (q.execute context').journal = (p.execute context).journal ∧
      (k.traces → (q.execute context').trace = (p.execute context).trace) := by
  have ended := coupled .initial .initial ⟨start, rfl, fun _ => rfl⟩
  obtain ⟨r, t, t', ran, ran', states⟩ : ∃ r t t',
      Eval.evalAt (p.environment context) evaluationDepth p.root .initial = (r, t) ∧
        Eval.evalAt (q.environment context') evaluationDepth q.root .initial = (r, t') ∧
        k.States t t' := by
    rcases ran : Eval.evalAt (p.environment context) evaluationDepth p.root .initial with
      ⟨stop | v, t⟩ <;> rw [ran] at ended
    · have failures : k.failures := by
        refine ends.resolve_right fun ⟨v, isValue⟩ => ?_
        have := result_of_execute_ok isValue
        rw [Eval.Evaluation.result, evaluation, ran] at this
        cases this
      obtain ⟨t', ran', states⟩ := ended failures
      exact ⟨_, t, t', rfl, ran', states⟩
    · obtain ⟨-, t', ran', states⟩ := ended
      exact ⟨_, t, t', rfl, ran', states⟩
  unfold environment at ran ran'
  simp only [execute, ran, ran', states.journal]
  exact ⟨trivial, trivial, fun traces => by rw [states.trace traces]⟩

/-- With the same reports the whole executions are the same. -/
theorem Program.execute_eq_of_coupled
    {k : Coupling} {post : Value → Prop} {p q : Program} {context context' : Context}
    (coupled : k.Coupled post (Eval.evalAt (p.environment context) evaluationDepth p.root)
      (Eval.evalAt (q.environment context') evaluationDepth q.root))
    (start : k.scopes [] [])
    (ends : k.failures ∨ ∃ v, (p.execute context).result = .ok v)
    (traces : k.traces) :
    q.execute context' = p.execute context := by
  obtain ⟨result, journal, trace⟩ := execute_of_coupled coupled start ends
  have trace := trace traces
  generalize p.execute context = execution, q.execute context' = execution' at *
  cases execution
  cases execution'
  cases result
  cases journal
  cases trace
  rfl

end ExprLang
