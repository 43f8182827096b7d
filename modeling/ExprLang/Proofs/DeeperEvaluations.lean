import ExprLang.Proofs.CoupledCalls
import ExprLang.Proofs.StartedEvaluations

/-!
# Deeper evaluations

An evaluation that does not run out of depth comes to the same result if it may go deeper.  Nor does the
result depend on the notes and reports of what was evaluated before, or on variables of comprehensions
that are referred to nowhere.

One evaluation *follows* another if it comes to the same result wherever the other does not run out of
depth, from all states that agree on the variables in use.

* `Follows.bind`, `Follows.outcome`, `Follows.within`: steps that follow make runs that follow.
* `Plan.deepened`: a plan that asks for deeper evaluations; `Plan.node_deepened`: the plan of a node
  further from the limit.
* `follows_callFunction`, `follows_evalAt`: calls and evaluations.
* `evalAt_deeper`: more depth changes nothing, whatever the host functions are.
-/

namespace ExprLang

open EvalM (KeepsScopes bind_apply)

/-- Host functions that resolve certain names only. -/
def HostTerms.resolving (names : String → Prop) : HostTerms where
  resolves := names
  reads _ := True
  calls _ := True
  good _ := True
  catches := True

/-- All host functions keep to terms that allow everything. -/
theorem HostProgram.within_resolving_all
    (program : HostProgram) :
    program.Within (.resolving fun _ => True) := by
  induction program with
  | finish => exact fun _ _ => trivial
  | raise | fail => trivial
  | note entry next ih => exact ih
  | «variable» name next ih => exact ⟨trivial, fun found _ => ih found⟩
  | resolve name next ih => exact ⟨trivial, fun v _ => ih _, fun e => ⟨ih _, .inl trivial⟩⟩
  | call function args next ih =>
      exact ⟨trivial, fun _ _ => trivial, fun v _ => ih _, fun e => ⟨ih _, .inl trivial⟩⟩

theorem Context.hostsWithin_resolving_all
    (c : Context) :
    c.HostsWithin (.resolving fun _ => True) :=
  fun _ _ _ _ _ _ _ _ _ _ => HostProgram.within_resolving_all _

namespace Eval

variable {α β : Type} {names : String → Prop} {sc sc' : List Bindings}

/-- Whether certain names have the same values in two scope stacks. -/
def SameOn
    (names : String → Prop)
    (sc sc' : List Bindings) : Prop :=
  ∀ name, names name → localValue? sc' name = localValue? sc name

theorem SameOn.symm
    (same : SameOn names sc sc') :
    SameOn names sc' sc :=
  fun name isName => (same name isName).symm

theorem SameOn.enter
    (same : SameOn names sc sc')
    (entered : List Bindings) :
    SameOn names (entered ++ sc) (entered ++ sc') := by
  intro name isName
  simp only [localValue?, List.findSome?_append]
  exact congrArg _ (same name isName)

/-- Whether the second of two evaluations comes to the same result as the first, unless the first runs
out of depth, wherever they start with the same values of certain names. -/
structure Follows
    (names : String → Prop)
    (m m' : EvalM α) : Prop where
  keeps : KeepsScopes m
  keeps' : KeepsScopes m'
  ends : ∀ s s', SameOn names s.scopes s'.scopes → (m s).1 ≠ .error .outOfDepth →
    (m' s').1 = (m s).1

/-! ### Steps -/

section Steps

variable {m m' : EvalM α}

theorem follows_pure
    (a : α) :
    Follows names (pure a : EvalM α) (pure a) :=
  ⟨EvalM.keepsScopes_pure a, EvalM.keepsScopes_pure a, fun _ _ _ _ => rfl⟩

theorem follows_fail
    (error : RuntimeError) :
    Follows names (EvalM.fail error : EvalM α) (EvalM.fail error) :=
  ⟨EvalM.keepsScopes_fail error, EvalM.keepsScopes_fail error, fun _ _ _ _ => rfl⟩

theorem follows_ofOutcome
    (o : Outcome α) :
    Follows names (EvalM.ofOutcome o) (EvalM.ofOutcome o) := by
  cases o with
  | ok a => exact follows_pure a
  | error e => exact follows_fail e

theorem follows_note
    (entry : String) :
    Follows names (EvalM.note entry) (EvalM.note entry) :=
  ⟨EvalM.keepsScopes_note entry, EvalM.keepsScopes_note entry, fun _ _ _ _ => rfl⟩

theorem follows_report
    (env : Environment) (event : TraceEvent) :
    Follows names (EvalM.report env event) (EvalM.report env event) := by
  have keeps := EvalM.keepsScopes_report env event
  refine ⟨keeps, keeps, fun s s' _ _ => ?_⟩
  have given : ∀ s, (EvalM.report env event s).1 = .ok () := fun s =>
    congrArg Prod.fst (EvalM.report_apply env event s)
  rw [given, given]

/-- Whatever follows an evaluation that has run out of depth. -/
theorem follows_outOfDepth
    (keeps' : KeepsScopes m') :
    Follows names (throw .outOfDepth) m' :=
  ⟨EvalM.keepsScopes_throw _, keeps', fun _ _ _ enough => absurd rfl enough⟩

theorem Follows.bind
    {f f' : α → EvalM β}
    (first : Follows names m m')
    (second : ∀ a, Follows names (f a) (f' a)) :
    Follows names (m >>= f) (m' >>= f') := by
  refine ⟨first.keeps.bind fun a => (second a).keeps,
    first.keeps'.bind fun a => (second a).keeps', fun s s' same enough => ?_⟩
  have ended := first.ends s s' same
  have scopes := first.keeps s
  have scopes' := first.keeps' s'
  rw [bind_apply] at enough
  rw [bind_apply, bind_apply]
  generalize m s = run, m' s' = run' at *
  obtain ⟨r, t⟩ := run
  obtain ⟨r', t'⟩ := run'
  cases r with
  | error stop =>
      have stopped : stop ≠ .outOfDepth := fun out => enough (congrArg Except.error out)
      obtain rfl : r' = .error stop := ended fun out => stopped (Except.error.inj out)
      rfl
  | ok a =>
      obtain rfl : r' = .ok a := ended nofun
      refine (second a).ends t t' ?_ enough
      rwa [scopes, scopes']

theorem Follows.attributed
    (follows : Follows names m m')
    (node : Nat) :
    Follows names (EvalM.attributed node m) (EvalM.attributed node m') := by
  refine ⟨follows.keeps.attributed node, follows.keeps'.attributed node, fun s s' same enough => ?_⟩
  have ended := follows.ends s s' same
  unfold EvalM.attributed at enough ⊢
  generalize m s = run, m' s' = run' at *
  obtain ⟨(⟨error, _ | found⟩ | _) | a, t⟩ := run
  case error.outOfDepth => exact absurd rfl enough
  all_goals
    obtain ⟨r', t'⟩ := run'
    cases ended nofun
    rfl

theorem Follows.outcome
    (follows : Follows names m m') :
    Follows names (EvalM.outcome m) (EvalM.outcome m') := by
  refine ⟨follows.keeps.outcome, follows.keeps'.outcome, fun s s' same enough => ?_⟩
  have ended := follows.ends s s' same
  unfold EvalM.outcome at enough ⊢
  generalize m s = run, m' s' = run' at *
  obtain ⟨(⟨error, found⟩ | _) | a, t⟩ := run
  case error.outOfDepth => exact absurd rfl enough
  all_goals
    obtain ⟨r', t'⟩ := run'
    cases ended nofun
    rfl

theorem Follows.within
    (follows : Follows names m m')
    (bindings : Option Bindings) :
    Follows names (within bindings m) (Eval.within bindings m') := by
  refine ⟨keepsScopes_within follows.keeps bindings, keepsScopes_within follows.keeps' bindings,
    fun s s' same enough => ?_⟩
  rw [within_result] at enough
  rw [within_result, within_result]
  refine follows.ends _ _ ?_ enough
  rw [scopes_entered, scopes_entered]
  exact same.enter _

theorem follows_lookupLocal
    {name : String}
    (inUse : names name) :
    Follows names (lookupLocal name) (lookupLocal name) := by
  refine ⟨keepsScopes_lookupLocal name, keepsScopes_lookupLocal name, fun s s' same _ => ?_⟩
  rw [lookupLocal_apply, lookupLocal_apply, same name inUse]
  cases localValue? s.scopes name <;> rfl

theorem follows_resolve
    {env : Environment} {name : String}
    (inUse : names name) :
    Follows names (resolve env name) (resolve env name) := by
  refine ⟨keepsScopes_resolve env name, keepsScopes_resolve env name, fun s s' same _ => ?_⟩
  rw [resolve_apply, resolve_apply, same name inUse]
  cases localValue? s.scopes name with
  | some v => rfl
  | none => cases lookup env name <;> rfl

end Steps

/-! ### Calls -/

section Calls

variable {env : Environment} {call call' : String → List Value → EvalM Value}

theorem follows_runProgram
    (calls : ∀ function args, Follows names (call function args) (call' function args))
    (f : HostFunction)
    {program : HostProgram}
    (within : program.Within (.resolving names)) :
    Follows names (runProgram env call f program) (runProgram env call' f program) := by
  induction program with
  | finish result => exact follows_ofOutcome _
  | raise e => exact (follows_report env _).bind fun _ => follows_fail _
  | fail e => exact follows_fail e
  | note entry next ih => exact (follows_note entry).bind fun _ => ih within
  | «variable» name next ih => exact ih _ (within.2 _ fun _ _ => trivial)
  | resolve name next ih =>
      obtain ⟨inUse, values, errors⟩ := within
      refine (follows_resolve inUse).outcome.bind fun found => ih found ?_
      cases found with
      | ok v => exact values v trivial
      | error e => exact (errors e).1
  | call function args next ih =>
      obtain ⟨-, -, values, errors⟩ := within
      refine (calls function args).outcome.bind fun found => ih found ?_
      cases found with
      | ok v => exact values v trivial
      | error e => exact (errors e).1

/-- A call comes to the same result where the calls of host functions may nest more deeply. -/
theorem follows_callFunction
    (hosts : env.context.HostsWithin (.resolving names))
    (depth k : Nat) (callSite : Option Nat) (name : String) (args : List Value) :
    Follows names (callFunction env depth callSite name args)
      (callFunction env (depth + k) callSite name args) := by
  induction depth generalizing name args with
  | zero => exact follows_outOfDepth (keepsScopes_callFunction env _ _ _ _)
  | succ depth ih =>
      rw [Nat.add_right_comm, callFunction, callFunction]
      cases found : env.context.overloads? name with
      | none => exact follows_fail _
      | some functions =>
          refine (follows_report env _).bind fun _ => ?_
          cases isChosen : HostFunction.choose name functions args callSite with
          | error e => exact follows_fail e
          | ok chosen =>
              rw [EvalM.ofOutcome_ok, pure_bind, pure_bind]
              obtain ⟨member, bound⟩ := HostFunction.mem_of_choose isChosen
              exact follows_runProgram ih chosen.1
                (hosts name functions found chosen.1 member _ args _ (fun _ _ => trivial) bound)

end Calls

/-! ### Plans -/

namespace Plan

/-- The plan that may go deeper at each step. -/
def deepened (k : Nat) : Plan α → Plan α
  | done a => done a
  | fail error => fail error
  | binder name next => binder name fun v => (next v).deepened k
  | call depth node function args next =>
      call (depth + k) node function args fun v => (next v).deepened k
  | report event next => report event (next.deepened k)
  | ask depth bindings e next => ask (depth + k) bindings e fun v => (next v).deepened k

section Deepened

variable {k depth node : Nat}

@[simp] theorem deepened_bind
    (p : Plan α) (f : α → Plan β) :
    (p >>= f).deepened k = p.deepened k >>= fun a => (f a).deepened k := by
  show (p.bind f).deepened k = (p.deepened k).bind fun a => (f a).deepened k
  induction p with
  | _ => simp_all [bind, deepened]

@[simp] theorem deepened_pure
    (a : α) :
    (pure a : Plan α).deepened k = pure a := rfl

@[simp] theorem deepened_ofOutcome
    (o : Outcome α) :
    (ofOutcome o).deepened k = ofOutcome o := by
  cases o <;> rfl

@[simp] theorem deepened_ite
    (b : Bool) (p q : Plan α) :
    (if b then p else q).deepened k = if b then p.deepened k else q.deepened k := by
  cases b <;> rfl

@[simp] theorem deepened_value
    (e : Expr) :
    (value depth e).deepened k = value (depth + k) e := rfl

@[simp] theorem deepened_step
    (binders : List String) (e : Expr) (s : Step) :
    (step depth binders e s).deepened k = step (depth + k) binders e s := rfl

@[simp] theorem deepened_condition
    (e : Expr) :
    (condition depth e).deepened k = condition (depth + k) e := by
  simp [condition]

@[simp] theorem deepened_test
    (binders : List String) (e : Expr) (s : Step) :
    (test depth binders e s).deepened k = test (depth + k) binders e s := by
  simp [test]

@[simp] theorem deepened_passes
    (binders : List String) (guard : Option Expr) (s : Step) :
    (passes depth binders guard s).deepened k = passes (depth + k) binders guard s := by
  cases guard <;> simp [passes]

@[simp] theorem deepened_items
    (es : List Expr) :
    (items depth es).deepened k = items (depth + k) es := by
  induction es with
  | nil => rfl
  | cons e rest ih => simp [items, ih]

@[simp] theorem deepened_entries
    (es : List (Expr × Expr)) (written : List (Key × Value)) :
    (entries depth written es).deepened k = entries (depth + k) written es := by
  induction es generalizing written with
  | nil => rfl
  | cons e rest ih => simp [entries, ih]

@[simp] theorem deepened_all
    (holds : Step → Plan Bool) (steps : List Step) :
    (all holds steps).deepened k = all (fun s => (holds s).deepened k) steps := by
  induction steps with
  | nil => rfl
  | cons s rest ih => simp [all, ih]

@[simp] theorem deepened_any
    (holds : Step → Plan Bool) (steps : List Step) :
    (any holds steps).deepened k = any (fun s => (holds s).deepened k) steps := by
  induction steps with
  | nil => rfl
  | cons s rest ih => simp [any, ih]

@[simp] theorem deepened_keep
    (holds : Step → Plan Bool) (steps : List Step) :
    (keep holds steps).deepened k = keep (fun s => (holds s).deepened k) steps := by
  induction steps with
  | nil => rfl
  | cons s rest ih => simp [keep, ih]

@[simp] theorem deepened_transform
    (passing : Step → Plan Bool) (result : Step → Plan Value) (steps : List Step) :
    (transform passing result steps).deepened k =
      transform (fun s => (passing s).deepened k) (fun s => (result s).deepened k) steps := by
  induction steps with
  | nil => rfl
  | cons s rest ih => simp [transform, ih]

theorem deepened_binary
    (op : BinaryOp) (left right : Expr) :
    (binary depth op left right).deepened k = binary (depth + k) op left right := by
  cases op with
  | add => cases sum : isSum left <;> simp [binary, sum, Nat.add_right_comm]
  | _ => simp [binary]

theorem deepened_invoke
    (callee : Expr) (args : List Expr) :
    (invoke depth node callee args).deepened k = invoke (depth + k) node callee args := by
  simp only [invoke, deepened_bind, deepened_value]
  congr 1
  funext v
  cases v <;> simp [deepened]

theorem deepened_overSteps
    (kind : Comprehension) (binders : List String) (guard : Option Expr) (body : Expr)
    (steps : List Step) :
    (overSteps depth kind binders guard body steps).deepened k =
      overSteps (depth + k) kind binders guard body steps := by
  cases kind <;> simp [overSteps]

end Deepened

/-- The plan of a node whose sub-expressions may be evaluated more deeply. -/
theorem node_deepened
    (env : Environment) (depth k : Nat) (e : Expr) :
    node env (depth + k) e = (node env depth e).deepened k := by
  cases e with
  | unary m op operand => cases op <;> simp [node]
  | binary m op left right => exact (deepened_binary op left right).symm
  | has m access => cases access <;> simp [node, has, deepened]
  | invoke m callee args => exact (deepened_invoke callee args).symm
  | comprehension m kind target binders guard body =>
      simp [node, comprehension, deepened_overSteps, deepened]
  | call m function target args =>
      cases declared : env.context.hasFunction function <;>
        simp [node, callNamed, declared, deepened]
  | _ => simp [node, deepened]

/-- The run of a deepened plan follows that of the plan if all that the plan may do does. -/
theorem Abides.follows
    {c : Terms} {post : α → Prop} {p : Plan α} {env : Environment} {k : Nat}
    (abides : p.Abides c post)
    (good : ∀ v, c.good v)
    (given : ∀ v, c.given v)
    (inUse : ∀ name, c.names name → names name)
    (asks : ∀ depth bindings e, c.asks bindings e →
      Follows names (evalAt env depth e) (evalAt env (depth + k) e))
    (calls : ∀ depth callSite function args,
      Follows names (callFunction env depth callSite function args)
        (callFunction env (depth + k) callSite function args)) :
    Follows names (p.run env) ((p.deepened k).run env) := by
  induction p with
  | done a => exact follows_pure a
  | fail error => exact follows_fail error
  | report event next ih => exact (follows_report env event).bind fun _ => ih abides
  | binder name next ih =>
      exact (follows_lookupLocal (inUse name abides.1)).bind fun v => ih v (abides.2 v (good v))
  | call depth node function args next ih =>
      exact (calls _ _ _ _).bind fun v => ih v (abides.2 v (good v))
  | ask depth bindings e next ih =>
      exact ((asks depth bindings e abides.1).within bindings).bind fun v =>
        ih v (abides.2 v (given v))

/-- Terms by which a node looks up the variable that it refers to, and evaluates what stands inside
it. -/
def Terms.referring (e : Expr) : Terms :=
  { Terms.inside e with names := fun name => ∃ m, e = .localRef m name }

theorem abides_referring
    (env : Environment) (depth : Nat) (e : Expr) :
    (node env depth e).Abides (.referring e) fun _ => True := by
  refine abides_node stable_true ?_
  exact
    { literal := fun _ _ _ => trivial
      ident := fun _ _ _ _ _ => trivial
      names := fun m name same => ⟨m, same⟩
      operands := fun _ operand => Expr.inside_of_mem_operands operand
      steps := fun _ _ _ _ _ _ _ _ inner =>
        Expr.inside_of_mem_children (Expr.mem_children_of_inner inner)
      calls := fun _ _ _ _ => trivial }

end Plan

/-! ### Expressions -/

/-- Whether an expression refers to certain variables of comprehensions only. -/
def RefersWithin
    (names : String → Prop)
    (e : Expr) : Prop :=
  Expr.Everywhere (fun x => ∀ m name, x = .localRef m name → names name) e

variable {env : Environment} {e : Expr} {s s' : EvalState}

/-- A deeper evaluation follows an evaluation, from states that agree on the variables that expression
and host functions use. -/
theorem follows_evalAt
    (hosts : env.context.HostsWithin (.resolving names))
    (refers : RefersWithin names e)
    (depth k : Nat) :
    Follows names (evalAt env depth e) (evalAt env (depth + k) e) := by
  -- By induction on the tree and not on the depth: a sum asks for the sum in front of it at its own
  -- depth.
  induction e using Expr.induction_inside generalizing depth with
  | node e ih =>
      cases depth with
      | zero => exact follows_outOfDepth (keepsScopes_evalAt env _ _)
      | succ depth =>
          rw [Nat.add_right_comm, evalAt_eq_run, evalAt_eq_run, Plan.node_deepened]
          refine Follows.attributed ?_ e.id
          refine (Plan.abides_referring env depth e).follows (fun _ => trivial) (fun _ => trivial)
            (fun name ⟨m, same⟩ => refers.root m name same) (fun depth _ x inside => ?_)
            fun depth callSite function args => follows_callFunction hosts depth k _ _ _
          exact ih x inside (refers.inside inside) depth

/-- An evaluation that does not run out of depth comes to the same result where it may go deeper. -/
theorem evalAt_deeper
    {depth : Nat}
    (enough : (evalAt env depth e s).1 ≠ .error .outOfDepth)
    (same : s'.scopes = s.scopes)
    (k : Nat) :
    (evalAt env (depth + k) e s').1 = (evalAt env depth e s).1 := by
  have refers : RefersWithin (fun _ => True) e := fun _ _ _ _ _ => trivial
  have follows := follows_evalAt env.context.hostsWithin_resolving_all refers depth k
  exact follows.ends s s' (fun _ _ => by rw [same]) enough

end Eval
end ExprLang
