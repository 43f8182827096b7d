import ExprLang.Proofs.Coupling

/-!
# Host functions in two runs

What a host function does depends on the evaluation around it through the names that it resolves, the
variables that it looks up and the functions that it calls.  `HostTerms` say which of these a host
function may ask for and what values it gives; host functions that keep to them run side by side in
environments that agree on what they may ask for.

* `HostProgram.Fails`: programs that end with no value.
* `HostFunction.Within`: host functions that keep to terms.
* `HostFunction.choose_append`: a function that takes the arguments is chosen whatever follows it.
* `HostsAgree.callFunction`: calls of such host functions are coupled.
-/

namespace ExprLang

/-! ### What host functions keep to -/

/-- What the steps of a host function keep to. -/
structure HostTerms where
  /-- The names that are resolved. -/
  resolves : String → Prop
  /-- The variables that are looked up. -/
  reads : String → Prop
  /-- The functions that are called. -/
  calls : String → Prop
  /-- The values that are passed on and given back. -/
  good : Value → Prop
  /-- Whether a host function may come to a value although something that it asked for failed. -/
  catches : Prop

namespace HostProgram

/-- Whether a program ends with no object, whatever it is answered. -/
def Fails : HostProgram → Prop
  | .finish _ => False
  | .raise _ => True
  | .fail _ => True
  | .note _ next => next.Fails
  | .resolve _ next => ∀ found, (next found).Fails
  | .variable _ next => ∀ found, (next found).Fails
  | .call _ _ next => ∀ found, (next found).Fails

/-- Whether a program keeps to terms as long as it is answered with good values. -/
def Within (h : HostTerms) : HostProgram → Prop
  | .finish result => ∀ v, result.toValue = .ok v → h.good v
  | .raise _ => True
  | .fail _ => True
  | .note _ next => next.Within h
  | .resolve name next =>
      h.resolves name ∧ (∀ v, h.good v → (next (.ok v)).Within h) ∧
        ∀ e, (next (.error e)).Within h ∧ (h.catches ∨ (next (.error e)).Fails)
  | .variable name next =>
      h.reads name ∧ ∀ found, (∀ v ∈ found, h.good v) → (next found).Within h
  | .call function args next =>
      h.calls function ∧ (∀ v ∈ args, h.good v) ∧ (∀ v, h.good v → (next (.ok v)).Within h) ∧
        ∀ e, (next (.error e)).Within h ∧ (h.catches ∨ (next (.error e)).Fails)

end HostProgram

/-- Whether a host function keeps to terms when it is called with good values. -/
def HostFunction.Within (h : HostTerms) (f : HostFunction) : Prop :=
  ∀ info args converted, (∀ v ∈ args, h.good v) → f.bind args = .ok converted →
    (f.body info converted).Within h

/-- Whether the host functions that are visible in a context keep to terms. -/
def Context.HostsWithin (h : HostTerms) (c : Context) : Prop :=
  ∀ name, ∀ fs ∈ c.overloads? name, ∀ f ∈ fs, f.Within h

theorem Context.hostsWithin_of_scopes
    {h : HostTerms} {c : Context}
    (each : ∀ s ∈ c, ∀ entry ∈ s.functions, ∀ f ∈ entry.2, f.Within h) :
    c.HostsWithin h := by
  intro name fs found
  obtain ⟨s, member, inScope⟩ := List.exists_of_findSome?_eq_some found
  exact each s member (name, fs) (mem_of_lookup_eq_some inScope)

/-! ### The choice of a function -/

namespace HostFunction

variable {args : List Value} {name : String} {callSite : Option Nat} {fs : List HostFunction}
  {chosen : HostFunction × List HostObject}

/-- Whether a function stands alone or not, the first that takes the arguments serves the call. -/
theorem choose_eq_ok :
    choose name fs args callSite = .ok chosen ↔ select args fs = some chosen := by
  unfold choose
  split
  next f =>
    rw [select]
    cases taken : f.bind args with
    | ok converted =>
        show (Except.ok (f, converted) : Outcome _) = .ok chosen ↔ some (f, converted) = some chosen
        rw [Except.ok.injEq, Option.some.injEq]
    | error e => exact ⟨nofun, nofun⟩
  · cases select args fs <;> simp

theorem select_append
    (others : List HostFunction)
    (selected : select args fs = some chosen) :
    select args (fs ++ others) = some chosen := by
  induction fs with
  | nil => cases selected
  | cons f rest ih =>
      rw [List.cons_append, select]
      rw [select] at selected
      cases taken : f.bind args with
      | ok converted => rwa [taken] at selected
      | error e =>
          rw [taken] at selected
          exact ih selected

/-- A function that takes the arguments is chosen whatever follows it. -/
theorem choose_append
    (others : List HostFunction)
    (isChosen : choose name fs args callSite = .ok chosen) :
    choose name (fs ++ others) args callSite = .ok chosen :=
  choose_eq_ok.mpr (select_append others (choose_eq_ok.mp isChosen))

/-- The function that serves a call is one of the functions and takes the arguments. -/
theorem mem_of_choose
    (isChosen : choose name fs args callSite = .ok chosen) :
    chosen.1 ∈ fs ∧ chosen.1.bind args = .ok chosen.2 := by
  have selected := choose_eq_ok.mp isChosen
  clear isChosen
  induction fs with
  | nil => cases selected
  | cons f rest ih =>
      rw [select] at selected
      cases taken : f.bind args with
      | ok converted =>
          rw [taken] at selected
          cases selected
          exact ⟨List.mem_cons_self, taken⟩
      | error e =>
          rw [taken] at selected
          obtain ⟨member, bound⟩ := ih selected
          exact ⟨List.mem_cons_of_mem _ member, bound⟩

end HostFunction

/-! ### Side by side -/

namespace Coupling

open Eval (resolve runProgram callFunction)

/-- A program that ends with no object makes the call fail. -/
theorem fails_runProgram
    {env : Environment} {call : String → List Value → EvalM Value} {f : HostFunction}
    {program : HostProgram}
    (fails : program.Fails)
    (s : EvalState) :
    ∃ stop t, runProgram env call f program s = (.error stop, t) := by
  have onward : ∀ {α : Type} {m : EvalM α} {g : α → EvalM Value} {s : EvalState},
      (∀ a t, ∃ stop u, g a t = (.error stop, u)) → ∃ stop u, (m >>= g) s = (.error stop, u) := by
    intro α m g s next
    rw [EvalM.bind_apply]
    rcases m s with ⟨stop | a, t⟩
    · exact ⟨stop, t, rfl⟩
    · exact next a t
  induction program generalizing s with
  | finish result => exact fails.elim
  | raise e => exact onward fun _ t => ⟨_, t, rfl⟩
  | fail e => exact ⟨_, s, rfl⟩
  | note entry next ih => exact onward fun _ t => ih fails t
  | resolve name next ih => exact onward fun found t => ih found (fails found) t
  | «variable» name next ih => exact ih _ (fails _) s
  | call function args next ih => exact onward fun found t => ih found (fails found) t

/-- Whether two environments agree on what host functions may ask for, and the host functions keep to
it.  Where failures do not matter, a function more may stand behind those of a name. -/
structure HostsAgree (k : Coupling) (h : HostTerms) (env env' : Environment) : Prop where
  debug : k.traces → env'.debug = env.debug
  catches : h.catches → k.failures
  resolves : ∀ name, h.resolves name → k.Coupled h.good (resolve env name) (resolve env' name)
  reads : ∀ name, h.reads name →
    env'.context.valueOf? name = env.context.valueOf? name ∧
      ∀ v ∈ env.context.valueOf? name, h.good v
  functions : ∀ name, h.calls name →
    env'.context.overloads? name = env.context.overloads? name ∨
      ¬k.failures ∧ ∃ f, env'.context.overloads? name =
        some ((env.context.overloads? name).getD [] ++ [f])
  within : ∀ name, h.calls name → ∀ fs ∈ env.context.overloads? name, ∀ f ∈ fs, f.Within h

namespace HostsAgree

variable {k : Coupling} {h : HostTerms} {env env' : Environment}

theorem runProgram
    (agree : k.HostsAgree h env env')
    {call call' : String → List Value → EvalM Value}
    (calls : ∀ function args, h.calls function → (∀ v ∈ args, h.good v) →
      k.Coupled h.good (call function args) (call' function args))
    (f : HostFunction)
    {program : HostProgram}
    (within : program.Within h) :
    k.Coupled h.good (runProgram env call f program) (runProgram env' call' f program) := by
  have passes : ∀ next : Outcome Value → HostProgram,
      (∀ e, (next (.error e)).Within h ∧ (h.catches ∨ (next (.error e)).Fails)) →
        ¬k.failures → ∀ e s, ∃ stop t, Eval.runProgram env call f (next (.error e)) s =
          (.error stop, t) := by
    intro next errors ignored e
    exact fails_runProgram ((errors e).2.resolve_left fun caught => ignored (agree.catches caught))
  induction program with
  | finish result =>
      refine coupled_ofOutcome fun v given => within v ?_
      unfold HostFunction.resultValue at given
      split at given <;> cases given
      assumption
  | raise e =>
      refine (coupled_report fun traces => ⟨agree.debug traces, rfl⟩).bind fun _ _ => ?_
      exact coupled_fail _
  | fail e => exact coupled_fail e
  | note entry next ih => exact (coupled_note entry).bind fun _ _ => ih within
  | «variable» name next ih =>
      obtain ⟨same, good⟩ := agree.reads name within.1
      rw [Eval.runProgram, Eval.runProgram, same]
      exact ih _ (within.2 _ good)
  | resolve name next ih =>
      obtain ⟨allowed, values, errors⟩ := within
      exact (agree.resolves name allowed).outcome_bind (fun v good => ih _ (values v good))
        (fun e _ => ih _ (errors e).1) (passes next errors)
  | call function args next ih =>
      obtain ⟨allowed, goodArgs, values, errors⟩ := within
      exact (calls function args allowed goodArgs).outcome_bind
        (fun v good => ih _ (values v good)) (fun e _ => ih _ (errors e).1) (passes next errors)

/-- Calls are coupled, however deeply the calls that host functions make nest. -/
theorem callFunction
    (agree : k.HostsAgree h env env')
    (depth : Nat) (callSite : Option Nat)
    {name : String} {args : List Value}
    (allowed : h.calls name)
    (goodArgs : ∀ v ∈ args, h.good v) :
    k.Coupled h.good (callFunction env depth callSite name args)
      (callFunction env' depth callSite name args) := by
  induction depth generalizing name args with
  | zero => exact coupled_throw _
  | succ depth ih =>
      have serve : ∀ fs ∈ env.context.overloads? name, ∀ chosen : HostFunction × List HostObject,
          HostFunction.choose name fs args callSite = .ok chosen →
            k.Coupled h.good
              (Eval.runProgram env (Eval.callFunction env depth callSite) chosen.1
                (chosen.1.body ⟨name, callSite⟩ chosen.2))
              (Eval.runProgram env' (Eval.callFunction env' depth callSite) chosen.1
                (chosen.1.body ⟨name, callSite⟩ chosen.2)) := by
        intro fs found chosen isChosen
        obtain ⟨member, bound⟩ := HostFunction.mem_of_choose isChosen
        exact agree.runProgram (fun function args => ih) _
          (agree.within name allowed fs found _ member _ args _ goodArgs bound)
      rw [Eval.callFunction, Eval.callFunction]
      have reported : k.Coupled (fun _ => True)
          (EvalM.report env (.call name (args.map Value.typeName)))
          (EvalM.report env' (.call name (args.map Value.typeName))) :=
        coupled_report fun traces => ⟨agree.debug traces, rfl⟩
      rcases agree.functions name allowed with same | ⟨ignored, f, added⟩
      · rw [same]
        cases found : env.context.overloads? name with
        | none => exact coupled_fail _
        | some fs =>
            refine reported.bind fun _ _ => ?_
            exact (coupled_ofOutcome fun _ isChosen => isChosen).bind fun chosen => serve fs found chosen
      · rw [added]
        cases found : env.context.overloads? name with
        | none => exact coupled_of_fails ignored fun s => ⟨_, s, rfl⟩
        | some fs =>
            refine reported.bind fun _ _ => ?_
            cases chosen : HostFunction.choose name fs args callSite with
            | error e => exact coupled_of_fails ignored fun s => ⟨_, s, rfl⟩
            | ok c =>
                rw [Option.getD_some, HostFunction.choose_append [f] chosen, EvalM.ofOutcome_ok,
                  pure_bind, pure_bind]
                exact serve fs found c chosen

end HostsAgree

end Coupling
end ExprLang
