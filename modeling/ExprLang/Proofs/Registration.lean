import ExprLang.Proofs.CoupledCalls
import ExprLang.Proofs.PrintedMeaning

/-!
# Registering one more function

A function that is registered behind the visible functions of its name, or under a name that nothing
else has, is asked only where a call or a name would fail without it.  So an execution that comes to a
value comes to the same value afterwards, by the same calls, as long as no host function turns an error
of what it asked for into a value.

* `Context.overloads?_register`: what is visible after a registration.
* `Plan.node_eq_or_fails`: the plan of a node is the same, or fails at once without the function.
* `execute_registered`: executions that come to a value are unchanged.
-/

namespace ExprLang

namespace Context

/-- How many scopes outwards the functions of a name are found. -/
def functionLevel? (chain : Context) (name : String) : Option Nat :=
  chain.findIdx? fun s => (s.overloads? name).isSome

variable {chain : Context} {level : Nat} {s : Scope} {name : String}

/-- What a changed scope gives as before, the chain gives as before. -/
theorem findSome?_set
    {β : Type}
    {g : Scope → Option β} {s' : Scope}
    (inChain : chain[level]? = some s)
    (same : g s' = g s) :
    (chain.set level s').findSome? g = chain.findSome? g := by
  induction chain generalizing level with
  | nil => rfl
  | cons first rest ih =>
      cases level with
      | zero =>
          cases inChain
          rw [List.set_cons_zero, List.findSome?_cons, List.findSome?_cons, same]
      | succ level =>
          rw [List.set_cons_succ, List.findSome?_cons, List.findSome?_cons, ih inChain]

/-- Other names keep their functions. -/
theorem overloads?_register_other
    (inChain : chain[level]? = some s)
    (f : HostFunction)
    {other : String}
    (differs : other ≠ name) :
    overloads? (chain.set level (s.putFunction name f)) other = chain.overloads? other :=
  findSome?_set inChain (Assoc.lookup_put_other differs _)

/-- Where nothing hides it, a registered function stands behind the functions of its name. -/
theorem overloads?_register
    (inChain : chain[level]? = some s)
    (visible : chain.functionLevel? name = none ∨ chain.functionLevel? name = some level)
    (f : HostFunction) :
    overloads? (chain.set level (s.putFunction name f)) name =
      some ((chain.overloads? name).getD [] ++ [f]) := by
  induction chain generalizing level with
  | nil => cases inChain
  | cons s' rest ih =>
      have absent : s'.overloads? name = none → functionLevel? (s' :: rest) name =
          (functionLevel? rest name).map (· + 1) := by
        intro absent
        simp [functionLevel?, List.findIdx?_cons, absent]
      cases level with
      | zero =>
          cases inChain
          have put : (s.putFunction name f).overloads? name =
              some ((s.overloads? name).getD [] ++ [f]) := Assoc.lookup_put_self _
          simp only [overloads?, List.set_cons_zero, List.findSome?_cons, put]
          cases here : s.overloads? name with
          | some fs => rfl
          | none =>
              rw [absent here] at visible
              have nowhere : functionLevel? rest name = none := by simpa using visible
              simp only [functionLevel?, List.findIdx?_eq_none_iff] at nowhere
              have : rest.findSome? (·.overloads? name) = none :=
                List.findSome?_eq_none_iff.mpr fun s member => by simpa using nowhere s member
              rw [this]
      | succ level =>
          have here : s'.overloads? name = none := by
            cases here : s'.overloads? name with
            | none => rfl
            | some fs => simp [functionLevel?, List.findIdx?_cons, here] at visible
          rw [absent here] at visible
          have below := ih inChain (by simpa using visible)
          simp only [overloads?] at below
          simp only [overloads?, List.set_cons_succ, List.findSome?_cons, here, below]

/-- A registration binds no variable. -/
theorem valueOf?_register
    (inChain : chain[level]? = some s)
    (f : HostFunction) (other : String) :
    valueOf? (chain.set level (s.putFunction name f)) other = chain.valueOf? other :=
  findSome?_set inChain rfl

end Context

/-- Host functions that come to no value if something that they asked for failed. -/
def HostTerms.passing : HostTerms where
  resolves _ := True
  reads _ := True
  calls _ := True
  good _ := True
  catches := False

namespace Eval

open Coupling

/-- Whether a second environment has the same variables, and the same functions but for one that
stands behind those of its name. -/
structure Extends (env env' : Environment) : Prop where
  debug : env'.debug = env.debug
  valueOf? : ∀ name, env'.context.valueOf? name = env.context.valueOf? name
  overloads? : ∀ name, env'.context.overloads? name = env.context.overloads? name ∨
    ∃ f, env'.context.overloads? name = some ((env.context.overloads? name).getD [] ++ [f])

namespace Extends

variable {env env' : Environment} (extended : Extends env env')
include extended

theorem hasFunction
    {name : String}
    (declared : env.context.hasFunction name = true) :
    env'.context.hasFunction name = true := by
  unfold Context.hasFunction at declared ⊢
  rcases extended.overloads? name with same | ⟨f, added⟩
  · rwa [same]
  · rw [added]
    rfl

/-- What a name means it still means afterwards. -/
theorem lookup
    {name : String} {v : Value}
    (found : lookup env name = .ok v) :
    lookup env' name = .ok v := by
  unfold Eval.lookup at found ⊢
  rw [extended.valueOf? name]
  cases isBound : env.context.valueOf? name with
  | some w =>
      rw [isBound] at found
      exact found
  | none =>
      rw [isBound] at found
      cases declared : env.context.hasFunction name with
      | true =>
          rw [extended.hasFunction declared]
          rwa [declared] at found
      | false =>
          rw [declared] at found
          cases found

/-- The plan of a node is the same, or fails at once without the function. -/
theorem node_eq_or_fails
    (depth : Nat) (e : Expr) :
    Plan.node env' depth e = Plan.node env depth e ∨
      ∃ error, Plan.node env depth e = .fail error := by
  cases e with
  | ident m name =>
      cases found : Eval.lookup env name with
      | error error => exact .inr ⟨error, by rw [Plan.node, found, Plan.ofOutcome]⟩
      | ok v => exact .inl (by rw [Plan.node, Plan.node, found, extended.lookup found])
  | call m name target args =>
      cases declared : env.context.hasFunction name with
      | false => exact .inr ⟨_, by rw [Plan.node, Plan.callNamed, declared]; rfl⟩
      | true =>
          refine .inl (Plan.node_congr (fun _ free => by cases free) fun _ called => ?_)
          cases called
          rw [declared, extended.hasFunction declared]
  | _ => exact .inl (Plan.node_congr (fun _ free => by cases free) fun _ called => by cases called)

/-- The coupling of runs with the same scopes, of which only the first may fail. -/
def coupling : Coupling where
  scopes := Eq
  traces := True
  failures := False

theorem hostsAgree
    (passing : env.context.HostsWithin .passing) :
    coupling.HostsAgree .passing env env' where
  debug _ := extended.debug
  catches := False.elim
  resolves name _ := by
    intro s s' states
    rw [resolve_apply, resolve_apply, ← states.scopes]
    cases localValue? s.scopes name with
    | some v => exact coupled_pure trivial s s' states
    | none =>
        cases found : Eval.lookup env name with
        | error e => exact False.elim
        | ok v =>
            rw [extended.lookup found]
            exact coupled_pure trivial s s' states
  reads name _ := ⟨extended.valueOf? name, fun _ _ => trivial⟩
  functions name _ := (extended.overloads? name).imp_right fun added => ⟨id, added⟩
  within name _ := passing name

/-- Evaluations that come to a value come to the same value afterwards. -/
theorem coupled_evalAt
    (passing : env.context.HostsWithin .passing)
    (depth : Nat) (e : Expr) :
    coupling.Coupled (fun _ => True) (evalAt env depth e) (evalAt env' depth e) := by
  induction e using Expr.induction_inside generalizing depth with
  | node e ih =>
      cases depth with
      | zero => exact coupled_throw _
      | succ depth =>
          refine coupled_evalAt_succ ?_ rfl
          rcases extended.node_eq_or_fails depth e with same | ⟨error, fails⟩
          · rw [same]
            refine (Plan.abides_inside env depth e).coupled_self (fun name _ => ?_)
              (fun depth bindings x inside => ?_) (fun depth callSite function args _ => ?_)
              fun _ => extended.debug
            · refine coupled_lookupLocal ?_ (fun _ _ _ _ _ => trivial) fun _ _ _ _ => rfl
              rintro sc _ rfl
              rfl
            · refine (ih x inside depth).within ?_ (keepsScopes_evalAt env depth x)
                (keepsScopes_evalAt env' depth x)
              rintro sc _ rfl
              rfl
            · exact (extended.hostsAgree passing).callFunction depth callSite trivial fun _ _ => trivial
          · rw [fails]
            exact coupled_of_fails id fun s => ⟨_, s, rfl⟩

end Extends
end Eval

/-! ### Executions -/

namespace Program

/-- An execution that comes to a value does the same after one more function has been registered,
under a name that has none anywhere, or in the scope of those that are visible under its name.  Host
functions may do whatever they like but for coming to a value after an error of what they asked for. -/
theorem execute_registered
    {p : Program} {context : Context} {v : Value} {level : Nat} {scope scope' : Scope} {name : String}
    {signature : Signature} {body : CallInfo → List HostObject → HostProgram}
    (ended : (p.execute context).result = .ok v)
    (passing : context.HostsWithin .passing)
    (inChain : context[level]? = some scope)
    (visible : context.functionLevel? name = none ∨ context.functionLevel? name = some level)
    (registered : scope.addFunction name signature body = .ok scope') :
    p.execute (context.set level scope') = p.execute context := by
  obtain ⟨f, rfl⟩ : ∃ f, scope' = scope.putFunction name f := by
    unfold Scope.addFunction at registered
    split at registered
    · cases registered
    · split at registered <;> cases registered
      exact ⟨_, rfl⟩
  have extended : Eval.Extends (p.environment context)
      (p.environment (context.set level (scope.putFunction name f))) :=
    { debug := rfl
      valueOf? := fun other => Context.valueOf?_register inChain f other
      overloads? := fun other => by
        by_cases same : other = name
        · rw [same]
          exact .inr ⟨f, Context.overloads?_register inChain visible f⟩
        · exact .inl (Context.overloads?_register_other inChain f same) }
  exact execute_eq_of_coupled (extended.coupled_evalAt passing evaluationDepth p.root) rfl
    (.inr ⟨v, ended⟩) trivial

/-- A function that calls another by name, and this other. -/
def twoFunctions : Scope where
  bindings := []
  functions := [
    ("f", [⟨"f", [], 0, none, true, fun _ _ => .call "g" [.int 1] .ofOutcome⟩]),
    ("g", [⟨"g", [.int], 1, none, false, fun _ args => .finish (.list args)⟩])]

theorem hostsWithin_twoFunctions :
    Context.HostsWithin .passing [twoFunctions] := by
  refine Context.hostsWithin_of_scopes (List.forall_mem_singleton.mpr ?_)
  refine List.forall_mem_cons.mpr ⟨?_, List.forall_mem_singleton.mpr ?_⟩
  · refine List.forall_mem_singleton.mpr fun _ _ _ _ _ => ?_
    exact ⟨trivial, fun _ _ => trivial, fun _ _ _ _ => trivial, fun _ => ⟨trivial, .inr trivial⟩⟩
  · exact List.forall_mem_singleton.mpr fun _ _ _ _ _ _ _ => trivial

/-- Whether an execution comes to a list of one integer. -/
def comesToSingleton (n : Int) : Execution → Bool
  | ⟨.ok (.list [.int m]), _, _⟩ => m == n
  | _ => false

theorem result_of_comesToSingleton
    {n : Int} {execution : Execution}
    (h : comesToSingleton n execution = true) :
    execution.result = .ok (.list [.int n]) := by
  unfold comesToSingleton at h
  split at h
  · rw [eq_of_beq h]
  · cases h

/-- A second function takes a string where the first takes an integer. -/
theorem execute_registered_overload :
    ∃ p scope', compile .standard "f()".toList = .ok p ∧
      (p.execute [twoFunctions]).result = .ok (.list [.int 1]) ∧
      Context.HostsWithin .passing [twoFunctions] ∧
      Context.functionLevel? [twoFunctions] "g" = some 0 ∧
      twoFunctions.addFunction "g" ⟨[.text], 0, none, false, none⟩ (fun _ _ => .finish .none) =
        .ok scope' ∧
      p.execute [scope'] = p.execute [twoFunctions] := by
  have comesToList : compilesTo .standard "f()".toList
      (fun p => comesToSingleton 1 (p.execute [twoFunctions])) = true := by decide +kernel
  obtain ⟨p, compiled, isList⟩ := exists_of_compilesTo comesToList
  have ended := result_of_comesToSingleton isList
  have passing := hostsWithin_twoFunctions
  have inChain : [twoFunctions][0]? = some twoFunctions := rfl
  have visible : Context.functionLevel? [twoFunctions] "g" = some 0 := rfl
  obtain ⟨scope', registered⟩ : ∃ scope', twoFunctions.addFunction "g"
      ⟨[.text], 0, none, false, none⟩ (fun _ _ => .finish .none) = .ok scope' := ⟨_, rfl⟩
  exact ⟨p, scope', compiled, ended, passing, visible, registered,
    execute_registered ended passing inChain (.inr visible) registered⟩

end Program
end ExprLang
