import ExprLang.Proofs.CoupledCalls
import ExprLang.Proofs.FunctionReferences
import ExprLang.Proofs.PrintedMeaning
import ExprLang.Proofs.SourceTrees

/-!
# What a program depends on

`Expr.references` lists the names that a tree takes from its context.  In two contexts that agree on
these names a program does the same: each node finds the same variables and functions, and the functions
that it comes to by way of values are those that variables refer to or that other functions gave, on
which the contexts are to agree as well.

* `everywhere_takes`: no node takes more from the context than the references of the tree say.
* `allow_confined`: what a node does by values that refer to shared functions.
* `execute_eq_of_references`: executions in two contexts.
-/

namespace ExprLang

open ExprLang.Expr (Everywhere FromSource)

/-- Host functions that neither resolve names nor look up variables, and that call functions with a
property only and refer to no others. -/
def HostTerms.confined (known : String → Prop) : HostTerms where
  resolves _ := False
  reads _ := False
  calls := known
  good := Value.RefersTo known
  catches := True

/-- Whether a name has the same functions in two contexts, if any. -/
def Context.SharesFunctions (c c' : Context) (name : String) : Prop :=
  c'.overloads? name = c.overloads? name

/-- Whether two contexts agree on names: on the values of variables, and on the functions of called
names and of those that may stand for a function where there is no variable. -/
structure Expr.References.AgreeOn (r : References) (c c' : Context) : Prop where
  values : ∀ name ∈ r.freeNames, c'.valueOf? name = c.valueOf? name
  functions : ∀ name, name ∈ r.functions ∨ name ∈ r.freeNames → c.SharesFunctions c' name

/-! ### Nodes -/

namespace Expr

/-- Whether a node takes no more from its context than references say. -/
structure Takes (r : References) (x : Expr) : Prop where
  names : ∀ name, x.identName? = some name → name ∈ r.freeNames
  functions : ∀ name, x.calledName? = some name → name ∈ r.functions

theorem everywhere_takes
    (e : Expr) :
    Everywhere (Takes e.references) e :=
  fun x member =>
    ⟨fun _ isName => List.mem_eraseDups.mpr (List.mem_filterMap.mpr ⟨x, member, isName⟩),
      fun _ isCalled => List.mem_eraseDups.mpr (List.mem_filterMap.mpr ⟨x, member, isCalled⟩)⟩

theorem refersTo_of_isSourceLiteral
    {known : String → Prop} {v : Value}
    (literal : IsSourceLiteral v) :
    v.RefersTo known := by
  cases v <;> trivial

end Expr

/-! ### Two environments -/

namespace Eval

open Coupling
open Value (RefersTo)

/-- Whether two environments agree on references, their variables and host functions referring to
shared functions only. -/
structure Agree (r : Expr.References) (env env' : Environment) : Prop where
  debug : env'.debug = env.debug
  names : r.AgreeOn env.context env'.context
  values : ∀ name ∈ r.freeNames, ∀ v ∈ env.context.valueOf? name,
    v.RefersTo (env.context.SharesFunctions env'.context)
  hosts : ∀ name, env.context.SharesFunctions env'.context name →
    ∀ fs ∈ env.context.overloads? name, ∀ f ∈ fs,
      f.Within (.confined (env.context.SharesFunctions env'.context))

/-- The coupling of runs with the same scopes, the values there referring to functions with a
property. -/
def sharing (known : String → Prop) : Coupling where
  scopes sc sc' := sc' = sc ∧ ∀ bindings ∈ sc, ∀ x ∈ bindings, x.2.RefersTo known
  traces := True
  failures := True

/-- Terms by which all that stands inside a node may be evaluated, by values that refer to functions
with a property. -/
def Plan.Terms.confined (known : String → Prop) (e : Expr) : Terms where
  names _ := True
  good := RefersTo known
  given := RefersTo known
  asks bindings x := x.Inside e ∧ ∀ b ∈ bindings, ∀ y ∈ b, y.2.RefersTo known
  calls name args := known name ∧ ∀ v ∈ args, v.RefersTo known

namespace Agree

variable {r : Expr.References} {env env' : Environment} {e : Expr}
variable (agree : Agree r env env')
include agree

theorem hasFunction
    {name : String}
    (taken : name ∈ r.functions ∨ name ∈ r.freeNames) :
    env'.context.hasFunction name = env.context.hasFunction name := by
  unfold Context.hasFunction
  rw [agree.names.functions name taken]

theorem lookup
    {name : String}
    (free : name ∈ r.freeNames) :
    lookup env' name = lookup env name := by
  unfold Eval.lookup
  rw [agree.names.values name free, agree.hasFunction (.inr free)]

theorem refersTo_lookup
    {name : String} {v : Value}
    (free : name ∈ r.freeNames)
    (found : Eval.lookup env name = .ok v) :
    v.RefersTo (env.context.SharesFunctions env'.context) := by
  unfold Eval.lookup at found
  split at found
  next isBound =>
    cases found
    exact agree.values name free v isBound
  · split at found <;> cases found
    exact agree.names.functions name (.inr free)

theorem hostsAgree :
    (sharing (env.context.SharesFunctions env'.context)).HostsAgree
      (.confined (env.context.SharesFunctions env'.context)) env env' where
  debug _ := agree.debug
  catches := id
  resolves _ := False.elim
  reads _ := False.elim
  functions _ shared := .inl shared
  within := agree.hosts

/-- By values that refer to shared functions, a node calls shared functions only. -/
theorem allow_confined
    (takes : e.Takes r)
    (fromSource : FromSource e) :
    (Plan.Terms.confined (env.context.SharesFunctions env'.context) e).Allow env e where
  literal := by
    rintro m v rfl
    exact Expr.refersTo_of_isSourceLiteral fromSource
  ident := by
    rintro m name v rfl found
    exact agree.refersTo_lookup (takes.names name rfl) found
  names _ _ _ := trivial
  operands x operand := ⟨Expr.inside_of_mem_operands operand, nofun⟩
  steps kind v steps given isSteps s member x inner := by
    refine ⟨Expr.inside_of_mem_children (Expr.mem_children_of_inner inner), ?_⟩
    rintro _ ⟨⟩ y bound
    exact (Value.refersTo_stepsOf given isSteps member).1 y.2 (List.of_mem_zip bound).2
  calls name vs called givens := by
    refine ⟨?_, givens⟩
    rcases called with called | given
    · exact agree.names.functions name (.inl (takes.functions name called))
    · exact given

/-- An expression that takes no more from its context than the references does the same in both
environments, and comes to a value that refers to shared functions. -/
theorem coupled_evalAt
    (takes : Everywhere (Expr.Takes r) e)
    (fromSource : Everywhere FromSource e)
    (depth : Nat) :
    (sharing (env.context.SharesFunctions env'.context)).Coupled
      (RefersTo (env.context.SharesFunctions env'.context))
      (evalAt env depth e) (evalAt env' depth e) := by
  induction e using Expr.induction_inside generalizing depth with
  | node e ih =>
      cases depth with
      | zero => exact coupled_throw _
      | succ depth =>
          refine coupled_evalAt_succ ?_ rfl
          have allow := agree.allow_confined takes.root fromSource.root
          have same : Plan.node env' depth e = Plan.node env depth e :=
            Plan.node_congr (fun name free => agree.lookup (takes.root.names name free))
              fun name called => agree.hasFunction (.inl (takes.root.functions name called))
          rw [same]
          refine (Plan.abides_node (Plan.stable_refersTo _) allow).coupled_self (fun name _ => ?_)
            (fun depth bindings x asked => ?_) (fun depth callSite name args called => ?_)
            fun _ => agree.debug
          · refine coupled_lookupLocal ?_ ?_ fun _ _ _ _ => rfl
            · rintro sc _ ⟨rfl, _⟩
              rfl
            · rintro _ sc v ⟨rfl, good⟩ isBound
              exact Plan.good_of_localValue? (s := ⟨sc, [], []⟩) good isBound
          · obtain ⟨inside, bound⟩ := asked
            refine (ih x inside (takes.inside inside) (fromSource.inside inside) depth).within ?_
              (keepsScopes_evalAt env depth x) (keepsScopes_evalAt env' depth x)
            rintro sc _ ⟨rfl, good⟩
            refine ⟨rfl, fun b member => ?_⟩
            rcases List.mem_append.mp member with new | old
            · exact bound b (Option.mem_toList.mp new)
            · exact good b old
          · exact agree.hostsAgree.callFunction depth callSite called.1 called.2

end Agree
end Eval

/-! ### Executions -/

namespace Program

variable {config : Config} {source : List Char} {p : Program} {context context' : Context}

/-- In contexts that agree on the references of a program, the program does the same.  Its variables are
to refer to functions on which the contexts agree, and so are the values that these functions give;
host functions are not to look at the context otherwise. -/
theorem execute_eq_of_references
    (compiled : compile config source = .ok p)
    (agree : p.root.references.AgreeOn context context')
    (values : ∀ name ∈ p.root.references.freeNames, ∀ v ∈ context.valueOf? name,
      v.RefersTo (context.SharesFunctions context'))
    (hosts : ∀ name, context.SharesFunctions context' name →
      ∀ fs ∈ context.overloads? name, ∀ f ∈ fs,
        f.Within (.confined (context.SharesFunctions context'))) :
    p.execute context' = p.execute context := by
  have environments : Eval.Agree p.root.references (p.environment context) (p.environment context') :=
    ⟨rfl, agree, values, hosts⟩
  have fromSource := fromSource_of_parse (compile_eq_ok_iff.mp compiled).1
  have coupled := environments.coupled_evalAt (Expr.everywhere_takes p.root) fromSource evaluationDepth
  exact execute_eq_of_coupled coupled ⟨rfl, nofun⟩ (.inl trivial) trivial

/-- A function that gives a reference to itself, a variable that refers to it, and more. -/
def selfReferring (values : List (String × Value)) (functions : List (String × List HostFunction)) :
    Context :=
  [⟨("x", .list [.function "f"]) :: values,
    ("f", [⟨"f", [], 0, none, false, fun _ _ => .finish (.value (.function "f"))⟩]) :: functions⟩]

/-- Neither a further variable nor a further function matters to a program that comes to a function by
way of values. -/
theorem execute_eq_of_references_values :
    ∃ p, compile .standard "x[0]()()".toList = .ok p ∧
      p.root.references.AgreeOn (selfReferring [] []) (selfReferring [("y", .null)] [("g", [])]) ∧
      p.execute (selfReferring [("y", .null)] [("g", [])]) = p.execute (selfReferring [] []) := by
  have takesX : compilesTo .standard "x[0]()()".toList
      (fun p => p.root.references == ⟨["x"], []⟩) = true := by decide +kernel
  obtain ⟨p, compiled, takesX⟩ := exists_of_compilesTo takesX
  have references := eq_of_beq takesX
  have shared : Context.SharesFunctions (selfReferring [] [])
      (selfReferring [("y", .null)] [("g", [])]) "f" := rfl
  have agree : p.root.references.AgreeOn (selfReferring [] [])
      (selfReferring [("y", .null)] [("g", [])]) := by
    rw [references]
    constructor
    · rintro name member
      rw [List.mem_singleton.mp member]
      rfl
    · rintro name (⟨⟨⟩⟩ | member)
      rw [List.mem_singleton.mp member]
      rfl
  refine ⟨p, compiled, agree, execute_eq_of_references compiled agree ?_ ?_⟩
  · rw [references]
    rintro name member v isValue
    rw [List.mem_singleton.mp member] at isValue
    cases isValue
    exact ⟨shared, trivial⟩
  · refine fun name _ => Context.hostsWithin_of_scopes (List.forall_mem_singleton.mpr ?_) name
    refine List.forall_mem_singleton.mpr (List.forall_mem_singleton.mpr ?_)
    rintro _ _ _ _ _ v ⟨⟩
    exact shared

end Program
end ExprLang
