import Mathlib.Logic.Relation
import ExprLang.Program
import ExprLang.Proofs.PlanTerms
import ExprLang.Proofs.Subtrees

/-!
# The evaluations that an evaluation starts

Running a plan starts evaluations of sub-expressions, one after the other.  A `Contract` says what a
plan may rely on and what it has to see to: the values that come back are as the contract gives them,
and the values that are bound or passed to functions are good again.

* `Plan.Starts`, `Evaluation.Starts`: the evaluations that are started.
* `Plan.Meets.run`: what follows from a contract for the evaluations that are started, and for the
  value of the whole.
* `Plan.meets_node`: the plan of a node meets a contract whose good values are closed under what the
  language does with them.
* `Plan.Abides.starts`: what a plan starts, and in which scopes, by terms that rely on all values.
-/

namespace ExprLang

/-- Whether an expression stands properly inside another. -/
def Expr.Inside (x e : Expr) : Prop :=
  ∃ c ∈ e.children, x ∈ c.walk

/-- Induction over a tree by all that stands inside a node. -/
theorem Expr.induction_inside
    {motive : Expr → Prop}
    (node : ∀ e, (∀ x, x.Inside e → motive x) → motive e)
    (e : Expr) :
    motive e := by
  suffices throughout : Everywhere motive e from throughout.root
  induction e using induction_children with
  | node e ih =>
      exact everywhere_iff.mpr ⟨node e fun x ⟨c, child, inside⟩ => ih c child x inside, ih⟩

theorem Expr.Inside.mem_walk
    {x e : Expr}
    (inside : x.Inside e) :
    x ∈ e.walk :=
  Expr.mem_walk.mpr (.inr inside)

theorem Expr.inside_of_mem_children
    {c e : Expr}
    (child : c ∈ e.children) :
    c.Inside e :=
  ⟨c, child, mem_walk_self c⟩

theorem Expr.inside_of_mem_operands
    {c e : Expr}
    (operand : c ∈ e.operands) :
    c.Inside e := by
  cases e with
  | has m access =>
      refine ⟨access, List.mem_cons_self, ?_⟩
      exact (Expr.inside_of_mem_children (Expr.mem_children_of_outer operand)).mem_walk
  | _ => exact Expr.inside_of_mem_children (Expr.mem_children_of_outer operand)

/-- What stands in a part stands in the whole. -/
theorem Expr.mem_walk_trans
    {x y e : Expr}
    (outer : y ∈ e.walk)
    (inner : x ∈ y.walk) :
    x ∈ e.walk := by
  induction e using induction_children with
  | node e ih =>
      rcases Expr.mem_walk.mp outer with rfl | ⟨c, child, inside⟩
      · exact inner
      · exact Expr.mem_walk.mpr (.inr ⟨c, child, ih c child inside⟩)

/-- What holds of all nodes of a tree holds of all nodes of what stands inside it. -/
theorem Expr.Everywhere.inside
    {P : Expr → Prop} {x e : Expr}
    (h : Everywhere P e)
    (inside : x.Inside e) :
    Everywhere P x :=
  fun y member => h y (Expr.mem_walk_trans inside.mem_walk member)

theorem Expr.Inside.trans
    {x y e : Expr}
    (outer : y.Inside e)
    (inner : x ∈ y.walk) :
    x.Inside e :=
  let ⟨c, child, within⟩ := outer
  ⟨c, child, Expr.mem_walk_trans within inner⟩

theorem Expr.walk_sublist_of_inside
    {x e : Expr}
    (inside : x.Inside e) :
    x.walk.Sublist e.walk := by
  induction e using induction_children with
  | node e ih =>
      obtain ⟨c, child, within⟩ := inside
      have part : c.walk.Sublist e.walk := by
        rw [walk_eq e]
        exact (List.sublist_flatten_of_mem (List.mem_map_of_mem child)).cons e
      rcases Expr.mem_walk.mp within with rfl | within
      · exact part
      · exact (ih c child within).trans part

/-- Where numbers are different, nothing inside a node has the number of the node. -/
theorem Expr.id_ne_of_inside
    {x e : Expr}
    (distinct : (e.walk.map Expr.id).Nodup)
    (inside : x.Inside e) :
    x.id ≠ e.id := by
  rw [walk_eq, List.map_cons, List.nodup_cons] at distinct
  obtain ⟨c, child, within⟩ := inside
  intro same
  refine distinct.1 (List.mem_map.mpr ⟨x, List.mem_flatMap.mpr ⟨c, child, within⟩, same⟩)

theorem mem_of_lookup_eq_some
    {α β : Type}
    [BEq α] [LawfulBEq α]
    {key : α} {b : β} {entries : List (α × β)}
    (found : entries.lookup key = some b) :
    (key, b) ∈ entries := by
  obtain ⟨before, after, rfl, -⟩ := List.lookup_eq_some_iff.mp found
  simp

namespace Eval

open EvalM (KeepsScopes bind_apply)

theorem lookupLocal_apply
    (name : String) (s : EvalState) :
    lookupLocal name s =
      (match localValue? s.scopes name with
        | some v => pure v
        | none => EvalM.fail (.undeclaredReference name) : EvalM Value) s :=
  rfl

theorem resolve_apply
    (env : Environment) (name : String) (s : EvalState) :
    resolve env name s =
      (match localValue? s.scopes name with
        | some v => pure v
        | none => EvalM.ofOutcome (lookup env name) : EvalM Value) s :=
  rfl

namespace Plan

variable {α β : Type}

/-- The evaluations that running a plan starts.  What comes after an evaluation is started only if the
evaluation came to a value. -/
def Starts (env : Environment) : Plan α → EvalState → Evaluation → Prop
  | done _, _, _ => False
  | fail _, _, _ => False
  | binder name next, s, ev =>
      ∃ v t, lookupLocal name s = (.ok v, t) ∧ Starts env (next v) t ev
  | call depth node function args next, s, ev =>
      ∃ v t, callFunction env depth (some node) function args s = (.ok v, t) ∧
        Starts env (next v) t ev
  | report event next, s, ev => Starts env next (EvalM.report env event s).2 ev
  | ask depth bindings e next, s, ev =>
      ev = ⟨depth, e, entered bindings s⟩ ∨
        ∃ v t, within bindings (evalAt env depth e) s = (.ok v, t) ∧ Starts env (next v) t ev

/-- What a plan relies on and what it sees to. -/
structure Contract where
  /-- The values that are bound and passed to functions, and those that come back from there. -/
  good : Value → Prop
  /-- The values that evaluations come to. -/
  given : Value → Prop
  /-- The expressions that may be evaluated. -/
  part : Expr → Prop

/-- Whether a plan meets a contract and ends with results that have a property. -/
def Meets (c : Contract) (post : α → Prop) : Plan α → Prop
  | done a => post a
  | fail _ => True
  | binder _ next => ∀ v, c.good v → Meets c post (next v)
  | call _ _ _ args next =>
      (∀ v ∈ args, c.good v) ∧ ∀ v, c.good v → Meets c post (next v)
  | report _ next => Meets c post next
  | ask _ bindings e next =>
      (∀ bound ∈ bindings, ∀ x ∈ bound, c.good x.2) ∧ c.part e ∧
        ∀ v, c.given v → Meets c post (next v)

/-- Whether the variables of the comprehensions around have good values. -/
def GoodScopes (good : Value → Prop) (s : EvalState) : Prop :=
  ∀ bindings ∈ s.scopes, ∀ x ∈ bindings, good x.2

/-- Whether calls with good arguments come to good values. -/
def GoodCalls (env : Environment) (good : Value → Prop) : Prop :=
  ∀ depth callSite function args s v t,
    (∀ a ∈ args, good a) → GoodScopes good s →
      callFunction env depth callSite function args s = (.ok v, t) → good v

/-! ### What follows from a contract -/

section Runs

variable {env : Environment} {good : Value → Prop} {s t : EvalState}

theorem GoodScopes.of_keepsScopes
    {m : EvalM α} {r : Except Stop α}
    (scopes : GoodScopes good s)
    (keeps : KeepsScopes m)
    (ran : m s = (r, t)) :
    GoodScopes good t := by
  unfold GoodScopes
  rw [keeps.scopes_eq ran]
  exact scopes

theorem GoodScopes.entered
    {bindings : Option Bindings}
    (scopes : GoodScopes good s)
    (bound : ∀ b ∈ bindings, ∀ x ∈ b, good x.2) :
    GoodScopes good (entered bindings s) := by
  cases bindings with
  | none => exact scopes
  | some b =>
      intro b' member
      rcases List.mem_cons.mp member with rfl | member
      · exact bound b' rfl
      · exact scopes b' member

theorem good_of_localValue?
    {name : String} {v : Value}
    (scopes : GoodScopes good s)
    (found : localValue? s.scopes name = some v) :
    good v := by
  obtain ⟨bindings, member, inBindings⟩ := List.exists_of_findSome?_eq_some found
  exact scopes _ member (name, v) (mem_of_lookup_eq_some inBindings)

theorem good_of_lookupLocal
    {name : String} {v : Value}
    (scopes : GoodScopes good s)
    (found : lookupLocal name s = (.ok v, t)) :
    good v := by
  rw [lookupLocal_apply] at found
  cases isBound : localValue? s.scopes name with
  | none =>
      rw [isBound] at found
      cases found
  | some w =>
      rw [isBound] at found
      cases found
      exact good_of_localValue? scopes isBound

/-- The evaluations that a plan starts are those of its contract, if those before came to values as
given, and the plan ends as it should. -/
theorem Meets.run
    {c : Contract} {post : α → Prop} {p : Plan α}
    (meets : p.Meets c post)
    (calls : GoodCalls env c.good)
    (scopes : GoodScopes c.good s)
    (asked : ∀ ev, p.Starts env s ev → c.part ev.expr → GoodScopes c.good ev.state →
      ∀ v, ev.result env = .ok v → c.given v) :
    (∀ ev, p.Starts env s ev → c.part ev.expr ∧ GoodScopes c.good ev.state) ∧
      ∀ a t, p.run env s = (.ok a, t) → post a := by
  induction p generalizing s with
  | done a =>
      refine ⟨fun _ started => started.elim, fun b t ran => ?_⟩
      cases ran
      exact meets
  | fail error =>
      refine ⟨fun _ started => started.elim, fun a t ran => ?_⟩
      cases ran
  | report event next ih =>
      have scopes' : GoodScopes c.good (EvalM.report env event s).2 :=
        scopes.of_keepsScopes (EvalM.keepsScopes_report env event) rfl
      have rest := ih meets scopes' asked
      refine ⟨rest.1, fun a t ran => rest.2 a t ?_⟩
      rwa [Plan.run, bind_apply, EvalM.report_apply] at ran
  | binder name next ih =>
      have rest := fun v t (found : lookupLocal name s = (.ok v, t)) =>
        ih v (meets v (good_of_lookupLocal scopes found))
          (scopes.of_keepsScopes (keepsScopes_lookupLocal name) found)
          fun ev started => asked ev ⟨v, t, found, started⟩
      refine ⟨fun ev started => ?_, fun a t' ran => ?_⟩
      · obtain ⟨v, t, found, started⟩ := started
        exact (rest v t found).1 ev started
      · obtain ⟨v, t, found, ran⟩ := EvalM.bind_eq_ok.mp ran
        exact (rest v t found).2 a t' ran
  | call depth node function args next ih =>
      have rest := fun v t
          (called : callFunction env depth (some node) function args s = (.ok v, t)) =>
        ih v (meets.2 v (calls _ _ _ _ _ _ _ meets.1 scopes called))
          (scopes.of_keepsScopes (keepsScopes_callFunction env depth _ function args) called)
          fun ev started => asked ev ⟨v, t, called, started⟩
      refine ⟨fun ev started => ?_, fun a t' ran => ?_⟩
      · obtain ⟨v, t, called, started⟩ := started
        exact (rest v t called).1 ev started
      · obtain ⟨v, t, called, ran⟩ := EvalM.bind_eq_ok.mp ran
        exact (rest v t called).2 a t' ran
  | ask depth bindings e next ih =>
      obtain ⟨bound, part, goesOn⟩ := meets
      have first := scopes.entered bound
      have rest := fun v t (evaluated : within bindings (evalAt env depth e) s = (.ok v, t)) =>
        ih v (goesOn v (asked _ (.inl rfl) part first v (Evaluation.result_of_within evaluated)))
          (scopes.of_keepsScopes (keepsScopes_within (keepsScopes_evalAt env depth e) bindings)
            evaluated)
          fun ev started => asked ev (.inr ⟨v, t, evaluated, started⟩)
      refine ⟨fun ev started => ?_, fun a t' ran => ?_⟩
      · rcases started with rfl | ⟨v, t, evaluated, started⟩
        · exact ⟨part, first⟩
        · exact (rest v t evaluated).1 ev started
      · obtain ⟨v, t, evaluated, ran⟩ := EvalM.bind_eq_ok.mp ran
        exact (rest v t evaluated).2 a t' ran

end Runs

/-! ### The plan of a node -/

/-- What a contract says as terms: the values that are bound and passed to functions are good. -/
def Contract.terms (c : Contract) : Terms where
  names _ := True
  good := c.good
  given := c.given
  asks bindings e := (∀ bound ∈ bindings, ∀ x ∈ bound, c.good x.2) ∧ c.part e
  calls _ args := ∀ v ∈ args, c.good v

theorem Abides.meets
    {c : Contract} {post : α → Prop} {p : Plan α}
    (abides : p.Abides c.terms post) :
    p.Meets c post := by
  induction p with
  | done a => exact abides
  | fail error => trivial
  | report event next ih => exact ih abides
  | binder name next ih => exact fun v good => ih v (abides.2 v good)
  | call depth node function args next ih =>
      exact ⟨abides.1, fun v good => ih v (abides.2 v good)⟩
  | ask depth bindings e next ih =>
      exact ⟨abides.1.1, abides.1.2, fun v given => ih v (abides.2 v given)⟩

/-- Whether values are closed under what the language does with them, and names stand for good ones. -/
structure Closed (env : Environment) (good given : Value → Prop) : Prop
    extends Stable good given where
  name : ∀ name v, lookup env name = .ok v → good v

/-- The plan of a node meets a contract if literals are good and good values are closed. -/
theorem meets_node
    {env : Environment} {c : Contract} {depth : Nat}
    (closed : Closed env c.good c.given)
    {e : Expr}
    (literal : ∀ m v, e = .literal m v → c.good v)
    (parts : ∀ x, x.Inside e → c.part x) :
    (node env depth e).Meets c c.good := by
  have allow : c.terms.Allow env e :=
    { literal := literal
      ident := fun _ name v _ found => closed.name name v found
      names := fun _ _ _ => trivial
      operands := fun x operand => ⟨nofun, parts x (Expr.inside_of_mem_operands operand)⟩
      steps := fun kind v steps given isSteps s member x inner => by
        refine ⟨?_, parts x (Expr.inside_of_mem_children (Expr.mem_children_of_inner inner))⟩
        rintro _ ⟨⟩ y bound
        exact (closed.steps kind _ v steps given isSteps s member).1 y.2 (List.of_mem_zip bound).2
      calls := fun _ vs _ givens v member => closed.good_of_given v (givens v member) }
  exact (abides_node closed.toStable allow).meets

/-! ### Terms that rely on all values -/

/-- Terms by which all that stands inside a node may be evaluated. -/
def Terms.inside (e : Expr) : Terms where
  names _ := True
  good _ := True
  given _ := True
  asks _ x := x.Inside e
  calls _ _ := True

theorem abides_inside
    (env : Environment) (depth : Nat) (e : Expr) :
    (node env depth e).Abides (.inside e) fun _ => True := by
  refine abides_node stable_true ?_
  exact
    { literal := fun _ _ _ => trivial
      ident := fun _ _ _ _ _ => trivial
      names := fun _ _ _ => trivial
      operands := fun x operand => Expr.inside_of_mem_operands operand
      steps := fun _ _ _ _ _ _ _ x inner =>
        Expr.inside_of_mem_children (Expr.mem_children_of_inner inner)
      calls := fun _ _ _ _ => trivial }

/-- What a plan starts is what its terms ask for, in the scopes of the plan and the bindings that are
made, if the terms rely on all values. -/
theorem Abides.starts
    {env : Environment} {c : Terms} {post : α → Prop} {p : Plan α} {s : EvalState} {ev : Evaluation}
    (abides : p.Abides c post)
    (good : ∀ v, c.good v)
    (given : ∀ v, c.given v)
    (started : p.Starts env s ev) :
    ∃ bindings, c.asks bindings ev.expr ∧ ev.state.scopes = bindings.toList ++ s.scopes := by
  induction p generalizing s with
  | done a => exact started.elim
  | fail error => exact started.elim
  | report event next ih =>
      rw [← EvalM.keepsScopes_report env event s]
      exact ih abides started
  | binder name next ih =>
      obtain ⟨v, t, found, started⟩ := started
      rw [← (keepsScopes_lookupLocal name).scopes_eq found]
      exact ih v (abides.2 v (good v)) started
  | call depth node function args next ih =>
      obtain ⟨v, t, called, started⟩ := started
      rw [← (keepsScopes_callFunction env depth _ function args).scopes_eq called]
      exact ih v (abides.2 v (good v)) started
  | ask depth bindings e next ih =>
      rcases started with rfl | ⟨v, t, evaluated, started⟩
      · exact ⟨bindings, abides.1, scopes_entered bindings s⟩
      · rw [← (keepsScopes_within (keepsScopes_evalAt env depth e) bindings).scopes_eq evaluated]
        exact ih v (abides.2 v (given v)) started

end Plan

/-! ### Evaluations -/

/-- The evaluations that an evaluation starts itself: those that the plan of its node starts. -/
def Evaluation.Starts (env : Environment) (ev ev' : Evaluation) : Prop :=
  ∃ depth, ev.depth = depth + 1 ∧ (Plan.node env depth ev.expr).Starts env ev.state ev'

/-- The evaluations that are made on the way of an evaluation, itself among them. -/
def Evaluation.Makes (env : Environment) : Evaluation → Evaluation → Prop :=
  Relation.ReflTransGen (Evaluation.Starts env)

/-- An evaluation starts evaluations of what stands inside its expression. -/
theorem Evaluation.Starts.inside
    {env : Environment} {ev ev' : Evaluation}
    (started : ev.Starts env ev') :
    ev'.expr.Inside ev.expr := by
  obtain ⟨depth, -, started⟩ := started
  obtain ⟨_, inside, -⟩ := (Plan.abides_inside env depth ev.expr).starts (fun _ => trivial)
    (fun _ => trivial) started
  exact inside

end Eval

/-! ### Executions -/

namespace Program

variable {p : Program} {context : Context}

/-- What a program is run with. -/
def environment (p : Program) (context : Context) : Environment :=
  ⟨context, p.config.debug⟩

/-- The evaluation that an execution of a program is. -/
def evaluation (p : Program) : Eval.Evaluation :=
  ⟨evaluationDepth, p.root, .initial⟩

theorem execute_result
    (p : Program) (context : Context) :
    (p.execute context).result =
      match p.evaluation.result (p.environment context) with
      | .ok v => .ok v
      | .error (.failure error node) => .error ⟨error, node⟩
      | .error .outOfDepth => .error ⟨.evaluationDepthExceeded, none⟩ := by
  unfold execute Eval.Evaluation.result environment evaluation
  generalize Eval.evalAt _ _ _ _ = ended
  obtain ⟨(_ | _) | _, _⟩ := ended <;> rfl

theorem result_of_execute_ok
    {v : Value}
    (ended : (p.execute context).result = .ok v) :
    p.evaluation.result (p.environment context) = .ok v := by
  rw [execute_result] at ended
  split at ended <;> cases ended
  assumption

theorem result_of_execute_error
    {error : RuntimeError} {node : Option Nat}
    (ended : (p.execute context).result = .error ⟨error, node⟩)
    (other : error ≠ .evaluationDepthExceeded) :
    p.evaluation.result (p.environment context) = .error (.failure error node) := by
  rw [execute_result] at ended
  split at ended <;> cases ended
  · assumption
  · exact absurd rfl other

end Program
end ExprLang
