import Mathlib.Data.List.Nodup
import Mathlib.Data.List.Pairwise
import ExprLang.Proofs.LexicalScope
import ExprLang.Proofs.PrintedMeaning
import ExprLang.Proofs.StartedEvaluations

/-!
# Where evaluations are made

A node evaluates its operands in the scopes in which it is evaluated itself, and what is in the scope of
its variables in one more, which gives a value to each of them.  So an evaluation of a node is made in the
scopes of the comprehensions around the node, whose variables all have values.

* `Plan.abides_placed`: the evaluations that the plan of a node asks for.
* `Occurs.scopes_unique`: a node that has a number of its own has one place.
* `Evaluation.Placed`: an evaluation is made in the scopes around its node.
* `Evaluation.Placed.starts`, `Evaluation.Placed.makes`: it starts evaluations that are, and so does a
  whole execution.
-/

namespace ExprLang

/-! ### Places in a tree -/

namespace Expr

variable {root e x : Expr} {scopes scopes' : List (List String)}

theorem Occurs.mem_walk
    (occurs : Occurs root scopes x) :
    x ∈ root.walk := by
  induction occurs with
  | root => exact mem_walk_self root
  | outer _ child ih =>
      exact mem_walk_trans ih (inside_of_mem_children (mem_children_of_outer child)).mem_walk
  | inner _ child ih =>
      exact mem_walk_trans ih (inside_of_mem_children (mem_children_of_inner child)).mem_walk

/-- The operands of a node are in the scopes of the node. -/
theorem Occurs.operand
    (occurs : Occurs root scopes e)
    (operand : x ∈ e.operands) :
    Occurs root scopes x := by
  cases e with
  | has m access => exact .outer (.outer occurs List.mem_cons_self) operand
  | _ => exact .outer occurs operand

/-- A node that binds variables for what is in their scope binds one or two. -/
theorem Fits.length_binders
    (fits : Fits scopes x)
    (binds : x.innerChildren ≠ []) :
    x.binders.length = 1 ∨ x.binders.length = 2 := by
  cases x with
  | comprehension => exact fits
  | _ => exact absurd rfl binds

/-- Where the nodes of several trees have different numbers, each stands in one of them. -/
theorem eq_of_mem_walks
    {trees : List Expr} {c c' : Expr}
    (distinct : ((trees.flatMap walk).map Expr.id).Nodup)
    (member : c ∈ trees)
    (member' : c' ∈ trees)
    (inside : x ∈ c.walk)
    (inside' : x ∈ c'.walk) :
    c = c' := by
  rw [List.map_flatMap, List.nodup_flatMap] at distinct
  have symmetric : Std.Symm (Function.onFun List.Disjoint fun e : Expr => e.walk.map Expr.id) :=
    ⟨fun _ _ disjoint => List.disjoint_symm disjoint⟩
  by_contra differs
  have disjoint := distinct.2.forall member member' differs
  exact disjoint (List.mem_map_of_mem inside) (List.mem_map_of_mem inside')

/-- Where the nodes of a tree have different numbers, each stands in one place. -/
theorem Occurs.scopes_unique
    (distinct : (root.walk.map Expr.id).Nodup)
    (occurs : Occurs root scopes x)
    (occurs' : Occurs root scopes' x) :
    scopes = scopes' := by
  induction root using induction_children generalizing scopes scopes' with
  | node e ih =>
      have apart : ((e.outerChildren.flatMap walk ++ e.innerChildren.flatMap walk).map
          Expr.id).Nodup := by
        rw [← List.flatMap_append, ← children_eq_append]
        rw [walk_eq, List.map_cons] at distinct
        exact distinct.of_cons
      rw [List.map_append, List.nodup_append'] at apart
      obtain ⟨outside, inside, disjoint⟩ := apart
      have notRoot : ∀ c ∈ e.children, x ∈ c.walk → x ≠ e := fun c child within same =>
        id_ne_of_inside distinct ⟨c, child, within⟩ (congrArg Expr.id same)
      have part : ∀ c ∈ e.children, (c.walk.map Expr.id).Nodup := fun c child =>
        distinct.sublist ((walk_sublist_of_inside (inside_of_mem_children child)).map Expr.id)
      have separate : ∀ c ∈ e.outerChildren, ∀ c' ∈ e.innerChildren, x ∈ c.walk → x ∉ c'.walk :=
        fun c outer c' inner within within' =>
          disjoint (List.mem_map_of_mem (List.mem_flatMap.mpr ⟨c, outer, within⟩))
            (List.mem_map_of_mem (List.mem_flatMap.mpr ⟨c', inner, within'⟩))
      rcases occurs.cases_root with ⟨rfl, rfl⟩ | ⟨c, outer, h⟩ | ⟨c, inner, within, rfl, h⟩
      · rcases occurs'.cases_root with ⟨rfl, -⟩ | ⟨c', outer', h'⟩ | ⟨c', inner', _, -, h'⟩
        · rfl
        · exact absurd rfl (notRoot c' (mem_children_of_outer outer') h'.mem_walk)
        · exact absurd rfl (notRoot c' (mem_children_of_inner inner') h'.mem_walk)
      · have child := mem_children_of_outer outer
        rcases occurs'.cases_root with ⟨-, isRoot⟩ | ⟨c', outer', h'⟩ | ⟨c', inner', _, -, h'⟩
        · exact absurd isRoot (notRoot c child h.mem_walk)
        · obtain rfl := eq_of_mem_walks outside outer outer' h.mem_walk h'.mem_walk
          exact ih c child (part c child) h h'
        · exact absurd h'.mem_walk (separate c outer c' inner' h.mem_walk)
      · have child := mem_children_of_inner inner
        rcases occurs'.cases_root with ⟨-, isRoot⟩ | ⟨c', outer', h'⟩ | ⟨c', inner', within', rfl, h'⟩
        · exact absurd isRoot (notRoot c child h.mem_walk)
        · exact absurd h.mem_walk (separate c' outer' c inner h'.mem_walk)
        · obtain rfl := eq_of_mem_walks inside inner inner' h.mem_walk h'.mem_walk
          exact congrArg (· ++ [e.binders]) (ih c child (part c child) h h')

end Expr

namespace Eval

open Lexical (Frame)

/-! ### What a plan starts -/

namespace Plan

/-- Terms by which a node evaluates its operands as they are, and what is in the scope of its variables
with a value for each of them. -/
def Terms.placed (e : Expr) : Terms where
  names name := ∃ m, e = .localRef m name
  good _ := True
  given _ := True
  asks
    | none, x => x ∈ e.operands
    | some bindings, x =>
        x ∈ e.innerChildren ∧
          ∃ values, Frame.Full ⟨e.binders, values⟩ ∧ bindings = Frame.bindings ⟨e.binders, values⟩
  calls _ _ := True

/-- The plan of a node with at most two variables evaluates its operands, and what is in the scope of
its variables with a value for each. -/
theorem abides_placed
    (env : Environment) (depth : Nat)
    {e : Expr}
    (count : e.innerChildren ≠ [] → e.binders.length = 1 ∨ e.binders.length = 2) :
    (node env depth e).Abides (.placed e) fun _ => True := by
  refine abides_node stable_true ?_
  exact
    { literal := fun _ _ _ => trivial
      ident := fun _ _ _ _ _ => trivial
      names := fun m name same => ⟨m, same⟩
      operands := fun _ operand => operand
      steps := fun kind v steps _ isSteps s member x inner =>
        ⟨inner, s.bound, full_of_stepsOf (count (List.ne_nil_of_mem inner)) isSteps s member, rfl⟩
      calls := fun _ _ _ _ => trivial }

end Plan

/-! ### The places of evaluations -/

/-- An evaluation is made at the place of its node, in the scopes of the comprehensions around it, whose
variables all have values. -/
structure Evaluation.Placed (root : Expr) (frames : List Frame) (ev : Evaluation) : Prop where
  place : root.Occurs (frames.map Frame.names) ev.expr
  full : ∀ f ∈ frames, f.Full
  scopes : ev.state.scopes = frames.map Frame.bindings

section Placed

variable {env : Environment} {root : Expr} {frames : List Frame} {ev ev' : Evaluation}

/-- What an evaluation in its place starts is in its place. -/
theorem Evaluation.Placed.starts
    (wellScoped : root.WellScoped [])
    (placed : ev.Placed root frames)
    (started : ev.Starts env ev') :
    ∃ frames', ev'.Placed root frames' := by
  obtain ⟨depth, -, started⟩ := started
  have fits := wellScoped _ _ placed.place
  obtain ⟨bindings, asked, scopes⟩ := (Plan.abides_placed env depth fits.length_binders).starts
    (fun _ => trivial) (fun _ => trivial) started
  rw [placed.scopes] at scopes
  cases bindings with
  | none => exact ⟨frames, placed.place.operand asked, placed.full, scopes⟩
  | some b =>
      obtain ⟨inner, values, full, rfl⟩ := asked
      exact ⟨⟨ev.expr.binders, values⟩ :: frames, .inner placed.place inner,
        List.forall_mem_cons.mpr ⟨full, placed.full⟩, scopes⟩

theorem Evaluation.Placed.makes
    (wellScoped : root.WellScoped [])
    (placed : ev.Placed root frames)
    (made : ev.Makes env ev') :
    ∃ frames', ev'.Placed root frames' := by
  induction made with
  | refl => exact ⟨frames, placed⟩
  | tail _ started ih =>
      obtain ⟨_, placed'⟩ := ih
      exact placed'.starts wellScoped started

end Placed
end Eval

/-- The evaluations of an execution are made in their places, each node having one place. -/
theorem Program.placed_of_makes
    {config : Config} {source : List Char} {p : Program} {context : Context}
    {ev : Eval.Evaluation} {scopes : List (List String)}
    (compiled : compile config source = .ok p)
    (made : p.evaluation.Makes (p.environment context) ev)
    (place : p.root.Occurs scopes ev.expr) :
    ∃ frames : List Lexical.Frame, frames.map Lexical.Frame.names = scopes ∧
      ev.Placed p.root frames := by
  have parsed := (compile_eq_ok_iff.mp compiled).1
  have start : p.evaluation.Placed p.root [] := ⟨.root, List.forall_mem_nil _, rfl⟩
  obtain ⟨frames, placed⟩ := start.makes (wellScoped_of_parse parsed) made
  exact ⟨frames, placed.place.scopes_unique (nodup_of_parse parsed) place, placed⟩

end ExprLang
