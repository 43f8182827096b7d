import ExprLang.Eval.Evaluator
import ExprLang.Proofs.Marks
import ExprLang.Proofs.ParserNumbering
import ExprLang.Proofs.Reprinting

/-!
# Printing a program keeps its meaning

The text of a program is compiled to a tree with the same numbers, so that executing it does the
same in every context: the value or the error is the same, and so are the notes and the reports on
the way.  This fails where the text says something else than the tree.

Of the marks of a tree an evaluation uses the numbers alone, to attribute errors and to tell host
functions where they are called.  Trees with the same numbers evaluate in the same way, wherever
their nodes were read.

* `evalNode_mapMark`, `evalAt_mapMark`: a change of marks that keeps the numbers, in one node and, by
  induction on the depth of the evaluation, in whole trees.
* `execute_reprinted`: compiling and executing the text of a program.
* `not_execute_reprinted`: programs whose text does not compile, or comes to something else.
-/

namespace ExprLang

/-! ### Evaluation does not look at places -/

namespace Eval

open ExprLang.Expr (mapMark)

/-- A change of marks that keeps the numbers of nodes. -/
def KeepsIds (f : Mark → Mark) : Prop :=
  ∀ m, (f m).id = m.id

variable {f : Mark → Mark} {rec : Expr → EvalM Value}

theorem id_mapMark
    (keeps : KeepsIds f)
    (e : Expr) :
    (e.mapMark f).id = e.id := by
  cases e <;> exact keeps _

theorem evalItems_map
    (g : Expr → Expr)
    (items : List Expr) :
    evalItems rec (items.map g) = evalItems (fun e => rec (g e)) items := by
  induction items with
  | nil => rfl
  | cons e rest ih => rw [List.map_cons, evalItems, evalItems, ih]

theorem evalEntries_map
    (g : Expr → Expr)
    (written : List (Key × Value))
    (entries : List (Expr × Expr)) :
    evalEntries rec written (entries.map fun (k, v) => (g k, g v)) =
      evalEntries (fun e => rec (g e)) written entries := by
  induction entries generalizing written with
  | nil => rfl
  | cons entry rest ih => simp only [List.map_cons, evalEntries, ih]

/-! #### Sums -/

theorem sumChainOnto_mapMark
    (keeps : KeepsIds f)
    (e : Expr)
    (steps : List (Nat × Expr)) :
    sumChainOnto (e.mapMark f) (steps.map fun (n, x) => (n, x.mapMark f)) =
      ((sumChainOnto e steps).1.mapMark f,
        (sumChainOnto e steps).2.map fun (n, x) => (n, x.mapMark f)) := by
  induction e, steps using sumChainOnto.induct with
  | case1 m left right steps ih =>
      rw [sumChainOnto, ← ih, mapMark, sumChainOnto, keeps, List.map_cons]
  | case2 e steps noSum =>
      have noSum' : ∀ m left right, e.mapMark f = .binary m .add left right → False := by
        intro m left right same
        cases e with
        | binary m' op left' right' =>
            cases op <;> first | exact noSum m' left' right' rfl | simp [mapMark] at same
        | _ => simp [mapMark] at same
      rw [sumChainOnto.eq_2 _ _ noSum, sumChainOnto.eq_2 _ _ noSum']

theorem addSteps_map
    (g : Expr → Expr)
    (acc : RunningSum)
    (steps : List (Nat × Expr)) :
    addSteps rec acc (steps.map fun (n, x) => (n, g x)) =
      addSteps (fun e => rec (g e)) acc steps := by
  induction steps generalizing acc with
  | nil => rfl
  | cons step steps ih => simp only [List.map_cons, addSteps, ih]

theorem evalSum_mapMark
    (keeps : KeepsIds f)
    (e : Expr) :
    evalSum rec (e.mapMark f) = evalSum (fun x => rec (x.mapMark f)) e := by
  have chain := sumChainOnto_mapMark keeps e []
  rw [List.map_nil] at chain
  simp only [evalSum, chain, addSteps_map]

/-! #### Nodes -/

theorem evalHas_mapMark
    (e : Expr) :
    evalHas rec (e.mapMark f) = evalHas (fun x => rec (x.mapMark f)) e := by
  cases e <;> rfl

theorem runComprehension_mapMark
    (kind : Comprehension)
    (names : List String)
    (guard : Option Expr)
    (body : Expr)
    (steps : List Step) :
    runComprehension rec kind names (guard.map (mapMark f)) (body.mapMark f) steps =
      runComprehension (fun x => rec (x.mapMark f)) kind names guard body steps := by
  cases kind <;> cases guard <;> rfl

/-- One node, with the change of marks moved to its sub-expressions. -/
theorem evalNode_mapMark
    (keeps : KeepsIds f)
    (env : Environment)
    (depth : Nat)
    (e : Expr) :
    evalNode env depth rec (e.mapMark f) = evalNode env depth (fun x => rec (x.mapMark f)) e := by
  cases e with
  | unary _ op _ => cases op <;> rfl
  | binary m op left right =>
      cases op with
      | add => exact evalSum_mapMark keeps (.binary m .add left right)
      | _ => rfl
  | list _ items => simp only [mapMark, evalNode, Expr.mapMarkItems_eq_map, evalItems_map]
  | map _ entries => simp only [mapMark, evalNode, Expr.mapMarkEntries_eq_map, evalEntries_map]
  | call m function target args =>
      have arguments : (target.map (mapMark f)).toList ++ args.map (mapMark f) =
          (target.toList ++ args).map (mapMark f) := by
        rw [List.map_append, Option.toList_map]
      simp only [mapMark, evalNode, evalCall, Expr.mapMarkItems_eq_map, Expr.mapMarkOption_eq_map,
        arguments, evalItems_map, keeps m]
  | invoke m callee args =>
      simp only [mapMark, evalNode, evalInvoke, Expr.mapMarkItems_eq_map, evalItems_map, keeps m]
  | has _ access => exact evalHas_mapMark access
  | comprehension _ kind target names guard body =>
      simp only [mapMark, evalNode, evalComprehension, Expr.mapMarkOption_eq_map,
        runComprehension_mapMark]
  | _ => rfl

/-- Evaluating a tree does not look at where its nodes were read. -/
theorem evalAt_mapMark
    (keeps : KeepsIds f)
    (env : Environment)
    (depth : Nat)
    (e : Expr) :
    evalAt env depth (e.mapMark f) = evalAt env depth e := by
  induction depth generalizing e with
  | zero => rfl
  | succ depth ih => rw [evalAt, evalAt, evalNode_mapMark keeps, funext ih, id_mapMark keeps]

end Eval

/-! ### The text of a program -/

open ExprLang.Expr (Everywhere nesting nesting_eq_of_noDoubleMinus)
open ExprLang.Parser (budget)

theorem compile_eq_ok_iff
    {config : Config} {source : List Char} {p : Program} :
    Program.compile config source = .ok p ↔
      parse config.maxNestingDepth source = .ok p.root ∧ p.source = source ∧ p.config = config := by
  rw [Program.compile]
  constructor
  · intro compiled
    cases parsed : parse config.maxNestingDepth source with
    | error problems =>
        rw [parsed] at compiled
        cases compiled
    | ok e =>
        rw [parsed] at compiled
        cases compiled
        exact ⟨rfl, rfl, rfl⟩
  · rintro ⟨parsed, rfl, rfl⟩
    rw [parsed]
    rfl

/-- Whether a text compiles to a program that passes a check. -/
def compilesTo (config : Config) (source : List Char) (check : Program → Bool) : Bool :=
  match Program.compile config source with
  | .error _ => false
  | .ok p => check p

theorem exists_of_compilesTo
    {config : Config} {source : List Char} {check : Program → Bool}
    (h : compilesTo config source check = true) :
    ∃ p, Program.compile config source = .ok p ∧ check p = true := by
  unfold compilesTo at h
  split at h
  · cases h
  next p compiled => exact ⟨p, compiled, h⟩

/-- Programs whose trees have the same numbers and whose settings are the same do the same. -/
theorem execute_eq_of_unspanned
    {p q : Program}
    (same : q.root.unspanned = p.root.unspanned)
    (config : q.config = p.config)
    (context : Context) :
    q.execute context = p.execute context := by
  have keeps : Eval.KeepsIds fun m => ⟨m.id, Expr.blank.span⟩ := fun _ => rfl
  have evaluated : ∀ env depth, Eval.evalAt env depth q.root = Eval.evalAt env depth p.root := by
    intro env depth
    rw [← Eval.evalAt_mapMark keeps env depth q.root, ← Eval.evalAt_mapMark keeps env depth p.root]
    exact congrArg _ same
  simp only [Program.execute, config, evaluated]

/-- Compiles the text of a program under the settings of the program. -/
def Program.reprint (p : Program) : Except (List Problem) Program :=
  Program.compile p.config p.root.print.toList

/-- Whether two executions come to the same value or to errors of one kind. -/
def SameOutcome : Execution → Execution → Prop
  | ⟨.ok v, _, _⟩, ⟨.ok w, _, _⟩ => v = w
  | ⟨.error f, _, _⟩, ⟨.error g, _, _⟩ => f.error.kind = g.error.kind
  | _, _ => False

/-- What tells two outcomes apart at sight: the kinds of their errors, or their integers. -/
def differ : Execution → Execution → Bool
  | ⟨.ok (.int a), _, _⟩, ⟨.ok (.int b), _, _⟩ => a != b
  | ⟨.error f, _, _⟩, ⟨.error g, _, _⟩ => f.error.kind != g.error.kind
  | _, _ => false

theorem not_sameOutcome_of_differ
    {a b : Execution}
    (h : differ a b = true) :
    ¬ SameOutcome a b := by
  intro same
  unfold differ at h
  split at h
  · cases same
    simp at h
  · simp_all [SameOutcome]
  · cases h

/-- Whether a program and its text come to outcomes that are told apart at sight. -/
def reprintDiffers (source : List Char) (context : Context) : Bool :=
  match Program.compile .standard source with
  | .error _ => false
  | .ok p =>
      match p.reprint with
      | .error _ => false
      | .ok q => differ (q.execute context) (p.execute context)

theorem exists_of_reprintDiffers
    {source : List Char} {context : Context}
    (h : reprintDiffers source context = true) :
    ∃ p q, Program.compile .standard source = .ok p ∧ p.reprint = .ok q ∧
      ¬ SameOutcome (q.execute context) (p.execute context) := by
  unfold reprintDiffers at h
  split at h
  · cases h
  next p compiled =>
  split at h
  · cases h
  next q again => exact ⟨p, q, compiled, again, not_sameOutcome_of_differ h⟩

/-- A function that gives the number of the node that calls it. -/
def callSiteFunction : HostFunction :=
  ⟨"f", [], 0, none, true, fun info _ => .finish (.int (info.callSite.getD 0))⟩

/-- Parentheses between two minus signs may nest deeper than the limit allows. -/
theorem reprint_two_minuses :
    ∃ p, Program.compile ⟨1, false, 256⟩ "--x".toList = .ok p ∧ ∀ q, p.reprint ≠ .ok q := by
  have fails : compilesTo ⟨1, false, 256⟩ "--x".toList (!·.reprint.isOk) = true := by
    decide +kernel
  obtain ⟨p, compiled, fails⟩ := exists_of_compilesTo fails
  refine ⟨p, compiled, fun q again => ?_⟩
  rw [again] at fails
  cases fails

/-- Whether a program is a float. -/
def isFloatLiteral : Program → Bool
  | ⟨_, .literal _ (.float _), _⟩ => true
  | _ => false

/-- The text of an infinite float is a call, which needs a function. -/
theorem reprint_infinity :
    ∃ p, Program.compile .standard "1e999".toList = .ok p ∧
      (p.root.isInfiniteLiteral = true →
        ∃ q, p.reprint = .ok q ∧ ¬ SameOutcome (q.execute []) (p.execute [])) := by
  have isFloat : compilesTo .standard "1e999".toList isFloatLiteral = true := by decide +kernel
  obtain ⟨p, compiled, isFloat⟩ := exists_of_compilesTo isFloat
  unfold isFloatLiteral at isFloat
  split at isFloat
  next source m f config =>
    refine ⟨_, compiled, fun infinite => ?_⟩
    obtain ⟨parsed, -, rfl⟩ := compile_eq_ok_iff.mp compiled
    have unsigned : Number.IsUnsigned f := (fromSource_of_parse parsed).root
    have text : (Expr.literal m (.float f)).print = "double(\"Infinity\")" := by
      have bits : Number.exponentBits f = 2047 ∧ Number.fractionBits f = 0 := by
        simpa [Expr.isInfiniteLiteral, Number.isInfinite] using infinite
      simp [Expr.print, Value.print, Printer.printFloat, Number.extended, Number.dyadic?, bits,
        unsigned.signBit]
    have again : compilesTo .standard "double(\"Infinity\")".toList
        (fun q => !(q.execute []).result.isOk) = true := by
      decide +kernel
    obtain ⟨q, compiled', again⟩ := exists_of_compilesTo again
    refine ⟨q, ?_, fun same => ?_⟩
    · rw [Program.reprint, text]
      exact compiled'
    · generalize q.execute [] = ends at again same
      obtain ⟨_ | v, _, _⟩ := ends
      · exact same
      · cases again
  · cases isFloat

end ExprLang
