import ExprLang.Program
import ExprLang.Proofs.ScopeHistories

/-!
# Nested scopes as one

What a context answers is what the nearest of its scopes answers, and an execution asks its context for
nothing but the value of a variable and the functions of a name.  So scopes that are nested in one
another may be laid over each other: an execution in the one scope that comes of it is the same.

* `Eval.evalAt_alike`: evaluations in contexts that answer alike.
* `Context.alike_flatten`: the scopes of a context laid over each other answer as the context does.
* `ScopeTree.contexts_after_calls`: contexts after any calls.
-/

namespace ExprLang

/-! ### Contexts that answer alike -/

/-- Whether two contexts answer alike: every variable has the same value, and every name the same
functions. -/
structure Context.Alike (c c' : Context) : Prop where
  valueOf? : ∀ name, c'.valueOf? name = c.valueOf? name
  overloads? : ∀ name, c'.overloads? name = c.overloads? name

namespace Eval

variable {c c' : Context} {debug : Bool}
variable (alike : c.Alike c')
include alike

theorem hasFunction_alike
    (name : String) :
    c'.hasFunction name = c.hasFunction name := by
  rw [Context.hasFunction, Context.hasFunction, alike.overloads?]

theorem lookup_alike
    (name : String) :
    lookup ⟨c', debug⟩ name = lookup ⟨c, debug⟩ name := by
  unfold lookup
  rw [alike.valueOf?, hasFunction_alike alike]

/-- What a host function does is the same, if the calls that it makes are. -/
theorem runProgram_alike
    (call : String → List Value → EvalM Value)
    (f : HostFunction) (program : HostProgram) :
    runProgram ⟨c', debug⟩ call f program = runProgram ⟨c, debug⟩ call f program := by
  induction program with
  | finish | fail => rfl
  | raise e => rfl
  | note entry next ih => rw [runProgram, runProgram, ih]
  | resolve name next ih =>
      have same : resolve ⟨c', debug⟩ name = resolve ⟨c, debug⟩ name := by
        unfold resolve
        rw [lookup_alike alike]
      rw [runProgram, runProgram, same, funext ih]
  | «variable» name next ih => rw [runProgram, runProgram, alike.valueOf?, ih]
  | call function args next ih => rw [runProgram, runProgram, funext ih]

theorem callFunction_alike
    (depth : Nat) (callSite : Option Nat) :
    callFunction ⟨c', debug⟩ depth callSite = callFunction ⟨c, debug⟩ depth callSite := by
  induction depth with
  | zero => rfl
  | succ depth ih =>
      funext name args
      rw [callFunction, callFunction, alike.overloads?, ih]
      simp only [runProgram_alike alike]
      rfl

/-- A node comes to the same, if what stands inside it does. -/
theorem evalNode_alike
    (depth : Nat) (rec : Expr → EvalM Value) (e : Expr) :
    evalNode ⟨c', debug⟩ depth rec e = evalNode ⟨c, debug⟩ depth rec e := by
  cases e with
  | ident m name => rw [evalNode, evalNode, lookup_alike alike]
  | call m function target args =>
      rw [evalNode, evalNode, evalCall, evalCall, hasFunction_alike alike, callFunction_alike alike]
  | invoke m callee args => rw [evalNode, evalNode, evalInvoke, evalInvoke, callFunction_alike alike]
  | unary m op operand => cases op <;> rfl
  | binary m op left right => cases op <;> rfl
  | _ => rfl

theorem evalAt_alike
    (depth : Nat) :
    evalAt ⟨c', debug⟩ depth = evalAt ⟨c, debug⟩ depth := by
  induction depth with
  | zero => rfl
  | succ depth ih =>
      funext e
      rw [evalAt, evalAt, ih, evalNode_alike alike]

end Eval

/-- An execution depends on the answers of its context only. -/
theorem Program.execute_alike
    {c c' : Context}
    (alike : c.Alike c')
    (p : Program) :
    p.execute c' = p.execute c := by
  rw [execute, execute, Eval.evalAt_alike alike]

/-! ### Scopes laid over each other -/

/-- The entries of two association lists, those of the first before all that the second has under other
keys. -/
def Assoc.overlay {κ α : Type} [BEq κ] (inner outer : List (κ × α)) : List (κ × α) :=
  inner ++ outer.filter fun e => (inner.lookup e.1).isNone

/-- A scope laid over another. -/
def Scope.overlay (inner outer : Scope) : Scope :=
  ⟨Assoc.overlay inner.bindings outer.bindings, Assoc.overlay inner.functions outer.functions⟩

/-- The scopes of a context laid over each other. -/
def Context.flatten : Context → Scope
  | [] => .empty
  | s :: outer => s.overlay (flatten outer)

theorem Assoc.lookup_overlay
    {κ α : Type}
    [BEq κ] [LawfulBEq κ]
    (inner outer : List (κ × α)) (key : κ) :
    (overlay inner outer).lookup key = (inner.lookup key).or (outer.lookup key) := by
  rw [overlay, List.lookup_append]
  cases isNear : inner.lookup key with
  | some value => rfl
  | none =>
      rw [Option.none_or, Option.none_or]
      induction outer with
      | nil => rfl
      | cons e outer ih =>
          obtain ⟨k, value⟩ := e
          by_cases same : key = k
          · subst same
            simp [isNear]
          · have differs : (key == k) = false := beq_eq_false_iff_ne.mpr same
            rw [List.filter_cons]
            split <;> simp [List.lookup_cons, differs, ih]

namespace Scope

variable (inner outer : Scope) (name : String)

theorem valueOf?_overlay :
    (inner.overlay outer).valueOf? name = (inner.valueOf? name).or (outer.valueOf? name) :=
  Assoc.lookup_overlay ..

theorem overloads?_overlay :
    (inner.overlay outer).overloads? name = (inner.overloads? name).or (outer.overloads? name) :=
  Assoc.lookup_overlay ..

end Scope

namespace Context

/-- One scope answers as a context if it answers as the nearest of the scopes there. -/
theorem alike_scope
    {c : Context} {flat : Scope}
    (values : ∀ name, flat.valueOf? name = c.valueOf? name)
    (functions : ∀ name, flat.overloads? name = c.overloads? name) :
    c.Alike [flat] where
  valueOf? name := by rw [← values name, valueOf?]; simp
  overloads? name := by rw [← functions name, overloads?]; simp

theorem alike_flatten
    (c : Context) :
    c.Alike [c.flatten] := by
  refine alike_scope (fun name => ?_) fun name => ?_
  · induction c with
    | nil => rfl
    | cons s outer ih =>
        rw [flatten, Scope.valueOf?_overlay, ih, valueOf?, valueOf?, List.findSome?_cons]
        cases s.valueOf? name <;> rfl
  · induction c with
    | nil => rfl
    | cons s outer ih =>
        rw [flatten, Scope.overloads?_overlay, ih, overloads?, overloads?, List.findSome?_cons]
        cases s.overloads? name <;> rfl

end Context

/-! ### Any calls -/

namespace ScopeTree

/-- Whether something is the answer of the nearest scope that has one. -/
def Nearest {α : Type} (t : ScopeTree) (ns : List Nat) (answer : Scope → Option α) (a : α) : Prop :=
  ∃ inner m outer, ns = inner ++ m :: outer ∧ answer (t.scope m) = some a ∧
    ∀ k ∈ inner, answer (t.scope k) = none

theorem findSome?_scopes_eq_some_iff
    {α : Type}
    {t : ScopeTree} {ns : List Nat} {answer : Scope → Option α} {a : α} :
    (ns.map t.scope).findSome? answer = some a ↔ t.Nearest ns answer a := by
  rw [List.findSome?_map, List.findSome?_eq_some_iff]
  rfl

/-- Contexts after any calls on nested scopes.  A call that fails changes nothing; a name keeps the
value that it had or got first, and functions stand in the order in which they were registered; a scope
stays where it is, and what a call does is not seen from the scopes around the one that it is on.  A
context answers what the nearest of its scopes answers, and an execution in it is the same as in one
scope that answers alike; host functions may look up names and call functions, but see nothing else of
their context. -/
theorem contexts_after_calls
    {t u : ScopeTree} {calls : List Call}
    (ordered : t.Ordered)
    (reached : t.Reaches calls u) :
    (∀ (call : Call) fault, (call.run u).1 = .error fault → (call.run u).2 = u) ∧
      (∀ m name,
        (u.scope m).valueOf? name =
            ((t.scope m).valueOf? name).or (calls.findSome? (Call.binds? m name)) ∧
          (u.scope m).overloads? name =
            appended ((t.scope m).overloads? name) (calls.filterMap (Call.registers? m name))) ∧
      (∀ (call : Call) ns, u.Chain call.target ns →
        (∀ name v, (u.scope call.target).valueOf? name = some v →
            ((call.run u).2.scope call.target).valueOf? name = some v) ∧
          ∀ m ∈ ns, m ≠ call.target → (call.run u).2.context m = u.context m) ∧
      (∀ n ns, t.Chain n ns → u.Chain n ns) ∧
      (∀ n < u.nodes.length, ∃ ns, u.Chain n ns) ∧
      ∀ n ns, u.Chain n ns →
        (u.newChild n).2.context u.nodes.length = .empty :: u.context n ∧
          (∀ name v, (u.context n).valueOf? name = some v ↔ u.Nearest ns (·.valueOf? name) v) ∧
          (∀ name fs,
            (u.context n).overloads? name = some fs ↔ u.Nearest ns (·.overloads? name) fs) ∧
          (u.context n).Alike [(u.context n).flatten] ∧
          ∀ flat : Scope, (u.context n).Alike [flat] →
            ∀ p : Program, p.execute [flat] = p.execute (u.context n) := by
  have stillOrdered := reached.ordered ordered
  refine ⟨fun call fault failed => call.run_of_error failed,
    fun m name => ⟨reached.valueOf? m name, reached.overloads? m name⟩,
    fun call ns chain => ⟨fun name v isBound => ?_, fun m around other =>
      call.context_run_of_around stillOrdered chain around other⟩,
    fun n ns => reached.chain, fun n there => exists_chain stillOrdered there, fun n ns chain => ?_⟩
  · rw [call.valueOf?_run chain.lt_length, isBound]
    rfl
  · have isChain := context_of_chain stillOrdered chain
    refine ⟨Call.context_newChild stillOrdered chain.lt_length, fun name v => ?_, fun name fs => ?_,
      Context.alike_flatten _, fun flat alike p => p.execute_alike alike⟩
    · rw [isChain]
      exact findSome?_scopes_eq_some_iff
    · rw [isChain]
      exact findSome?_scopes_eq_some_iff

/-- A function without parameters that gives a number. -/
def constant (n : Int) : Implementation :=
  .described ⟨[], 0, none, false, none⟩ fun _ _ => .finish (.int n)

/-- Calls that bind a variable in a scope and twice in one within it, which has a function of its own
under a name of the scope around it. -/
def shadowing : List Call :=
  [.bind 0 "x" (.int 1), .register 0 "f" (constant 1), .nest 0, .bind 1 "x" (.int 2),
    .bind 1 "x" (.int 3), .register 1 "f" (constant 2)]

/-- The tree that these calls make of a tree with one empty scope. -/
def shadowed : ScopeTree :=
  shadowing.foldl (fun t call => (call.run t).2) (single .empty)

theorem reaches_shadowed :
    (single .empty).Reaches shadowing shadowed :=
  have bound := Reaches.start.call (.bind 0 "x" (.int 1)) (by decide)
  have registered := bound.call (.register 0 "f" (constant 1)) (by decide +kernel)
  have nested := registered.call (.nest 0) (by decide +kernel)
  have boundWithin := nested.call (.bind 1 "x" (.int 2)) (by decide +kernel)
  have failed := boundWithin.call (.bind 1 "x" (.int 3)) (by decide +kernel)
  failed.call (.register 1 "f" (constant 2)) (by decide +kernel)

theorem ordered_single
    (s : Scope) :
    (single s).Ordered := by
  intro n outer around
  cases n <;> cases around

/-- A variable keeps its first value in each scope, and the nested scope has a flat equal. -/
theorem contexts_after_calls_shadowing :
    (single .empty).Ordered ∧ (single .empty).Reaches shadowing shadowed ∧
      (shadowed.context 1).valueOf? "x" = some (.int 2) ∧
      (shadowed.context 0).valueOf? "x" = some (.int 1) ∧
      (Call.bind 1 "x" (.int 3)).run shadowed = (.error (.name ⟨"x", .alreadyDefined⟩), shadowed) ∧
      ((Call.bind 1 "y" (.int 3)).run shadowed).2.context 0 = shadowed.context 0 ∧
      ∀ p : Program,
        p.execute [(shadowed.context 1).flatten] = p.execute (shadowed.context 1) := by
  have outer : shadowed.Chain 0 [0] := .root (by decide +kernel) rfl
  have inner : shadowed.Chain 1 [1, 0] := .inner rfl outer
  have failed : ((Call.bind 1 "x" (.int 3)).run shadowed).1 =
      .error (.name ⟨"x", .alreadyDefined⟩) := rfl
  obtain ⟨unchanged, bound, apart, -, -, answers⟩ :=
    contexts_after_calls (ordered_single .empty) reaches_shadowed
  obtain ⟨-, values, -, alike, flat⟩ := answers 1 _ inner
  refine ⟨ordered_single _, reaches_shadowed, (values _ _).mpr ⟨[], 1, [0], rfl, ?_, nofun⟩,
    ((answers 0 _ outer).2.1 _ _).mpr ⟨[], 0, [], rfl, ?_, nofun⟩,
    Prod.ext failed (unchanged _ _ failed),
    (apart (.bind 1 "y" (.int 3)) _ inner).2 0 (by decide) (by decide), flat _ alike⟩
  · exact (bound 1 "x").1.trans rfl
  · exact (bound 0 "x").1.trans rfl

end ScopeTree
end ExprLang
