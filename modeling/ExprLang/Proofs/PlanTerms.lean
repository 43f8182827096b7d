import ExprLang.Proofs.Plans
import ExprLang.Proofs.Scoping

/-!
# What the plan of a node keeps to

The plan of a node looks up the variable that the node names, evaluates its sub-expressions, and calls
the function that the node names or that a sub-expression came to.  `Terms` say which look-ups,
evaluations and calls a plan may make and which values it may rely on; a plan abides by the terms
whatever values come back.

* `Stable`: values that are closed under what the language does with them.
* `Abides.bind`: plans that abide by terms compose.
* `Terms.Allow`: terms that allow what a node needs.
* `abides_node`: the plan of a node abides by terms that allow what the node needs.
-/

namespace ExprLang

/-- The sub-expressions that a node evaluates outside the scope of its variables.  Where a node tests
an access, they are those of the access. -/
def Expr.operands : Expr → List Expr
  | has _ access => access.outerChildren
  | e => e.outerChildren

namespace Eval
namespace Plan

variable {α β : Type}

/-- What the steps of a plan keep to. -/
structure Terms where
  /-- The variables of comprehensions that are looked up. -/
  names : String → Prop
  /-- The values that variables and calls of functions come to. -/
  good : Value → Prop
  /-- The values that evaluations come to. -/
  given : Value → Prop
  /-- The expressions that are evaluated, and the bindings that are made for them. -/
  asks : Option Bindings → Expr → Prop
  /-- The calls that are made. -/
  calls : String → List Value → Prop

/-- Whether a plan abides by terms, and ends with results that have a property. -/
def Abides (c : Terms) (post : α → Prop) : Plan α → Prop
  | done a => post a
  | fail _ => True
  | binder name next => c.names name ∧ ∀ v, c.good v → Abides c post (next v)
  | call _ _ function args next =>
      c.calls function args ∧ ∀ v, c.good v → Abides c post (next v)
  | report _ next => Abides c post next
  | ask _ bindings e next =>
      c.asks bindings e ∧ ∀ v, c.given v → Abides c post (next v)

/-! ### Sequences -/

section Rules

variable {c : Terms} {post : α → Prop}

theorem Abides.bind
    {p : Plan α} {f : α → Plan β} {after : β → Prop}
    (first : p.Abides c post)
    (second : ∀ a, post a → (f a).Abides c after) :
    (p >>= f).Abides c after := by
  show (p.bind f).Abides c after
  induction p with
  | done a => exact second a first
  | fail error => trivial
  | report event next ih => exact ih first
  | binder name next ih => exact ⟨first.1, fun v good => ih v (first.2 v good)⟩
  | call depth node function args next ih =>
      exact ⟨first.1, fun v good => ih v (first.2 v good)⟩
  | ask depth bindings e next ih =>
      exact ⟨first.1, fun v given => ih v (first.2 v given)⟩

theorem abides_ofOutcome
    {o : Outcome α}
    (ok : ∀ a, o = .ok a → post a) :
    (ofOutcome o).Abides c post := by
  cases o with
  | ok a => exact ok a rfl
  | error e => trivial

theorem abides_ite
    {b : Bool} {p q : Plan α}
    (yes : p.Abides c post)
    (no : q.Abides c post) :
    (if b then p else q).Abides c post := by
  cases b
  · exact no
  · exact yes

theorem abides_value
    {depth : Nat} {e : Expr}
    (asks : c.asks none e) :
    (value depth e).Abides c c.given :=
  ⟨asks, fun _ given => given⟩

theorem abides_step
    {depth : Nat} {binders : List String} {e : Expr} {s : Step}
    (asks : c.asks (some (binders.zip s.bound)) e) :
    (step depth binders e s).Abides c c.given :=
  ⟨asks, fun _ given => given⟩

theorem abides_condition
    {depth : Nat} {e : Expr}
    (asks : c.asks none e) :
    (condition depth e).Abides c fun _ => True :=
  (abides_value asks).bind fun _ _ => abides_ofOutcome fun _ _ => trivial

theorem abides_test
    {depth : Nat} {binders : List String} {e : Expr} {s : Step}
    (asks : c.asks (some (binders.zip s.bound)) e) :
    (test depth binders e s).Abides c fun _ => True :=
  (abides_step asks).bind fun _ _ => abides_ofOutcome fun _ _ => trivial

theorem abides_items
    {depth : Nat} {es : List Expr}
    (asks : ∀ e ∈ es, c.asks none e) :
    (items depth es).Abides c fun vs => ∀ v ∈ vs, c.given v := by
  induction es with
  | nil => exact nofun
  | cons e rest ih =>
      obtain ⟨here, asks⟩ := List.forall_mem_cons.mp asks
      refine (abides_value here).bind fun v given => ?_
      exact (ih asks).bind fun vs givens => List.forall_mem_cons.mpr ⟨given, givens⟩

theorem abides_entries
    {depth : Nat} {es : List (Expr × Expr)} {written : List (Key × Value)}
    {sound : List (Key × Value) → Prop}
    (asks : ∀ kv ∈ es, c.asks none kv.1 ∧ c.asks none kv.2)
    (start : sound written)
    (put : ∀ written k v key, sound written → c.given k → c.given v → k.asKey = .ok key →
      sound (Value.putEntry written key v)) :
    (entries depth written es).Abides c sound := by
  induction es generalizing written with
  | nil => exact start
  | cons kv rest ih =>
      obtain ⟨here, asks⟩ := List.forall_mem_cons.mp asks
      refine (abides_value here.1).bind fun k givenKey => ?_
      refine (abides_value here.2).bind fun v given => ?_
      refine (abides_ofOutcome fun _ isKey => isKey).bind fun key isKey => ?_
      exact ih asks (put _ _ _ _ start givenKey given isKey)

section Loops

variable {holds : Step → Plan Bool} {steps : List Step}

theorem abides_all
    (each : ∀ s ∈ steps, (holds s).Abides c fun _ => True) :
    (all holds steps).Abides c fun _ => True := by
  induction steps with
  | nil => trivial
  | cons s rest ih =>
      obtain ⟨here, each⟩ := List.forall_mem_cons.mp each
      exact here.bind fun _ _ => abides_ite (ih each) trivial

theorem abides_any
    (each : ∀ s ∈ steps, (holds s).Abides c fun _ => True) :
    (any holds steps).Abides c fun _ => True := by
  induction steps with
  | nil => trivial
  | cons s rest ih =>
      obtain ⟨here, each⟩ := List.forall_mem_cons.mp each
      exact here.bind fun _ _ => abides_ite trivial (ih each)

theorem abides_keep
    (each : ∀ s ∈ steps, (holds s).Abides c fun _ => True) :
    (keep holds steps).Abides c fun kept => ∀ s ∈ kept, s ∈ steps := by
  induction steps with
  | nil => exact nofun
  | cons s rest ih =>
      obtain ⟨here, each⟩ := List.forall_mem_cons.mp each
      refine here.bind fun b _ => (ih each).bind fun kept sub => ?_
      have sub' : ∀ x ∈ kept, x ∈ s :: rest := fun x member => List.mem_cons_of_mem _ (sub x member)
      cases b
      · exact sub'
      · exact List.forall_mem_cons.mpr ⟨List.mem_cons_self, sub'⟩

theorem abides_transform
    {result : Step → Plan Value}
    (each : ∀ s ∈ steps, (holds s).Abides c fun _ => True)
    (results : ∀ s ∈ steps, (result s).Abides c c.given) :
    (transform holds result steps).Abides c fun vs => ∀ v ∈ vs, c.given v := by
  induction steps with
  | nil => exact nofun
  | cons s rest ih =>
      obtain ⟨here, each⟩ := List.forall_mem_cons.mp each
      obtain ⟨result, results⟩ := List.forall_mem_cons.mp results
      refine here.bind fun _ _ => abides_ite ?_ (ih each results)
      refine result.bind fun v given => (ih each results).bind fun vs givens => ?_
      exact List.forall_mem_cons.mpr ⟨given, givens⟩

end Loops

end Rules

/-! ### The plan of a node -/

/-- Whether values are closed under what the language does with them: good values come of values that
evaluations gave. -/
structure Stable (good given : Value → Prop) : Prop where
  good_of_given : ∀ v, given v → good v
  bool : ∀ b, good (.bool b)
  list : ∀ vs, (∀ v ∈ vs, good v) → good (.list vs)
  map : good (.map [])
  put : ∀ entries k v key, good (.map entries) → given k → given v → k.asKey = .ok key →
    good (.map (Value.putEntry entries key v))
  logicalNot : ∀ v w, given v → v.logicalNot = .ok w → good w
  neg : ∀ v w, given v → v.neg = .ok w → good w
  binary : ∀ op a b w, given a → given b → applyBinary op a b = .ok w → good w
  member : ∀ v field w, given v → v.member field = .ok w → good w
  index : ∀ v k w, given v → given k → v.index k = .ok w → good w
  steps : ∀ kind single v steps, given v → stepsOf kind single v = .ok steps →
    ∀ s ∈ steps, (∀ w ∈ s.bound, good w) ∧ good s.element

/-- Where nothing is asked of values, all of them are good. -/
theorem stable_true : Stable (fun _ => True) fun _ => True := by
  constructor <;> simp

/-- Whether terms allow what a node needs: the value of a literal and the meaning of a name are good,
and the variable, the sub-expressions and the calls of the node are allowed.  A call is that of the
function that the node names, or of a function that an evaluation came to. -/
structure Terms.Allow (c : Terms) (env : Environment) (e : Expr) : Prop where
  literal : ∀ m v, e = .literal m v → c.good v
  ident : ∀ m name v, e = .ident m name → lookup env name = .ok v → c.good v
  names : ∀ m name, e = .localRef m name → c.names name
  operands : ∀ x ∈ e.operands, c.asks none x
  steps : ∀ kind v steps, c.given v → stepsOf kind (e.binders.length == 1) v = .ok steps →
    ∀ s ∈ steps, ∀ x ∈ e.innerChildren, c.asks (some (e.binders.zip s.bound)) x
  calls : ∀ name vs, (e.calledName? = some name ∨ c.given (.function name)) →
    (∀ v ∈ vs, c.given v) → c.calls name vs

section Nodes

variable {env : Environment} {c : Terms} {depth : Nat}

theorem abides_binary
    (stable : Stable c.good c.given)
    (op : BinaryOp)
    {left right : Expr}
    (hleft : c.asks none left)
    (hright : c.asks none right) :
    (binary depth op left right).Abides c c.good := by
  have truth : ∀ {p : Plan Bool}, p.Abides c (fun _ => True) →
      (p >>= fun b => pure (.bool b)).Abides c c.good :=
    fun p => p.bind fun b _ => stable.bool b
  cases op with
  | and =>
      refine (abides_condition hleft).bind fun b _ => ?_
      exact abides_ite (truth (abides_condition hright)) (stable.bool false)
  | or =>
      refine (abides_condition hleft).bind fun b _ => ?_
      exact abides_ite (stable.bool true) (truth (abides_condition hright))
  | add =>
      refine (abides_value hleft).bind fun a givenLeft => ?_
      refine (abides_value hright).bind fun b givenRight => ?_
      exact abides_ofOutcome fun w added => stable.binary .add a b w givenLeft givenRight added
  | _ =>
      refine (abides_value hleft).bind fun a givenLeft => ?_
      refine (abides_value hright).bind fun b givenRight => ?_
      exact abides_ofOutcome fun w applied => stable.binary _ a b w givenLeft givenRight applied

theorem abides_comprehension
    (stable : Stable c.good c.given)
    {m : Mark} {kind : Comprehension} {target : Expr} {binders : List String}
    {guard : Option Expr} {body : Expr}
    (allow : c.Allow env (.comprehension m kind target binders guard body)) :
    (comprehension depth kind target binders guard body).Abides c c.good := by
  refine (abides_value (allow.operands target List.mem_cons_self)).bind fun v given => ?_
  refine (abides_ofOutcome fun _ isSteps => isSteps).bind fun steps isSteps => ?_
  have elements : ∀ s ∈ steps, c.good s.element := fun s member =>
    (stable.steps _ _ v steps given isSteps s member).2
  have asks : ∀ e ∈ guard.toList ++ [body], ∀ s ∈ steps,
      c.asks (some (binders.zip s.bound)) e :=
    fun e inner s member => allow.steps kind v steps given isSteps s member e inner
  have isBody : body ∈ guard.toList ++ [body] := List.mem_append_right _ (List.mem_singleton_self _)
  have tests : ∀ s ∈ steps, (test depth binders body s).Abides c fun _ => True :=
    fun s member => abides_test (asks body isBody s member)
  cases kind with
  | all => exact (abides_all tests).bind fun b _ => stable.bool b
  | any => exact (abides_any tests).bind fun b _ => stable.bool b
  | one => exact (abides_keep tests).bind fun kept _ => stable.bool _
  | filter =>
      refine (abides_keep tests).bind fun kept sub => stable.list _ fun w member => ?_
      obtain ⟨s, isKept, rfl⟩ := List.mem_map.mp member
      exact elements s (sub s isKept)
  | map =>
      have passing : ∀ s ∈ steps, (passes depth binders guard s).Abides c fun _ => True := by
        cases guard with
        | none => exact fun _ _ => trivial
        | some e => exact fun s member => abides_test (asks e List.mem_cons_self s member)
      have results : ∀ s ∈ steps, (step depth binders body s).Abides c c.given :=
        fun s member => abides_step (asks body isBody s member)
      refine (abides_transform passing results).bind fun vs givens => ?_
      exact stable.list vs fun w member => stable.good_of_given w (givens w member)

theorem abides_has
    (stable : Stable c.good c.given)
    {access : Expr}
    (asks : ∀ e ∈ access.outerChildren, c.asks none e) :
    (has depth access).Abides c c.good := by
  unfold has
  split
  · exact (abides_value (asks _ List.mem_cons_self)).bind fun v _ => stable.bool _
  · refine (abides_value (asks _ List.mem_cons_self)).bind fun v _ => ?_
    exact (abides_value (asks _ (List.mem_cons_of_mem _ List.mem_cons_self))).bind fun w _ =>
      stable.bool _
  · trivial

theorem abides_call
    {node : Nat} {function : String} {vs : List Value}
    (calls : c.calls function vs) :
    (call depth node function vs done).Abides c c.good :=
  ⟨calls, fun _ good => good⟩

/-- The plan of a node abides by terms that allow what the node needs. -/
theorem abides_node
    (stable : Stable c.good c.given)
    {e : Expr}
    (allow : c.Allow env e) :
    (node env depth e).Abides c c.good := by
  have operands := allow.operands
  have calls := allow.calls
  cases e with
  | literal m v => exact allow.literal m v rfl
  | ident m name => exact abides_ofOutcome fun v found => allow.ident m name v rfl found
  | localRef m name => exact ⟨allow.names m name rfl, fun v good => good⟩
  | unary _ op operand =>
      have asks : c.asks none operand := operands _ List.mem_cons_self
      cases op with
      | not =>
          exact (abides_value asks).bind fun v given =>
            abides_ofOutcome fun w result => stable.logicalNot v w given result
      | neg =>
          exact (abides_value asks).bind fun v given =>
            abides_ofOutcome fun w result => stable.neg v w given result
  | binary _ op left right =>
      exact abides_binary stable op (operands left List.mem_cons_self)
        (operands right (List.mem_cons_of_mem _ List.mem_cons_self))
  | ternary _ cond ifTrue ifFalse =>
      have branch : ∀ x, c.asks none x → (value depth x).Abides c c.good := fun x asks =>
        ⟨asks, stable.good_of_given⟩
      refine (abides_condition (operands cond List.mem_cons_self)).bind fun b _ => ?_
      exact abides_ite (branch _ (operands ifTrue (by simp [Expr.operands, Expr.outerChildren,
        Expr.children]))) (branch _ (operands ifFalse (by simp [Expr.operands, Expr.outerChildren,
        Expr.children])))
  | list _ es =>
      exact (abides_items operands).bind fun vs givens =>
        stable.list vs fun v member => stable.good_of_given v (givens v member)
  | map _ es =>
      refine (abides_entries (fun kv member => ⟨operands _ ?_, operands _ ?_⟩) stable.map
        fun written k v key => stable.put written k v key).bind fun written good => good
      · exact List.mem_flatMap.mpr ⟨kv, member, by simp⟩
      · exact List.mem_flatMap.mpr ⟨kv, member, by simp⟩
  | select _ operand field =>
      exact (abides_value (operands operand List.mem_cons_self)).bind fun v given =>
        abides_ofOutcome fun w result => stable.member v field w given result
  | index _ operand key =>
      refine (abides_value (operands operand List.mem_cons_self)).bind fun v given => ?_
      exact (abides_value (operands key (List.mem_cons_of_mem _ List.mem_cons_self))).bind
        fun k givenKey => abides_ofOutcome fun w result => stable.index v k w given givenKey result
  | call m function target args =>
      refine abides_ite trivial ?_
      exact (abides_items operands).bind fun vs givens =>
        abides_call (calls function vs (.inl rfl) givens)
  | invoke m callee args =>
      refine (abides_value (operands callee List.mem_cons_self)).bind fun v given => ?_
      cases v with
      | function name =>
          exact (abides_items fun x member => operands x (List.mem_cons_of_mem _ member)).bind
            fun vs givens => abides_call (calls name vs (.inr given) givens)
      | _ => trivial
  | has _ access => exact abides_has stable operands
  | comprehension => exact abides_comprehension stable allow

end Nodes

end Plan
end Eval
end ExprLang
