import ExprLang.Program
import ExprLang.Proofs.ScopeStack
import ExprLang.Proofs.Scoping

/-!
# Variables are lexically scoped

The evaluator finds the value of a variable by searching the scope stack, which it keeps while it
runs.  `Lexical.evalAt` evaluates the same expressions with lexical scope: sub-expressions are given
the comprehensions around them, each with the values for the element at hand, and a variable has
the value that the innermost comprehension binding its name gives it.  What an unbound variable
does is left open there.

On the expressions that the parser builds the two agree, whatever an unbound variable does: the
search never fails and always finds the lexical value.

* `AgreeOn.bind`: evaluations that keep the scopes agree step by step.
* `agreeOn_evalNode`: a node that binds nothing agrees if its sub-expressions do.
* `agreeOn_evalAt`: where the stack holds the bindings of the frames, the evaluators agree.
-/

namespace ExprLang

open EvalM (KeepsScopes)

/-! ### The lexical evaluator -/

namespace Lexical

open Eval (Step)

/-- The variables of a comprehension around an expression, and their values for the element at
hand. -/
structure Frame where
  names : List String
  values : List Value

/-- The bindings that a frame makes. -/
def Frame.bindings (f : Frame) : Bindings :=
  f.names.zip f.values

/-- The value that the innermost frame with a variable of the name gives to it. -/
def value? (frames : List Frame) (name : String) : Option Value :=
  (frames.find? fun f => f.names.contains name).bind fun f => f.bindings.lookup name

/-- Runs a comprehension over its steps.  For each of them the guard and the body are in the scope
of one more frame. -/
def runComprehension (rec : List Frame → Expr → EvalM Value) (frames : List Frame)
    (kind : Comprehension) (names : List String) (guard : Option Expr) (body : Expr)
    (steps : List Step) : EvalM Value := do
  let within (step : Step) : Expr → EvalM Value := rec (⟨names, step.bound⟩ :: frames)
  let test (e : Expr) (step : Step) : EvalM Bool := Eval.testStep (within step) names e step
  match kind with
  | .all => return .bool (← Eval.allSteps (test body) steps)
  | .any => return .bool (← Eval.anyStep (test body) steps)
  | .one => return .bool ((← Eval.keepSteps (test body) steps).length == 1)
  | .filter => return .list ((← Eval.keepSteps (test body) steps).map (·.element))
  | .map =>
      let passes : Step → EvalM Bool := match guard with
        | none => fun _ => pure true
        | some e => test e
      let transform (step : Step) : EvalM Value := Eval.evalStep (within step) names body step
      return .list (← Eval.mapStep passes transform steps)

/-- Evaluates a node in the scope of frames.  Variables and comprehensions apart, it is the
evaluator's own step. -/
def evalNode (env : Environment) (unbound : String → EvalM Value) (depth : Nat)
    (rec : List Frame → Expr → EvalM Value) (frames : List Frame) (e : Expr) : EvalM Value :=
  match e with
  | .localRef _ name =>
      match value? frames name with
      | some v => return v
      | none => unbound name
  | .comprehension _ kind target names guard body => do
      let v ← rec frames target
      EvalM.report env (.comprehension kind.name v.typeName names)
      let steps ← EvalM.ofOutcome (Eval.stepsOf kind (names.length == 1) v)
      runComprehension rec frames kind names guard body steps
  | e => Eval.evalNode env depth (rec frames) e

/-- Evaluates an expression in the scope of frames, the innermost first. -/
def evalAt (env : Environment) (unbound : String → EvalM Value) :
    Nat → List Frame → Expr → EvalM Value
  | 0, _, _ => throw .outOfDepth
  | depth + 1, frames, e =>
      EvalM.attributed e.id (evalNode env unbound depth (evalAt env unbound depth) frames e)

end Lexical

/-! ### Agreement -/

variable {α β : Type}

/-- Two evaluations do the same where the scope stack is a given one. -/
def AgreeOn (scopes : List Bindings) (m m' : EvalM α) : Prop :=
  ∀ s : EvalState, s.scopes = scopes → m s = m' s

namespace AgreeOn

variable {scopes : List Bindings}

theorem refl
    (m : EvalM α) :
    AgreeOn scopes m m :=
  fun _ _ => rfl

/-- Evaluations that keep the scopes agree step by step. -/
theorem bind
    {m m' : EvalM α} {f f' : α → EvalM β}
    (hm : AgreeOn scopes m m')
    (keeps : KeepsScopes m)
    (hf : ∀ a, AgreeOn scopes (f a) (f' a)) :
    AgreeOn scopes (m >>= f) (m' >>= f') := by
  intro s hs
  rw [EvalM.bind_apply, EvalM.bind_apply, ← hm s hs]
  cases h : m s with
  | mk result t =>
      cases result with
      | error stop => rfl
      | ok a => exact hf a t ((keeps.scopes_eq h).trans hs)

theorem attributed
    {m m' : EvalM α}
    (hm : AgreeOn scopes m m')
    (node : Nat) :
    AgreeOn scopes (EvalM.attributed node m) (EvalM.attributed node m') := by
  intro s hs
  rw [EvalM.attributed, EvalM.attributed, hm s hs]

theorem withBindings
    {m m' : EvalM α} {bindings : Bindings}
    (hm : AgreeOn (bindings :: scopes) m m') :
    AgreeOn scopes (EvalM.withBindings bindings m) (EvalM.withBindings bindings m') := by
  intro s hs
  rw [EvalM.withBindings, EvalM.withBindings, hm { s with scopes := bindings :: s.scopes } (by rw [hs])]

end AgreeOn

/-! ### Loops over steps -/

section Steps

open Eval (Step allSteps anyStep keepSteps mapStep keepsScopes_allSteps keepsScopes_anyStep
  keepsScopes_keepSteps keepsScopes_mapStep)

variable {scopes : List Bindings} {test test' : Step → EvalM Bool} {steps : List Step}

theorem agreeOn_allSteps
    (keeps : ∀ step, KeepsScopes (test step))
    (h : ∀ step ∈ steps, AgreeOn scopes (test step) (test' step)) :
    AgreeOn scopes (allSteps test steps) (allSteps test' steps) := by
  induction steps with
  | nil => exact .refl _
  | cons step rest ih =>
      rw [List.forall_mem_cons] at h
      refine h.1.bind (keeps step) fun holds => ?_
      cases holds with
      | false => exact .refl _
      | true => exact ih h.2

theorem agreeOn_anyStep
    (keeps : ∀ step, KeepsScopes (test step))
    (h : ∀ step ∈ steps, AgreeOn scopes (test step) (test' step)) :
    AgreeOn scopes (anyStep test steps) (anyStep test' steps) := by
  induction steps with
  | nil => exact .refl _
  | cons step rest ih =>
      rw [List.forall_mem_cons] at h
      refine h.1.bind (keeps step) fun holds => ?_
      cases holds with
      | false => exact ih h.2
      | true => exact .refl _

theorem agreeOn_keepSteps
    (keeps : ∀ step, KeepsScopes (test step))
    (h : ∀ step ∈ steps, AgreeOn scopes (test step) (test' step)) :
    AgreeOn scopes (keepSteps test steps) (keepSteps test' steps) := by
  induction steps with
  | nil => exact .refl _
  | cons step rest ih =>
      rw [List.forall_mem_cons] at h
      refine h.1.bind (keeps step) fun holds => ?_
      exact (ih h.2).bind (keepsScopes_keepSteps keeps rest) fun kept => .refl _

theorem agreeOn_mapStep
    {transform transform' : Step → EvalM Value}
    (keeps : ∀ step, KeepsScopes (test step))
    (keeps' : ∀ step, KeepsScopes (transform step))
    (h : ∀ step ∈ steps, AgreeOn scopes (test step) (test' step))
    (h' : ∀ step ∈ steps, AgreeOn scopes (transform step) (transform' step)) :
    AgreeOn scopes (mapStep test transform steps) (mapStep test' transform' steps) := by
  induction steps with
  | nil => exact .refl _
  | cons step rest ih =>
      rw [List.forall_mem_cons] at h h'
      refine h.1.bind (keeps step) fun holds => ?_
      cases holds with
      | false => exact ih h.2 h'.2
      | true =>
          refine h'.1.bind (keeps' step) fun v => ?_
          exact (ih h.2 h'.2).bind (keepsScopes_mapStep keeps keeps' rest) fun vs => .refl _

end Steps

/-! ### Nodes that bind nothing -/

section Nodes

open ExprLang.Expr (WellScoped wellScoped_iff)
open Eval

variable {outer : List (List String)} {scopes : List Bindings}
variable {rec rec' : Expr → EvalM Value}
variable (keeps : ∀ e, KeepsScopes (rec e))
variable (h : ∀ e, WellScoped outer e → AgreeOn scopes (rec e) (rec' e))
include keeps h

theorem agreeOn_condition
    {e : Expr}
    (placed : WellScoped outer e) :
    AgreeOn scopes (condition rec e) (condition rec' e) :=
  (h e placed).bind (keeps e) fun _ => .refl _

theorem agreeOn_evalItems
    {items : List Expr}
    (placed : ∀ e ∈ items, WellScoped outer e) :
    AgreeOn scopes (evalItems rec items) (evalItems rec' items) := by
  induction items with
  | nil => exact .refl _
  | cons e rest ih =>
      rw [List.forall_mem_cons] at placed
      refine (h e placed.1).bind (keeps e) fun v => ?_
      exact (ih placed.2).bind (keepsScopes_evalItems keeps rest) fun vs => .refl _

theorem agreeOn_evalEntries
    {pairs : List (Expr × Expr)}
    (placed : ∀ pair ∈ pairs, WellScoped outer pair.1 ∧ WellScoped outer pair.2)
    (entries : List (Key × Value)) :
    AgreeOn scopes (evalEntries rec entries pairs) (evalEntries rec' entries pairs) := by
  induction pairs generalizing entries with
  | nil => exact .refl _
  | cons pair rest ih =>
      rw [List.forall_mem_cons] at placed
      refine (h pair.1 placed.1.1).bind (keeps _) fun key => ?_
      refine (h pair.2 placed.1.2).bind (keeps _) fun v => ?_
      exact (AgreeOn.refl _).bind (EvalM.keepsScopes_ofOutcome _) fun k => ih placed.2 _

theorem agreeOn_addSteps
    {steps : List (Nat × Expr)}
    (placed : ∀ step ∈ steps, WellScoped outer step.2)
    (acc : RunningSum) :
    AgreeOn scopes (addSteps rec acc steps) (addSteps rec' acc steps) := by
  induction steps generalizing acc with
  | nil => exact .refl _
  | cons step rest ih =>
      rw [List.forall_mem_cons] at placed
      refine (h step.2 placed.1).bind (keeps _) fun v => ?_
      cases acc.gather? v with
      | some acc => exact ih placed.2 acc
      | none =>
          exact (AgreeOn.refl _).bind ((EvalM.keepsScopes_ofOutcome _).attributed _) fun sum =>
            ih placed.2 _

omit keeps h in
/-- The operands of a chain of sums are in the scopes of the chain. -/
theorem wellScoped_sumChainOnto
    {e : Expr} {steps : List (Nat × Expr)}
    (placed : WellScoped outer e)
    (scopedSteps : ∀ step ∈ steps, WellScoped outer step.2) :
    WellScoped outer (sumChainOnto e steps).1 ∧
      ∀ step ∈ (sumChainOnto e steps).2, WellScoped outer step.2 := by
  fun_induction sumChainOnto e steps with
  | case1 m left right steps ih =>
      have operands := (wellScoped_iff.mp placed).2.1
      exact ih (operands left (by simp [Expr.outerChildren, Expr.children]))
        (List.forall_mem_cons.mpr
          ⟨operands right (by simp [Expr.outerChildren, Expr.children]), scopedSteps⟩)
  | case2 => exact ⟨placed, scopedSteps⟩

theorem agreeOn_evalSum
    {e : Expr}
    (placed : WellScoped outer e) :
    AgreeOn scopes (evalSum rec e) (evalSum rec' e) := by
  obtain ⟨first, steps⟩ := wellScoped_sumChainOnto placed (List.forall_mem_nil _)
  exact (h _ first).bind (keeps _) fun v => agreeOn_addSteps keeps h steps _

theorem agreeOn_evalBinary
    {op : BinaryOp} {left right : Expr}
    (hleft : WellScoped outer left)
    (hright : WellScoped outer right) :
    AgreeOn scopes (evalBinary rec op left right) (evalBinary rec' op left right) := by
  have test := agreeOn_condition keeps h hleft
  have test' := agreeOn_condition keeps h hright
  unfold evalBinary
  split
  · refine test.bind (keepsScopes_condition keeps left) fun holds => ?_
    cases holds with
    | false => exact .refl _
    | true => exact test'.bind (keepsScopes_condition keeps right) fun _ => .refl _
  · refine test.bind (keepsScopes_condition keeps left) fun holds => ?_
    cases holds with
    | false => exact test'.bind (keepsScopes_condition keeps right) fun _ => .refl _
    | true => exact .refl _
  · exact (h _ hleft).bind (keeps _) fun a => (h _ hright).bind (keeps _) fun b => .refl _

theorem agreeOn_evalHas
    {access : Expr}
    (placed : WellScoped outer access) :
    AgreeOn scopes (evalHas rec access) (evalHas rec' access) := by
  have operands := (wellScoped_iff.mp placed).2.1
  unfold evalHas
  split
  · refine (h _ (operands _ ?_)).bind (keeps _) fun v => .refl _
    simp [Expr.outerChildren, Expr.children]
  · refine (h _ (operands _ ?_)).bind (keeps _) fun target =>
      (h _ (operands _ ?_)).bind (keeps _) fun key => .refl _
    · simp [Expr.outerChildren, Expr.children]
    · simp [Expr.outerChildren, Expr.children]
  · exact .refl _

/-- A node that binds nothing agrees if its sub-expressions do. -/
theorem agreeOn_evalNode
    (env : Environment) (depth : Nat) {e : Expr}
    (placed : WellScoped outer e)
    (noBinders : ∀ m kind target names guard body, e ≠ .comprehension m kind target names guard body) :
    AgreeOn scopes (evalNode env depth rec e) (evalNode env depth rec' e) := by
  have operands := (wellScoped_iff.mp placed).2.1
  unfold evalNode
  split
  · exact .refl _
  · exact .refl _
  · exact .refl _
  · exact (h _ (operands _ (by simp [Expr.outerChildren, Expr.children]))).bind (keeps _)
      fun v => .refl _
  · exact (h _ (operands _ (by simp [Expr.outerChildren, Expr.children]))).bind (keeps _)
      fun v => .refl _
  · exact agreeOn_evalSum keeps h placed
  · exact agreeOn_evalBinary keeps h (operands _ (by simp [Expr.outerChildren, Expr.children]))
      (operands _ (by simp [Expr.outerChildren, Expr.children]))
  · next cond ifTrue ifFalse =>
      have hcond := operands cond (by simp [Expr.outerChildren, Expr.children])
      refine (agreeOn_condition keeps h hcond).bind (keepsScopes_condition keeps _) fun holds => ?_
      cases holds with
      | false => exact h _ (operands ifFalse (by simp [Expr.outerChildren, Expr.children]))
      | true => exact h _ (operands ifTrue (by simp [Expr.outerChildren, Expr.children]))
  · exact (agreeOn_evalItems keeps h operands).bind (keepsScopes_evalItems keeps _)
      fun vs => .refl _
  · next entries =>
      refine (agreeOn_evalEntries keeps h (fun pair hpair => ?_) _).bind
        (keepsScopes_evalEntries keeps _ _) fun entries => .refl _
      simp only [Expr.outerChildren, Expr.children, List.mem_flatMap] at operands
      exact ⟨operands _ ⟨pair, hpair, by simp⟩, operands _ ⟨pair, hpair, by simp⟩⟩
  · exact (h _ (operands _ (by simp [Expr.outerChildren, Expr.children]))).bind (keeps _)
      fun v => .refl _
  · refine (h _ (operands _ ?_)).bind (keeps _) fun target =>
      (h _ (operands _ ?_)).bind (keeps _) fun key => .refl _
    · simp [Expr.outerChildren, Expr.children]
    · simp [Expr.outerChildren, Expr.children]
  · unfold evalCall
    split
    · exact .refl _
    · exact (agreeOn_evalItems keeps h operands).bind (keepsScopes_evalItems keeps _)
        fun vs => .refl _
  · next callee args =>
      have hcallee := operands callee (by simp [Expr.outerChildren, Expr.children])
      have hargs : ∀ arg ∈ args, WellScoped outer arg := fun arg harg =>
        operands arg (by simp [Expr.outerChildren, Expr.children, harg])
      refine (h _ hcallee).bind (keeps _) fun v => ?_
      cases v with
      | function name =>
          exact (agreeOn_evalItems keeps h hargs).bind (keepsScopes_evalItems keeps _)
            fun vs => .refl _
      | _ => exact .refl _
  · exact agreeOn_evalHas keeps h (operands _ (by simp [Expr.outerChildren, Expr.children]))
  · next m kind target names guard body => exact absurd rfl (noBinders m kind target names guard body)

end Nodes

/-! ### Frames and the scope stack -/

section Frames

open Eval (Step localValue? stepsOf listSteps mapSteps)
open Lexical

/-- Whether each variable of a frame has a value. -/
def Lexical.Frame.Full (f : Frame) : Prop :=
  f.values.length = f.names.length

/-- A zipped list has an entry for each of its names. -/
theorem exists_lookup_zip
    {names : List String} {values : List Value} {name : String}
    (full : values.length = names.length)
    (member : name ∈ names) :
    ∃ v, (names.zip values).lookup name = some v := by
  induction names generalizing values with
  | nil => cases member
  | cons n names ih =>
      match values with
      | v :: values =>
          by_cases same : name = n
          · exact ⟨v, by simp [same]⟩
          · have member : name ∈ names := (List.mem_cons.mp member).resolve_left same
            obtain ⟨w, hw⟩ := ih (by simpa using full) member
            have differs : (name == n) = false := by simpa using same
            exact ⟨w, by simpa [List.lookup_cons, differs] using hw⟩

theorem lookup_zip_eq_none
    {names : List String} {values : List Value} {name : String}
    (absent : name ∉ names) :
    (names.zip values).lookup name = none := by
  induction names generalizing values with
  | nil => rfl
  | cons n names ih =>
      rw [List.mem_cons, not_or] at absent
      cases values with
      | nil => rfl
      | cons v values =>
          have differs : (name == n) = false := by simpa using absent.1
          simpa [List.lookup_cons, differs] using ih absent.2

/-- The search of the scope stack finds the value of the innermost frame that binds the name. -/
theorem localValue?_eq_value?
    {frames : List Frame} {name : String}
    (full : ∀ f ∈ frames, f.Full)
    (bound : ∃ f ∈ frames, name ∈ f.names) :
    ∃ v, value? frames name = some v ∧ localValue? (frames.map Frame.bindings) name = some v := by
  induction frames with
  | nil => simp at bound
  | cons f rest ih =>
      rw [List.forall_mem_cons] at full
      by_cases member : name ∈ f.names
      · obtain ⟨v, hv⟩ := exists_lookup_zip full.1 member
        refine ⟨v, ?_, ?_⟩
        · simp [value?, member, Frame.bindings, hv]
        · simp [localValue?, Frame.bindings, hv]
      · have later : ∃ f ∈ rest, name ∈ f.names := by
          obtain ⟨g, hg, hname⟩ := bound
          rcases List.mem_cons.mp hg with rfl | hg
          · exact absurd hname member
          · exact ⟨g, hg, hname⟩
        obtain ⟨v, hv, hv'⟩ := ih full.2 later
        refine ⟨v, ?_, ?_⟩
        · simpa [value?, member] using hv
        · simpa [localValue?, Frame.bindings, lookup_zip_eq_none member] using hv'

/-- A step binds as many values as there are variables, of which there are one or two. -/
theorem full_of_stepsOf
    {kind : Comprehension} {names : List String} {v : Value} {steps : List Step}
    (count : names.length = 1 ∨ names.length = 2)
    (h : stepsOf kind (names.length == 1) v = .ok steps) :
    ∀ step ∈ steps, (⟨names, step.bound⟩ : Frame).Full := by
  have list : ∀ (items : List Value) (position : Nat),
      ∀ step ∈ listSteps (names.length == 1) position items,
        step.bound.length = names.length := by
    intro items
    induction items with
    | nil =>
        intro position step hstep
        cases hstep
    | cons item rest ih =>
        intro position step hstep
        rcases List.mem_cons.mp hstep with rfl | hstep
        · rcases count with one | two
          · simp [one]
          · simp [two]
        · exact ih _ step hstep
  intro step hstep
  show step.bound.length = names.length
  cases v with
  | list items =>
      cases h
      exact list items 0 step hstep
  | map entries =>
      cases h
      obtain ⟨⟨k, w⟩, -, rfl⟩ := List.mem_map.mp hstep
      rcases count with one | two
      · simp [one]
      · simp [two]
  | _ => cases h

end Frames

/-! ### Whole expressions -/

section Agreement

open ExprLang.Expr (WellScoped wellScoped_iff)
open Eval (Step)
open Lexical (Frame)

variable {env : Environment} {unbound : String → EvalM Value}

theorem agreeOn_lookupLocal
    {frames : List Frame} {name : String}
    (full : ∀ f ∈ frames, f.Full)
    (bound : ∃ names ∈ frames.map Frame.names, name ∈ names) :
    AgreeOn (frames.map Frame.bindings) (Eval.lookupLocal name)
      (match Lexical.value? frames name with
        | some v => return v
        | none => unbound name) := by
  obtain ⟨_, hnames, hname⟩ := bound
  obtain ⟨f, hf, rfl⟩ := List.mem_map.mp hnames
  obtain ⟨v, hv, hv'⟩ := localValue?_eq_value? full ⟨f, hf, hname⟩
  intro s hs
  rw [hv]
  show (match Eval.localValue? s.scopes name with
    | some v => return v
    | none => EvalM.fail (.undeclaredReference name) : EvalM Value) s = _
  rw [hs, hv']

theorem agreeOn_runComprehension
    {rec : Expr → EvalM Value} {rec' : List Frame → Expr → EvalM Value} {frames : List Frame}
    {kind : Comprehension} {names : List String} {guard : Option Expr} {body : Expr}
    {steps : List Step}
    (keeps : ∀ e, KeepsScopes (rec e))
    (h : ∀ step ∈ steps, ∀ e ∈ guard.toList ++ [body],
      AgreeOn ((names.zip step.bound) :: frames.map Frame.bindings) (rec e)
        (rec' (⟨names, step.bound⟩ :: frames) e)) :
    AgreeOn (frames.map Frame.bindings) (Eval.runComprehension rec kind names guard body steps)
      (Lexical.runComprehension rec' frames kind names guard body steps) := by
  have keepsTest := Eval.keepsScopes_testStep keeps names
  have keepsBody := Eval.keepsScopes_evalStep keeps names body
  have evaluate : ∀ e ∈ guard.toList ++ [body], ∀ step ∈ steps,
      AgreeOn (frames.map Frame.bindings) (Eval.evalStep rec names e step)
        (Eval.evalStep (rec' (⟨names, step.bound⟩ :: frames)) names e step) :=
    fun e he step hstep => (h step hstep e he).withBindings
  have test : ∀ e ∈ guard.toList ++ [body], ∀ step ∈ steps,
      AgreeOn (frames.map Frame.bindings) (Eval.testStep rec names e step)
        (Eval.testStep (rec' (⟨names, step.bound⟩ :: frames)) names e step) :=
    fun e he step hstep => (evaluate e he step hstep).bind
      (Eval.keepsScopes_evalStep keeps names e step) fun _ => .refl _
  have isBody : body ∈ guard.toList ++ [body] := by simp
  cases kind with
  | all =>
      exact (agreeOn_allSteps (keepsTest body) (test body isBody)).bind
        (Eval.keepsScopes_allSteps (keepsTest body) steps) fun _ => .refl _
  | any =>
      exact (agreeOn_anyStep (keepsTest body) (test body isBody)).bind
        (Eval.keepsScopes_anyStep (keepsTest body) steps) fun _ => .refl _
  | one =>
      exact (agreeOn_keepSteps (keepsTest body) (test body isBody)).bind
        (Eval.keepsScopes_keepSteps (keepsTest body) steps) fun _ => .refl _
  | filter =>
      exact (agreeOn_keepSteps (keepsTest body) (test body isBody)).bind
        (Eval.keepsScopes_keepSteps (keepsTest body) steps) fun _ => .refl _
  | map =>
      cases guard with
      | none =>
          exact (agreeOn_mapStep (fun _ => EvalM.keepsScopes_pure _) keepsBody
            (fun _ _ => .refl _) (evaluate body isBody)).bind
            (Eval.keepsScopes_mapStep (fun _ => EvalM.keepsScopes_pure _) keepsBody steps)
            fun _ => .refl _
      | some e =>
          exact (agreeOn_mapStep (keepsTest e) keepsBody
            (test e (by simp)) (evaluate body isBody)).bind
            (Eval.keepsScopes_mapStep (keepsTest e) keepsBody steps) fun _ => .refl _

/-- Where the scope stack holds the bindings of the frames, the evaluators agree on what is well
scoped under the frames. -/
theorem agreeOn_evalAt
    (depth : Nat) {frames : List Frame} {e : Expr}
    (full : ∀ f ∈ frames, f.Full)
    (placed : WellScoped (frames.map Frame.names) e) :
    AgreeOn (frames.map Frame.bindings) (Eval.evalAt env depth e)
      (Lexical.evalAt env unbound depth frames e) := by
  induction depth generalizing frames e with
  | zero => exact .refl _
  | succ depth ih =>
      have keeps := Eval.keepsScopes_evalAt env depth
      refine AgreeOn.attributed ?_ e.id
      cases e with
      | localRef m name =>
          exact agreeOn_lookupLocal full (placed [] _ .root)
      | comprehension m kind target names guard body =>
          obtain ⟨count, outside, inside⟩ := wellScoped_iff.mp placed
          refine (ih full (outside target (by simp [Expr.outerChildren]))).bind (keeps _) fun v => ?_
          refine (AgreeOn.refl _).bind (EvalM.keepsScopes_report _ _) fun _ => ?_
          cases hsteps : Eval.stepsOf kind (names.length == 1) v with
          | error error => exact .refl _
          | ok steps =>
              rw [EvalM.ofOutcome_ok, pure_bind, pure_bind]
              refine agreeOn_runComprehension keeps fun step hstep e he => ?_
              have fullStep := full_of_stepsOf count hsteps step hstep
              exact ih (List.forall_mem_cons.mpr ⟨fullStep, full⟩) (inside e he)
      | _ =>
          exact agreeOn_evalNode keeps (fun e' placed' => ih full placed') env depth placed
            (by rintro _ _ _ _ _ _ ⟨⟩)

end Agreement

/-! ### Compiled programs -/

/-- In a compiled program the references are the names that a comprehension around them binds, and
its evaluation, in any environment and to any depth, is the lexically scoped one, whatever an
unbound variable does: no search for a variable fails, and each gives the value of the innermost
comprehension that binds the name. -/
theorem lexically_scoped_of_compile
    {config : Config} {source : List Char} {p : Program}
    (compiled : Program.compile config source = .ok p) :
    (∀ scopes x name, p.root.Occurs scopes x → x.occurrenceName? = some name →
      (x.isLocalRef = true ↔ ∃ names ∈ scopes, name ∈ names)) ∧
    ∀ env unbound depth,
      Eval.evalAt env depth p.root .initial =
        Lexical.evalAt env unbound depth [] p.root .initial := by
  obtain ⟨root, parsed, rfl⟩ : ∃ root, parse config.maxNestingDepth source = .ok root ∧
      p = ⟨source, root, config⟩ := by
    unfold Program.compile at compiled
    cases h : parse config.maxNestingDepth source with
    | error problems =>
        rw [h] at compiled
        cases compiled
    | ok root =>
        rw [h] at compiled
        cases compiled
        exact ⟨root, rfl, rfl⟩
  have placed := wellScoped_of_parse parsed
  refine ⟨fun scopes x name occurs named => occurs.isLocalRef_iff placed named, ?_⟩
  intro env unbound depth
  exact agreeOn_evalAt depth (List.forall_mem_nil _) placed .initial rfl

/-- A variable that shadows another of its name. -/
theorem lexically_scoped_of_compile_shadowing :
    ∃ p, Program.compile .standard "[[1], [2]].map(x, x.map(x, x + 1))".toList = .ok p ∧
      (∀ scopes x name, p.root.Occurs scopes x → x.occurrenceName? = some name →
        (x.isLocalRef = true ↔ ∃ names ∈ scopes, name ∈ names)) ∧
      ∀ env unbound depth,
        Eval.evalAt env depth p.root .initial =
          Lexical.evalAt env unbound depth [] p.root .initial := by
  have accepted :
      (Program.compile .standard "[[1], [2]].map(x, x.map(x, x + 1))".toList).isOk = true := by
    decide +kernel
  cases h : Program.compile .standard "[[1], [2]].map(x, x.map(x, x + 1))".toList with
  | error problems =>
      rw [h] at accepted
      cases accepted
  | ok p => exact ⟨p, rfl, lexically_scoped_of_compile h⟩

end ExprLang
