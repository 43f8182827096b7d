import ExprLang.Proofs.DeeperEvaluations
import ExprLang.Proofs.Denotation

/-!
# Rules of comprehensions

What expressions come to, to whatever depth they have to be evaluated, is described by rules that do not
mention depth, notes or reports.  The loops of comprehensions go through steps; the rules say of each
loop which tests and results it asks for and what it makes of them.

* `Reaches`, `Steady`: evaluations at growing depths, and what they come to; `reaches_bind`: one after
  the other.
* `Decides`, `Kept`, `Mapped`: the search for a test that decides, the steps that are kept, the results
  for the steps that pass.
* `reaches_allSteps`, `reaches_anyStep`, `reaches_keepSteps`, `reaches_mapStep`: the loops follow these
  rules.
* `comesTo_all` and its likes: so do the nodes.
-/

namespace ExprLang
namespace Eval

open EvalM (bind_apply)

/-- Whether evaluations at growing depths come to a result once they may go deep enough. -/
def Reaches
    {α : Type}
    (m : Nat → EvalM α)
    (s : EvalState)
    (a : α) : Prop :=
  ∃ depth, (m depth s).1 = .ok a

/-- Whether evaluations at growing depths come to the same where they do not run out of depth. -/
def Steady
    {α : Type}
    (m : Nat → EvalM α) : Prop :=
  ∀ depth k, Follows (fun _ => True) (m depth) (m (depth + k))

/-- Whether an expression comes to a value, to whatever depth it has to be evaluated. -/
def ComesTo
    (env : Environment)
    (s : EvalState)
    (e : Expr)
    (v : Value) : Prop :=
  ∃ depth, (evalAt env depth e s).1 = .ok v

variable {α β : Type} {m : Nat → EvalM α} {f : α → Nat → EvalM β} {a a' : α} {b : β}
  {s s' : EvalState} {env : Environment}

/-! ### Growing depths -/

theorem Steady.at_depth
    (steady : Steady m)
    {depth : Nat}
    (ended : (m depth s).1 = .ok a)
    (same : s'.scopes = s.scopes)
    (k : Nat) :
    (m (depth + k) s').1 = .ok a := by
  have follows := (steady depth k).ends s s' (fun _ _ => by rw [same])
  rw [ended] at follows
  exact follows nofun

/-- What is reached depends on the scopes only. -/
theorem Steady.reaches_congr
    (steady : Steady m)
    (same : s'.scopes = s.scopes) :
    Reaches m s a ↔ Reaches m s' a :=
  ⟨fun ⟨depth, ended⟩ => ⟨depth, steady.at_depth ended same 0⟩,
    fun ⟨depth, ended⟩ => ⟨depth, steady.at_depth ended same.symm 0⟩⟩

theorem Steady.unique
    (steady : Steady m)
    (reached : Reaches m s a)
    (reached' : Reaches m s a') :
    a = a' := by
  obtain ⟨depth, ended⟩ := reached
  obtain ⟨depth', ended'⟩ := reached'
  have further := steady.at_depth ended rfl depth'
  rw [Nat.add_comm, steady.at_depth ended' rfl depth] at further
  exact (Except.ok.inj further).symm

theorem steady_pure
    (a : α) :
    Steady fun _ => (pure a : EvalM α) :=
  fun _ _ => follows_pure a

theorem steady_ofOutcome
    (o : Outcome α) :
    Steady fun _ => EvalM.ofOutcome o :=
  fun _ _ => follows_ofOutcome o

theorem Steady.bind
    (first : Steady m)
    (second : ∀ a, Steady (f a)) :
    Steady fun depth => m depth >>= fun a => f a depth :=
  fun depth k => (first depth k).bind fun a => second a depth k

theorem Steady.ite
    {m' : Nat → EvalM α} {c : Bool}
    (yes : Steady m)
    (no : Steady m') :
    Steady fun depth => if c then m depth else m' depth := by
  cases c
  · exact no
  · exact yes

theorem steady_evalAt
    (env : Environment) (e : Expr) :
    Steady fun depth => evalAt env depth e :=
  fun depth k => follows_evalAt env.context.hostsWithin_resolving_all (fun _ _ _ _ _ => trivial)
    depth k

theorem reaches_pure :
    Reaches (fun _ => (pure a : EvalM α)) s a' ↔ a' = a :=
  ⟨fun ⟨_, ended⟩ => (Except.ok.inj ended).symm,
    fun same => ⟨0, congrArg Except.ok same.symm⟩⟩

theorem reaches_ofOutcome
    {o : Outcome α} :
    Reaches (fun _ => EvalM.ofOutcome o) s a ↔ o = .ok a := by
  cases o with
  | ok a' =>
      rw [Except.ok.injEq, eq_comm]
      exact reaches_pure
  | error e => exact ⟨nofun, nofun⟩

/-- A sequence of evaluations reaches what the second does from the result of the first. -/
theorem reaches_bind
    (first : Steady m)
    (second : ∀ a, Steady (f a)) :
    Reaches (fun depth => m depth >>= fun a => f a depth) s b ↔
      ∃ a, Reaches m s a ∧ Reaches (f a) s b := by
  constructor
  · rintro ⟨depth, ended⟩
    obtain ⟨a, t, ran, ended⟩ := EvalM.bind_eq_ok.mp (Prod.ext ended rfl)
    have scopes := ((first depth 0).keeps).scopes_eq ran
    refine ⟨a, ⟨depth, congrArg Prod.fst ran⟩, ?_⟩
    exact ((second a).reaches_congr scopes).mpr ⟨depth, congrArg Prod.fst ended⟩
  · -- The two parts need different depths; both have enough at the sum of these.
    rintro ⟨a, ⟨depth, ended⟩, depth', ended'⟩
    refine ⟨depth + depth', ?_⟩
    have here := first.at_depth ended rfl depth'
    have scopes := (first (depth + depth') 0).keeps s
    have later := (second a).at_depth ended' scopes depth
    rw [Nat.add_comm] at later
    dsimp only
    rw [bind_apply]
    generalize m (depth + depth') s = run at here later
    obtain ⟨r, t⟩ := run
    cases here
    exact later

/-! ### Rules -/

/-- The search for a test that comes to an answer: the first such test ends it. -/
inductive Decides
    (answer : Bool)
    (T : Step → Bool → Prop) :
    List Step → Bool → Prop
  | nil : Decides answer T [] !answer
  | go {st : Step} {rest : List Step} {b : Bool}
      (here : T st !answer)
      (later : Decides answer T rest b) :
      Decides answer T (st :: rest) b
  | stop {st : Step} {rest : List Step}
      (here : T st answer) :
      Decides answer T (st :: rest) answer

/-- The steps that are kept by a test, each of which has to come to an answer. -/
inductive Kept
    (T : Step → Bool → Prop) :
    List Step → List Step → Prop
  | nil : Kept T [] []
  | keep {st : Step} {rest kept : List Step}
      (here : T st true)
      (later : Kept T rest kept) :
      Kept T (st :: rest) (st :: kept)
  | drop {st : Step} {rest kept : List Step}
      (here : T st false)
      (later : Kept T rest kept) :
      Kept T (st :: rest) kept

/-- The results for the steps that pass a test. -/
inductive Mapped
    (T : Step → Bool → Prop)
    (R : Step → Value → Prop) :
    List Step → List Value → Prop
  | nil : Mapped T R [] []
  | pass {st : Step} {rest : List Step} {v : Value} {vs : List Value}
      (here : T st true)
      (result : R st v)
      (later : Mapped T R rest vs) :
      Mapped T R (st :: rest) (v :: vs)
  | skip {st : Step} {rest : List Step} {vs : List Value}
      (here : T st false)
      (later : Mapped T R rest vs) :
      Mapped T R (st :: rest) vs

/-! ### Loops -/

section Loops

variable {test : Nat → Step → EvalM Bool} {steps kept : List Step} {answer result : Bool}

/-- Searches the steps for one whose test comes to an answer. -/
def search (answer : Bool) (test : Step → EvalM Bool) : List Step → EvalM Bool
  | [] => return !answer
  | st :: rest => do
      if (← test st) == answer then return answer else search answer test rest

/-- Whether all steps hold is the search for one that does not. -/
theorem allSteps_eq_search
    (test : Step → EvalM Bool) (steps : List Step) :
    allSteps test steps = search false test steps := by
  induction steps with
  | nil => rfl
  | cons st rest ih =>
      rw [allSteps, search, ih]
      congr 1
      funext c
      cases c <;> rfl

/-- Whether some step holds is the search for one that does. -/
theorem anyStep_eq_search
    (test : Step → EvalM Bool) (steps : List Step) :
    anyStep test steps = search true test steps := by
  induction steps with
  | nil => rfl
  | cons st rest ih =>
      rw [anyStep, search, ih]
      congr 1
      funext c
      cases c <;> rfl

theorem steady_search
    (steady : ∀ st, Steady fun depth => test depth st)
    (steps : List Step) :
    Steady fun depth => search answer (test depth) steps := by
  induction steps with
  | nil => exact steady_pure _
  | cons st rest ih => exact (steady st).bind fun _ => (steady_pure _).ite ih

theorem steady_keepSteps
    (steady : ∀ st, Steady fun depth => test depth st)
    (steps : List Step) :
    Steady fun depth => keepSteps (test depth) steps := by
  induction steps with
  | nil => exact steady_pure []
  | cons st rest ih => exact (steady st).bind fun _ => ih.bind fun _ => steady_pure _

theorem steady_mapStep
    {transform : Nat → Step → EvalM Value}
    (steady : ∀ st, Steady fun depth => test depth st)
    (steady' : ∀ st, Steady fun depth => transform depth st)
    (steps : List Step) :
    Steady fun depth => mapStep (test depth) (transform depth) steps := by
  induction steps with
  | nil => exact steady_pure []
  | cons st rest ih =>
      refine (steady st).bind fun _ => Steady.ite ?_ ih
      exact (steady' st).bind fun _ => ih.bind fun _ => steady_pure _

theorem reaches_search
    (steady : ∀ st, Steady fun depth => test depth st) :
    Reaches (fun depth => search answer (test depth) steps) s result ↔
      Decides answer (fun st c => Reaches (fun depth => test depth st) s c) steps result := by
  induction steps with
  | nil =>
      refine reaches_pure.trans ⟨?_, ?_⟩
      · rintro rfl
        exact .nil
      · rintro ⟨⟩
        rfl
  | cons st rest ih =>
      refine (reaches_bind (steady st) fun _ =>
        (steady_pure _).ite (steady_search steady rest)).trans ⟨?_, ?_⟩
      · rintro ⟨c, here, later⟩
        by_cases found : c = answer
        · subst found
          simp only [beq_self_eq_true, ↓reduceIte] at later
          obtain rfl := reaches_pure.mp later
          exact .stop here
        · obtain rfl := Bool.eq_not_of_ne found
          simp only [beq_eq_false_iff_ne.mpr found, Bool.false_eq_true, ↓reduceIte] at later
          exact .go here (ih.mp later)
      · rintro (⟨⟩ | ⟨here, later⟩ | here)
        · have differs : (!answer) ≠ answer := by cases answer <;> decide
          refine ⟨!answer, here, ?_⟩
          simp only [beq_eq_false_iff_ne.mpr differs, Bool.false_eq_true, ↓reduceIte]
          exact ih.mpr later
        · refine ⟨answer, here, ?_⟩
          simp only [beq_self_eq_true, ↓reduceIte]
          exact reaches_pure.mpr rfl

theorem reaches_keepSteps
    (steady : ∀ st, Steady fun depth => test depth st) :
    Reaches (fun depth => keepSteps (test depth) steps) s kept ↔
      Kept (fun st c => Reaches (fun depth => test depth st) s c) steps kept := by
  induction steps generalizing kept with
  | nil =>
      refine reaches_pure.trans ⟨?_, ?_⟩
      · rintro rfl
        exact .nil
      · rintro ⟨⟩
        rfl
  | cons st rest ih =>
      refine (reaches_bind (steady st) fun _ => (steady_keepSteps steady rest).bind fun _ =>
        steady_pure _).trans ?_
      simp only [reaches_bind (steady_keepSteps steady rest) fun _ => steady_pure _, ih, reaches_pure]
      constructor
      · rintro ⟨_ | _, here, others, later, rfl⟩
        · exact .drop here later
        · exact .keep here later
      · rintro (⟨⟩ | ⟨here, later⟩ | ⟨here, later⟩)
        · exact ⟨true, here, _, later, rfl⟩
        · exact ⟨false, here, _, later, rfl⟩

theorem reaches_mapStep
    {transform : Nat → Step → EvalM Value} {vs : List Value}
    (steady : ∀ st, Steady fun depth => test depth st)
    (steady' : ∀ st, Steady fun depth => transform depth st) :
    Reaches (fun depth => mapStep (test depth) (transform depth) steps) s vs ↔
      Mapped (fun st c => Reaches (fun depth => test depth st) s c)
        (fun st v => Reaches (fun depth => transform depth st) s v) steps vs := by
  have others := steady_mapStep steady steady'
  induction steps generalizing vs with
  | nil =>
      refine reaches_pure.trans ⟨?_, ?_⟩
      · rintro rfl
        exact .nil
      · rintro ⟨⟩
        rfl
  | cons st rest ih =>
      have passing := reaches_bind (s := s) (b := vs) (steady' st) fun v =>
        (others rest).bind fun vs => steady_pure (v :: vs)
      simp only [reaches_bind (others rest) fun _ => steady_pure _, ih, reaches_pure] at passing
      refine (reaches_bind (steady st) fun _ => Steady.ite ((steady' st).bind fun _ =>
        (others rest).bind fun _ => steady_pure _) (others rest)).trans ⟨?_, ?_⟩
      · rintro ⟨_ | _, here, later⟩
        · exact .skip here (ih.mp later)
        · obtain ⟨v, result, others, mapped, rfl⟩ := passing.mp later
          exact .pass here result mapped
      · rintro (⟨⟩ | ⟨here, result, later⟩ | ⟨here, later⟩)
        · exact ⟨true, here, passing.mpr ⟨_, result, _, later, rfl⟩⟩
        · exact ⟨false, here, ih.mpr later⟩

end Loops

/-! ### Nodes -/

/-- Whether an expression comes to a value with the variables of a step bound. -/
def Gives
    (env : Environment)
    (s : EvalState)
    (binders : List String)
    (e : Expr)
    (st : Step)
    (v : Value) : Prop :=
  ComesTo env (entered (some (binders.zip st.bound)) s) e v

/-- Whether an expression comes to a truth value with the variables of a step bound. -/
def Tests
    (env : Environment)
    (s : EvalState)
    (binders : List String)
    (e : Expr)
    (st : Step)
    (b : Bool) : Prop :=
  Gives env s binders e st (.bool b)

/-- Whether a step passes the guard of a comprehension, if it has one. -/
def Passes
    (env : Environment)
    (s : EvalState)
    (binders : List String) :
    Option Expr → Step → Bool → Prop
  | none, _, b => b = true
  | some e, st, b => Tests env s binders e st b

/-- Whether a comprehension goes through steps, whichever comprehension it is. -/
def Ranges
    (env : Environment)
    (s : EvalState)
    (target : Expr)
    (binders : List String)
    (steps : List Step) : Prop :=
  ∃ v, ComesTo env s target v ∧ ∀ kind, stepsOf kind (binders.length == 1) v = .ok steps

section Nodes

variable {mark : Mark} {kind : Comprehension} {target body e : Expr} {binders : List String}
  {guard : Option Expr} {st : Step} {steps : List Step} {v w : Value} {single c : Bool}

theorem asBool_eq_ok_iff :
    v.asBool = .ok c ↔ v = .bool c := by
  cases v <;> simp [Value.asBool]

theorem ComesTo.unique
    (comes : ComesTo env s e v)
    (comes' : ComesTo env s e w) :
    v = w :=
  (steady_evalAt env e).unique comes comes'

theorem steady_evalStep
    (env : Environment) (binders : List String) (e : Expr) (st : Step) :
    Steady fun depth => evalStep (evalAt env depth) binders e st :=
  fun depth k => (steady_evalAt env e depth k).within (some (binders.zip st.bound))

theorem reaches_evalStep :
    Reaches (fun depth => evalStep (evalAt env depth) binders e st) s v ↔
      Gives env s binders e st v :=
  Iff.rfl

theorem steady_testStep
    (env : Environment) (binders : List String) (e : Expr) (st : Step) :
    Steady fun depth => testStep (evalAt env depth) binders e st :=
  (steady_evalStep env binders e st).bind fun _ => steady_ofOutcome _

theorem reaches_testStep :
    Reaches (fun depth => testStep (evalAt env depth) binders e st) s c ↔
      Tests env s binders e st c := by
  refine (reaches_bind (steady_evalStep env binders e st) fun _ => steady_ofOutcome _).trans ?_
  simp only [reaches_ofOutcome, asBool_eq_ok_iff, exists_eq_right]
  exact reaches_evalStep

/-- The guard of a comprehension, as its loop asks for it. -/
def passesAt
    (env : Environment)
    (binders : List String) :
    Option Expr → Nat → Step → EvalM Bool
  | none, _, _ => pure true
  | some e, depth, st => testStep (evalAt env depth) binders e st

theorem steady_passesAt
    (env : Environment) (binders : List String) (guard : Option Expr) (st : Step) :
    Steady fun depth => passesAt env binders guard depth st := by
  cases guard with
  | none => exact steady_pure true
  | some e => exact steady_testStep env binders e st

theorem reaches_passesAt :
    Reaches (fun depth => passesAt env binders guard depth st) s c ↔
      Passes env s binders guard st c := by
  cases guard with
  | none => exact reaches_pure
  | some e => exact reaches_testStep

theorem runComprehension_map
    (depth : Nat) (steps : List Step) :
    runComprehension (evalAt env depth) .map binders guard body steps =
      mapStep (passesAt env binders guard depth) (evalStep (evalAt env depth) binders body) steps >>=
        fun vs => pure (.list vs) := by
  cases guard <;> rfl

theorem steady_runComprehension
    (env : Environment) (kind : Comprehension) (binders : List String) (guard : Option Expr)
    (body : Expr) (steps : List Step) :
    Steady fun depth => runComprehension (evalAt env depth) kind binders guard body steps := by
  have tests := steady_testStep env binders body
  cases kind with
  | all =>
      simp only [runComprehension, allSteps_eq_search]
      exact (steady_search tests steps).bind fun _ => steady_pure _
  | any =>
      simp only [runComprehension, anyStep_eq_search]
      exact (steady_search tests steps).bind fun _ => steady_pure _
  | one => exact (steady_keepSteps tests steps).bind fun _ => steady_pure _
  | filter => exact (steady_keepSteps tests steps).bind fun _ => steady_pure _
  | map =>
      simp only [runComprehension_map]
      exact (steady_mapStep (steady_passesAt env binders guard)
        (steady_evalStep env binders body) steps).bind fun _ => steady_pure _

theorem stepsOf_eq_ok
    (kind' : Comprehension)
    (isSteps : stepsOf kind single v = .ok steps) :
    stepsOf kind' single v = .ok steps := by
  cases v <;> first | exact isSteps | cases isSteps

/-- What an expression comes to is what its node makes of its parts. -/
theorem comesTo_iff_reaches :
    ComesTo env s e v ↔ Reaches (fun depth => evalNode env depth (evalAt env depth) e) s v := by
  constructor
  · rintro ⟨_ | depth, ended⟩
    · cases ended
    · obtain ⟨t, ran⟩ := EvalM.attributed_eq_ok ended
      exact ⟨depth, congrArg Prod.fst ran⟩
  · rintro ⟨depth, ended⟩
    exact ⟨depth + 1, attributed_ok ended e.id⟩

/-- A comprehension comes to what its loop does over the steps of its target. -/
theorem comesTo_comprehension :
    ComesTo env s (.comprehension mark kind target binders guard body) v ↔
      ∃ steps, Ranges env s target binders steps ∧
        Reaches (fun depth => runComprehension (evalAt env depth) kind binders guard body steps)
          s v := by
  have loop := steady_runComprehension env kind binders guard body
  have reported : ∀ event, Steady fun _ => EvalM.report env event :=
    fun event _ _ => follows_report env event
  refine comesTo_iff_reaches.trans <| (reaches_bind (steady_evalAt env target) fun _ =>
    (reported _).bind fun _ => (steady_ofOutcome _).bind loop).trans ?_
  simp only [reaches_bind (reported _) fun _ => (steady_ofOutcome _).bind loop,
    reaches_bind (steady_ofOutcome _) loop, reaches_ofOutcome]
  constructor
  · rintro ⟨w, comes, -, -, steps, isSteps, looped⟩
    exact ⟨steps, ⟨w, comes, fun kind' => stepsOf_eq_ok kind' isSteps⟩, looped⟩
  · rintro ⟨steps, ⟨w, comes, isSteps⟩, looped⟩
    refine ⟨w, comes, (), ⟨0, ?_⟩, steps, isSteps kind, looped⟩
    exact congrArg Prod.fst (EvalM.report_apply env _ s)

theorem tests_eq
    (env : Environment) (s : EvalState) (binders : List String) (e : Expr) :
    (fun st c => Reaches (fun depth => testStep (evalAt env depth) binders e st) s c) =
      Tests env s binders e :=
  funext fun _ => funext fun _ => propext reaches_testStep

/-- The answer of a test that decides a comprehension, if one does. -/
def decidedBy : Comprehension → Option Bool
  | .all => some false
  | .any => some true
  | _ => none

/-- What a comprehension makes of the steps that are kept, if that is what it depends on. -/
def madeOf : Comprehension → Option (List Step → Value)
  | .one => some fun kept => .bool (kept.length == 1)
  | .filter => some fun kept => .list (kept.map (·.element))
  | _ => none

theorem comesTo_search
    {answer : Bool}
    (decided : decidedBy kind = some answer) :
    ComesTo env s (.comprehension mark kind target binders guard body) v ↔
      ∃ steps b, Ranges env s target binders steps ∧
        Decides answer (Tests env s binders body) steps b ∧ v = .bool b := by
  have tests := steady_testStep env binders body
  have runs : ∀ depth steps, runComprehension (evalAt env depth) kind binders guard body steps =
      search answer (testStep (evalAt env depth) binders body) steps >>= fun b => pure (.bool b) := by
    intro depth steps
    cases kind <;> cases decided
    · rw [runComprehension, allSteps_eq_search]
    · rw [runComprehension, anyStep_eq_search]
  rw [comesTo_comprehension]
  simp only [runs, reaches_bind (steady_search tests _) fun _ => steady_pure _, reaches_search tests,
    tests_eq, reaches_pure, exists_and_left]

theorem comesTo_kept
    {made : List Step → Value}
    (isMade : madeOf kind = some made) :
    ComesTo env s (.comprehension mark kind target binders guard body) v ↔
      ∃ steps kept, Ranges env s target binders steps ∧
        Kept (Tests env s binders body) steps kept ∧ v = made kept := by
  have tests := steady_testStep env binders body
  have runs : ∀ depth steps, runComprehension (evalAt env depth) kind binders guard body steps =
      keepSteps (testStep (evalAt env depth) binders body) steps >>= fun kept => pure (made kept) := by
    intro depth steps
    cases kind <;> cases isMade <;> rfl
  rw [comesTo_comprehension]
  simp only [runs, reaches_bind (steady_keepSteps tests _) fun _ => steady_pure _,
    reaches_keepSteps tests, tests_eq, reaches_pure, exists_and_left]

theorem comesTo_map :
    ComesTo env s (.comprehension mark .map target binders guard body) v ↔
      ∃ steps vs, Ranges env s target binders steps ∧
        Mapped (Passes env s binders guard) (Gives env s binders body) steps vs ∧ v = .list vs := by
  have passes := steady_passesAt env binders guard
  have results := steady_evalStep env binders body
  have passes_eq : (fun st c => Reaches (fun depth => passesAt env binders guard depth st) s c) =
      Passes env s binders guard := funext fun _ => funext fun _ => propext reaches_passesAt
  rw [comesTo_comprehension]
  simp only [runComprehension_map, reaches_bind (steady_mapStep passes results _) fun _ =>
    steady_pure _, reaches_mapStep passes results, passes_eq, reaches_evalStep, reaches_pure,
    exists_and_left]

theorem comesTo_not :
    ComesTo env s (.unary mark .not e) v ↔ ∃ b, ComesTo env s e (.bool b) ∧ v = .bool !b := by
  refine comesTo_iff_reaches.trans <| (reaches_bind (steady_evalAt env e) fun _ =>
    steady_ofOutcome _).trans ?_
  simp only [reaches_ofOutcome]
  constructor
  · rintro ⟨w, comes, negated⟩
    cases w <;> cases negated
    exact ⟨_, comes, rfl⟩
  · rintro ⟨b, comes, rfl⟩
    exact ⟨.bool b, comes, rfl⟩

/-- Operators that evaluate both operands and apply themselves to the values. -/
theorem comesTo_binary
    {op : BinaryOp} {left right : Expr}
    (strict : op ∉ [.add, .and, .or]) :
    ComesTo env s (.binary mark op left right) v ↔
      ∃ a b, ComesTo env s left a ∧ ComesTo env s right b ∧ applyBinary op a b = .ok v := by
  have runs : ∀ depth, evalNode env depth (evalAt env depth) (.binary mark op left right) =
      evalAt env depth left >>= fun a => evalAt env depth right >>= fun b =>
        EvalM.ofOutcome (applyBinary op a b) := by
    intro depth
    cases op <;> first | rfl | exact absurd (by decide) strict
  have second : ∀ a, Steady fun depth => evalAt env depth right >>= fun b =>
      EvalM.ofOutcome (applyBinary op a b) :=
    fun a => (steady_evalAt env right).bind fun _ => steady_ofOutcome _
  rw [comesTo_iff_reaches]
  simp only [runs, reaches_bind (steady_evalAt env left) second,
    reaches_bind (steady_evalAt env right) fun _ => steady_ofOutcome _, reaches_ofOutcome,
    exists_and_left]
  rfl

/-- A variable comes to the value that it is bound to. -/
theorem comesTo_localRef
    {name : String}
    (bound : localValue? s.scopes name = some v) :
    ComesTo env s (.localRef mark name) v := by
  refine comesTo_iff_reaches.mpr ⟨0, ?_⟩
  show (lookupLocal name s).1 = _
  rw [lookupLocal_apply, bound]
  rfl

/-- What an expression comes to depends on the variables that it and the host functions use. -/
theorem ComesTo.of_sameOn
    {names : String → Prop}
    (hosts : env.context.HostsWithin (.resolving names))
    (refers : RefersWithin names e)
    (same : SameOn names s.scopes s'.scopes)
    (comes : ComesTo env s e v) :
    ComesTo env s' e v := by
  obtain ⟨depth, ended⟩ := comes
  refine ⟨depth, ?_⟩
  have follows := (follows_evalAt hosts refers depth 0).ends s s' same
  rw [ended] at follows
  exact follows nofun

end Nodes

end Eval
end ExprLang
