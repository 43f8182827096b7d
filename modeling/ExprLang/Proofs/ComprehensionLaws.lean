import ExprLang.Proofs.CollectedMaps
import ExprLang.Proofs.ComprehensionRules

/-!
# Laws of comprehensions

The comprehensions are related to one another as the operations on lists are that they stand for.  The
laws hold for bodies that fail on some elements: one side comes to a value if and only if the other
does, although the loops end at different elements and evaluate the parts in different orders.

* `mapped_iff_kept`, `decides_not_iff`, `Kept.decides_any`, `Kept.decides_all`: the rules of the loops,
  related.
* `decides_map_iff`, `kept_map_iff`: loops see of their steps only what tests make of them, and the
  elements.
* `guardedMap_iff`, `all_iff`, `one_iff`, `filter_spec`: comprehensions with one variable.
* `twoVariables_iff_map`, `twoVariables_iff_list`: comprehensions with a variable that is not used.
* `contains_and_any`: membership as a search.
-/

namespace ExprLang
namespace Eval

/-! ### Loops -/

section Loops

variable {T T' : Step → Bool → Prop} {R : Step → Value → Prop} {steps kept : List Step}
  {vs : List Value} {answer b : Bool}

/-- Mapping with a guard is mapping what the guard keeps. -/
theorem mapped_iff_kept :
    Mapped T R steps vs ↔ ∃ kept, Kept T steps kept ∧ Mapped (fun _ c => c = true) R kept vs := by
  constructor
  · intro mapped
    induction mapped with
    | nil => exact ⟨[], .nil, .nil⟩
    | pass here result _ ih =>
        obtain ⟨kept, isKept, mapped⟩ := ih
        exact ⟨_, .keep here isKept, .pass rfl result mapped⟩
    | skip here _ ih =>
        obtain ⟨kept, isKept, mapped⟩ := ih
        exact ⟨kept, .drop here isKept, mapped⟩
  · rintro ⟨kept, isKept, mapped⟩
    induction isKept generalizing vs with
    | nil =>
        cases mapped
        exact .nil
    | keep here _ ih =>
        rcases mapped with _ | ⟨-, result, mapped⟩ | ⟨⟨⟩, -⟩
        exact .pass here result (ih mapped)
    | drop here _ ih => exact .skip here (ih mapped)

/-- A search for an answer decides as that of the opposite tests for the opposite answer. -/
theorem decides_not_iff :
    Decides answer T steps b ↔ Decides (!answer) (fun st c => T st !c) steps !b := by
  suffices forth : ∀ {T : Step → Bool → Prop} {answer b : Bool}, Decides answer T steps b →
      Decides (!answer) (fun st c => T st !c) steps !b by
    refine ⟨forth, fun decides => ?_⟩
    have back := forth decides
    simpa only [Bool.not_not] using back
  intro T answer b decides
  induction decides with
  | nil => exact .nil
  | go here _ ih => exact .go (by simpa using here) ih
  | stop here => exact .stop (by simpa using here)

theorem Kept.length_le
    (isKept : Kept T steps kept) :
    kept.length ≤ steps.length := by
  induction isKept with
  | nil => exact Nat.le_refl _
  | keep _ _ ih => exact Nat.succ_le_succ ih
  | drop _ _ ih => exact Nat.le_succ_of_le ih

/-- Some step holds if some step is kept. -/
theorem Kept.decides_any
    (isKept : Kept T steps kept) :
    Decides true T steps !kept.isEmpty := by
  induction isKept with
  | nil => exact .nil
  | keep here => exact .stop here
  | drop here _ ih => exact .go here ih

/-- All steps hold if as many are kept as there are. -/
theorem Kept.decides_all
    (isKept : Kept T steps kept) :
    Decides false T steps (kept.length == steps.length) := by
  induction isKept with
  | nil => exact .nil
  | keep here _ ih =>
      have same : ∀ m n : Nat, (m + 1 == n + 1) = (m == n) := by simp
      rw [List.length_cons, List.length_cons, same]
      exact .go here ih
  | drop here later =>
      have fewer := later.length_le
      have differ : ∀ {m n : Nat}, m ≤ n → (m == n + 1) = false := fun le => by simp; omega
      rw [List.length_cons, differ fewer]
      exact .stop here

/-- Tests that all come to an answer decide. -/
theorem decides_of_forall
    {holds : Step → Bool}
    (each : ∀ st ∈ steps, T st (holds st)) :
    Decides true T steps (steps.any holds) := by
  induction steps with
  | nil => exact .nil
  | cons st rest ih =>
      obtain ⟨here, each⟩ := List.forall_mem_cons.mp each
      rw [List.any_cons]
      cases answered : holds st with
      | true =>
          rw [answered] at here
          exact .stop here
      | false =>
          rw [answered] at here
          exact .go here (ih each)

section Image

variable {f : Step → Step} (agree : ∀ st ∈ steps, ∀ c, T st c ↔ T' (f st) c)
include agree

theorem decides_map_iff :
    Decides answer T steps b ↔ Decides answer T' (steps.map f) b := by
  induction steps with
  | nil =>
      rw [List.map_nil]
      constructor <;> rintro ⟨⟩ <;> exact .nil
  | cons st rest ih =>
      obtain ⟨here, agree⟩ := List.forall_mem_cons.mp agree
      rw [List.map_cons]
      constructor
      · rintro (⟨⟩ | ⟨test, later⟩ | test)
        · exact .go ((here _).mp test) ((ih agree).mp later)
        · exact .stop ((here _).mp test)
      · rintro (⟨⟩ | ⟨test, later⟩ | test)
        · exact .go ((here _).mpr test) ((ih agree).mpr later)
        · exact .stop ((here _).mpr test)

theorem kept_map_iff
    {kept' : List Step} :
    Kept T' (steps.map f) kept' ↔ ∃ kept, Kept T steps kept ∧ kept' = kept.map f := by
  induction steps generalizing kept' with
  | nil =>
      constructor
      · rintro ⟨⟩
        exact ⟨[], .nil, rfl⟩
      · rintro ⟨_, ⟨⟩, rfl⟩
        exact .nil
  | cons st rest ih =>
      obtain ⟨here, agree⟩ := List.forall_mem_cons.mp agree
      rw [List.map_cons]
      constructor
      · rintro (⟨⟩ | ⟨test, later⟩ | ⟨test, later⟩)
        · obtain ⟨kept, isKept, rfl⟩ := (ih agree).mp later
          exact ⟨st :: kept, .keep ((here _).mpr test) isKept, rfl⟩
        · obtain ⟨kept, isKept, rfl⟩ := (ih agree).mp later
          exact ⟨kept, .drop ((here _).mpr test) isKept, rfl⟩
      · rintro ⟨kept, ⟨⟩ | ⟨test, later⟩ | ⟨test, later⟩, rfl⟩
        · exact .keep ((here _).mp test) ((ih agree).mpr ⟨_, later, rfl⟩)
        · exact .drop ((here _).mp test) ((ih agree).mpr ⟨_, later, rfl⟩)

end Image

end Loops

/-! ### Steps -/

/-- A step that binds its element only. -/
def Step.narrow (st : Step) : Step :=
  ⟨[st.element], st.element⟩

section Steps

variable {kind : Comprehension} {single : Bool} {v : Value} {steps : List Step}

theorem elements_listSteps
    (single : Bool) (items : List Value) (position : Nat) :
    (listSteps single position items).map (·.element) = items := by
  induction items generalizing position with
  | nil => rfl
  | cons v rest ih => exact congrArg (v :: ·) (ih _)

theorem length_of_stepsOf
    (isSteps : stepsOf kind single v = .ok steps) :
    v.size = .ok steps.length := by
  cases v with
  | list items =>
      have sameLength := congrArg List.length (elements_listSteps single items 0)
      cases isSteps
      rw [List.length_map] at sameLength
      rw [Value.size, sameLength]
  | map entries =>
      cases isSteps
      rw [Value.size, mapSteps, List.length_map]
  | _ => cases isSteps

/-- Steps with one variable bind their elements. -/
theorem narrow_of_stepsOf
    (isSteps : stepsOf kind true v = .ok steps) :
    ∀ st ∈ steps, st.narrow = st := by
  intro st member
  cases v <;> cases isSteps
  · obtain ⟨_, _, -, -, rfl⟩ := mem_listSteps member
    rfl
  · obtain ⟨_, -, rfl⟩ := List.mem_map.mp member
    rfl

/-- Steps with two variables become those with one. -/
theorem stepsOf_narrow
    (isSteps : stepsOf kind false v = .ok steps) :
    stepsOf kind true v = .ok (steps.map Step.narrow) := by
  have ofList : ∀ (items : List Value) position,
      listSteps true position items = (listSteps false position items).map Step.narrow := by
    intro items
    induction items with
    | nil => exact fun _ => rfl
    | cons v rest ih => exact fun _ => congrArg _ (ih _)
  cases v <;> cases isSteps
  · exact congrArg Except.ok (ofList _ 0)
  · simp only [stepsOf, mapSteps, List.map_map]
    rfl

/-- The steps over the elements of steps with one variable are these steps. -/
theorem listSteps_elements
    (narrow : ∀ st ∈ steps, st.narrow = st)
    (position : Nat) :
    listSteps true position (steps.map (·.element)) = steps := by
  induction steps generalizing position with
  | nil => rfl
  | cons st rest ih =>
      obtain ⟨here, narrow⟩ := List.forall_mem_cons.mp narrow
      rw [List.map_cons, listSteps, ih narrow]
      exact congrArg (· :: rest) here

theorem Kept.subset
    {T : Step → Bool → Prop} {kept : List Step}
    (isKept : Kept T steps kept) :
    ∀ st ∈ kept, st ∈ steps := by
  induction isKept with
  | nil => exact nofun
  | keep _ _ ih =>
      exact List.forall_mem_cons.mpr ⟨List.mem_cons_self, fun st member =>
        List.mem_cons_of_mem _ (ih st member)⟩
  | drop _ _ ih => exact fun st member => List.mem_cons_of_mem _ (ih st member)

end Steps

/-! ### One variable -/

section OneVariable

variable {env : Environment} {s : EvalState} {target p t : Expr} {x : String} {m m₁ m₂ m₃ : Mark}
  {w : Value}

/-- Mapping with a guard is filtering, and mapping what is left. -/
theorem guardedMap_iff :
    ComesTo env s (.comprehension m .map target [x] (some p) t) w ↔
      ComesTo env s (.comprehension m₁ .map (.comprehension m₂ .filter target [x] none p) [x] none t)
        w := by
  -- The outer loop on the right goes through the list of the kept elements, whose steps are the kept
  -- steps because these bind nothing but their elements.
  rw [comesTo_map, comesTo_map]
  constructor
  · rintro ⟨steps, vs, ⟨v, comes, isSteps⟩, mapped, rfl⟩
    obtain ⟨kept, isKept, mapped⟩ := mapped_iff_kept.mp mapped
    have narrow : ∀ st ∈ kept, st.narrow = st := fun st member =>
      narrow_of_stepsOf (isSteps .map) st (isKept.subset st member)
    refine ⟨kept, vs, ⟨.list (kept.map (·.element)), ?_, fun kind => ?_⟩, mapped, rfl⟩
    · exact (comesTo_kept rfl).mpr ⟨steps, kept, ⟨v, comes, isSteps⟩, isKept, rfl⟩
    · exact congrArg Except.ok (listSteps_elements narrow 0)
  · rintro ⟨steps', vs, ⟨v', filtered, isSteps'⟩, mapped, rfl⟩
    obtain ⟨steps, kept, ranges, isKept, rfl⟩ := (comesTo_kept rfl).mp filtered
    obtain ⟨v, comes, isSteps⟩ := ranges
    have narrow : ∀ st ∈ kept, st.narrow = st := fun st member =>
      narrow_of_stepsOf (isSteps .map) st (isKept.subset st member)
    obtain rfl : kept = steps' :=
      (listSteps_elements narrow 0).symm.trans (Except.ok.inj (isSteps' .map))
    exact ⟨steps, vs, ⟨v, comes, isSteps⟩, mapped_iff_kept.mpr ⟨kept, isKept, mapped⟩, rfl⟩

/-- All elements pass if none passes the opposite test. -/
theorem all_iff :
    ComesTo env s (.comprehension m .all target [x] none p) w ↔
      ComesTo env s
        (.unary m₁ .not (.comprehension m₂ .any target [x] none (.unary m₃ .not p))) w := by
  have opposite : Tests env s [x] (.unary m₃ .not p) = fun st c => Tests env s [x] p st !c := by
    funext st c
    refine propext (comesTo_not.trans ⟨?_, fun test => ⟨!c, test, by simp⟩⟩)
    rintro ⟨b, test, isNot⟩
    obtain rfl : c = !b := Value.bool.inj isNot
    rwa [Bool.not_not]
  have byFalse : decidedBy .all = some false := rfl
  have byTrue : decidedBy .any = some true := rfl
  rw [comesTo_search byFalse, comesTo_not]
  simp only [comesTo_search byTrue, opposite, Value.bool.injEq]
  constructor
  · rintro ⟨steps, b, ranges, decides, rfl⟩
    exact ⟨!b, ⟨steps, !b, ranges, decides_not_iff.mp decides, rfl⟩, by simp⟩
  · rintro ⟨found, ⟨steps, _, ranges, decides, rfl⟩, rfl⟩
    refine ⟨steps, !found, ranges, decides_not_iff.mpr ?_, rfl⟩
    rwa [Bool.not_not]

/-- Exactly one element passes if filtering leaves a list of one. -/
theorem one_iff :
    ComesTo env s (.comprehension m .one target [x] none p) w ↔
      ∃ items, ComesTo env s (.comprehension m₁ .filter target [x] none p) (.list items) ∧
        w = .bool (items.length == 1) := by
  have counted : madeOf .one = some fun kept => .bool (kept.length == 1) := rfl
  have listed : madeOf .filter = some fun kept => .list (kept.map (·.element)) := rfl
  simp only [comesTo_kept counted, comesTo_kept listed, Value.list.injEq]
  constructor
  · rintro ⟨steps, kept, ranges, isKept, rfl⟩
    exact ⟨_, ⟨steps, kept, ranges, isKept, rfl⟩, by rw [List.length_map]⟩
  · rintro ⟨_, ⟨steps, kept, ranges, isKept, rfl⟩, rfl⟩
    exact ⟨steps, kept, ranges, isKept, by rw [List.length_map]⟩

/-- Where filtering leaves a list, some element passes if the list is not empty, and all do if it is as
long as the target. -/
theorem filter_spec
    (filtered : ComesTo env s (.comprehension m .filter target [x] none p) w) :
    ∃ items v size, w = .list items ∧ ComesTo env s target v ∧ v.size = .ok size ∧
      ComesTo env s (.comprehension m₁ .any target [x] none p) (.bool !items.isEmpty) ∧
      ComesTo env s (.comprehension m₂ .all target [x] none p)
        (.bool (items.length == size)) := by
  obtain ⟨steps, kept, ⟨v, comes, isSteps⟩, isKept, rfl⟩ := (comesTo_kept rfl).mp filtered
  refine ⟨_, v, steps.length, rfl, comes, length_of_stepsOf (isSteps .filter), ?_, ?_⟩
  · rw [List.isEmpty_map]
    exact (comesTo_search rfl).mpr ⟨steps, _, ⟨v, comes, isSteps⟩, isKept.decides_any, rfl⟩
  · rw [List.length_map]
    exact (comesTo_search rfl).mpr ⟨steps, _, ⟨v, comes, isSteps⟩, isKept.decides_all, rfl⟩

end OneVariable

/-! ### A variable that is not used -/

section TwoVariables

variable {env : Environment} {s : EvalState} {target p : Expr} {a b x : String} {m m₁ : Mark}
  {kind : Comprehension} {v w : Value} {steps : List Step}

/-- Bindings with one more, of a variable that is not used, are the same where it matters. -/
theorem tests_iff_narrow
    {unused : String} {st : Step}
    (hosts : env.context.HostsWithin (.resolving (· ≠ unused)))
    (refers : RefersWithin (· ≠ unused) p)
    (same : ∀ name, name ≠ unused →
      ([x].zip [st.element]).lookup name = ([a, b].zip st.bound).lookup name)
    (c : Bool) :
    Tests env s [a, b] p st c ↔ Tests env s [x] p st.narrow c := by
  have agree : SameOn (· ≠ unused) ([a, b].zip st.bound :: s.scopes)
      ([x].zip st.narrow.bound :: s.scopes) := by
    intro name isOther
    have here := same name isOther
    simp only [localValue?, List.findSome?_cons, Step.narrow, here]
  exact ⟨fun test => test.of_sameOn hosts refers agree,
    fun test => test.of_sameOn hosts refers agree.symm⟩

/-- A comprehension with two variables is that with one if the tests of all steps are the same. -/
theorem twoVariables_iff
    (notMap : kind ≠ .map)
    (comes : ComesTo env s target v)
    (isSteps : stepsOf kind false v = .ok steps)
    (agree : ∀ st ∈ steps, ∀ c, Tests env s [a, b] p st c ↔ Tests env s [x] p st.narrow c) :
    ComesTo env s (.comprehension m kind target [a, b] none p) w ↔
      ComesTo env s (.comprehension m₁ kind target [x] none p) w := by
  -- The target comes to one value only, so that both go through the steps of that value.
  have two : ∀ steps', Ranges env s target [a, b] steps' ↔ steps' = steps := by
    intro steps'
    constructor
    · rintro ⟨v', comes', isSteps'⟩
      obtain rfl := comes.unique comes'
      exact Except.ok.inj ((isSteps' kind).symm.trans isSteps)
    · rintro rfl
      exact ⟨v, comes, fun kind' => stepsOf_eq_ok kind' isSteps⟩
  have one : ∀ steps', Ranges env s target [x] steps' ↔ steps' = steps.map Step.narrow := by
    intro steps'
    constructor
    · rintro ⟨v', comes', isSteps'⟩
      obtain rfl := comes.unique comes'
      exact Except.ok.inj ((isSteps' kind).symm.trans (stepsOf_narrow isSteps))
    · rintro rfl
      exact ⟨v, comes, fun kind' => stepsOf_eq_ok kind' (stepsOf_narrow isSteps)⟩
  cases decided : decidedBy kind with
  | some answer =>
      simp only [comesTo_search decided, two, one, exists_and_left, exists_eq_left,
        decides_map_iff agree]
  | none =>
      obtain ⟨made, isMade, reads⟩ : ∃ made, madeOf kind = some made ∧
          ∀ kept, made (kept.map Step.narrow) = made kept := by
        cases kind <;> cases decided
        · exact ⟨_, rfl, fun kept => by rw [List.length_map]⟩
        · exact ⟨_, rfl, fun kept => by rw [List.map_map]; rfl⟩
        · exact absurd rfl notMap
      simp only [comesTo_kept isMade, two, one, exists_and_left, exists_eq_left,
        kept_map_iff agree]
      constructor
      · rintro ⟨kept, isKept, rfl⟩
        exact ⟨_, ⟨kept, isKept, rfl⟩, (reads kept).symm⟩
      · rintro ⟨_, ⟨kept, isKept, rfl⟩, rfl⟩
        exact ⟨kept, isKept, reads kept⟩

/-- Over a map the variable of the value can be left out where it is not used. -/
theorem twoVariables_iff_map
    {entries : List (Key × Value)}
    (notMap : kind ≠ .map)
    (comes : ComesTo env s target (.map entries))
    (hosts : env.context.HostsWithin (.resolving (· ≠ b)))
    (refers : RefersWithin (· ≠ b) p) :
    ComesTo env s (.comprehension m kind target [a, b] none p) w ↔
      ComesTo env s (.comprehension m₁ kind target [a] none p) w := by
  refine twoVariables_iff notMap comes rfl fun st member => ?_
  obtain ⟨⟨key, value⟩, -, rfl⟩ := List.mem_map.mp member
  refine tests_iff_narrow hosts refers fun name isOther => ?_
  simp [List.lookup_cons, beq_false_of_ne isOther]

/-- Over a list the variable of the position can be left out where it is not used. -/
theorem twoVariables_iff_list
    {items : List Value}
    (notMap : kind ≠ .map)
    (comes : ComesTo env s target (.list items))
    (hosts : env.context.HostsWithin (.resolving (· ≠ a)))
    (refers : RefersWithin (· ≠ a) p) :
    ComesTo env s (.comprehension m kind target [a, b] none p) w ↔
      ComesTo env s (.comprehension m₁ kind target [b] none p) w := by
  refine twoVariables_iff notMap comes rfl fun st member => ?_
  obtain ⟨position, v, -, -, rfl⟩ := mem_listSteps member
  refine tests_iff_narrow hosts refers fun name isOther => ?_
  simp [List.lookup_cons, beq_false_of_ne isOther]

end TwoVariables

/-! ### Membership -/

section Membership

open Value

variable {env : Environment} {s : EvalState} {target y : Expr} {z : String} {m m₁ m₂ m₃ : Mark}
  {kind : Comprehension} {l v : Value} {steps : List Step}

/-- The steps over a list, or over a map if a key is sought, have an element that is equal to a value if
the list or map contains the value. -/
theorem contains_eq_any
    (hl : l.WellFormed)
    (hv : v.WellFormed)
    (sought : (∃ items, l = .list items) ∨ (∃ entries, l = .map entries) ∧ v.HasKeyType)
    (isSteps : stepsOf kind true l = .ok steps) :
    l.contains v = .ok (steps.any fun st => st.element.equals v) := by
  rcases sought with ⟨items, rfl⟩ | ⟨⟨entries, rfl⟩, hasKeyType⟩
  · cases isSteps
    have each := wellFormed_list_iff.mp hl
    have sameAny : (listSteps true 0 items).any (fun st => st.element.equals v) =
        items.any (·.equals v) := by
      conv_rhs => rw [← elements_listSteps true items 0]
      rw [List.any_map]
      rfl
    rw [Value.contains, sameAny, Except.ok.injEq, Bool.eq_iff_iff, List.any_eq_true,
      List.any_eq_true]
    exact exists_congr fun w => and_congr_right fun member => by rw [equals_comm (each w member) hv]
  · cases isSteps
    obtain ⟨key, rfl⟩ := hasKeyType_iff.mp hasKeyType
    simp only [Value.contains, toKey?_toValue, mapSteps, List.any_map]
    refine congrArg Except.ok ?_
    clear hl
    induction entries with
    | nil => rfl
    | cons e rest ih =>
        rw [lookup?, Assoc.find?, List.any_cons]
        simp only [Function.comp_apply, same_eq_equals]
        cases e.1.toValue.equals key.toValue with
        | true => rfl
        | false => exact ih

/-- Membership in a list, or of a key in a map, is a search for an equal element. -/
theorem contains_and_any
    (comes : ComesTo env s target l)
    (comesItem : ComesTo env s y v)
    (hl : l.WellFormed)
    (hv : v.WellFormed)
    (sought : (∃ items, l = .list items) ∨ (∃ entries, l = .map entries) ∧ v.HasKeyType)
    (hosts : env.context.HostsWithin (.resolving (· ≠ z)))
    (refers : RefersWithin (· ≠ z) y) :
    ∃ found,
      ComesTo env s (.binary m .isIn y target) (.bool found) ∧
      ComesTo env s (.comprehension m₁ .any target [z] none (.binary m₂ .eq (.localRef m₃ z) y))
        (.bool found) := by
  obtain ⟨steps, isSteps⟩ : ∃ steps, stepsOf .any true l = .ok steps := by
    rcases sought with ⟨items, rfl⟩ | ⟨⟨entries, rfl⟩, -⟩ <;> exact ⟨_, rfl⟩
  refine ⟨steps.any fun st => st.element.equals v, ?_, ?_⟩
  · refine (comesTo_binary (by decide)).mpr ⟨v, l, comesItem, comes, ?_⟩
    show (do pure (Value.bool (← l.contains v))) = _
    rw [contains_eq_any hl hv sought isSteps]
    rfl
  · refine (comesTo_search rfl).mpr ⟨steps, _, ⟨l, comes, fun kind => stepsOf_eq_ok kind isSteps⟩,
      decides_of_forall fun st member => ?_, rfl⟩
    have bound : st.bound = [st.element] :=
      (congrArg Step.bound (narrow_of_stepsOf isSteps st member)).symm
    refine (comesTo_binary (by decide)).mpr ⟨st.element, v, comesTo_localRef ?_, ?_, rfl⟩
    · rw [bound]
      simp [localValue?]
    · -- The item is evaluated again for each element, with the variable of the search bound.
      refine comesItem.of_sameOn hosts refers fun name isOther => ?_
      simp [bound, localValue?, List.lookup_cons, beq_false_of_ne isOther]

end Membership

/-! ### The laws -/

/-- The laws of comprehensions over any target, in any scopes: each side comes to a value if and only if
the other does, and then to the same.  Mapping with a guard is filtering and mapping; all elements pass
if none fails; exactly one passes if filtering leaves one, some pass if it leaves any, all if it leaves
as many as there are.  A second variable that is used neither by the body nor by host functions makes no
difference, and membership is a search for an equal element. -/
theorem comprehension_laws
    (env : Environment) (s : EvalState) (target p t : Expr) (x : String) (m m₁ m₂ m₃ : Mark) :
    (∀ w, ComesTo env s (.comprehension m .map target [x] (some p) t) w ↔
      ComesTo env s
        (.comprehension m₁ .map (.comprehension m₂ .filter target [x] none p) [x] none t) w) ∧
    (∀ w, ComesTo env s (.comprehension m .all target [x] none p) w ↔
      ComesTo env s
        (.unary m₁ .not (.comprehension m₂ .any target [x] none (.unary m₃ .not p))) w) ∧
    (∀ w, ComesTo env s (.comprehension m .one target [x] none p) w ↔
      ∃ items, ComesTo env s (.comprehension m₁ .filter target [x] none p) (.list items) ∧
        w = .bool (items.length == 1)) ∧
    (∀ w, ComesTo env s (.comprehension m .filter target [x] none p) w →
      ∃ items v size, w = .list items ∧ ComesTo env s target v ∧ v.size = .ok size ∧
        ComesTo env s (.comprehension m₁ .any target [x] none p) (.bool !items.isEmpty) ∧
        ComesTo env s (.comprehension m₂ .all target [x] none p)
          (.bool (items.length == size))) ∧
    (∀ kind entries unused w, kind ≠ .map → ComesTo env s target (.map entries) →
      env.context.HostsWithin (.resolving (· ≠ unused)) → RefersWithin (· ≠ unused) p →
      (ComesTo env s (.comprehension m kind target [x, unused] none p) w ↔
        ComesTo env s (.comprehension m₁ kind target [x] none p) w)) ∧
    (∀ kind items unused w, kind ≠ .map → ComesTo env s target (.list items) →
      env.context.HostsWithin (.resolving (· ≠ unused)) → RefersWithin (· ≠ unused) p →
      (ComesTo env s (.comprehension m kind target [unused, x] none p) w ↔
        ComesTo env s (.comprehension m₁ kind target [x] none p) w)) ∧
    (∀ y z l v, ComesTo env s target l → ComesTo env s y v → l.WellFormed → v.WellFormed →
      ((∃ items, l = .list items) ∨ (∃ entries, l = .map entries) ∧ v.HasKeyType) →
      env.context.HostsWithin (.resolving (· ≠ z)) → RefersWithin (· ≠ z) y →
      ∃ found, ComesTo env s (.binary m .isIn y target) (.bool found) ∧
        ComesTo env s (.comprehension m₁ .any target [z] none (.binary m₂ .eq (.localRef m₃ z) y))
          (.bool found)) := by
  refine ⟨fun _ => guardedMap_iff, fun _ => all_iff, fun _ => one_iff, fun _ => filter_spec, ?_, ?_,
    ?_⟩
  · intro kind entries unused w notMap comes hosts refers
    exact twoVariables_iff_map notMap comes hosts refers
  · intro kind items unused w notMap comes hosts refers
    exact twoVariables_iff_list notMap comes hosts refers
  · intro y z l v comes comesItem hl hv sought hosts refers
    exact contains_and_any comes comesItem hl hv sought hosts refers

/-- The laws for a list of truth values and for a map with one key, the test being the variable
itself. -/
theorem comprehension_laws_truthValues :
    let env : Environment := ⟨[], false⟩
    let items : Expr := .literal default (.list [.bool true, .bool false])
    let entries : Expr := .literal default (.map [(.bool true, .int 1)])
    let p : Expr := .localRef default "x"
    let y : Expr := .literal default (.bool false)
    (∃ v size, ComesTo env .initial items v ∧ v.size = .ok size ∧
      ComesTo env .initial (.comprehension default .all items ["x"] none p) (.bool (1 == size))) ∧
    (∀ w, ComesTo env .initial (.comprehension default .all entries ["x", "v"] none p) w ↔
      ComesTo env .initial (.comprehension default .all entries ["x"] none p) w) ∧
    (∀ w, ComesTo env .initial (.comprehension default .filter items ["i", "x"] none p) w ↔
      ComesTo env .initial (.comprehension default .filter items ["x"] none p) w) ∧
    (∃ found, ComesTo env .initial (.binary default .isIn y items) (.bool found) ∧
      ComesTo env .initial
        (.comprehension default .any items ["z"] none
          (.binary default .eq (.localRef default "z") y)) (.bool found)) := by
  intro env items entries p y
  have hosts : ∀ name, env.context.HostsWithin (.resolving (· ≠ name)) :=
    fun _ => Context.hostsWithin_of_scopes nofun
  have refers : ∀ name, name ≠ "x" → RefersWithin (· ≠ name) p := by
    rintro name isOther e member m other rfl
    obtain ⟨-, rfl⟩ := Expr.localRef.inj (List.mem_singleton.mp member)
    exact isOther.symm
  have refersNot : RefersWithin (· ≠ "z") y := by
    rintro e member m other rfl
    cases List.mem_singleton.mp member
  obtain ⟨-, -, -, filtered, -, onList, membership⟩ :=
    comprehension_laws env .initial items p p "x" default default default default
  obtain ⟨-, -, -, -, onMap, -, -⟩ :=
    comprehension_laws env .initial entries p p "x" default default default default
  refine ⟨?_, fun w => ?_, fun w => ?_, ?_⟩
  · obtain ⟨_, v, size, ⟨⟩, comes, isSize, -, all⟩ := filtered (.list [.bool true]) ⟨2, rfl⟩
    exact ⟨v, size, comes, isSize, all⟩
  · exact onMap .all _ "v" w (by decide) ⟨1, rfl⟩ (hosts "v") (refers "v" (by decide))
  · exact onList .filter _ "i" w (by decide) ⟨1, rfl⟩ (hosts "i") (refers "i" (by decide))
  · refine membership y "z" _ _ ⟨1, rfl⟩ ⟨1, rfl⟩ ?_ trivial (.inl ⟨_, rfl⟩) (hosts "z") refersNot
    exact ⟨trivial, trivial, trivial⟩

end Eval
end ExprLang
