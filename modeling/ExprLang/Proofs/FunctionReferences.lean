import ExprLang.Proofs.PlanTerms
import ExprLang.Proofs.WellFormedValues

/-!
# The functions that values refer to

A value may be a reference to a function, or hold some as a list or a map.  Operators come to scalars,
but for the concatenation of lists, and access gives a part of what is there: the language makes no new
reference to a function.

* `Value.RefersTo`: the references in a value, at any depth, are to functions of some kind.
* `isScalar_applyBinary`: operators come to scalars, or to concatenated lists.
* `stable_refersTo`: what the language makes of values refers to no other functions.
-/

namespace ExprLang
namespace Value

mutual

/-- Whether all references to functions in a value, at any depth, are to names with a property. -/
def RefersTo (known : String → Prop) : Value → Prop
  | list items => RefersToItems known items
  | map entries => RefersToEntries known entries
  | function name => known name
  | _ => True

/-- Whether the references in the items of a list are. -/
def RefersToItems (known : String → Prop) : List Value → Prop
  | [] => True
  | v :: rest => v.RefersTo known ∧ RefersToItems known rest

/-- Whether the references in the values of a map are. -/
def RefersToEntries (known : String → Prop) : List (Key × Value) → Prop
  | [] => True
  | (_, v) :: rest => v.RefersTo known ∧ RefersToEntries known rest

end

/-- Whether a value has no parts and refers to no function. -/
def IsScalar : Value → Prop
  | list _ | map _ | function _ => False
  | _ => True

variable {known : String → Prop} {a b v : Value}

theorem refersTo_list_iff
    {items : List Value} :
    (list items).RefersTo known ↔ ∀ v ∈ items, v.RefersTo known := by
  rw [RefersTo]
  induction items with
  | nil => exact ⟨nofun, fun _ => trivial⟩
  | cons v rest ih => rw [RefersToItems, ih, List.forall_mem_cons]

theorem refersTo_map_iff
    {entries : List (Key × Value)} :
    (map entries).RefersTo known ↔ ∀ e ∈ entries, e.2.RefersTo known := by
  rw [RefersTo]
  induction entries with
  | nil => exact ⟨nofun, fun _ => trivial⟩
  | cons e rest ih => rw [RefersToEntries, ih, List.forall_mem_cons]

theorem refersTo_of_isScalar
    (scalar : v.IsScalar) :
    v.RefersTo known := by
  cases v <;> trivial

theorem isScalar_toValue
    (k : Key) :
    k.toValue.IsScalar := by
  cases k <;> trivial

/-! ### Operators -/

/-- A sum is a scalar or a list of what the operands hold. -/
theorem isScalar_add
    (result : a.add b = .ok v) :
    v.IsScalar ∨ ∃ xs ys, a = list xs ∧ b = list ys ∧ v = list (xs ++ ys) := by
  unfold add intResult uintResult timestampResult durationResult at result
  split at result
  case h_10 xs ys =>
    cases result
    exact .inr ⟨xs, ys, rfl, rfl, rfl⟩
  all_goals
    left
    (try split at result) <;> cases result <;> trivial

theorem isScalar_sub
    (result : a.sub b = .ok v) :
    v.IsScalar := by
  unfold sub intResult uintResult timestampResult durationResult at result
  split at result <;> (try split at result) <;> cases result <;> trivial

theorem isScalar_mul
    (result : a.mul b = .ok v) :
    v.IsScalar := by
  unfold mul intResult uintResult at result
  split at result <;> (try split at result) <;> cases result <;> trivial

theorem isScalar_div
    (result : a.div b = .ok v) :
    v.IsScalar := by
  unfold div intResult at result
  split at result <;> repeat' split at result
  all_goals cases result <;> trivial

theorem isScalar_mod
    (result : a.mod b = .ok v) :
    v.IsScalar := by
  unfold mod at result
  split at result <;> repeat' split at result
  all_goals cases result <;> trivial

theorem isScalar_neg
    (result : a.neg = .ok v) :
    v.IsScalar := by
  unfold neg intResult durationResult at result
  split at result <;> (try split at result) <;> cases result <;> trivial

theorem isScalar_logicalNot
    (result : a.logicalNot = .ok v) :
    v.IsScalar := by
  unfold logicalNot at result
  split at result <;> cases result
  trivial

theorem isScalar_truth
    {α : Type}
    {o : Outcome α} {f : α → Bool}
    (result : (o >>= fun x => pure (.bool (f x)) : Outcome Value) = .ok v) :
    v.IsScalar := by
  cases o <;> cases result
  trivial

/-- Operators come to scalars, or to concatenated lists. -/
theorem isScalar_applyBinary
    {op : BinaryOp}
    (result : Eval.applyBinary op a b = .ok v) :
    v.IsScalar ∨ ∃ xs ys, a = list xs ∧ b = list ys ∧ v = list (xs ++ ys) := by
  cases op with
  | eq | ne =>
      cases result
      exact .inl trivial
  | lt | le | gt | ge | isIn => exact .inl (isScalar_truth result)
  | add => exact isScalar_add result
  | sub => exact .inl (isScalar_sub result)
  | mul => exact .inl (isScalar_mul result)
  | div => exact .inl (isScalar_div result)
  | mod => exact .inl (isScalar_mod result)
  | and | or =>
      obtain ⟨x, -, result⟩ := except_bind_eq_ok.mp result
      exact .inl (isScalar_truth result)

theorem refersTo_applyBinary
    {op : BinaryOp}
    (ha : a.RefersTo known)
    (hb : b.RefersTo known)
    (result : Eval.applyBinary op a b = .ok v) :
    v.RefersTo known := by
  rcases isScalar_applyBinary result with scalar | ⟨xs, ys, rfl, rfl, rfl⟩
  · exact refersTo_of_isScalar scalar
  · exact refersTo_list_iff.mpr
      (List.forall_mem_append.mpr ⟨refersTo_list_iff.mp ha, refersTo_list_iff.mp hb⟩)

/-! ### Access and writing -/

theorem refersTo_putEntry
    {entries : List (Key × Value)} {key : Key}
    (written : (map entries).RefersTo known)
    (hv : v.RefersTo known) :
    (map (putEntry entries key v)).RefersTo known := by
  refine refersTo_map_iff.mpr fun e member => ?_
  have each : ∀ e ∈ entries, True ∧ e.2.RefersTo known := fun e member =>
    ⟨trivial, refersTo_map_iff.mp written e member⟩
  exact (Assoc.forall_mem_put (P := fun _ => True) each trivial hv e member).2

theorem refersTo_lookup?
    {entries : List (Key × Value)} {key : Key}
    (hmap : (map entries).RefersTo known)
    (found : lookup? key entries = some v) :
    v.RefersTo known := by
  obtain ⟨k, member⟩ := Assoc.exists_mem_of_find? found
  exact refersTo_map_iff.mp hmap (k, v) member

theorem refersTo_member
    {field : String}
    (ha : a.RefersTo known)
    (result : a.member field = .ok v) :
    v.RefersTo known := by
  unfold member at result
  split at result
  · split at result
    next found =>
      cases result
      exact refersTo_lookup? ha found
    · cases result
  · cases result

theorem refersTo_index
    (ha : a.RefersTo known)
    (result : a.index b = .ok v) :
    v.RefersTo known := by
  unfold index at result
  split at result
  · split at result
    · exact refersTo_list_iff.mp ha v (mem_of_itemAt result)
    · cases result
  · split at result
    · cases item : itemAt _ _ <;> rw [item] at result <;> cases result
      trivial
    · cases result
  · obtain ⟨key, -, result⟩ := except_bind_eq_ok.mp result
    split at result
    next found =>
      cases result
      exact refersTo_lookup? ha found
    · cases result
  · cases result

theorem refersTo_stepsOf
    {kind : Comprehension} {single : Bool} {steps : List Eval.Step} {s : Eval.Step}
    (hv : v.RefersTo known)
    (result : Eval.stepsOf kind single v = .ok steps)
    (member : s ∈ steps) :
    (∀ w ∈ s.bound, w.RefersTo known) ∧ s.element.RefersTo known := by
  unfold Eval.stepsOf at result
  split at result
  next items =>
    cases result
    obtain ⟨position, w, inItems, -, rfl⟩ := Eval.mem_listSteps member
    have hw := refersTo_list_iff.mp hv w inItems
    refine ⟨?_, hw⟩
    split
    · simpa using hw
    · simpa using ⟨trivial, hw⟩
  next entries =>
    cases result
    obtain ⟨⟨k, w⟩, inEntries, rfl⟩ := List.mem_map.mp member
    have hw := refersTo_map_iff.mp hv (k, w) inEntries
    have hk : k.toValue.RefersTo known := refersTo_of_isScalar (isScalar_toValue k)
    refine ⟨?_, hk⟩
    dsimp only
    split
    · simpa using hk
    · simpa using ⟨hk, hw⟩
  · cases result

end Value

/-- What the language makes of values refers to no other functions than they do. -/
theorem Eval.Plan.stable_refersTo
    (known : String → Prop) :
    Stable (Value.RefersTo known) (Value.RefersTo known) where
  good_of_given _ given := given
  bool _ := trivial
  list _ each := Value.refersTo_list_iff.mpr each
  map := trivial
  put _ _ _ _ written _ given _ := Value.refersTo_putEntry written given
  logicalNot _ _ _ result := Value.refersTo_of_isScalar (Value.isScalar_logicalNot result)
  neg _ _ _ result := Value.refersTo_of_isScalar (Value.isScalar_neg result)
  binary _ _ _ _ given given' result := Value.refersTo_applyBinary given given' result
  member _ _ _ given result := Value.refersTo_member given result
  index _ _ _ given _ result := Value.refersTo_index given result
  steps _ _ _ _ given result _ member := Value.refersTo_stepsOf given result member

end ExprLang
