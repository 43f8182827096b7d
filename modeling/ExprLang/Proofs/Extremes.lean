import ExprLang.Proofs.StandardCalls
import ExprLang.Proofs.ValueOrder

/-!
# The extremes of several values

The greatest and the least of several values are found in one pass: the best so far is compared with
the next value, which takes its place unless the best is strictly better.

**Invariant.**  The best so far is the last extreme of the values that were seen: none of them lies
beyond it, and those after it do not have this property.

* `Bounds.trans`: what bounds a bound is a bound.
* `IsLastExtreme.keep`, `IsLastExtreme.replace`: one value more.
* `isLastExtreme_of_bestOf`, `exists_bestOf`, `inOneClass_of_bestOf`: the whole pass, which fails
  unless all values are in one class.
* `answers_extreme`: the functions `max` and `min`, called with values or with a list of them.
-/

namespace ExprLang
namespace Value

/-- Whether the values of a list are all in one class. -/
def InOneClass (items : List Value) : Prop :=
  ∃ k, ∀ v ∈ items, v.orderClass? = some k

/-- Whether no value of a list lies beyond a value on a side: for `.gt` the value is at least as great
as each of them, for `.lt` at most. -/
def Bounds
    (side : Ordering)
    (items : List Value)
    (e : Value) : Prop :=
  ∀ x ∈ items, ∃ o, e.compare x = .ok o ∧ o ≠ side.swap

/-- Whether a value is the last in a list to bound the list. -/
def IsLastExtreme
    (side : Ordering)
    (items : List Value)
    (e : Value) : Prop :=
  ∃ before after, items = before ++ e :: after ∧ Bounds side items e ∧
    ∀ y ∈ after, ¬Bounds side items y

variable {a b c e v : Value} {side o p : Ordering} {items items' seen rest : List Value}

theorem InOneClass.perm
    (perm : items.Perm items') :
    InOneClass items ↔ InOneClass items' :=
  exists_congr fun _ => forall_congr' fun _ => imp_congr_left perm.mem_iff

/-! ### Bounds -/

theorem bound_trans
    (directed : side ≠ .eq)
    (hab : a.compare b = .ok o)
    (bound : o ≠ side.swap)
    (hbc : b.compare c = .ok p)
    (bound' : p ≠ side.swap) :
    ∃ q, a.compare c = .ok q ∧ q ≠ side.swap := by
  have isLE_iff : ∀ o : Ordering, o.isLE = true ↔ o ≠ .gt := by decide
  have swap_isLE_iff : ∀ o : Ordering, o.swap.isLE = true ↔ o ≠ .lt := by decide
  cases side with
  | eq => exact absurd rfl directed
  | lt =>
      obtain ⟨q, compared, below⟩ :=
        compare_trans hab ((isLE_iff o).mpr bound) hbc ((isLE_iff p).mpr bound')
      exact ⟨q, compared, (isLE_iff q).mp below⟩
  | gt =>
      obtain ⟨q, compared, below⟩ := compare_trans (compare_swap hbc)
        ((swap_isLE_iff p).mpr bound') (compare_swap hab) ((swap_isLE_iff o).mpr bound)
      refine ⟨q.swap, compare_swap compared, ?_⟩
      cases q <;> cases below <;> decide

/-- What bounds a bound of a list bounds the list. -/
theorem Bounds.trans
    (directed : side ≠ .eq)
    (hab : a.compare b = .ok o)
    (bound : o ≠ side.swap)
    (bounds : Bounds side items b) :
    Bounds side items a := by
  intro x member
  obtain ⟨p, compared, bound'⟩ := bounds x member
  exact bound_trans directed hab bound compared bound'

theorem Bounds.perm
    (perm : items.Perm items') :
    Bounds side items e ↔ Bounds side items' e :=
  forall_congr' fun _ => imp_congr_left perm.mem_iff

/-- Two values of a list that bound it are equal. -/
theorem Bounds.equals
    (directed : side ≠ .eq)
    (ha : a ∈ items)
    (hb : b ∈ items)
    (bounds : Bounds side items a)
    (bounds' : Bounds side items b) :
    a.equals b = true := by
  obtain ⟨o, compared, bound⟩ := bounds b hb
  obtain ⟨p, compared', bound'⟩ := bounds' a ha
  obtain rfl : o.swap = p := Except.ok.inj ((compare_swap compared).symm.trans compared')
  refine (compare_eq_iff_equals compared).mp ?_
  cases o <;> cases side <;> simp_all [Ordering.swap]

theorem IsLastExtreme.mem
    (extreme : IsLastExtreme side items e) :
    e ∈ items := by
  obtain ⟨before, after, rfl, -⟩ := extreme
  exact List.mem_append_right _ List.mem_cons_self

theorem IsLastExtreme.bounds
    (extreme : IsLastExtreme side items e) :
    Bounds side items e :=
  let ⟨_, _, _, bounds, _⟩ := extreme
  bounds

/-! ### One value more -/

/-- A value that compares with itself is the last extreme of itself. -/
theorem isLastExtreme_singleton
    (directed : side ≠ .eq)
    (comparable : Comparable v v) :
    IsLastExtreme side [v] v := by
  obtain ⟨o, compared⟩ := comparable_iff.mp comparable
  have even : o.swap = o := Except.ok.inj ((compare_swap compared).symm.trans compared)
  refine ⟨[], [], rfl, fun x member => ?_, nofun⟩
  obtain rfl := List.mem_singleton.mp member
  refine ⟨o, compared, ?_⟩
  cases o <;> cases side <;> simp_all [Ordering.swap]

/-- The best stays where it lies strictly beyond the next value. -/
theorem IsLastExtreme.keep
    (directed : side ≠ .eq)
    (extreme : IsLastExtreme side seen e)
    (compared : e.compare v = .ok side) :
    IsLastExtreme side (seen ++ [v]) e := by
  obtain ⟨before, after, rfl, bounds, isLast⟩ := extreme
  have beyond : side ≠ side.swap := by cases side <;> first | decide | exact absurd rfl directed
  refine ⟨before, after ++ [v], by simp, ?_, fun y member boundsAll => ?_⟩
  · refine List.forall_mem_append.mpr ⟨bounds, fun x member => ?_⟩
    obtain rfl := List.mem_singleton.mp member
    exact ⟨side, compared, beyond⟩
  · obtain ⟨boundsSeen, -⟩ := List.forall_mem_append.mp boundsAll
    rcases List.mem_append.mp member with member | member
    · exact isLast y member boundsSeen
    · obtain rfl := List.mem_singleton.mp member
      obtain ⟨p, compared', bound⟩ := boundsSeen e (by simp)
      exact bound (Except.ok.inj (compared'.symm.trans (compare_swap compared)))

/-- The next value takes the place of the best where the best does not lie strictly beyond it. -/
theorem IsLastExtreme.replace
    (directed : side ≠ .eq)
    (extreme : IsLastExtreme side seen e)
    (compared : e.compare v = .ok o)
    (notBeyond : o ≠ side) :
    IsLastExtreme side (seen ++ [v]) v := by
  have bound : o.swap ≠ side.swap := fun same => notBeyond (Ordering.swap_inj.mp same)
  have itself : Comparable v v := by
    obtain ⟨k, -, ofClass⟩ := comparable_iff.mpr ⟨o, compared⟩
    exact ⟨k, ofClass, ofClass⟩
  obtain ⟨_, _, _, bounds, -⟩ := isLastExtreme_singleton directed itself
  refine ⟨seen, [], rfl, List.forall_mem_append.mpr ⟨?_, bounds⟩, nofun⟩
  exact extreme.bounds.trans directed (compare_swap compared) bound

end Value

/-! ### The whole pass -/

namespace Stdlib

open Value

variable {keeps : Ordering → Bool} {side : Ordering} {best e v : Value}
  {items args seen rest : List Value} {error : RuntimeError}

/-- The pass ends with the last extreme of the values that it saw before and those that it sees. -/
theorem isLastExtreme_of_bestOf
    (directed : side ≠ .eq)
    (extreme : IsLastExtreme side seen best)
    (found : bestOf (· == side) best rest = .ok e) :
    IsLastExtreme side (seen ++ rest) e := by
  induction rest generalizing seen best with
  | nil =>
      cases found
      rwa [List.append_nil]
  | cons v rest ih =>
      obtain ⟨o, compared, found⟩ := except_bind_eq_ok.mp found
      rw [List.append_cons]
      by_cases stays : o = side
      · subst stays
        rw [if_pos (beq_self_eq_true o)] at found
        exact ih (extreme.keep directed compared) found
      · rw [if_neg (by simpa using stays)] at found
        exact ih (extreme.replace directed compared stays) found

/-- The pass finds a value where all values are in one class. -/
theorem exists_bestOf
    {k : OrderClass}
    (ofClass : best.orderClass? = some k)
    (each : ∀ v ∈ rest, v.orderClass? = some k) :
    ∃ e, bestOf keeps best rest = .ok e := by
  induction rest generalizing best with
  | nil => exact ⟨best, rfl⟩
  | cons v rest ih =>
      obtain ⟨here, each⟩ := List.forall_mem_cons.mp each
      obtain ⟨o, compared⟩ := comparable_iff.mp ⟨k, ofClass, here⟩
      have next : (if keeps o then best else v).orderClass? = some k := by
        split
        · exact ofClass
        · exact here
      obtain ⟨e, found⟩ := ih next each
      exact ⟨e, except_bind_eq_ok.mpr ⟨o, compared, found⟩⟩

/-- Values that the pass went through without an error are in one class. -/
theorem inOneClass_of_bestOf
    (found : bestOf keeps best (v :: rest) = .ok e) :
    InOneClass (best :: v :: rest) := by
  induction rest generalizing best v with
  | nil =>
      obtain ⟨o, compared, -⟩ := except_bind_eq_ok.mp found
      obtain ⟨k, ofClass, here⟩ := comparable_iff.mpr ⟨o, compared⟩
      exact ⟨k, by simp [ofClass, here]⟩
  | cons w rest ih =>
      obtain ⟨o, compared, found⟩ := except_bind_eq_ok.mp found
      obtain ⟨k, ofClass, here⟩ := comparable_iff.mpr ⟨o, compared⟩
      obtain ⟨l, each⟩ := ih found
      obtain ⟨next, each⟩ := List.forall_mem_cons.mp each
      -- The best goes on as one of two values of the class `k`, so that `l` is no other class.
      have same : l = k := by
        split at next
        · exact Option.some.inj (next.symm.trans ofClass)
        · exact Option.some.inj (next.symm.trans here)
      subst same
      exact ⟨l, List.forall_mem_cons.mpr ⟨ofClass, List.forall_mem_cons.mpr ⟨here, each⟩⟩⟩

theorem eq_valuesNotComparable_of_bestOf
    (failed : bestOf keeps best rest = .error error) :
    ∃ a b, error = .valuesNotComparable a b := by
  induction rest generalizing best with
  | nil => cases failed
  | cons v rest ih =>
      rw [bestOf] at failed
      unfold Value.compare at failed
      cases ordered : best.order? v with
      | none =>
          rw [ordered] at failed
          cases failed
          exact ⟨best, v, rfl⟩
      | some o =>
          rw [ordered] at failed
          exact ih failed

/-! ### The functions -/

/-- The ways to pass values to a function of extremes: one after the other, unless a list stands alone,
or as a list. -/
inductive Passed (items : List Value) : List Value → Prop
  | apart : (∀ inner, items ≠ [.list inner]) → Passed items items
  | asList : Passed items [.list items]

/-- What a function of extremes makes of some values. -/
structure FindsExtreme
    (side : Ordering)
    (items : List Value)
    (outcome : Outcome Value) : Prop where
  empty : items = [] → outcome = .ok .null
  single : ∀ v, items = [v] → outcome = .ok v
  raises : 2 ≤ items.length →
    ((∃ a b, outcome = .error (.valuesNotComparable a b)) ↔ ¬InOneClass items)
  extreme : 2 ≤ items.length → InOneClass items →
    ∃ e, outcome = .ok e ∧ IsLastExtreme side items e

/-- Whether two outcomes are equal values, or both report values that cannot be compared. -/
def Alike : Outcome Value → Outcome Value → Prop
  | .ok v, .ok w => v = w ∨ v.equals w = true
  | .error (.valuesNotComparable _ _), .error (.valuesNotComparable _ _) => True
  | _, _ => False

/-- The extreme of the values of a list, and null if there are none. -/
def extremeOf
    (keeps : Ordering → Bool) :
    List Value → Outcome Value
  | [] => .ok .null
  | v :: rest => bestOf keeps v rest

/-- An extreme is that of the values that were passed, in whichever way. -/
theorem extreme_of_passed
    (passed : Passed items args) :
    extreme keeps args = extremeOf keeps items := by
  cases passed with
  | asList => cases items <;> rfl
  | apart alone =>
      unfold extreme
      split
      · exact absurd rfl (alone _)
      · exact absurd rfl (alone _)
      · rfl
      · rfl

theorem findsExtreme
    (directed : side ≠ .eq)
    (items : List Value) :
    FindsExtreme side items (extremeOf (· == side) items) := by
  match items with
  | [] => exact ⟨fun _ => rfl, nofun, nofun, nofun⟩
  | [v] =>
      have notSeveral : ¬2 ≤ [v].length := by simp
      refine ⟨nofun, ?_, fun several => absurd several notSeveral,
        fun several => absurd several notSeveral⟩
      rintro _ ⟨⟩
      rfl
  | best :: v :: rest =>
      refine ⟨nofun, nofun, fun _ => ⟨?_, fun apart => ?_⟩, fun _ oneClass => ?_⟩
      · rintro ⟨a, b, raised⟩ ⟨k, each⟩
        obtain ⟨ofClass, each⟩ := List.forall_mem_cons.mp each
        obtain ⟨e, found⟩ := exists_bestOf ofClass each
        cases raised.symm.trans found
      · cases found : extremeOf (· == side) (best :: v :: rest) with
        | ok e => exact absurd (inOneClass_of_bestOf found) apart
        | error error =>
            obtain ⟨a, b, rfl⟩ := eq_valuesNotComparable_of_bestOf found
            exact ⟨a, b, rfl⟩
      · obtain ⟨k, each⟩ := oneClass
        obtain ⟨ofClass, each⟩ := List.forall_mem_cons.mp each
        obtain ⟨e, found⟩ := exists_bestOf ofClass each
        have start := isLastExtreme_singleton directed ⟨k, ofClass, ofClass⟩
        exact ⟨e, found, isLastExtreme_of_bestOf directed start found⟩

/-- The same values in another order give the same outcome, up to equality. -/
theorem FindsExtreme.alike
    {items' : List Value} {outcome outcome' : Outcome Value}
    (directed : side ≠ .eq)
    (finds : FindsExtreme side items outcome)
    (finds' : FindsExtreme side items' outcome')
    (perm : items.Perm items') :
    Alike outcome outcome' := by
  match items with
  | [] =>
      rw [finds.empty rfl, finds'.empty perm.nil_eq.symm]
      exact .inl rfl
  | [v] =>
      rw [finds.single v rfl, finds'.single v (List.singleton_perm.mp perm).symm]
      exact .inl rfl
  | a :: b :: rest =>
      have several : 2 ≤ (a :: b :: rest).length := by simp
      have several' : 2 ≤ items'.length := perm.length_eq ▸ several
      by_cases oneClass : InOneClass (a :: b :: rest)
      · obtain ⟨e, rfl, extreme⟩ := finds.extreme several oneClass
        obtain ⟨e', rfl, extreme'⟩ := finds'.extreme several' ((InOneClass.perm perm).mp oneClass)
        refine .inr (Bounds.equals directed extreme.mem (perm.mem_iff.mpr extreme'.mem)
          extreme.bounds ?_)
        exact (Bounds.perm perm).mpr extreme'.bounds
      · obtain ⟨_, _, rfl⟩ := (finds.raises several).mpr oneClass
        obtain ⟨_, _, rfl⟩ := (finds'.raises several').mpr
          fun oneClass' => oneClass ((InOneClass.perm perm).mpr oneClass')
        trivial

/-- A function of any number of values takes all values as they are. -/
theorem bind_onValues
    (f : List Value → Outcome Value) (name : String) (args : List Value) :
    ((onValues f).function name).bind args = .ok (args.map .value) := by
  have converted : ∀ place vs,
      ((onValues f).function name).convertArgs place vs = .ok (vs.map .value) := by
    intro place vs
    induction vs generalizing place with
    | nil => rfl
    | cons v vs ih =>
        rw [HostFunction.convertArgs]
        show (do
          let others ← ((onValues f).function name).convertArgs (place + 1) vs
          pure (HostObject.value v :: others)) = _
        rw [ih]
        rfl
  exact converted 0 args

theorem valuesOf_map_value
    (args : List Value) :
    valuesOf (args.map .value) = args := by
  simp [valuesOf, List.filterMap_map]

/-- The functions of extremes, and the sides on which they look for them. -/
def extremeFunctions : List (String × Ordering) :=
  [("max", .gt), ("min", .lt)]

variable {now : Time.Timestamp} {name : String}

/-- A function of extremes comes to the extreme of the values that it is called with. -/
theorem answers_extreme
    (isFunction : (name, side) ∈ extremeFunctions)
    (passed : Passed items args) :
    Eval.Answers now name args (extremeOf (· == side) items) := by
  have member : (name, onValues (extreme (· == side))) ∈ entries now := by
    simp only [extremeFunctions, List.mem_cons, List.not_mem_nil, or_false, Prod.mk.injEq]
      at isFunction
    rcases isFunction with ⟨rfl, rfl⟩ | ⟨rfl, rfl⟩
    · exact List.mem_of_getElem? (i := 8) rfl
    · exact List.mem_of_getElem? (i := 9) rfl
  refine Eval.answers_of_outcome member (bind_onValues (extreme (· == side)) name args) fun site => ?_
  show HostProgram.ofOutcome (extreme (· == side) (valuesOf (args.map .value))) = _
  rw [valuesOf_map_value, extreme_of_passed passed]

end Stdlib
end ExprLang
