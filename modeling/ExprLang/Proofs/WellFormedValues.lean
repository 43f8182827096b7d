import ExprLang.Eval.Evaluator

/-!
# Well-formed values

The operations of the language make well-formed values of well-formed values: integers that are
computed are in range or the operation fails, and writing into a map never makes two keys the same.

* `same_eq_equals`: keys are told apart as the values that they are.
* `wellFormed_applyBinary`, `wellFormed_neg`: operators.
* `wellFormed_member`, `wellFormed_index`, `wellFormed_putEntry`: access and writing.
* `wellFormed_stepsOf`: what a comprehension binds.
-/

namespace ExprLang

/-- Results one after the other: the whole is a value if both are. -/
theorem except_bind_eq_ok
    {ε α β : Type}
    {x : Except ε α} {f : α → Except ε β} {b : β} :
    x >>= f = .ok b ↔ ∃ a, x = .ok a ∧ f a = .ok b := by
  cases x with
  | error e => exact ⟨nofun, nofun⟩
  | ok a =>
      constructor
      · exact fun result => ⟨a, rfl, result⟩
      · rintro ⟨_, ⟨⟩, result⟩
        exact result

/-- The whole fails where the first does, or the second after the first. -/
theorem except_bind_eq_error
    {ε α β : Type}
    {x : Except ε α} {f : α → Except ε β} {e : ε} :
    x >>= f = .error e ↔ x = .error e ∨ ∃ a, x = .ok a ∧ f a = .error e := by
  cases x with
  | error e' =>
      constructor
      · rintro ⟨⟩
        exact .inl rfl
      · rintro (⟨⟨⟩⟩ | ⟨_, ⟨⟩, _⟩)
        rfl
  | ok a =>
      constructor
      · exact fun failed => .inr ⟨a, rfl, failed⟩
      · rintro (⟨⟨⟩⟩ | ⟨_, ⟨⟩, failed⟩)
        exact failed

namespace Value

variable {a b v w : Value}

theorem wellFormedItems_iff
    {items : List Value} :
    WellFormedItems items ↔ ∀ v ∈ items, v.WellFormed := by
  induction items with
  | nil => exact ⟨nofun, fun _ => trivial⟩
  | cons v rest ih => rw [WellFormedItems, ih, List.forall_mem_cons]

theorem wellFormedEntries_iff
    {entries : List (Key × Value)} :
    WellFormedEntries entries ↔ ∀ e ∈ entries, keyInRange e.1 ∧ e.2.WellFormed := by
  induction entries with
  | nil => exact ⟨nofun, fun _ => trivial⟩
  | cons e rest ih => rw [WellFormedEntries, ih, List.forall_mem_cons, and_assoc]

theorem wellFormed_list_iff
    {items : List Value} :
    (list items).WellFormed ↔ ∀ v ∈ items, v.WellFormed :=
  wellFormedItems_iff

theorem wellFormed_map_iff
    {entries : List (Key × Value)} :
    (map entries).WellFormed ↔
      Assoc.Distinct Key.same entries ∧ ∀ e ∈ entries, keyInRange e.1 ∧ e.2.WellFormed :=
  and_congr_right fun _ => wellFormedEntries_iff

theorem wellFormed_map_nil : (map []).WellFormed :=
  ⟨trivial, trivial⟩

/-- A key is in range if it is well-formed as a value. -/
theorem wellFormed_toValue_iff
    {k : Key} :
    k.toValue.WellFormed ↔ keyInRange k := by
  cases k <;> rfl

/-- Keys are the same if they are equal as values. -/
theorem same_eq_equals
    (k l : Key) :
    k.same l = k.toValue.equals l.toValue := by
  cases k <;> cases l
  -- Numbers are compared as integers here and as rationals there.
  case int.int | int.uint | uint.int | uint.uint =>
    exact decide_eq_decide.mpr Rat.intCast_inj.symm
  case bool.bool => exact decide_eq_decide.mpr (iff_of_eq (Key.bool.injEq _ _))
  case string.string => exact decide_eq_decide.mpr (iff_of_eq (Key.string.injEq _ _))
  all_goals rfl

/-! ### Operators -/

theorem wellFormed_intResult
    {op : String} {n : Int} {operands : List Int}
    (result : intResult op n operands = .ok v) :
    v.WellFormed := by
  unfold intResult at result
  split at result
  next inRange =>
    cases result
    exact inRange
  · cases result

theorem wellFormed_uintResult
    {op : String} {n : Int} {operands : List Int}
    (result : uintResult op n operands = .ok v) :
    v.WellFormed := by
  unfold uintResult at result
  split at result
  next inRange =>
    cases result
    show n.toNat ≤ maxUInt
    have := inRange.2
    omega
  · cases result

theorem wellFormed_timestampResult
    {op : String} {t : Option Time.Timestamp} {operands : List Operand}
    (result : timestampResult op t operands = .ok v) :
    v.WellFormed := by
  cases t <;> cases result
  trivial

theorem wellFormed_durationResult
    {op : String} {d : Option Time.Duration} {operands : List Operand}
    (result : durationResult op d operands = .ok v) :
    v.WellFormed := by
  cases d <;> cases result
  trivial

theorem wellFormed_add
    (ha : a.WellFormed)
    (hb : b.WellFormed)
    (result : a.add b = .ok v) :
    v.WellFormed := by
  unfold add at result
  split at result
  · exact wellFormed_intResult result
  · exact wellFormed_uintResult result
  case h_10 =>
    cases result
    have items := List.forall_mem_append.mpr
      ⟨wellFormed_list_iff.mp ha, wellFormed_list_iff.mp hb⟩
    exact wellFormed_list_iff.mpr items
  case h_11 => exact wellFormed_timestampResult result
  case h_12 => exact wellFormed_timestampResult result
  case h_13 => exact wellFormed_durationResult result
  all_goals cases result <;> trivial

theorem wellFormed_sub
    (result : a.sub b = .ok v) :
    v.WellFormed := by
  unfold sub at result
  split at result
  · exact wellFormed_intResult result
  · exact wellFormed_uintResult result
  case h_8 => exact wellFormed_durationResult result
  case h_9 => exact wellFormed_timestampResult result
  case h_10 => exact wellFormed_durationResult result
  all_goals cases result <;> trivial

theorem wellFormed_mul
    (result : a.mul b = .ok v) :
    v.WellFormed := by
  unfold mul at result
  split at result
  · exact wellFormed_intResult result
  · exact wellFormed_uintResult result
  all_goals cases result <;> trivial

/-- The quotient of unsigned integers is not checked: it is at most the dividend. -/
theorem wellFormed_div
    (ha : a.WellFormed)
    (result : a.div b = .ok v) :
    v.WellFormed := by
  unfold div at result
  split at result
  · split at result
    · cases result
    · exact wellFormed_intResult result
  · split at result
    · cases result
    · cases result
      exact Nat.le_trans (Nat.div_le_self _ _) ha
  all_goals cases result <;> trivial

/-- A remainder is smaller than its divisor. -/
theorem inIntRange_tmod
    {m n : Int}
    (nonzero : n ≠ 0)
    (inRange : InIntRange n) :
    InIntRange (m.tmod n) := by
  have size : (m.tmod n).natAbs = m.natAbs % n.natAbs := Int.natAbs_tmod m n
  have less : m.natAbs % n.natAbs < n.natAbs := Nat.mod_lt _ (Int.natAbs_pos.mpr nonzero)
  unfold InIntRange minInt maxInt at *
  omega

/-- Remainders are not checked: they are smaller than the divisor. -/
theorem wellFormed_mod
    (ha : a.WellFormed)
    (hb : b.WellFormed)
    (result : a.mod b = .ok v) :
    v.WellFormed := by
  unfold mod at result
  split at result
  · split at result
    · cases result
    next nonzero =>
    split at result
    · cases result
      exact inIntRange_tmod nonzero hb
    · cases result
  · split at result
    · cases result
    · cases result
      exact Nat.le_trans (Nat.mod_le _ _) ha
  · cases result

theorem wellFormed_neg
    (result : a.neg = .ok v) :
    v.WellFormed := by
  unfold neg at result
  split at result
  · exact wellFormed_intResult result
  · cases result
    trivial
  · exact wellFormed_durationResult result
  · cases result

theorem wellFormed_logicalNot
    (result : a.logicalNot = .ok v) :
    v.WellFormed := by
  unfold logicalNot at result
  split at result <;> cases result
  trivial

/-- Truth values that are computed are well-formed. -/
theorem wellFormed_truth
    {α : Type}
    {o : Outcome α} {f : α → Bool}
    (result : (o >>= fun x => pure (.bool (f x)) : Outcome Value) = .ok v) :
    v.WellFormed := by
  cases o <;> cases result
  trivial

/-! ### Access and writing -/

/-- The key of a value is the value. -/
theorem asKey_eq_ok
    {key : Key}
    (isKey : v.asKey = .ok key) :
    v = key.toValue := by
  unfold asKey at isKey
  split at isKey
  next found =>
    cases isKey
    exact toKey?_eq_some_iff.mp found
  · cases isKey

theorem wellFormed_putEntry
    {entries : List (Key × Value)} {key : Key}
    (written : (map entries).WellFormed)
    (inRange : keyInRange key)
    (hv : v.WellFormed) :
    (map (putEntry entries key v)).WellFormed := by
  obtain ⟨distinct, each⟩ := wellFormed_map_iff.mp written
  exact wellFormed_map_iff.mpr
    ⟨Assoc.distinct_put distinct key v, Assoc.forall_mem_put each inRange hv⟩

theorem wellFormed_lookup?
    {entries : List (Key × Value)} {key : Key}
    (hmap : (map entries).WellFormed)
    (found : lookup? key entries = some v) :
    v.WellFormed := by
  obtain ⟨k, member⟩ := Assoc.exists_mem_of_find? found
  exact ((wellFormed_map_iff.mp hmap).2 (k, v) member).2

theorem wellFormed_member
    {field : String}
    (ha : a.WellFormed)
    (result : a.member field = .ok v) :
    v.WellFormed := by
  unfold member at result
  split at result
  · split at result
    next found =>
      cases result
      exact wellFormed_lookup? ha found
    · cases result
  · cases result

theorem mem_of_itemAt
    {α : Type} {items : List α} {position : Int} {item : α}
    (result : itemAt items position = .ok item) :
    item ∈ items := by
  unfold itemAt at result
  split at result
  · cases result
  · split at result
    next found =>
      cases result
      exact List.mem_of_getElem? found
    · cases result

theorem wellFormed_index
    (ha : a.WellFormed)
    (result : a.index b = .ok v) :
    v.WellFormed := by
  unfold index at result
  split at result
  · split at result
    · exact wellFormed_list_iff.mp ha v (mem_of_itemAt result)
    · cases result
  · split at result
    · cases item : itemAt _ _ <;> rw [item] at result <;> cases result
      trivial
    · cases result
  · obtain ⟨key, -, result⟩ := except_bind_eq_ok.mp result
    split at result
    next found =>
      cases result
      exact wellFormed_lookup? ha found
    · cases result
  · cases result

end Value

/-- Whether a list has no more items than a sequence of the host can hold, one less than two to the
63rd. -/
def Value.HostSized : Value → Prop
  | .list items => (items.length : Int) ≤ maxInt
  | _ => True

namespace Eval

open Value

variable {a b v : Value}

theorem wellFormed_applyBinary
    {op : BinaryOp}
    (ha : a.WellFormed)
    (hb : b.WellFormed)
    (result : applyBinary op a b = .ok v) :
    v.WellFormed := by
  cases op with
  | eq | ne =>
      cases result
      trivial
  | lt | le | gt | ge | isIn => exact wellFormed_truth result
  | add => exact wellFormed_add ha hb result
  | sub => exact wellFormed_sub result
  | mul => exact wellFormed_mul result
  | div => exact wellFormed_div ha result
  | mod => exact wellFormed_mod ha hb result
  | and | or =>
      cases isTruth : a.asBool <;> simp only [applyBinary, isTruth] at result
      · cases result
      · exact wellFormed_truth result

/-! ### Comprehensions -/

theorem mem_listSteps
    {single : Bool} {s : Step} {items : List Value} {start : Nat}
    (member : s ∈ listSteps single start items) :
    ∃ position v, v ∈ items ∧ position < start + items.length ∧
      s = ⟨if single then [v] else [.int position, v], v⟩ := by
  induction items generalizing start with
  | nil => cases member
  | cons v rest ih =>
      rcases List.mem_cons.mp member with rfl | member
      · exact ⟨start, v, List.mem_cons_self, by simp, rfl⟩
      · obtain ⟨position, w, inRest, less, rfl⟩ := ih member
        refine ⟨position, w, List.mem_cons_of_mem _ inRest, ?_, rfl⟩
        rw [List.length_cons]
        omega

/-- The values that a comprehension binds, and its elements, are well-formed.  The positions in a
list that the host can hold are in range. -/
theorem wellFormed_stepsOf
    {kind : Comprehension} {single : Bool} {steps : List Step} {s : Step}
    (hv : v.WellFormed)
    (sized : v.HostSized)
    (result : stepsOf kind single v = .ok steps)
    (member : s ∈ steps) :
    (∀ w ∈ s.bound, w.WellFormed) ∧ s.element.WellFormed := by
  unfold stepsOf at result
  split at result
  next items =>
    cases result
    obtain ⟨position, w, inItems, less, rfl⟩ := mem_listSteps member
    have hw := wellFormed_list_iff.mp hv w inItems
    have inRange : (Value.int position).WellFormed := by
      have bound : (items.length : Int) ≤ maxInt := sized
      show minInt ≤ (position : Int) ∧ (position : Int) ≤ maxInt
      unfold minInt
      omega
    refine ⟨?_, hw⟩
    split
    · simpa using hw
    · simpa using ⟨inRange, hw⟩
  next entries =>
    cases result
    obtain ⟨⟨k, w⟩, inEntries, rfl⟩ := List.mem_map.mp member
    obtain ⟨inRange, hw⟩ := (wellFormed_map_iff.mp hv).2 (k, w) inEntries
    have hk := wellFormed_toValue_iff.mpr inRange
    refine ⟨?_, hk⟩
    dsimp only
    split
    · simpa using hk
    · simpa using ⟨hk, hw⟩
  · cases result

end Eval
end ExprLang
