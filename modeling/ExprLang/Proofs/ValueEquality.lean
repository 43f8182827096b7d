import Mathlib.Data.List.Forall2
import Mathlib.Data.List.Perm.Subperm
import ExprLang.Proofs.ValueTrees
import ExprLang.Proofs.WellFormedValues

/-!
# The equality of the language

On well-formed values without undefined numbers equality is an equivalence.  Two values may differ in
nothing but the order in which the entries of maps in them were inserted; equality does not see that.

* `equals_iff_of_atom?`: leaves are equal if they denote the same atom, an undefined number aside.
* `equals_symm`, `equals_trans`, `equals_self`: by induction on the value.
* `Reordered`: the relation that exchanges of entries generate.
* `reordered_list`, `reordered_map`: reordering all parts of a value at once.
* `Reordered.equals_left`: equality does not tell a value from a reordered one.
* `equals_isEquivalence`: the laws of equality.
-/

namespace ExprLang

namespace Number

theorem Extended.same_iff
    {m n : Extended} :
    m.same n = true ↔ m = n ∧ m ≠ .undefined := by
  cases m <;> cases n <;> simp [same]

theorem extended_eq_undefined_iff
    {f : Float} :
    extended f = .undefined ↔ isUndefined f = true := by
  unfold extended dyadic? isUndefined
  by_cases special : exponentBits f = 2047
  · by_cases zero : fractionBits f = 0 <;> simp [special, zero]
  · by_cases small : exponentBits f = 0 <;> simp [special, small]

end Number

/-! ### Keys -/

namespace Key

/-- A key whose number, if it is one, is signed. -/
def signed : Key → Key
  | uint n => int n
  | k => k

theorem same_iff
    {k l : Key} :
    k.same l = true ↔ k.signed = l.signed := by
  cases k <;> cases l <;> simp [same, number?, signed]

theorem same_eq_false_iff
    {k l : Key} :
    k.same l = false ↔ k.signed ≠ l.signed := by
  rw [← Bool.not_eq_true, same_iff]

end Key

namespace Value

variable {a b c : Value} {items as bs cs : List Value} {entries es fs gs : List (Key × Value)}

theorem distinct_iff :
    Assoc.Distinct Key.same entries ↔ (entries.map fun e => e.1.signed).Nodup := by
  induction entries with
  | nil => simp [Assoc.Distinct]
  | cons e rest ih =>
      obtain ⟨k, v⟩ := e
      simp only [Assoc.Distinct, ih, List.map_cons, List.nodup_cons, List.mem_map,
        Key.same_eq_false_iff]
      refine and_congr_left fun _ => ⟨?_, ?_⟩
      · rintro apart ⟨e, member, same⟩
        exact apart e member same.symm
      · intro apart e member same
        exact apart ⟨e, member, same.symm⟩

/-- A value is found under every key that is the same as its own. -/
theorem lookup?_eq_some_iff
    {key : Key} {v : Value}
    (distinct : Assoc.Distinct Key.same entries) :
    lookup? key entries = some v ↔ ∃ e ∈ entries, e.1.signed = key.signed ∧ e.2 = v := by
  induction entries with
  | nil => simp [lookup?, Assoc.find?]
  | cons e rest ih =>
      obtain ⟨k, w⟩ := e
      obtain ⟨apart, distinct⟩ := distinct
      rw [lookup?, Assoc.find?]
      split
      next found =>
        have found := Key.same_iff.mp found
        constructor
        · rintro ⟨⟩
          exact ⟨_, List.mem_cons_self, found, rfl⟩
        · rintro ⟨e, member, same, rfl⟩
          rcases List.mem_cons.mp member with rfl | member
          · rfl
          · exact absurd (found.trans same.symm) (Key.same_eq_false_iff.mp (apart e member))
      next other =>
        have other : k.signed ≠ key.signed := fun same => other (Key.same_iff.mpr same)
        refine (ih distinct).trans ⟨?_, ?_⟩
        · rintro ⟨e, member, found⟩
          exact ⟨e, List.mem_cons_of_mem _ member, found⟩
        · rintro ⟨e, member, same, value⟩
          rcases List.mem_cons.mp member with rfl | member
          · exact absurd same other
          · exact ⟨e, member, same, value⟩

theorem exists_mem_of_lookup?
    {key : Key} {v : Value}
    (found : lookup? key entries = some v) :
    ∃ e ∈ entries, e.1.signed = key.signed ∧ e.2 = v := by
  induction entries with
  | nil => cases found
  | cons e rest ih =>
      rw [lookup?, Assoc.find?] at found
      split at found
      next same =>
        exact ⟨e, List.mem_cons_self, Key.same_iff.mp same, Option.some.inj found⟩
      · obtain ⟨e, member, same⟩ := ih found
        exact ⟨e, List.mem_cons_of_mem _ member, same⟩

theorem lookup?_congr
    {k l : Key}
    (same : k.signed = l.signed) :
    lookup? k entries = lookup? l entries := by
  induction entries with
  | nil => rfl
  | cons e rest ih =>
      have agree : e.1.same k = e.1.same l := by
        rw [Bool.eq_iff_iff, Key.same_iff, Key.same_iff, same]
      simp only [lookup?, Assoc.find?, agree] at ih ⊢
      rw [ih]

/-! ### Leaves, lists and maps -/

theorem number?_of_atom?
    {x : Number.Extended}
    (leaf : a.atom? = some (.number x)) :
    a.number? = some x := by
  cases a <;> cases leaf <;> rfl

theorem number?_float_ne_undefined
    {f : Float}
    (defined : Number.isUndefined f = false) :
    (float f).number? ≠ some .undefined := by
  intro number
  rw [Number.extended_eq_undefined_iff.mp (Option.some.inj number)] at defined
  cases defined

theorem atom?_of_number?
    {x : Number.Extended}
    (number : a.number? = some x) :
    a.atom? = some (.number x) := by
  cases a <;> cases number <;> rfl

/-- Leaves are equal if they denote the same, unless that is no number. -/
theorem equals_iff_of_atom?
    {x y : Atom}
    (ha : a.atom? = some x)
    (hb : b.atom? = some y) :
    a.equals b = true ↔ x = y ∧ x ≠ .number .undefined := by
  cases a <;> cases ha <;> cases b <;> cases hb <;>
    simp [equals, number?, Number.Extended.same_iff]

theorem equalItems_iff :
    equalItems as bs = true ↔ List.Forall₂ (fun a b => a.equals b = true) as bs := by
  induction as generalizing bs with
  | nil => cases bs <;> simp [equalItems]
  | cons a as ih => cases bs <;> simp [equalItems, ih]

theorem equalEntries_iff :
    equalEntries es fs = true ↔
      ∀ e ∈ es, ∃ w, lookup? e.1 fs = some w ∧ e.2.equals w = true := by
  induction es with
  | nil => simp [equalEntries]
  | cons e es ih =>
      obtain ⟨k, v⟩ := e
      rw [equalEntries, List.forall_mem_cons, ← ih]
      cases lookup? k fs <;> simp

theorem equals_map_iff :
    (map es).equals (map fs) = true ↔
      es.length = fs.length ∧ ∀ e ∈ es, ∃ w, lookup? e.1 fs = some w ∧ e.2.equals w = true := by
  rw [equals, Bool.and_eq_true, decide_eq_true_iff, equalEntries_iff]

/-- Equal values are both leaves, both lists or both maps. -/
theorem equals_cases
    (equal : a.equals b = true) :
    (∃ x, a.atom? = some x ∧ b.atom? = some x ∧ x ≠ .number .undefined) ∨
      (∃ as bs, a = list as ∧ b = list bs ∧
        List.Forall₂ (fun a b => a.equals b = true) as bs) ∨
      ∃ es fs, a = map es ∧ b = map fs ∧ (map es).equals (map fs) = true := by
  cases ha : a.atom? with
  | some x =>
      cases hb : b.atom? with
      | some y =>
          obtain ⟨rfl, defined⟩ := (equals_iff_of_atom? ha hb).mp equal
          exact .inl ⟨x, rfl, rfl, defined⟩
      | none => cases a <;> cases ha <;> cases b <;> cases hb <;> cases equal
  | none =>
      cases a <;> cases ha
      · cases b
        case list => exact .inr (.inl ⟨_, _, rfl, rfl, equalItems_iff.mp equal⟩)
        all_goals cases equal
      · cases b
        case map => exact .inr (.inr ⟨_, _, rfl, rfl, equal⟩)
        all_goals cases equal

/-! ### The laws -/

/-- Distinct keys that are all found among as many others leave none of those out. -/
theorem exists_same_of_covered
    (distinct : Assoc.Distinct Key.same es)
    (length : es.length = fs.length)
    (covered : ∀ e ∈ es, ∃ f ∈ fs, f.1.signed = e.1.signed) :
    ∀ f ∈ fs, ∃ e ∈ es, e.1.signed = f.1.signed := by
  have subset : es.map (fun e => e.1.signed) ⊆ fs.map fun f => f.1.signed := by
    intro k member
    obtain ⟨e, inside, rfl⟩ := List.mem_map.mp member
    obtain ⟨f, inside', same⟩ := covered e inside
    exact List.mem_map.mpr ⟨f, inside', same⟩
  have perm := (List.Nodup.subperm (distinct_iff.mp distinct) subset).perm_of_length_le
    (by simp [length])
  intro f member
  exact List.mem_map.mp (perm.mem_iff.mpr (List.mem_map_of_mem member))

theorem equals_map_symm
    (hes : (map es).WellFormed)
    (hfs : (map fs).WellFormed)
    (swap : ∀ e ∈ es, ∀ f ∈ fs, e.2.equals f.2 = true → f.2.equals e.2 = true)
    (equal : (map es).equals (map fs) = true) :
    (map fs).equals (map es) = true := by
  obtain ⟨length, each⟩ := equals_map_iff.mp equal
  have found : ∀ e ∈ es, ∃ f ∈ fs, f.1.signed = e.1.signed ∧ e.2.equals f.2 = true := by
    intro e member
    obtain ⟨w, found, equal⟩ := each e member
    obtain ⟨f, inside, same, rfl⟩ := (lookup?_eq_some_iff hfs.1).mp found
    exact ⟨f, inside, same, equal⟩
  have covered := exists_same_of_covered hes.1 length fun e member => by
    obtain ⟨f, inside, same, -⟩ := found e member
    exact ⟨f, inside, same⟩
  refine equals_map_iff.mpr ⟨length.symm, fun f inside => ?_⟩
  obtain ⟨e, member, same⟩ := covered f inside
  obtain ⟨f', inside', same', equal⟩ := found e member
  -- The keys of `f` and `f'` are the same, so they are one entry.
  have one : f'.2 = f.2 := Option.some.inj <|
    ((lookup?_eq_some_iff hfs.1).mpr ⟨f', inside', same'.trans same, rfl⟩).symm.trans
      ((lookup?_eq_some_iff hfs.1).mpr ⟨f, inside, rfl, rfl⟩)
  exact ⟨e.2, (lookup?_eq_some_iff hes.1).mpr ⟨e, member, same, rfl⟩,
    swap e member f inside (one ▸ equal)⟩

theorem equals_list_symm
    (swap : ∀ a ∈ as, ∀ b ∈ bs, a.equals b = true → b.equals a = true)
    (equal : List.Forall₂ (fun a b => a.equals b = true) as bs) :
    List.Forall₂ (fun b a => b.equals a = true) bs as := by
  induction equal with
  | nil => exact .nil
  | cons first _ ih =>
      refine .cons (swap _ List.mem_cons_self _ List.mem_cons_self first) (ih ?_)
      exact fun a member b member' =>
        swap a (List.mem_cons_of_mem _ member) b (List.mem_cons_of_mem _ member')

/-- Equality of well-formed values is symmetric. -/
theorem equals_symm
    (ha : a.WellFormed)
    (hb : b.WellFormed)
    (equal : a.equals b = true) :
    b.equals a = true := by
  induction a using Value.induction generalizing b with
  | leaf a x leaf =>
      rcases equals_cases equal with ⟨y, hay, hby, defined⟩ | ⟨_, _, rfl, -⟩ | ⟨_, _, rfl, -⟩
      · exact (equals_iff_of_atom? hby hay).mpr ⟨rfl, defined⟩
      · cases leaf
      · cases leaf
  | list as ih =>
      rcases equals_cases equal with ⟨_, leaf, -⟩ | ⟨_, bs, ⟨⟩, rfl, each⟩ | ⟨_, _, ⟨⟩, -⟩
      · cases leaf
      · have ha := wellFormed_list_iff.mp ha
        have hb := wellFormed_list_iff.mp hb
        exact equalItems_iff.mpr <| equals_list_symm
          (fun a member b member' => ih a member (ha a member) (hb b member')) each
  | map es ih =>
      rcases equals_cases equal with ⟨_, leaf, -⟩ | ⟨_, _, ⟨⟩, -⟩ | ⟨_, fs, ⟨⟩, rfl, -⟩
      · cases leaf
      · refine equals_map_symm ha hb (fun e he f hf => ?_) equal
        exact ih e he ((wellFormed_map_iff.mp ha).2 e he).2 ((wellFormed_map_iff.mp hb).2 f hf).2

theorem equals_comm
    (ha : a.WellFormed)
    (hb : b.WellFormed) :
    a.equals b = b.equals a :=
  Bool.eq_iff_iff.mpr ⟨equals_symm ha hb, equals_symm hb ha⟩

theorem equals_list_trans
    (step : ∀ a ∈ as, ∀ {b c}, a.equals b = true → b.equals c = true → a.equals c = true)
    (hab : List.Forall₂ (fun a b => a.equals b = true) as bs)
    (hbc : List.Forall₂ (fun b c => b.equals c = true) bs cs) :
    List.Forall₂ (fun a c => a.equals c = true) as cs := by
  induction hab generalizing cs with
  | nil =>
      cases hbc
      exact .nil
  | cons first _ ih =>
      cases hbc with
      | cons next more =>
          have step := List.forall_mem_cons.mp step
          exact .cons (step.1 first next) (ih step.2 more)

/-- Equality is transitive, also across the types of numbers. -/
theorem equals_trans
    (hab : a.equals b = true)
    (hbc : b.equals c = true) :
    a.equals c = true := by
  induction a using Value.induction generalizing b c with
  | leaf a x leaf =>
      rcases equals_cases hab with ⟨y, hay, hby, defined⟩ | ⟨_, _, rfl, -⟩ | ⟨_, _, rfl, -⟩
      · rcases equals_cases hbc with ⟨z, hbz, hcz, -⟩ | ⟨_, _, rfl, -⟩ | ⟨_, _, rfl, -⟩
        · rw [hby, Option.some.injEq] at hbz
          exact (equals_iff_of_atom? hay (hbz ▸ hcz)).mpr ⟨rfl, defined⟩
        · cases hby
        · cases hby
      · cases leaf
      · cases leaf
  | list as ih =>
      rcases equals_cases hab with ⟨_, leaf, -⟩ | ⟨_, bs, ⟨⟩, rfl, items⟩ | ⟨_, _, ⟨⟩, -⟩
      · cases leaf
      rcases equals_cases hbc with ⟨_, leaf, -⟩ | ⟨_, cs, ⟨⟩, rfl, items'⟩ | ⟨_, _, ⟨⟩, -⟩
      · cases leaf
      exact equalItems_iff.mpr (equals_list_trans ih items items')
  | map es ih =>
      rcases equals_cases hab with ⟨_, leaf, -⟩ | ⟨_, _, ⟨⟩, -⟩ | ⟨_, fs, ⟨⟩, rfl, -⟩
      · cases leaf
      rcases equals_cases hbc with ⟨_, leaf, -⟩ | ⟨_, _, ⟨⟩, -⟩ | ⟨_, gs, ⟨⟩, rfl, -⟩
      · cases leaf
      obtain ⟨length, each⟩ := equals_map_iff.mp hab
      obtain ⟨length', each'⟩ := equals_map_iff.mp hbc
      refine equals_map_iff.mpr ⟨length.trans length', fun e member => ?_⟩
      obtain ⟨w, found, equal⟩ := each e member
      obtain ⟨f, inside, same, rfl⟩ := exists_mem_of_lookup? found
      obtain ⟨u, found', equal'⟩ := each' f inside
      exact ⟨u, (lookup?_congr same.symm).trans found', ih e member equal equal'⟩

/-- Whether every float in a value is a number. -/
def Defined (v : Value) : Prop :=
  v.Leaves fun leaf => leaf.number? ≠ some .undefined

/-- Equality is reflexive where every float is a number. -/
theorem equals_self
    (wellFormed : a.WellFormed)
    (defined : a.Defined) :
    a.equals a = true := by
  induction a using Value.induction with
  | leaf a x leaf =>
      have defined := (leaves_of_atom? leaf).mp defined
      exact (equals_iff_of_atom? leaf leaf).mpr
        ⟨rfl, fun h => defined (number?_of_atom? (h ▸ leaf))⟩
  | list as ih =>
      have wellFormed := wellFormed_list_iff.mp wellFormed
      have defined := leaves_list_iff.mp defined
      refine equalItems_iff.mpr (List.forall₂_same.mpr fun a member => ?_)
      exact ih a member (wellFormed a member) (defined a member)
  | map es ih =>
      have distinct := wellFormed.1
      have wellFormed := (wellFormed_map_iff.mp wellFormed).2
      have defined := leaves_map_iff.mp defined
      refine equals_map_iff.mpr ⟨rfl, fun e member => ⟨e.2, ?_, ?_⟩⟩
      · exact (lookup?_eq_some_iff distinct).mpr ⟨e, member, rfl, rfl⟩
      · exact ih e member (wellFormed e member).2 (defined e member)

/-! ### The order of entries -/

section Reordering

/-- The entries of maps, at any depth, have been brought into another order. -/
inductive Reordered : Value → Value → Prop
  | refl (v : Value) : Reordered v v
  | entries {es fs : List (Key × Value)} :
      es.Perm fs → Reordered (map es) (map fs)
  | item {v w : Value} (before after : List Value) :
      Reordered v w →
      Reordered (list (before ++ v :: after)) (list (before ++ w :: after))
  | value {v w : Value} (before after : List (Key × Value)) (k : Key) :
      Reordered v w →
      Reordered (map (before ++ (k, v) :: after)) (map (before ++ (k, w) :: after))
  | trans {u v w : Value} : Reordered u v → Reordered v w → Reordered u w

variable {v w : Value}

/-- The items of a list may all be reordered at once. -/
theorem reordered_list
    (each : List.Forall₂ Reordered as bs) :
    Reordered (list as) (list bs) := by
  suffices onto : ∀ before, Reordered (list (before ++ as)) (list (before ++ bs)) from onto []
  induction each with
  | nil => exact fun _ => .refl _
  | @cons a b as bs first _ ih =>
      intro before
      have more := ih (before ++ [b])
      rw [List.append_assoc, List.append_assoc] at more
      exact .trans (.item before as first) more

/-- The values of a map may all be reordered at once. -/
theorem reordered_map
    (each : List.Forall₂ (fun e f => e.1 = f.1 ∧ Reordered e.2 f.2) es fs) :
    Reordered (map es) (map fs) := by
  suffices onto : ∀ before, Reordered (map (before ++ es)) (map (before ++ fs)) from onto []
  induction each with
  | nil => exact fun _ => .refl _
  | @cons e f es fs first _ ih =>
      obtain ⟨k, v⟩ := e
      obtain ⟨l, w⟩ := f
      obtain ⟨rfl, first⟩ := first
      intro before
      have more := ih (before ++ [(k, w)])
      rw [List.append_assoc, List.append_assoc] at more
      exact .trans (.value before es k first) more

theorem Reordered.wellFormed
    (reordered : Reordered v w)
    (wellFormed : v.WellFormed) :
    w.WellFormed := by
  induction reordered with
  | refl => exact wellFormed
  | entries perm =>
      rw [wellFormed_map_iff, distinct_iff] at wellFormed ⊢
      exact ⟨(perm.map _).nodup_iff.mp wellFormed.1,
        fun e member => wellFormed.2 e (perm.mem_iff.mpr member)⟩
  | item before after _ ih =>
      rw [wellFormed_list_iff, List.forall_mem_append, List.forall_mem_cons] at wellFormed ⊢
      exact ⟨wellFormed.1, ih wellFormed.2.1, wellFormed.2.2⟩
  | value before after k _ ih =>
      rw [wellFormed_map_iff, distinct_iff, List.forall_mem_append, List.forall_mem_cons,
        List.map_append, List.map_cons] at wellFormed ⊢
      obtain ⟨distinct, others, here, more⟩ := wellFormed
      exact ⟨distinct, others, ⟨here.1, ih here.2⟩, more⟩
  | trans _ _ first second => exact second (first wellFormed)

theorem equalItems_replace
    (agree : ∀ a, v.equals a = w.equals a)
    (before after other : List Value) :
    equalItems (before ++ v :: after) other = equalItems (before ++ w :: after) other := by
  induction before generalizing other with
  | nil => cases other <;> simp [equalItems, agree]
  | cons b before ih => cases other <;> simp [equalItems, ih]

/-- Equality to a given value does not see the order of entries. -/
theorem Reordered.equals_left
    (reordered : Reordered v w)
    (a : Value) :
    v.equals a = w.equals a := by
  induction reordered generalizing a with
  | refl => rfl
  | entries perm =>
      cases a
      case map other =>
        rw [Bool.eq_iff_iff, equals_map_iff, equals_map_iff, perm.length_eq]
        exact and_congr_right fun _ => forall_congr' fun e => by rw [perm.mem_iff]
      all_goals rfl
  | item before after _ ih =>
      cases a
      case list other => exact equalItems_replace ih before after other
      all_goals rfl
  | value before after k _ ih =>
      cases a
      case map other =>
        rw [Bool.eq_iff_iff, equals_map_iff, equals_map_iff]
        simp only [List.forall_mem_append, List.forall_mem_cons, List.length_append,
          List.length_cons, ih]
      all_goals rfl
  | trans _ _ first second => exact (first a).trans (second a)

end Reordering

/-! ### The laws -/

/-- Equality is an equivalence on well-formed values whose floats are numbers: numbers of all types
are compared exactly, and the order of the entries of maps does not matter. -/
theorem equals_isEquivalence
    {a b c a' b' : Value}
    (ha : a.WellFormed)
    (hb : b.WellFormed)
    (reordered : Reordered a a')
    (reordered' : Reordered b b') :
    (a.equals b = true → b.equals a = true) ∧
      (a.equals b = true → b.equals c = true → a.equals c = true) ∧
      (a.Defined → a.equals a = true) ∧
      (∀ m n, a.number? = some m → b.number? = some n →
        (a.equals b = true ↔ m = n ∧ m ≠ .undefined)) ∧
      a'.equals b' = a.equals b := by
  refine ⟨equals_symm ha hb, equals_trans, equals_self ha, fun m n hm hn => ?_, ?_⟩
  · rw [equals_iff_of_atom? (atom?_of_number? hm) (atom?_of_number? hn)]
    simp
  · calc a'.equals b'
        = a.equals b' := (reordered.equals_left b').symm
      _ = b'.equals a := equals_comm ha (reordered'.wellFormed hb)
      _ = b.equals a := (reordered'.equals_left a).symm
      _ = a.equals b := equals_comm hb ha

/-- Two to the 53rd as integer, unsigned integer and float, alone and in maps with their entries in
different orders. -/
theorem equals_isEquivalence_numbers :
    let a := map [(.int 1, float 9007199254740992), (.string "k", list [uint 9007199254740992])]
    let a' := map [(.string "k", list [uint 9007199254740992]), (.int 1, float 9007199254740992)]
    let b := map [(.string "k", list [int 9007199254740992]), (.uint 1, uint 9007199254740992)]
    let c := map [(.uint 1, int 9007199254740992), (.string "k", list [float 9007199254740992])]
    (b.equals a = true ∧ a.equals c = true ∧ a.equals a = true ∧ a'.equals b = true) ∧
      (int 9007199254740992).equals (uint 9007199254740992) = true := by
  intro a a' b c
  have hab : a.equals b = true := by decide +kernel
  have hbc : b.equals c = true := by decide +kernel
  have laws := @equals_isEquivalence a b c a' b
    (by simp [a, WellFormed, WellFormedEntries, WellFormedItems, keyInRange, InIntRange, minInt,
      maxInt, maxUInt, Assoc.Distinct, Key.same, Key.number?])
    (by simp [b, WellFormed, WellFormedEntries, WellFormedItems, keyInRange, InIntRange, minInt,
      maxInt, maxUInt, Assoc.Distinct, Key.same, Key.number?])
    (.entries (.swap _ _ _)) (.refl b)
  have defined : a.Defined := by
    refine ⟨number?_float_ne_undefined (by decide +kernel), ⟨?_, trivial⟩, trivial⟩
    simp [Leaves, number?]
  have numbers := @equals_isEquivalence (int 9007199254740992) (uint 9007199254740992) null _ _
    (show InIntRange _ by decide) (show _ ≤ maxUInt by decide) (.refl _) (.refl _)
  exact ⟨⟨laws.1 hab, laws.2.1 hab hbc, laws.2.2.1 defined, laws.2.2.2.2.trans hab⟩,
    (numbers.2.2.2.1 _ _ rfl rfl).mpr ⟨rfl, by simp⟩⟩

end Value
end ExprLang
