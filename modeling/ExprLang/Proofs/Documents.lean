import Mathlib.Data.List.Sort
import ExprLang.Document

/-!
# Documents as trees

* `Document.induction`: induction over the documents that a document holds.
* `Everywhere`: properties of all documents in a document.
* `Regular`: what a document is made of that a text can hold and a value can be read from.
* `mergeSort_eq_of_perm`: members with different names have one order.
* `sorted_sorted`, `everywhere_sorted`: sorting a document.
-/

namespace ExprLang
namespace Document

variable {items : List Document} {members ms ns : List (String × Document)}

theorem induction
    {P : Document → Prop}
    (null : P null)
    (bool : ∀ b, P (bool b))
    (int : ∀ n, P (int n))
    (float : ∀ f, P (float f))
    (string : ∀ s, P (string s))
    (array : ∀ items, (∀ d ∈ items, P d) → P (array items))
    (object : ∀ members, (∀ m ∈ members, P m.2) → P (object members))
    (d : Document) :
    P d :=
  @Document.rec P (fun items => ∀ d ∈ items, P d) (fun members => ∀ m ∈ members, P m.2)
    (fun m => P m.2)
    null bool int float string array object
    nofun (fun _ _ first others => List.forall_mem_cons.mpr ⟨first, others⟩)
    nofun (fun _ _ first others => List.forall_mem_cons.mpr ⟨first, others⟩)
    (fun _ _ content => content) d

/-! ### Properties of all parts -/

mutual

/-- Whether a property holds of a document and of every document in it. -/
def Everywhere (P : Document → Prop) : Document → Prop
  | array items => P (array items) ∧ EverywhereItems P items
  | object members => P (object members) ∧ EverywhereMembers P members
  | d => P d

/-- Whether a property holds everywhere in the items of an array. -/
def EverywhereItems (P : Document → Prop) : List Document → Prop
  | [] => True
  | d :: rest => Everywhere P d ∧ EverywhereItems P rest

/-- Whether a property holds everywhere in the members of an object. -/
def EverywhereMembers (P : Document → Prop) : List (String × Document) → Prop
  | [] => True
  | (_, d) :: rest => Everywhere P d ∧ EverywhereMembers P rest

end

theorem everywhere_array_iff
    {P : Document → Prop} :
    (array items).Everywhere P ↔ P (array items) ∧ ∀ d ∈ items, d.Everywhere P := by
  suffices each : EverywhereItems P items ↔ ∀ d ∈ items, d.Everywhere P by rw [Everywhere, each]
  induction items with
  | nil => exact ⟨nofun, fun _ => trivial⟩
  | cons d rest ih => rw [EverywhereItems, ih, List.forall_mem_cons]

theorem everywhere_object_iff
    {P : Document → Prop} :
    (object members).Everywhere P ↔ P (object members) ∧ ∀ m ∈ members, m.2.Everywhere P := by
  suffices each : EverywhereMembers P members ↔ ∀ m ∈ members, m.2.Everywhere P by
    rw [Everywhere, each]
  induction members with
  | nil => exact ⟨nofun, fun _ => trivial⟩
  | cons m rest ih => rw [EverywhereMembers, ih, List.forall_mem_cons]

/-- Integers are those that values have, floats are finite and members have different names. -/
def Regular : Document → Prop
  | int n => minInt ≤ n ∧ n ≤ maxUInt
  | float f => ∃ d, Number.dyadic? f = some d
  | object members => (members.map Prod.fst).Nodup
  | _ => True

theorem ofFloat_of_dyadic
    {f : Float} {e : Number.Dyadic}
    (finite : Number.dyadic? f = some e) :
    ofFloat f = float f := by
  rw [ofFloat, Number.isUndefined_of_dyadic finite, Number.isInfinite_of_dyadic finite]
  rfl

/-- Floats are what is read from their text. -/
def ReadsBack : Document → Prop
  | float f => Number.readFloat? (Number.floatText f).toList = some f
  | _ => True

/-! ### The order of members -/

/-- Whether a member may stand before another. -/
def byName (a b : String × Document) : Bool :=
  !(b.1 < a.1)

theorem byName_iff
    {a b : String × Document} :
    byName a b = true ↔ a.1 ≤ b.1 := by
  rw [byName, Bool.not_eq_true', decide_eq_false_iff_not]
  exact String.not_lt

theorem pairwise_mergeSort
    (members : List (String × Document)) :
    (members.mergeSort byName).Pairwise fun a b => byName a b = true := by
  refine List.pairwise_mergeSort (fun a b c => ?_) (fun a b => ?_) members
  · rw [byName_iff, byName_iff, byName_iff]
    exact String.le_trans
  · rw [Bool.or_eq_true, byName_iff, byName_iff]
    exact String.le_total a.1 b.1

/-- Members with different names can be sorted in one way only. -/
theorem mergeSort_eq_of_perm
    (distinct : (ms.map Prod.fst).Nodup)
    (perm : ms.Perm ns) :
    ms.mergeSort byName = ns.mergeSort byName := by
  have sameMembers : (ms.mergeSort byName).Perm (ns.mergeSort byName) :=
    ((List.mergeSort_perm ms byName).trans perm).trans (List.mergeSort_perm ns byName).symm
  refine List.Perm.eq_of_pairwise (fun a b inMs inNs le ge => ?_)
    (pairwise_mergeSort ms) (pairwise_mergeSort ns) sameMembers
  have name : a.1 = b.1 := String.le_antisymm (byName_iff.mp le) (byName_iff.mp ge)
  rw [List.mem_mergeSort] at inMs inNs
  exact List.inj_on_of_nodup_map distinct inMs (perm.mem_iff.mpr inNs) name

/-! ### Sorting -/

/-- A member with its content sorted. -/
def sortedMember (m : String × Document) : String × Document :=
  (m.1, m.2.sorted)

theorem sorted_array
    (items : List Document) :
    (array items).sorted = array (items.map sorted) := by
  rw [sorted]
  congr 1
  induction items with
  | nil => rfl
  | cons d rest ih => rw [sortedItems, ih, List.map_cons]

theorem sorted_object
    (members : List (String × Document)) :
    (object members).sorted = object ((members.map sortedMember).mergeSort byName) := by
  have each : sortedMembers members = members.map sortedMember := by
    induction members with
    | nil => rfl
    | cons m rest ih => rw [sortedMembers, ih, List.map_cons, sortedMember]
  rw [sorted, each]
  rfl

theorem map_sortedMember_mergeSort
    (members : List (String × Document)) :
    (members.mergeSort byName).map sortedMember = (members.map sortedMember).mergeSort byName :=
  List.map_mergeSort fun _ _ _ _ => rfl

/-- Sorting leaves a sorted document as it is. -/
theorem sorted_sorted
    (d : Document) :
    d.sorted.sorted = d.sorted := by
  induction d using induction with
  | null | bool | int | float | string => rfl
  | array items ih =>
      rw [sorted_array, sorted_array, List.map_map]
      exact congrArg array (List.map_congr_left ih)
  | object members ih =>
      have each : (members.map sortedMember).map sortedMember = members.map sortedMember := by
        rw [List.map_map]
        exact List.map_congr_left fun m member => congrArg (m.1, ·) (ih m member)
      rw [sorted_object, sorted_object, map_sortedMember_mergeSort, each,
        List.mergeSort_of_pairwise (pairwise_mergeSort _)]

/-- What holds everywhere still does after sorting if sorting one document keeps it. -/
theorem everywhere_sorted
    {P : Document → Prop} {d : Document}
    (kept : ∀ d, P d → P d.sorted)
    (h : d.Everywhere P) :
    d.sorted.Everywhere P := by
  induction d using induction with
  | null | bool | int | float | string => exact h
  | array items ih =>
      obtain ⟨here, each⟩ := everywhere_array_iff.mp h
      have first := kept _ here
      rw [sorted_array] at first ⊢
      refine everywhere_array_iff.mpr ⟨first, fun e member => ?_⟩
      obtain ⟨d, inside, rfl⟩ := List.mem_map.mp member
      exact ih d inside (each d inside)
  | object members ih =>
      obtain ⟨here, each⟩ := everywhere_object_iff.mp h
      have first := kept _ here
      rw [sorted_object] at first ⊢
      refine everywhere_object_iff.mpr ⟨first, fun e member => ?_⟩
      obtain ⟨m, inside, rfl⟩ := List.mem_map.mp (List.mem_mergeSort.mp member)
      exact ih m inside (each m inside)

theorem names_sortedMembers
    (members : List (String × Document)) :
    (members.map sortedMember).map Prod.fst = members.map Prod.fst := by
  rw [List.map_map]
  rfl

theorem names_sorted_perm
    (members : List (String × Document)) :
    (((members.map sortedMember).mergeSort byName).map Prod.fst).Perm (members.map Prod.fst) :=
  names_sortedMembers members ▸ (List.mergeSort_perm _ byName).map Prod.fst

theorem Regular.sorted
    (d : Document)
    (regular : d.Regular) :
    d.sorted.Regular := by
  cases d with
  | object members =>
      rw [sorted_object]
      exact (names_sorted_perm members).nodup_iff.mpr regular
  | array items =>
      rw [sorted_array]
      trivial
  | null | bool | int | float | string => exact regular

theorem ReadsBack.sorted
    (d : Document)
    (reads : d.ReadsBack) :
    d.sorted.ReadsBack := by
  cases d with
  | object members =>
      rw [sorted_object]
      trivial
  | array items =>
      rw [sorted_array]
      trivial
  | null | bool | int | float | string => exact reads

end Document
end ExprLang
