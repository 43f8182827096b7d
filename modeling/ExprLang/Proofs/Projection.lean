import ExprLang.Proofs.Documents
import ExprLang.Proofs.HostReading
import ExprLang.Proofs.ValueEquality

/-!
# Values and their documents

Projecting a value and reading a value from a document go part by part.

* `projects_list_iff`, `projects_map_iff`: what lists and maps are projected on.
* `yields_array_iff`, `yields_object_iff`: what is read from arrays and objects.
* `exists_yields`: a regular document is read as a value whose projection it is.
* `exists_yields_sorted`: sorting a document reorders the value.
* `Projects.regular`: projections of well-formed values are regular.
* `Portable.exists_projects`: the values that are read from their own projections.
* `Reordered.exists_projects`: reordering a value does not change the sorted document.
-/

namespace ExprLang

/-! ### Projecting lists and maps -/

namespace Value

variable {v w : Value} {d : Document}
variable {items : List Value} {entries : List (Key × Value)}
variable {ds : List Document} {members : List (String × Document)}

/-- A value and the document that it is projected on. -/
def Projects (v : Value) (d : Document) : Prop :=
  v.toDocument = .ok d

/-- An entry of a map and the member that it becomes. -/
def ProjectsEntry (e : Key × Value) (m : String × Document) : Prop :=
  e.1.memberName = m.1 ∧ Projects e.2 m.2

theorem toDocuments_eq_mapM
    (items : List Value) :
    toDocuments items = items.mapM toDocument := by
  induction items with
  | nil => rfl
  | cons v items ih => rw [toDocuments, ih, List.mapM_cons]

theorem toDocuments_eq_ok_iff :
    toDocuments items = .ok ds ↔ List.Forall₂ Projects items ds := by
  rw [toDocuments_eq_mapM, mapM_eq_ok_iff]
  rfl

theorem toMembers_eq_ok_iff
    {taken : List String} :
    toMembers taken entries = .ok members ↔
      List.Forall₂ ProjectsEntry entries members ∧
        (members.map Prod.fst).Nodup ∧ ∀ m ∈ members, m.1 ∉ taken := by
  induction entries generalizing taken members with
  | nil => cases members <;> simp [toMembers]
  | cons e entries ih =>
      obtain ⟨k, v⟩ := e
      rw [toMembers, List.forall₂_cons_left_iff]
      by_cases used : k.memberName ∈ taken
      · rw [if_pos (List.contains_iff_mem.mpr used)]
        refine ⟨nofun, ?_⟩
        rintro ⟨⟨⟨name, d⟩, rest, ⟨rfl : k.memberName = name, -⟩, -, rfl⟩, -, new⟩
        exact absurd used (new _ List.mem_cons_self)
      · rw [if_neg (mt List.contains_iff_mem.mp used)]
        simp only [except_bind_eq_ok, ih]
        constructor
        · rintro ⟨d, first, rest, ⟨others, distinct, new⟩, ⟨⟩⟩
          obtain ⟨apart, fresh⟩ : k.memberName ∉ rest.map Prod.fst ∧ ∀ m ∈ rest, m.1 ∉ taken := by
            simp only [List.mem_cons, not_or] at new
            refine ⟨fun member => ?_, fun m inside => (new m inside).2⟩
            obtain ⟨m, inside, same⟩ := List.mem_map.mp member
            exact (new m inside).1 same
          exact ⟨⟨(k.memberName, d), rest, ⟨rfl, first⟩, others, rfl⟩,
            List.nodup_cons.mpr ⟨apart, distinct⟩, List.forall_mem_cons.mpr ⟨used, fresh⟩⟩
        · rintro ⟨⟨⟨name, d⟩, rest, ⟨rfl : k.memberName = name, first⟩, others, rfl⟩, distinct, new⟩
          obtain ⟨apart, distinct⟩ := List.nodup_cons.mp distinct
          refine ⟨d, first, rest, ⟨others, distinct, fun m inside => ?_⟩, rfl⟩
          rw [List.mem_cons, not_or]
          exact ⟨fun same => apart (List.mem_map.mpr ⟨m, inside, same⟩),
            new m (List.mem_cons_of_mem _ inside)⟩

theorem projects_list_iff :
    Projects (list items) d ↔ ∃ ds, d = .array ds ∧ List.Forall₂ Projects items ds := by
  simp only [Projects, toDocument, except_bind_eq_ok, toDocuments_eq_ok_iff]
  constructor
  · rintro ⟨ds, each, ⟨⟩⟩
    exact ⟨ds, rfl, each⟩
  · rintro ⟨ds, rfl, each⟩
    exact ⟨ds, each, rfl⟩

theorem projects_map_iff :
    Projects (map entries) d ↔ ∃ members, d = .object members ∧
      (members.map Prod.fst).Nodup ∧ List.Forall₂ ProjectsEntry entries members := by
  simp only [Projects, toDocument, except_bind_eq_ok, toMembers_eq_ok_iff]
  constructor
  · rintro ⟨members, ⟨each, distinct, -⟩, ⟨⟩⟩
    exact ⟨members, rfl, distinct, each⟩
  · rintro ⟨members, rfl, distinct, each⟩
    exact ⟨members, ⟨each, distinct, fun _ _ => List.not_mem_nil⟩, rfl⟩

end Value

/-! ### Reading arrays and objects -/

namespace Document

variable {v w : Value} {d : Document}
variable {vs : List Value} {es : List (Key × Value)}
variable {items : List Document} {members : List (String × Document)}

/-- A document and the value that is read from it. -/
def Yields (d : Document) (v : Value) : Prop :=
  d.toValue = .ok v

/-- A member of an object and the entry that is read from it. -/
def YieldsEntry (m : String × Document) (e : Key × Value) : Prop :=
  e.1 = .string m.1 ∧ Yields m.2 e.2

/-- The entry that holds a member of an object. -/
def toHostMember (m : String × Document) : HostObject × HostObject :=
  (.text m.1, m.2.toHost)

theorem toHost_array :
    (array items).toHost = .list (items.map toHost) := by
  rw [toHost]
  congr 1
  induction items with
  | nil => rfl
  | cons d items ih => rw [toHostItems, ih, List.map_cons]

theorem toHost_object :
    (object members).toHost = .dict (members.map toHostMember) := by
  rw [toHost]
  congr 1
  induction members with
  | nil => rfl
  | cons m members ih => rw [toHostMembers, ih, List.map_cons, toHostMember]

theorem yields_array_iff :
    Yields (array items) v ↔ ∃ vs, v = .list vs ∧ List.Forall₂ Yields items vs := by
  have reads : HostObject.Reads (.list (items.map toHost)) v ↔ _ := HostObject.reads_list_iff
  simp only [List.forall₂_map_left_iff] at reads
  rw [Yields, toValue, toHost_array]
  exact reads

theorem shownKeys_toHostMember
    (members : List (String × Document)) :
    HostObject.shownKeys (members.map toHostMember) = members.map Prod.fst := by
  rw [HostObject.shownKeys, List.map_map]
  rfl

theorem yields_object_iff
    (distinct : (members.map Prod.fst).Nodup) :
    Yields (object members) v ↔ ∃ es, v = .map es ∧ List.Forall₂ YieldsEntry members es := by
  rw [← shownKeys_toHostMember] at distinct
  have reads := HostObject.reads_dict_iff_of_apart distinct (v := v)
  simp only [List.forall₂_map_left_iff] at reads
  rw [Yields, toValue, toHost_object]
  exact reads

/-! ### Regular documents -/

/-- A regular document is read as a value that is projected on it. -/
theorem exists_yields
    (regular : d.Everywhere Regular) :
    ∃ v, Yields d v ∧ v.Projects d := by
  induction d using induction with
  | null => exact ⟨.null, rfl, rfl⟩
  | bool b => exact ⟨.bool b, rfl, rfl⟩
  | string s => exact ⟨.string s, rfl, rfl⟩
  | int n =>
      obtain ⟨low, high⟩ := regular
      by_cases range : InIntRange n
      · exact ⟨.int n, if_pos range, rfl⟩
      · have positive : 0 ≤ n := by
          simp only [InIntRange, minInt, maxInt] at range low
          omega
        refine ⟨.uint n.toNat, ?_, ?_⟩
        · rw [Yields, toValue, toHost, HostObject.readValue, if_neg range, if_pos ⟨positive, high⟩]
        · rw [Value.Projects, Value.toDocument, Int.toNat_of_nonneg positive]
  | float f =>
      obtain ⟨e, finite⟩ := regular
      exact ⟨.float f, rfl, congrArg Except.ok (ofFloat_of_dyadic finite)⟩
  | array items ih =>
      have regular := (everywhere_array_iff.mp regular).2
      obtain ⟨vs, each⟩ := exists_forall₂ fun d member => ih d member (regular d member)
      refine ⟨.list vs, yields_array_iff.mpr ⟨vs, rfl, each.imp fun _ _ h => h.1⟩,
        Value.projects_list_iff.mpr ⟨items, rfl, ?_⟩⟩
      exact (each.imp fun _ _ h => h.2).flip
  | object members ih =>
      obtain ⟨distinct, regular⟩ := everywhere_object_iff.mp regular
      obtain ⟨es, each⟩ : ∃ es, List.Forall₂ (fun m e => YieldsEntry m e ∧ Value.ProjectsEntry e m)
          members es := exists_forall₂ fun m member => by
        obtain ⟨v, yields, projects⟩ := ih m member (regular m member)
        exact ⟨(.string m.1, v), ⟨rfl, yields⟩, rfl, projects⟩
      refine ⟨.map es, (yields_object_iff distinct).mpr ⟨es, rfl, each.imp fun _ _ h => h.1⟩,
        Value.projects_map_iff.mpr ⟨members, rfl, distinct, ?_⟩⟩
      exact (each.imp fun _ _ h => h.2).flip

/-- Sorting a document reorders the value that is read from it. -/
theorem exists_yields_sorted
    (regular : d.Everywhere Regular)
    (yields : Yields d v) :
    ∃ w, Yields d.sorted w ∧ v.Reordered w := by
  induction d using induction generalizing v with
  | null | bool | int | float | string => exact ⟨v, yields, .refl v⟩
  | array items ih =>
      have regular := (everywhere_array_iff.mp regular).2
      obtain ⟨vs, rfl, each⟩ := yields_array_iff.mp yields
      obtain ⟨ws, yields, reordered⟩ := exists_forall₂_between each fun d member v yields =>
        ih d member (regular d member) yields
      refine ⟨.list ws, ?_, Value.reordered_list reordered⟩
      rw [sorted_array]
      exact yields_array_iff.mpr ⟨ws, rfl, List.forall₂_map_left_iff.mpr yields⟩
  | object members ih =>
      obtain ⟨distinct, regular⟩ := everywhere_object_iff.mp regular
      obtain ⟨es, rfl, each⟩ := (yields_object_iff distinct).mp yields
      obtain ⟨fs, yields, reordered⟩ : ∃ fs,
          List.Forall₂ (fun m f => YieldsEntry (sortedMember m) f) members fs ∧
            List.Forall₂ (fun e f => e.1 = f.1 ∧ Value.Reordered e.2 f.2) es fs := by
        refine exists_forall₂_between each fun m member e yields => ?_
        obtain ⟨w, sorted, reordered⟩ := ih m member (regular m member) yields.2
        exact ⟨(e.1, w), ⟨yields.1, sorted⟩, rfl, reordered⟩
      -- The entries follow their members into the order of the names.
      obtain ⟨gs, yields, perm⟩ := List.perm_comp_forall₂
        (List.mergeSort_perm (members.map sortedMember) byName)
        (List.forall₂_map_left_iff.mpr yields)
      refine ⟨.map gs, ?_, (Value.reordered_map reordered).trans (.entries perm.symm)⟩
      rw [sorted_object]
      exact (yields_object_iff ((names_sorted_perm members).nodup_iff.mpr distinct)).mpr
        ⟨gs, rfl, yields⟩

/-- A document holds neither dates nor members of one name. -/
theorem plain_toHost
    (regular : d.Everywhere Regular) :
    d.toHost.plain = d.toHost := by
  induction d using induction with
  | null | bool | int | float | string => rfl
  | array items ih =>
      have regular := (everywhere_array_iff.mp regular).2
      rw [toHost_array, HostObject.plain_list, List.map_map]
      exact congrArg HostObject.list (List.map_congr_left fun d member =>
        ih d member (regular d member))
  | object members ih =>
      obtain ⟨distinct, regular⟩ := everywhere_object_iff.mp regular
      have plain : (members.map toHostMember).map HostObject.plainEntry =
          members.map toHostMember := by
        rw [List.map_map]
        exact List.map_congr_left fun m member =>
          congrArg (HostObject.text m.1, ·) (ih m member (regular m member))
      have apart : (members.map Prod.fst).Nodup := distinct
      rw [← shownKeys_toHostMember] at apart
      rw [toHost_object, HostObject.plain_dict_of_apart apart, plain]

end Document

/-! ### Projections -/

namespace Value

variable {v w : Value} {d : Document}

/-- What holds of the projections of leaves, of arrays and of objects holds everywhere in a
projection. -/
theorem Projects.everywhere
    {P : Document → Prop} {Q : Value → Prop}
    (leaf : ∀ v x d, v.atom? = some x → Q v → Projects v d → d.Everywhere P)
    (array : ∀ ds, P (.array ds))
    (object : ∀ members : List (String × Document), (members.map Prod.fst).Nodup →
      P (.object members))
    (leaves : v.Leaves Q)
    (projects : Projects v d) :
    d.Everywhere P := by
  induction v using Value.induction generalizing d with
  | leaf v x isLeaf => exact leaf v x d isLeaf ((leaves_of_atom? isLeaf).mp leaves) projects
  | list items ih =>
      obtain ⟨ds, rfl, each⟩ := projects_list_iff.mp projects
      refine Document.everywhere_array_iff.mpr ⟨array ds, fun d member => ?_⟩
      obtain ⟨v, inside, projects⟩ := exists_mem_of_forall₂ each d member
      exact ih v inside (leaves_list_iff.mp leaves v inside) projects
  | map entries ih =>
      obtain ⟨members, rfl, distinct, each⟩ := projects_map_iff.mp projects
      refine Document.everywhere_object_iff.mpr ⟨object members distinct, fun m member => ?_⟩
      obtain ⟨e, inside, -, projects⟩ := exists_mem_of_forall₂ each m member
      exact ih e inside (leaves_map_iff.mp leaves e inside) projects

theorem WellFormed.leaves
    (wellFormed : v.WellFormed) :
    v.Leaves WellFormed := by
  induction v using Value.induction with
  | leaf v x leaf => exact (leaves_of_atom? leaf).mpr wellFormed
  | list items ih =>
      exact leaves_list_iff.mpr fun v member =>
        ih v member (wellFormed_list_iff.mp wellFormed v member)
  | map entries ih =>
      exact leaves_map_iff.mpr fun e member =>
        ih e member ((wellFormed_map_iff.mp wellFormed).2 e member).2

/-- A float is projected on itself if it is finite, and else on a name. -/
theorem Projects.float
    {f : Float}
    (projects : Projects (float f) d) :
    (∃ e, Number.dyadic? f = some e ∧ d = .float f) ∨ ∃ name, d = .string name := by
  obtain rfl : Document.ofFloat f = d := Except.ok.inj projects
  rw [Document.ofFloat]
  split
  · exact .inr ⟨_, rfl⟩
  next defined =>
    split
    · exact .inr ⟨_, rfl⟩
    next bounded =>
      obtain ⟨e, finite⟩ := Number.exists_dyadic (Bool.eq_false_iff.mpr defined)
        (Bool.eq_false_iff.mpr bounded)
      exact .inl ⟨e, finite, rfl⟩

/-- The projection of a well-formed value is regular. -/
theorem Projects.regular
    (wellFormed : v.WellFormed)
    (projects : Projects v d) :
    d.Everywhere Document.Regular := by
  refine projects.everywhere (fun v x d leaf wellFormed projects => ?_) (fun _ => trivial)
    (fun _ distinct => distinct) wellFormed.leaves
  cases v <;> cases leaf
  case int n =>
    cases projects
    simp only [WellFormed, InIntRange, maxInt] at wellFormed
    exact ⟨wellFormed.1, wellFormed.2.trans (by decide)⟩
  case uint n =>
    cases projects
    exact ⟨(show minInt ≤ 0 by decide).trans (Int.natCast_nonneg n), Int.ofNat_le.mpr wellFormed⟩
  case float f =>
    rcases projects.float with ⟨e, finite, rfl⟩ | ⟨name, rfl⟩
    · exact ⟨e, finite⟩
    · trivial
  all_goals cases projects <;> trivial

/-- A float that is finite is what is read from its text. -/
def FiniteReadsBack : Value → Prop
  | float f => ∀ d, Number.dyadic? f = some d →
      Number.readFloat? (Number.floatText f).toList = some f
  | _ => True

theorem Projects.readsBack
    (floats : v.Leaves FiniteReadsBack)
    (projects : Projects v d) :
    d.Everywhere Document.ReadsBack := by
  refine projects.everywhere (fun v x d leaf reads projects => ?_) (fun _ => trivial)
    (fun _ _ => trivial) floats
  cases v <;> cases leaf
  case float f =>
    rcases projects.float with ⟨e, finite, rfl⟩ | ⟨name, rfl⟩
    · exact reads e finite
    · trivial
  all_goals cases projects <;> trivial

/-! ### Values that come back -/

/-- Values that documents have room for: no octets, times, patterns and functions, no float that is
not finite, no unsigned integer that a signed one could stand for, and no keys but text. -/
inductive Portable : Value → Prop
  | null : Portable null
  | bool (b : Bool) : Portable (bool b)
  | int (n : Int) : Portable (int n)
  | uint {n : Nat} : maxInt < n → Portable (uint n)
  | float {f : Float} {d : Number.Dyadic} : Number.dyadic? f = some d → Portable (float f)
  | string (s : String) : Portable (string s)
  | list {items : List Value} : (∀ v ∈ items, Portable v) → Portable (list items)
  | map {entries : List (Key × Value)} :
      (∀ e ∈ entries, ∃ s, e.1 = .string s) → (∀ e ∈ entries, Portable e.2) →
      Portable (map entries)

/-- Such a value has a projection, and is what is read from it. -/
theorem Portable.exists_projects
    (portable : v.Portable)
    (wellFormed : v.WellFormed) :
    ∃ d, Projects v d ∧ d.Yields v := by
  induction portable with
  | null => exact ⟨.null, rfl, rfl⟩
  | bool b => exact ⟨.bool b, rfl, rfl⟩
  | string s => exact ⟨.string s, rfl, rfl⟩
  | int n => exact ⟨.int n, rfl, if_pos wellFormed⟩
  | @uint n large =>
      refine ⟨.int n, rfl, ?_⟩
      have notSigned : ¬InIntRange n := fun range => not_lt.mpr range.2 large
      have unsigned : InUIntRange n := ⟨Int.natCast_nonneg n, Int.ofNat_le.mpr wellFormed⟩
      rw [Document.Yields, Document.toValue, Document.toHost, HostObject.readValue,
        if_neg notSigned, if_pos unsigned, Int.toNat_natCast]
  | @float f e finite =>
      exact ⟨.float f, congrArg Except.ok (Document.ofFloat_of_dyadic finite), rfl⟩
  | @list items _ ih =>
      obtain ⟨ds, each⟩ := exists_forall₂ fun v member =>
        ih v member (wellFormed_list_iff.mp wellFormed v member)
      refine ⟨.array ds, projects_list_iff.mpr ⟨ds, rfl, each.imp fun _ _ h => h.1⟩,
        Document.yields_array_iff.mpr ⟨items, rfl, ?_⟩⟩
      exact (each.imp fun _ _ h => h.2).flip
  | @map entries keys _ ih =>
      obtain ⟨distinct, wellFormed⟩ := wellFormed_map_iff.mp wellFormed
      obtain ⟨members, each⟩ : ∃ members,
          List.Forall₂ (fun e m => ProjectsEntry e m ∧ Document.YieldsEntry m e)
            entries members := exists_forall₂ fun e member => by
        obtain ⟨s, key⟩ := keys e member
        obtain ⟨d, projects, yields⟩ := ih e member (wellFormed e member).2
        refine ⟨(s, d), ⟨?_, projects⟩, key, yields⟩
        rw [key, Key.memberName]
      have names : (members.map Prod.fst).Nodup := by
        have keys : entries.map (fun e => e.1.signed) =
            (members.map Prod.fst).map Key.string := by
          rw [← List.forall₂_eq_eq_eq, List.map_map, List.forall₂_map_left_iff,
            List.forall₂_map_right_iff]
          exact each.imp fun e m h => congrArg Key.signed h.2.1
        exact (keys ▸ distinct_iff.mp distinct).of_map
      refine ⟨.object members, projects_map_iff.mpr ⟨members, rfl, names,
        each.imp fun _ _ h => h.1⟩, (Document.yields_object_iff names).mpr ⟨entries, rfl, ?_⟩⟩
      exact (each.imp fun _ _ h => h.2).flip

theorem Portable.defined
    (portable : v.Portable) :
    v.Defined := by
  induction portable with
  | null | bool | int | string | uint => exact nofun
  | float finite => exact number?_float_ne_undefined (Number.isUndefined_of_dyadic finite)
  | list _ ih => exact leaves_list_iff.mpr ih
  | map _ _ ih => exact leaves_map_iff.mpr ih

/-! ### Reordered values -/

/-- Reordering a value does not change the sorted document. -/
theorem Reordered.exists_projects
    (reordered : Reordered v w)
    (projects : Projects v d) :
    ∃ e, Projects w e ∧ e.sorted = d.sorted := by
  induction reordered generalizing d with
  | refl => exact ⟨d, projects, rfl⟩
  | @entries es fs perm =>
      obtain ⟨members, rfl, distinct, each⟩ := projects_map_iff.mp projects
      obtain ⟨others, each, same⟩ := List.perm_comp_forall₂ perm.symm each
      have distinct' := (same.map Prod.fst).nodup_iff.mpr distinct
      refine ⟨.object others, projects_map_iff.mpr ⟨others, rfl, distinct', each⟩, ?_⟩
      rw [Document.sorted_object, Document.sorted_object]
      refine congrArg Document.object (Document.mergeSort_eq_of_perm ?_ (same.map _))
      rwa [Document.names_sortedMembers]
  | @item v w before after _ ih =>
      obtain ⟨ds, rfl, each⟩ := projects_list_iff.mp projects
      obtain ⟨es, each, same⟩ := forall₂_replace (fun d projects => ih projects) before after each
      refine ⟨.array es, projects_list_iff.mpr ⟨es, rfl, each⟩, ?_⟩
      rw [Document.sorted_array, Document.sorted_array, same]
  | @value v w before after k _ ih =>
      obtain ⟨ms, rfl, distinct, each⟩ := projects_map_iff.mp projects
      obtain ⟨ns, each, same⟩ : ∃ ns,
          List.Forall₂ ProjectsEntry (before ++ (k, w) :: after) ns ∧
            ns.map Document.sortedMember = ms.map Document.sortedMember := by
        refine forall₂_replace (fun m projects => ?_) before after each
        obtain ⟨e, projects', same⟩ := ih projects.2
        exact ⟨(m.1, e), ⟨projects.1, projects'⟩, congrArg (m.1, ·) same⟩
      have names : ns.map Prod.fst = ms.map Prod.fst := by
        rw [← Document.names_sortedMembers, same, Document.names_sortedMembers]
      refine ⟨.object ns, projects_map_iff.mpr ⟨ns, rfl, names ▸ distinct, each⟩, ?_⟩
      rw [Document.sorted_object, Document.sorted_object, same]
  | trans _ _ first second =>
      obtain ⟨e, projects, same⟩ := first projects
      obtain ⟨e', projects', same'⟩ := second projects
      exact ⟨e', projects', same'.trans same⟩

end Value
end ExprLang
