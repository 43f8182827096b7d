import Mathlib.Data.List.Duplicate
import ExprLang.Proofs.Projection
import ExprLang.Proofs.ValueTrees

/-!
# What projecting a value keeps

A value is projected on a document unless it contains a function, or a map in which two keys have one
text.  The document has the shape of the value: an array for each list and an object for each map, with
as many parts in the same order.

* `Projects.projectable`: nothing in a projected value stands in the way.
* `exists_of_toDocument`: the error names what stands in the way.
* `Projects.part?`, `Projects.partAt?`: what stands at a place is projected on what stands there in the
  document.
* `projection_keeps_shape`: all of it.
-/

namespace ExprLang

namespace Document

/-- The item of an array, or the document of a member of an object, at a position. -/
def part? : Document → Nat → Option Document
  | array items, i => items[i]?
  | object members, i => members[i]?.map Prod.snd
  | _, _ => none

/-- What stands at a place in a document: a path of positions that leads to it. -/
def partAt? (d : Document) (path : List Nat) : Option Document :=
  path.foldlM part? d

end Document

namespace Value

variable {v w : Value} {d : Document} {items : List Value} {entries : List (Key × Value)}
  {members : List (String × Document)} {taken : List String} {error : ProjectionError}

/-- The texts of the keys of a map. -/
def memberNames (entries : List (Key × Value)) : List String :=
  entries.map fun e => e.1.memberName

theorem names_of_projectsEntry
    (each : List.Forall₂ ProjectsEntry entries members) :
    members.map Prod.fst = memberNames entries := by
  rw [memberNames, ← List.forall₂_eq_eq_eq, List.forall₂_map_left_iff, List.forall₂_map_right_iff]
  exact each.flip.imp fun _ _ projects => projects.1.symm

/-! ### Values that have a projection -/

/-- What does not keep a value that contains it from being projected. -/
def Projectable : Value → Prop
  | map entries => (memberNames entries).Nodup
  | function _ => False
  | _ => True

theorem projectable_key
    (k : Key) :
    k.toValue.Projectable := by
  cases k <;> trivial

theorem throughout_projectable_iff :
    v.Throughout Projectable ↔
      (∀ name, ¬v.Contains (function name)) ∧
      ∀ entries, v.Contains (map entries) → (memberNames entries).Nodup := by
  constructor
  · intro each
    exact ⟨fun name => each (function name), fun entries => each (map entries)⟩
  · rintro ⟨functions, maps⟩ w inside
    cases w with
    | function name => exact functions name inside
    | map entries => exact maps entries inside
    | _ => trivial

theorem Projects.projectable
    (projects : Projects v d) :
    v.Throughout Projectable := by
  induction v using Value.induction generalizing d with
  | leaf v x leaf =>
      rw [throughout_iff_of_atom? leaf]
      cases v
      case list | map => cases leaf
      case function => cases projects
      all_goals trivial
  | list items ih =>
      obtain ⟨ds, -, each⟩ := projects_list_iff.mp projects
      refine throughout_list_iff.mpr ⟨trivial, fun v member => ?_⟩
      obtain ⟨d, -, projects⟩ := exists_mem_of_forall₂ each.flip v member
      exact ih v member projects
  | map entries ih =>
      obtain ⟨members, -, distinct, each⟩ := projects_map_iff.mp projects
      rw [names_of_projectsEntry each] at distinct
      refine throughout_map_iff.mpr ⟨distinct, fun e member => ⟨projectable_key e.1, ?_⟩⟩
      obtain ⟨m, -, projects⟩ := exists_mem_of_forall₂ each.flip e member
      exact ih e member projects.2

/-! ### Failures -/

/-- The members of an object fail at a name that is taken, by an earlier key or from the start, or
where one of the values does. -/
theorem toMembers_eq_error
    (failed : toMembers taken entries = .error error) :
    (∃ name, (name ∈ taken ∧ name ∈ memberNames entries ∨ (memberNames entries).Duplicate name) ∧
        error = .keyCollision name) ∨
      ∃ e ∈ entries, e.2.toDocument = .error error := by
  induction entries generalizing taken with
  | nil => cases failed
  | cons e entries ih =>
      obtain ⟨k, v⟩ := e
      rw [toMembers] at failed
      split at failed
      next used =>
        cases failed
        exact .inl ⟨_, .inl ⟨List.contains_iff_mem.mp used, List.mem_cons_self⟩, rfl⟩
      next =>
        rcases except_bind_eq_error.mp failed with here | ⟨d, -, failed⟩
        · exact .inr ⟨_, List.mem_cons_self, here⟩
        rcases except_bind_eq_error.mp failed with failed | ⟨ms, -, ⟨⟩⟩
        -- A name that is taken behind this key may be the name of this key.
        rcases ih failed with ⟨name, again, reported⟩ | ⟨e, member, failed⟩
        · refine .inl ⟨name, ?_, reported⟩
          rcases again with ⟨before, later⟩ | later
          · rcases List.mem_cons.mp before with rfl | before
            · exact .inr (.cons_mem later)
            · exact .inl ⟨before, List.mem_cons_of_mem _ later⟩
          · exact .inr later.cons_duplicate
        · exact .inr ⟨e, List.mem_cons_of_mem _ member, failed⟩

/-- Projecting fails only at a function in the value, or at a map with a text that two keys have. -/
theorem exists_of_toDocument
    (failed : v.toDocument = .error error) :
    (∃ name, v.Contains (function name) ∧ error = .functionReference name) ∨
      ∃ entries name, v.Contains (map entries) ∧ (memberNames entries).Duplicate name ∧
        error = .keyCollision name := by
  induction v using Value.induction with
  | leaf v x leaf =>
      cases v
      case list | map => cases leaf
      case function name =>
        cases failed
        exact .inl ⟨name, .self _, rfl⟩
      all_goals cases failed
  | list items ih =>
      rw [toDocument] at failed
      rcases except_bind_eq_error.mp failed with failed | ⟨ds, -, ⟨⟩⟩
      rw [toDocuments_eq_mapM] at failed
      obtain ⟨v, member, failed⟩ := mapM_eq_error failed
      rcases ih v member failed with ⟨name, inside, reported⟩ | ⟨entries, name, inside, reported⟩
      · exact .inl ⟨name, .item member inside, reported⟩
      · exact .inr ⟨entries, name, .item member inside, reported⟩
  | map entries ih =>
      rw [toDocument] at failed
      rcases except_bind_eq_error.mp failed with failed | ⟨ms, -, ⟨⟩⟩
      rcases toMembers_eq_error failed with ⟨name, again, reported⟩ | ⟨e, member, failed⟩
      · have again := again.resolve_left fun before => List.not_mem_nil before.1
        exact .inr ⟨entries, name, .self _, again, reported⟩
      · rcases ih e member failed with ⟨name, inside, reported⟩ | ⟨entries, name, inside, reported⟩
        · exact .inl ⟨name, .value member inside, reported⟩
        · exact .inr ⟨entries, name, .value member inside, reported⟩

theorem exists_projects_iff :
    (∃ d, Projects v d) ↔ v.Throughout Projectable := by
  constructor
  · rintro ⟨d, projects⟩
    exact projects.projectable
  · intro each
    cases projection : v.toDocument with
    | ok d => exact ⟨d, projection⟩
    | error error =>
        obtain ⟨functions, maps⟩ := throughout_projectable_iff.mp each
        rcases exists_of_toDocument projection with
          ⟨name, inside, -⟩ | ⟨entries, name, inside, again, -⟩
        · exact absurd inside (functions name)
        · exact absurd (maps entries inside) (List.exists_duplicate_iff_not_nodup.mp ⟨name, again⟩)

/-! ### Places -/

theorem Projects.part?
    {i : Nat}
    (projects : Projects v d)
    (part : v.part? i = some w) :
    ∃ e, d.part? i = some e ∧ Projects w e := by
  cases v with
  | list items =>
      obtain ⟨ds, rfl, each⟩ := projects_list_iff.mp projects
      exact exists_getElem?_of_forall₂ each part
  | map entries =>
      obtain ⟨members, rfl, -, each⟩ := projects_map_iff.mp projects
      obtain ⟨e, here, rfl⟩ := Option.map_eq_some_iff.mp part
      obtain ⟨m, there, projects⟩ := exists_getElem?_of_forall₂ each here
      exact ⟨m.2, Option.map_eq_some_iff.mpr ⟨m, there, rfl⟩, projects.2⟩
  | _ => cases part

/-- What stands at a place in a value is projected on what stands there in its document. -/
theorem Projects.partAt?
    {path : List Nat}
    (projects : Projects v d)
    (part : v.partAt? path = some w) :
    ∃ e, d.partAt? path = some e ∧ Projects w e :=
  exists_foldlM_of_step (fun _ _ _ _ => Projects.part?) projects part

/-- A value is projected on a document if and only if it contains no function and no map in which two
keys have one text; otherwise the error names the function or the text.  In the document an array with
as many items stands where the value has a list, and an object with the texts of the keys as its names,
in the same order, where it has a map. -/
theorem projection_keeps_shape
    (v : Value) :
    ((∃ d, v.toDocument = .ok d) ↔
      (∀ name, ¬v.Contains (function name)) ∧
      ∀ entries, v.Contains (map entries) → (memberNames entries).Nodup) ∧
    (∀ error, v.toDocument = .error error →
      (∃ name, v.Contains (function name) ∧ error = .functionReference name) ∨
      ∃ entries name, v.Contains (map entries) ∧ (memberNames entries).Duplicate name ∧
        error = .keyCollision name) ∧
    ∀ d, v.toDocument = .ok d → ∀ path,
      (∀ items, v.partAt? path = some (list items) →
        ∃ ds, d.partAt? path = some (.array ds) ∧ ds.length = items.length) ∧
      ∀ entries, v.partAt? path = some (map entries) →
        ∃ members, d.partAt? path = some (.object members) ∧
          members.map Prod.fst = memberNames entries := by
  refine ⟨exists_projects_iff.trans throughout_projectable_iff, fun _ => exists_of_toDocument, ?_⟩
  intro d projects path
  constructor
  · intro items part
    obtain ⟨e, there, projects⟩ := Projects.partAt? projects part
    obtain ⟨ds, rfl, each⟩ := projects_list_iff.mp projects
    exact ⟨ds, there, each.length_eq.symm⟩
  · intro entries part
    obtain ⟨e, there, projects⟩ := Projects.partAt? projects part
    obtain ⟨members, rfl, -, each⟩ := projects_map_iff.mp projects
    exact ⟨members, there, names_of_projectsEntry each⟩

end Value
end ExprLang
