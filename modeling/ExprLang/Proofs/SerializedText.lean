import ExprLang.Proofs.JsonReading
import ExprLang.Proofs.Projection

/-!
# Values written as text

* `deserialize_serialize`: what is read from JSON is written as the same JSON, and a value that
  documents have room for is read as itself.
* `serialize_eq_of_reordered`: JSON and YAML do not show the order of insertion.
* `serialize_ne_of_reordered`: TOML and XML do.
-/

namespace ExprLang
namespace Value

variable {v w : Value} {d e : Document} {name root : String} {pretty : Bool} {format : TextFormat}

/-! ### Writing and reading -/

theorem serialize_of_projects
    (named : TextFormat.ofName? name = some format)
    (projects : Projects v d) :
    v.serialize (some name) pretty root = writeDocument pretty root d format := by
  rw [serialize, projects, Option.bind_some, named]
  rfl

/-- Something is written only if it has a projection. -/
theorem projects_of_serialize
    {text : String}
    (written : v.serialize (some name) pretty root = .ok text) :
    ∃ d, Projects v d := by
  rw [serialize] at written
  cases projection : v.toDocument with
  | ok d => exact ⟨d, projection⟩
  | error e =>
      rw [projection] at written
      cases written

/-- JSON is read where no other format is named. -/
theorem deserialize_of_parse
    {source : Option String} {text : String}
    (named : ∀ name ∈ source, TextFormat.ofName? name = some .json)
    (read : Json.parse text = .ok d)
    (regular : d.Everywhere Document.Regular)
    (yields : d.Yields w) :
    deserialize source text = .ok w := by
  have json : TextFormat.ofSource? source = some .json := by
    cases source with
    | none => rfl
    | some name =>
        by_cases empty : name.isEmpty = true
        · rw [TextFormat.ofSource?, if_pos empty]
          rfl
        · rw [TextFormat.ofSource?, if_neg empty]
          exact named name rfl
  have plain : d.toHost.plain.Reads w := by
    rw [Document.plain_toHost regular]
    exact yields
  refine deserialize_eq_ok_iff.mpr ⟨.json, d.toHost, json, ?_, plain⟩
  rw [readText, read]

/-- JSON and YAML show a document as it is sorted. -/
theorem writeDocument_eq_of_sorted
    (sorts : format = .json ∨ format = .yaml)
    (same : d.sorted = e.sorted) :
    writeDocument pretty root d format = writeDocument pretty root e format := by
  rcases sorts with rfl | rfl
  · rw [writeDocument, writeDocument, Json.render, Json.render, same]
  · rw [writeDocument, writeDocument, Yaml.render, Yaml.render, same]

/-! ### Reading back -/

/-- The JSON of a regular document is read as a value of the sorted document. -/
theorem deserialize_render
    {source : Option String} {style : Json.Style}
    (named : ∀ name ∈ source, TextFormat.ofName? name = some .json)
    (regular : d.Everywhere Document.Regular)
    (floats : d.Everywhere Document.ReadsBack)
    (yields : d.sorted.Yields w) :
    deserialize source (Json.render style d) = .ok w :=
  deserialize_of_parse named (Json.parse_render style regular floats)
    (Document.everywhere_sorted Document.Regular.sorted regular) yields

theorem writeDocument_json
    (pretty : Bool)
    (root : String)
    (d : Document) :
    ∃ style, writeDocument pretty root d .json = .ok (Json.render style d) :=
  ⟨_, rfl⟩

/-- Projecting onto documents is a retraction: what is read from the projection of a value has the
same projection, what is read from the JSON of a value is written as the same JSON, and a value that
documents have room for is read as itself, though in another order of insertion. -/
theorem deserialize_serialize
    {v : Value} {name : String} {source : Option String}
    (wellFormed : v.WellFormed)
    (writes : TextFormat.ofName? name = some .json)
    (reads : ∀ name ∈ source, TextFormat.ofName? name = some .json) :
    (∀ d, v.toDocument = .ok d → ∃ w, d.toValue = .ok w ∧ w.toDocument = .ok d) ∧
    (v.Leaves FiniteReadsBack →
      (∀ d, v.toDocument = .ok d → ∀ pretty root, ∃ text w,
        v.serialize (some name) pretty root = .ok text ∧
        deserialize source text = .ok w ∧
        w.serialize (some name) pretty root = .ok text) ∧
      (v.Portable → ∀ pretty root, ∃ text w,
        v.serialize (some name) pretty root = .ok text ∧
        deserialize source text = .ok w ∧
        v.Reordered w ∧ w.equals v = true)) := by
  refine ⟨fun d projects => Document.exists_yields (Projects.regular wellFormed projects),
    fun floats => ⟨fun d projects pretty root => ?_, fun portable pretty root => ?_⟩⟩
  · have regular := Projects.regular wellFormed projects
    obtain ⟨style, text⟩ := writeDocument_json pretty root d
    obtain ⟨w, yields, projects'⟩ :=
      Document.exists_yields (Document.everywhere_sorted Document.Regular.sorted regular)
    refine ⟨Json.render style d, w, (serialize_of_projects writes projects).trans text,
      deserialize_render reads regular (Projects.readsBack floats projects) yields, ?_⟩
    rw [serialize_of_projects writes projects',
      writeDocument_eq_of_sorted (.inl rfl) (Document.sorted_sorted d), text]
  · obtain ⟨d, projects, yields⟩ := portable.exists_projects wellFormed
    have regular := Projects.regular wellFormed projects
    obtain ⟨style, text⟩ := writeDocument_json pretty root d
    obtain ⟨w, yields, reordered⟩ := Document.exists_yields_sorted regular yields
    refine ⟨Json.render style d, w, (serialize_of_projects writes projects).trans text,
      deserialize_render reads regular (Projects.readsBack floats projects) yields, reordered, ?_⟩
    rw [← reordered.equals_left v]
    exact equals_self wellFormed portable.defined

/-- A map with its keys out of order, an unsigned integer and a float. -/
theorem deserialize_serialize_map :
    let v := map [(.string "b", uint 9223372036854775808),
      (.string "a", list [int (-1), float 0.5, null])]
    let d := Document.object [("b", .int 9223372036854775808),
      ("a", .array [.int (-1), .float 0.5, .null])]
    (∃ w, d.toValue = .ok w ∧ w.toDocument = .ok d) ∧
      (∃ text w, v.serialize (some "json") false "root" = .ok text ∧
        deserialize none text = .ok w ∧ w.serialize (some "json") false "root" = .ok text) ∧
      ∃ text w, v.serialize (some "JSON") true "root" = .ok text ∧
        deserialize (some "json") text = .ok w ∧ v.Reordered w ∧ w.equals v = true := by
  intro v d
  have finite : Number.dyadic? 0.5 = some ⟨false, 4503599627370496, -53⟩ := by decide +kernel
  have wellFormed : v.WellFormed := by
    simp [v, WellFormed, WellFormedEntries, WellFormedItems, keyInRange, InIntRange, minInt, maxInt,
      maxUInt, Assoc.Distinct, Key.same, Key.number?]
  have projects : v.toDocument = .ok d := by
    simp only [v, d, toDocument, toMembers, toDocuments, Document.ofFloat_of_dyadic finite]
    rfl
  have floats : v.Leaves FiniteReadsBack := by
    have half : Number.readFloat? (Number.floatText 0.5).toList = some 0.5 := by decide +kernel
    simp [v, Leaves, LeavesEntries, LeavesItems, FiniteReadsBack, half]
  have portable : v.Portable := by
    refine .map (by simp) ?_
    simp only [List.forall_mem_cons]
    refine ⟨.uint (by decide), .list ?_, List.forall_mem_nil _⟩
    simp only [List.forall_mem_cons]
    exact ⟨.int _, .float finite, .null, List.forall_mem_nil _⟩
  have plain := @deserialize_serialize v "json" none wellFormed rfl
    (fun _ h => absurd h (Option.not_mem_none _))
  have shouted := @deserialize_serialize v "JSON" (some "json") wellFormed rfl
    (fun _ h => Option.some.inj h ▸ rfl)
  exact ⟨plain.1 d projects, (plain.2 floats).1 d projects false "root",
    (shouted.2 floats).2 portable true "root"⟩

/-! ### The order of insertion -/

/-- JSON and YAML sort the keys of maps, so that two values with their entries in different orders
are written as the same text. -/
theorem serialize_eq_of_reordered
    {v w : Value} {name root text : String} {pretty : Bool}
    (sorts : TextFormat.ofName? name = some .json ∨ TextFormat.ofName? name = some .yaml)
    (reordered : Reordered v w)
    (written : v.serialize (some name) pretty root = .ok text) :
    w.serialize (some name) pretty root = .ok text := by
  obtain ⟨format, named, sorts⟩ : ∃ format, TextFormat.ofName? name = some format ∧
      (format = .json ∨ format = .yaml) := by
    rcases sorts with named | named
    · exact ⟨_, named, .inl rfl⟩
    · exact ⟨_, named, .inr rfl⟩
  obtain ⟨d, projects⟩ := projects_of_serialize written
  obtain ⟨e, projects', same⟩ := reordered.exists_projects projects
  rw [serialize_of_projects named projects', writeDocument_eq_of_sorted sorts same,
    ← serialize_of_projects named projects, written]

/-- Two maps in one another, in JSON and in YAML. -/
theorem serialize_eq_of_reordered_maps :
    let v := map [(.bool true, null), (.string "k", map [(.int 2, int 1), (.uint 1, int 2)])]
    let w := map [(.string "k", map [(.uint 1, int 2), (.int 2, int 1)]), (.bool true, null)]
    ∀ name ∈ ["json", "YAML"], ∃ text,
      v.serialize (some name) true "root" = .ok text ∧
      w.serialize (some name) true "root" = .ok text := by
  intro v w name member
  have reordered : Reordered v w :=
    .trans (.value [(.bool true, null)] [] (.string "k") (.entries (.swap _ _ _)))
      (.entries (.swap _ _ _))
  have sorts : TextFormat.ofName? name = some .json ∨ TextFormat.ofName? name = some .yaml := by
    simp only [List.mem_cons, List.not_mem_nil, or_false] at member
    rcases member with rfl | rfl
    · exact .inl rfl
    · exact .inr rfl
  obtain ⟨text, written⟩ : ∃ text, v.serialize (some name) true "root" = .ok text := by
    rcases sorts with named | named <;> exact ⟨_, serialize_of_projects named rfl⟩
  exact ⟨text, written, serialize_eq_of_reordered sorts reordered written⟩

/-- TOML and XML write the entries of a map in the order of insertion. -/
theorem serialize_ne_of_reordered :
    let v := map [(.string "a", int 1), (.string "b", int 2)]
    let w := map [(.string "b", int 2), (.string "a", int 1)]
    v.Reordered w ∧
      v.serialize (some "toml") true "root" = .ok "a = 1\nb = 2\n" ∧
      w.serialize (some "toml") true "root" = .ok "b = 2\na = 1\n" ∧
      v.serialize (some "xml") true "root" = .ok
        "<?xml version=\"1.0\" encoding=\"utf-8\"?>\n<root>\n\t<a>1</a>\n\t<b>2</b>\n</root>" ∧
      w.serialize (some "xml") true "root" = .ok
        "<?xml version=\"1.0\" encoding=\"utf-8\"?>\n<root>\n\t<b>2</b>\n\t<a>1</a>\n</root>" :=
  ⟨.entries (.swap _ _ _), rfl, rfl, rfl, rfl⟩

end Value
end ExprLang
