import ExprLang.Serialization
import ExprLang.Proofs.DistinctKeys
import ExprLang.Proofs.RelatedLists

/-!
# Reading host objects

An object that was read from a text becomes a value part by part: sequences item by item, dictionaries
by writing their entries one after another, with the text of each key.  So a dictionary is read entry by
entry if and only if its keys have different texts.

* `reads_list_iff`, `reads_tuple_iff`, `reads_dict_iff`: what containers are read as.
* `plain_list`, `plain_dict`: containers made plain.
* `reads_dict_iff_of_apart`, `plain_dict_of_apart`: dictionaries whose keys have different texts.
* `Value.deserialize_eq_ok_iff`: what is decoded from a text.
-/

namespace ExprLang
namespace HostObject

variable {o : HostObject} {v : Value} {items : List HostObject} {vs : List Value}
  {written es : List (Key × Value)} {entries : List (HostObject × HostObject)}

/-- An object and the value that is read from it. -/
def Reads (o : HostObject) (v : Value) : Prop :=
  o.readValue = .ok v

/-- An entry of a dictionary and the entry that is read from it. -/
def ReadsEntry (o : HostObject × HostObject) (e : Key × Value) : Prop :=
  e.1 = .string o.1.shownText ∧ o.2.Reads e.2

theorem readValues_eq_mapM
    (items : List HostObject) :
    readValues items = items.mapM readValue := by
  induction items with
  | nil => rfl
  | cons o items ih => rw [readValues, ih, List.mapM_cons]

theorem readValues_eq_ok_iff :
    readValues items = .ok vs ↔ List.Forall₂ Reads items vs := by
  rw [readValues_eq_mapM, mapM_eq_ok_iff]
  rfl

theorem readEntries_eq_ok_iff :
    readEntries written entries = .ok es ↔
      ∃ fs, List.Forall₂ ReadsEntry entries fs ∧
        es = fs.foldl (fun acc e => Value.putEntry acc e.1 e.2) written := by
  induction entries generalizing written with
  | nil => simp [readEntries, eq_comm]
  | cons o entries ih =>
      simp only [readEntries, except_bind_eq_ok, List.forall₂_cons_left_iff, ih]
      constructor
      · rintro ⟨v, first, fs, others, rfl⟩
        exact ⟨(.string o.1.shownText, v) :: fs, ⟨(_, v), fs, ⟨rfl, first⟩, others, rfl⟩, rfl⟩
      · rintro ⟨_, ⟨⟨_, v⟩, fs, ⟨rfl, first⟩, others, rfl⟩, rfl⟩
        exact ⟨v, first, fs, others, rfl⟩

theorem reads_list_iff :
    Reads (list items) v ↔ ∃ vs, v = .list vs ∧ List.Forall₂ Reads items vs := by
  simp only [Reads, readValue, except_bind_eq_ok, readValues_eq_ok_iff]
  constructor
  · rintro ⟨vs, each, ⟨⟩⟩
    exact ⟨vs, rfl, each⟩
  · rintro ⟨vs, rfl, each⟩
    exact ⟨vs, each, rfl⟩

theorem reads_tuple_iff :
    Reads (tuple items) v ↔ ∃ vs, v = .list vs ∧ List.Forall₂ Reads items vs := by
  rw [← reads_list_iff, Reads, Reads, readValue, readValue]

/-- The entries of a dictionary are read one by one, and then written one after another. -/
theorem reads_dict_iff :
    Reads (dict entries) v ↔
      ∃ fs, v = .map (Assoc.ofList Key.same fs) ∧ List.Forall₂ ReadsEntry entries fs := by
  simp only [Reads, readValue, except_bind_eq_ok, readEntries_eq_ok_iff]
  constructor
  · rintro ⟨_, ⟨fs, each, rfl⟩, ⟨⟩⟩
    exact ⟨fs, rfl, each⟩
  · rintro ⟨fs, rfl, each⟩
    exact ⟨_, ⟨fs, each, rfl⟩, rfl⟩

/-! ### Plain objects -/

/-- The plain entry of an entry of a dictionary. -/
def plainEntry (o : HostObject × HostObject) : HostObject × HostObject :=
  (text o.1.shownText, o.2.plain)

theorem plain_list :
    (list items).plain = list (items.map plain) := by
  rw [plain]
  congr 1
  induction items with
  | nil => rfl
  | cons o items ih => rw [plainItems, ih, List.map_cons]

theorem plainEntries_eq
    (written : List (HostObject × HostObject)) :
    plainEntries written entries =
      (entries.map plainEntry).foldl (fun acc e => Assoc.put same e.1 e.2 acc) written := by
  induction entries generalizing written with
  | nil => rfl
  | cons o entries ih => exact ih _

theorem plain_dict :
    (dict entries).plain = dict (Assoc.ofList same (entries.map plainEntry)) :=
  congrArg dict (plainEntries_eq [])

/-! ### Keys with different texts -/

/-- The texts of the keys of a dictionary. -/
def shownKeys (entries : List (HostObject × HostObject)) : List String :=
  entries.map fun e => e.1.shownText

theorem shownKeys_map_plainEntry
    (entries : List (HostObject × HostObject)) :
    shownKeys (entries.map plainEntry) = shownKeys entries := by
  rw [shownKeys, List.map_map]
  rfl

/-- The keys of the entries that are read are different if and only if the texts are. -/
theorem pairwise_iff_of_readsEntry
    (each : List.Forall₂ ReadsEntry entries es) :
    (es.Pairwise fun e f => e.1.same f.1 = false) ↔ (shownKeys entries).Nodup := by
  have keys : es.map Prod.fst = (shownKeys entries).map Key.string := by
    rw [shownKeys, List.map_map, ← List.forall₂_eq_eq_eq, List.forall₂_map_left_iff,
      List.forall₂_map_right_iff]
    exact each.flip.imp fun e o reads => reads.1
  have onKeys : (es.map Prod.fst).Pairwise (fun k l => k.same l = false) ↔
      es.Pairwise fun e f => e.1.same f.1 = false := List.pairwise_map
  rw [← onKeys, keys, List.pairwise_map, List.Nodup]
  simp only [Key.same, Key.number?, decide_eq_false_iff_not, Key.string.injEq]

/-- The keys of plain entries are different if and only if their texts are. -/
theorem pairwise_plainEntry_iff :
    ((entries.map plainEntry).Pairwise fun o p => o.1.same p.1 = false) ↔
      (shownKeys entries).Nodup := by
  rw [List.pairwise_map, shownKeys, List.Nodup, List.pairwise_map]
  simp only [plainEntry, same, decide_eq_false_iff_not]

theorem reads_dict_iff_of_apart
    (apart : (shownKeys entries).Nodup) :
    Reads (dict entries) v ↔ ∃ es, v = .map es ∧ List.Forall₂ ReadsEntry entries es := by
  refine reads_dict_iff.trans (exists_congr fun es => and_congr_left fun each => ?_)
  rw [Assoc.ofList_of_distinct ((pairwise_iff_of_readsEntry each).mpr apart)]

theorem plain_dict_of_apart
    (apart : (shownKeys entries).Nodup) :
    (dict entries).plain = dict (entries.map plainEntry) := by
  rw [plain_dict, Assoc.ofList_of_distinct (pairwise_plainEntry_iff.mpr apart)]

/-- A map with as many entries as the dictionary that it is read from has lost none. -/
theorem apart_of_reads_dict
    (reads : Reads (dict entries) (.map es))
    (kept : es.length = entries.length) :
    (shownKeys entries).Nodup := by
  obtain ⟨fs, ⟨⟩, each⟩ := reads_dict_iff.mp reads
  exact (pairwise_iff_of_readsEntry each).mp
    (Assoc.length_ofList_eq_iff.mp (kept.trans each.length_eq))

theorem length_le_of_reads_dict
    (reads : Reads (dict entries) (.map es)) :
    es.length ≤ entries.length := by
  obtain ⟨fs, ⟨⟩, each⟩ := reads_dict_iff.mp reads
  rw [each.length_eq]
  exact Assoc.length_ofList_le Key.same fs

end HostObject

/-! ### Texts -/

/-- The format of an optional name; JSON where no format is named. -/
def TextFormat.ofSource? (source : Option String) : Option TextFormat :=
  match source with
  | none => ofName? "json"
  | some name => ofName? (if name.isEmpty then "json" else name)

namespace Value

variable {source : Option String} {text : String} {v : Value}

theorem deserialize_of_format
    {format : TextFormat}
    (named : TextFormat.ofSource? source = some format) :
    deserialize source text =
      readText text format >>= fun data => data.plain.readValue.mapError .projection := by
  cases source with
  | none =>
      have named : TextFormat.ofName? "json" = some format := named
      simp only [deserialize, named]
  | some name =>
      have named : TextFormat.ofName? (if name.isEmpty then "json" else name) = some format := named
      simp only [deserialize, named]

theorem deserialize_of_noFormat
    (noFormat : TextFormat.ofSource? source = none) :
    deserialize source text = .error (.unsupportedFormat source) := by
  cases source with
  | none =>
      have noFormat : TextFormat.ofName? "json" = none := noFormat
      simp only [deserialize, noFormat]
  | some name =>
      have noFormat : TextFormat.ofName? (if name.isEmpty then "json" else name) = none := noFormat
      simp only [deserialize, noFormat]

/-- What is decoded from a text is read from the plain data that it loads to. -/
theorem deserialize_eq_ok_iff :
    deserialize source text = .ok v ↔
      ∃ format data, TextFormat.ofSource? source = some format ∧
        readText text format = .ok data ∧ data.plain.Reads v := by
  have projects : ∀ o : HostObject,
      o.readValue.mapError SerializationError.projection = .ok v ↔ o.Reads v := fun o => by
    rw [HostObject.Reads]
    cases o.readValue <;> simp [Except.mapError]
  constructor
  · intro decoded
    cases named : TextFormat.ofSource? source with
    | none =>
        rw [deserialize_of_noFormat named] at decoded
        cases decoded
    | some format =>
        rw [deserialize_of_format named] at decoded
        obtain ⟨data, loaded, reads⟩ := except_bind_eq_ok.mp decoded
        exact ⟨format, data, rfl, loaded, (projects _).mp reads⟩
  · rintro ⟨format, data, named, loaded, reads⟩
    rw [deserialize_of_format named]
    exact except_bind_eq_ok.mpr ⟨data, loaded, (projects _).mpr reads⟩

end Value

end ExprLang
