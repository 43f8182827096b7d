import ExprLang.Proofs.HostReading
import ExprLang.Proofs.ValueTrees

/-!
# What decoding keeps

Data that was loaded from a text, or handed over as it is, becomes a value.  Every key becomes a text, and
of two keys with one text only the later value is kept: nothing is reported.  So no entry is lost exactly
where the keys of each dictionary have different texts.

* `decodes_list`, `decodes_tuple`, `decodes_dict_of_apart`: what containers are decoded to.
* `Decodes.part?`: the parts of an object are decoded to the parts of the value.
* `keeps_iff_namesApart`: no entry is lost if and only if no two keys of a dictionary have one text.
* `decoding_keeps_iff`: the same for data and for texts.
-/

namespace ExprLang

namespace HostObject

variable {o p : HostObject} {v w : Value} {items : List HostObject} {es : List (Key × Value)}
  {entries : List (HostObject × HostObject)}

/-! ### Decoding containers -/

/-- An object and a value that it is decoded to, as it is or once it is plain. -/
def Decodes (o : HostObject) (v : Value) : Prop :=
  o.Reads v ∨ o.plain.Reads v

/-- An entry of a dictionary and an entry that it is decoded to. -/
def DecodesEntry (o : HostObject × HostObject) (e : Key × Value) : Prop :=
  e.1 = .string o.1.shownText ∧ o.2.Decodes e.2

theorem decodes_list
    (decodes : Decodes (list items) v) :
    ∃ vs, v = .list vs ∧ List.Forall₂ Decodes items vs := by
  rcases decodes with reads | reads
  · obtain ⟨vs, rfl, each⟩ := reads_list_iff.mp reads
    exact ⟨vs, rfl, each.imp fun _ _ => .inl⟩
  · rw [plain_list] at reads
    obtain ⟨vs, rfl, each⟩ := reads_list_iff.mp reads
    exact ⟨vs, rfl, (List.forall₂_map_left_iff.mp each).imp fun _ _ => .inr⟩

/-- Tuples are not made plain. -/
theorem decodes_tuple
    (decodes : Decodes (tuple items) v) :
    ∃ vs, v = .list vs ∧ List.Forall₂ Decodes items vs := by
  obtain ⟨vs, rfl, each⟩ := reads_tuple_iff.mp (decodes.elim id id)
  exact ⟨vs, rfl, each.imp fun _ _ => .inl⟩

theorem decodes_dict_of_apart
    (apart : (shownKeys entries).Nodup)
    (decodes : Decodes (dict entries) v) :
    ∃ es, v = .map es ∧ List.Forall₂ DecodesEntry entries es := by
  rcases decodes with reads | reads
  · obtain ⟨es, rfl, each⟩ := (reads_dict_iff_of_apart apart).mp reads
    exact ⟨es, rfl, each.imp fun _ _ h => ⟨h.1, .inl h.2⟩⟩
  · rw [plain_dict_of_apart apart] at reads
    rw [← shownKeys_map_plainEntry] at apart
    obtain ⟨es, rfl, each⟩ := (reads_dict_iff_of_apart apart).mp reads
    exact ⟨es, rfl, (List.forall₂_map_left_iff.mp each).imp fun _ _ h => ⟨h.1, .inr h.2⟩⟩

/-- If a dictionary with as many entries comes to a map, then its keys have different texts: what is lost
where it is made plain cannot be made up for where it is read. -/
theorem apart_of_decodes_dict
    (decodes : Decodes (dict entries) (.map es))
    (kept : es.length = entries.length) :
    (shownKeys entries).Nodup := by
  rcases decodes with reads | reads
  · exact apart_of_reads_dict reads kept
  · rw [plain_dict] at reads
    have all : (entries.map plainEntry).length = entries.length := List.length_map plainEntry
    have plain := Assoc.length_ofList_le same (entries.map plainEntry)
    have read := length_le_of_reads_dict reads
    exact pairwise_plainEntry_iff.mp (Assoc.length_ofList_eq_iff.mp (by omega))

/-! ### Places -/

/-- The item of a sequence, or the object of an entry of a dictionary, at a position. -/
def part? : HostObject → Nat → Option HostObject
  | list items, i => items[i]?
  | tuple items, i => items[i]?
  | dict entries, i => entries[i]?.map Prod.snd
  | _, _ => Option.none

/-- What stands at a place in an object: a path of positions that leads to it. -/
def partAt? (o : HostObject) (path : List Nat) : Option HostObject :=
  path.foldlM part? o

/-- Whether no two keys of a dictionary in an object have one text. -/
def NamesApart (o : HostObject) : Prop :=
  ∀ path entries, o.partAt? path = some (dict entries) → (shownKeys entries).Nodup

/-- Whether a value has a list wherever an object has a sequence, and a map wherever it has a dictionary,
with as many items and entries. -/
def Keeps (o : HostObject) (v : Value) : Prop :=
  ∀ path,
    (∀ items, o.partAt? path = some (list items) ∨ o.partAt? path = some (tuple items) →
      ∃ vs, v.partAt? path = some (.list vs) ∧ vs.length = items.length) ∧
    ∀ entries, o.partAt? path = some (dict entries) →
      ∃ es, v.partAt? path = some (.map es) ∧ es.length = entries.length

theorem partAt?_cons
    {i : Nat}
    (part : o.part? i = some p)
    (path : List Nat) :
    o.partAt? (i :: path) = p.partAt? path := by
  rw [partAt?, List.foldlM_cons, part]
  rfl

theorem namesApart_iff :
    o.NamesApart ↔ (∀ entries, o = dict entries → (shownKeys entries).Nodup) ∧
      ∀ i p, o.part? i = some p → p.NamesApart := by
  constructor
  · intro apart
    refine ⟨fun entries isDict => apart [] entries (isDict ▸ rfl), fun i p part path entries there => ?_⟩
    rw [← partAt?_cons part] at there
    exact apart (i :: path) entries there
  · rintro ⟨here, parts⟩ path entries there
    cases path with
    | nil => exact here entries (Option.some.inj there)
    | cons i path =>
        rw [partAt?, List.foldlM_cons] at there
        obtain ⟨p, part, there⟩ := Option.bind_eq_some_iff.mp there
        exact parts i p part path entries there

theorem Keeps.part?
    {i : Nat}
    (keeps : Keeps o v)
    (part : o.part? i = some p)
    (part' : v.part? i = some w) :
    Keeps p w := by
  intro path
  have keeps := keeps (i :: path)
  rwa [partAt?_cons part, Value.partAt?, List.foldlM_cons, part'] at keeps

/-! ### Decoding the parts -/

theorem Decodes.part?
    {i : Nat}
    (apart : ∀ entries, o = dict entries → (shownKeys entries).Nodup)
    (decodes : Decodes o v)
    (part : o.part? i = some p) :
    ∃ w, v.part? i = some w ∧ Decodes p w := by
  cases o with
  | list items =>
      obtain ⟨vs, rfl, each⟩ := decodes_list decodes
      exact exists_getElem?_of_forall₂ each part
  | tuple items =>
      obtain ⟨vs, rfl, each⟩ := decodes_tuple decodes
      exact exists_getElem?_of_forall₂ each part
  | dict entries =>
      obtain ⟨es, rfl, each⟩ := decodes_dict_of_apart (apart entries rfl) decodes
      obtain ⟨e, here, rfl⟩ := Option.map_eq_some_iff.mp part
      obtain ⟨f, there, decodes⟩ := exists_getElem?_of_forall₂ each here
      exact ⟨f.2, Option.map_eq_some_iff.mpr ⟨f, there, rfl⟩, decodes.2⟩
  | _ => cases part

/-- Where the keys of each dictionary have different texts, what stands at a place is decoded to what
stands there in the value. -/
theorem Decodes.partAt?
    {path : List Nat}
    (apart : o.NamesApart)
    (decodes : Decodes o v)
    (there : o.partAt? path = some p) :
    ∃ w, v.partAt? path = some w ∧ Decodes p w ∧ p.NamesApart := by
  refine exists_foldlM_of_step (R := fun o v => Decodes o v ∧ o.NamesApart) ?_ ⟨decodes, apart⟩ there
  rintro o v i p ⟨decodes, apart⟩ part
  obtain ⟨here, parts⟩ := namesApart_iff.mp apart
  obtain ⟨w, part', decodes⟩ := decodes.part? here part
  exact ⟨w, part', decodes, parts i p part⟩

theorem apart_of_keeps
    (decodes : Decodes o v)
    (keeps : Keeps o v)
    (isDict : o = dict entries) :
    (shownKeys entries).Nodup := by
  obtain ⟨es, here, length⟩ := (keeps []).2 entries (isDict ▸ rfl)
  cases here
  exact apart_of_decodes_dict (isDict ▸ decodes) length

/-- No entry is lost if and only if no two keys of a dictionary have one text. -/
theorem keeps_iff_namesApart
    (decodes : Decodes o v) :
    Keeps o v ↔ o.NamesApart := by
  constructor
  · intro keeps path entries there
    -- Parts of a dictionary that lost nothing are decoded one by one, so both relations go on.
    obtain ⟨w, -, decodes, keeps⟩ : ∃ w, v.partAt? path = some w ∧
        Decodes (dict entries) w ∧ Keeps (dict entries) w := by
      refine exists_foldlM_of_step (R := fun o v => Decodes o v ∧ Keeps o v) ?_ ⟨decodes, keeps⟩ there
      rintro o v i p ⟨decodes, keeps⟩ part
      obtain ⟨w, part', decodes'⟩ := decodes.part? (fun _ => apart_of_keeps decodes keeps) part
      exact ⟨w, part', decodes', keeps.part? part part'⟩
    exact apart_of_keeps decodes keeps rfl
  · intro apart path
    constructor
    · rintro items (there | there)
      · obtain ⟨w, there', decodes, -⟩ := decodes.partAt? apart there
        obtain ⟨vs, rfl, each⟩ := decodes_list decodes
        exact ⟨vs, there', each.length_eq.symm⟩
      · obtain ⟨w, there', decodes, -⟩ := decodes.partAt? apart there
        obtain ⟨vs, rfl, each⟩ := decodes_tuple decodes
        exact ⟨vs, there', each.length_eq.symm⟩
    · intro entries there
      obtain ⟨w, there', decodes, apart⟩ := decodes.partAt? apart there
      obtain ⟨es, rfl, each⟩ := decodes_dict_of_apart (apart [] entries rfl) decodes
      exact ⟨es, there', each.length_eq.symm⟩

/-! ### Data and texts -/

/-- Data, and a text that loads to it, is decoded to a value with a list for each sequence and a map for
each dictionary, with as many items and entries, if and only if no two keys of a dictionary in the data
have one text. -/
theorem decoding_keeps_iff
    (data : HostObject)
    (v : Value)
    (decoded : data.readValue = .ok v ∨ ∃ source text format,
      TextFormat.ofSource? source = some format ∧ Value.readText text format = .ok data ∧
      Value.deserialize source text = .ok v) :
    Keeps data v ↔ data.NamesApart := by
  refine keeps_iff_namesApart (decoded.imp_right ?_)
  rintro ⟨source, text, format, named, loaded, decoded⟩
  obtain ⟨format', data', named', loaded', reads⟩ := Value.deserialize_eq_ok_iff.mp decoded
  cases named.symm.trans named'
  cases loaded.symm.trans loaded'
  exact reads

/-- An empty container and anything without parts. -/
theorem namesApart_of_part?
    (leaf : ∀ i, o.part? i = Option.none)
    (noDict : ∀ entries, o ≠ dict entries) :
    o.NamesApart :=
  namesApart_iff.mpr ⟨fun entries isDict => absurd isDict (noDict entries),
    fun i p part => by rw [leaf i] at part; cases part⟩

/-- Data that keeps its entries, and data that loses one below a sequence. -/
theorem decoding_keeps_distinct_keys :
    let kept := dict [(int 1, text "a"), (text "one", tuple [none])]
    let lost := list [dict [(bool true, none), (text "True", text "b")]]
    (∃ v, kept.readValue = .ok v ∧ Keeps kept v) ∧
      lost.readValue = .ok (.list [.map [(.string "True", .string "b")]]) ∧
      ¬Keeps lost (.list [.map [(.string "True", .string "b")]]) := by
  intro kept lost
  have apart : kept.NamesApart := by
    refine namesApart_iff.mpr ⟨?_, ?_⟩
    · intro entries isDict
      obtain rfl := HostObject.dict.inj isDict
      decide
    · rintro (_ | _ | i) p part <;> cases part
      · exact namesApart_of_part? (fun _ => rfl) nofun
      · refine namesApart_iff.mpr ⟨nofun, ?_⟩
        rintro (_ | i) p part <;> cases part
        exact namesApart_of_part? (fun _ => rfl) nofun
  refine ⟨⟨_, rfl, (decoding_keeps_iff kept _ (.inl rfl)).mpr apart⟩, rfl, fun keeps => ?_⟩
  have apart := (decoding_keeps_iff lost _ (.inl rfl)).mp keeps [0] _ rfl
  exact absurd apart (by decide)

/-- A dictionary with a number and its text as keys. -/
def numberAndText : HostObject :=
  dict [(int 1, text "a"), (text "1", text "b")]

/-- Whether that dictionary was loaded. -/
def isNumberAndText : Except SerializationError HostObject → Bool
  | .ok (dict [(int n, text s), (text k, text t)]) => n == 1 && s == "a" && k == "1" && t == "b"
  | _ => false

theorem eq_of_isNumberAndText
    {loaded : Except SerializationError HostObject}
    (found : isNumberAndText loaded = true) :
    loaded = .ok numberAndText := by
  unfold isNumberAndText at found
  split at found
  · simp only [Bool.and_eq_true, beq_iff_eq, and_assoc] at found
    obtain ⟨rfl, rfl, rfl, rfl⟩ := found
    rfl
  · cases found

theorem readText_numberAndText :
    Value.readText "1: a\n'1': b\n" .yaml = .ok numberAndText :=
  eq_of_isNumberAndText (by decide +kernel)

/-- Both the dictionary and a text that loads to it come to a map with one entry. -/
theorem not_keeps_numberAndText :
    let v := Value.map [(.string "1", .string "b")]
    numberAndText.readValue = .ok v ∧
      Value.readText "1: a\n'1': b\n" .yaml = .ok numberAndText ∧
      Value.deserialize (some "yaml") "1: a\n'1': b\n" = .ok v ∧
      ¬Keeps numberAndText v := by
  refine ⟨rfl, readText_numberAndText, Value.deserialize_eq_ok_iff.mpr
    ⟨.yaml, numberAndText, rfl, readText_numberAndText, rfl⟩, fun keeps => ?_⟩
  obtain ⟨es, ⟨⟩, length⟩ := (keeps []).2 _ rfl
  cases length

end HostObject
end ExprLang
