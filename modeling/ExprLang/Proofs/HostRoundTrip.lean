import Mathlib.Data.List.Pairwise
import ExprLang.Proofs.CollectedMaps
import ExprLang.Proofs.DistinctKeys
import ExprLang.Proofs.Projection
import ExprLang.Proofs.ValueTrees

/-!
# Values that are handed to the host and back

The host has one type for signed and unsigned integers, and truth values are numbers to it.  So a value
that is turned into the closest object and back comes to an equal value, unless it has an unsigned
integer that is too large to be signed, which fails, or a map in which a truth value and its number are
keys, which loses an entry; undefined numbers equal nothing in any case.

**Invariant.**  A map comes back with as many entries as it had only if no entry was lost, and then its
entries come back one by one: what is lost in a map cannot be made up for elsewhere.

* `Key.same_toHost_iff`, `pairwise_toHost_iff`: keys that are one key to the host.
* `toValue_dict_iff`: dictionaries become maps entry by entry.
* `comesBack_list_iff`, `comesBack_map_iff`: lists and maps, by what is in them.
* `exists_of_toValue_toHost`: the error names an unsigned integer in the value.
* `comesBack_iff`, `returned_from_host`: the round trip.
-/

namespace ExprLang

/-! ### Keys -/

namespace Key

variable {k l : Key}

/-- Whether a key is a truth value and another one its number. -/
def IsTruthOf (k l : Key) : Prop :=
  ∃ b, k = .bool b ∧ l.number? = some (if b then 1 else 0)

theorem toValue_inj :
    k.toValue = l.toValue ↔ k = l := by
  refine ⟨fun same => ?_, congrArg toValue⟩
  have same := congrArg Value.toKey? same
  rwa [Value.toKey?_toValue, Value.toKey?_toValue, Option.some.injEq] at same

theorem signed_signed
    (k : Key) :
    k.signed.signed = k.signed := by
  cases k <;> rfl

/-- To the host keys are also one key if they are a truth value and its number. -/
theorem same_toHost_iff :
    k.toHost.same l.toHost = true ↔ k.same l = true ∨ k.IsTruthOf l ∨ l.IsTruthOf k := by
  have truth : ∀ b : Bool, (if b then (1 : Rat) else 0) = ((if b then 1 else 0 : Int) : Rat) :=
    fun b => by cases b <;> simp
  have cast : ∀ m n : Int, (m : Rat) = n ↔ m = n := fun _ _ => Rat.intCast_inj
  cases k <;> cases l <;>
    simp only [toHost, HostObject.same, HostObject.number?, Number.Extended.same, same, number?,
      IsTruthOf, truth, cast, decide_eq_true_iff, reduceCtorEq, Bool.false_eq_true, false_and, and_false,
      exists_false, or_false, false_or, Option.some.injEq, bool.injEq, string.injEq, exists_eq_left']
  case bool.int | bool.uint => exact eq_comm
  case bool.bool a b => cases a <;> cases b <;> decide

end Key

/-- Whether a map has a truth value and its number among its keys. -/
def Value.MixedKeys (entries : List (Key × Value)) : Prop :=
  ∃ e ∈ entries, ∃ f ∈ entries, e.1.IsTruthOf f.1

/-- Different keys stay apart in the host unless a truth value and its number are among them. -/
theorem pairwise_toHost_iff
    {entries : List (Key × Value)}
    (distinct : Assoc.Distinct Key.same entries) :
    (entries.Pairwise fun e f => e.1.toHost.same f.1.toHost = false) ↔
      ¬Value.MixedKeys entries := by
  constructor
  · rintro apart ⟨e, he, f, hf, isTruthOf⟩
    have symmetric : Std.Symm fun e f : Key × Value => e.1.toHost.same f.1.toHost = false := by
      refine ⟨fun e f => ?_⟩
      simp only [← Bool.not_eq_true, Key.same_toHost_iff, Key.same_iff, @eq_comm _ e.1.signed]
      exact mt fun same => same.imp_right Or.symm
    have different : e ≠ f := by
      rintro rfl
      obtain ⟨b, isBool, isNumber⟩ := isTruthOf
      rw [isBool] at isNumber
      cases isNumber
    have apart := apart.forall he hf different
    rw [Key.same_toHost_iff.mpr (.inr (.inl isTruthOf))] at apart
    cases apart
  · intro unmixed
    have distinct : entries.Pairwise fun e f => e.1.signed ≠ f.1.signed :=
      List.pairwise_map.mp (Value.distinct_iff.mp distinct)
    refine distinct.imp_of_mem fun {e f} he hf apart => ?_
    rw [← Bool.not_eq_true, Key.same_toHost_iff]
    rintro (same | isTruthOf | isTruthOf)
    · exact apart (Key.same_iff.mp same)
    · exact unmixed ⟨e, he, f, hf, isTruthOf⟩
    · exact unmixed ⟨f, hf, e, he, isTruthOf⟩

/-! ### Objects that become values -/

namespace HostObject

variable {o : HostObject} {v : Value} {objects : List HostObject} {vs : List Value}
  {written es fs : List (Key × Value)} {entries : List (HostObject × HostObject)}

/-- An entry of a dictionary and the entry of a map that it becomes. -/
def BecomesEntry (o : HostObject × HostObject) (e : Key × Value) : Prop :=
  o.1.toValue = .ok e.1.toValue ∧ o.2.toValue = .ok e.2

theorem toValue_int_iff
    {n : Int} :
    (int n).toValue = .ok v ↔ v = .int n ∧ InIntRange n := by
  rw [toValue]
  split <;> simp_all [eq_comm]

theorem toValues_eq_mapM
    (objects : List HostObject) :
    toValues objects = objects.mapM toValue := by
  induction objects with
  | nil => rfl
  | cons o objects ih => rw [toValues, ih, List.mapM_cons]

theorem toValues_eq_ok_iff :
    toValues objects = .ok vs ↔ List.Forall₂ (fun o v => o.toValue = .ok v) objects vs := by
  rw [toValues_eq_mapM, mapM_eq_ok_iff]

theorem toEntries_eq_ok_iff :
    toEntries written entries = .ok es ↔
      ∃ fs, List.Forall₂ BecomesEntry entries fs ∧
        es = fs.foldl (fun acc e => Value.putEntry acc e.1 e.2) written := by
  induction entries generalizing written with
  | nil => simp [toEntries, eq_comm]
  | cons o entries ih =>
      simp only [toEntries, except_bind_eq_ok, List.forall₂_cons_left_iff, ih]
      constructor
      · rintro ⟨k, ofKey, v, ofValue, key, isKey, fs, others, rfl⟩
        rw [Value.asKey_eq_ok_iff.mp isKey] at ofKey
        exact ⟨(key, v) :: fs, ⟨(key, v), fs, ⟨ofKey, ofValue⟩, others, rfl⟩, rfl⟩
      · rintro ⟨_, ⟨e, fs, ⟨ofKey, ofValue⟩, others, rfl⟩, rfl⟩
        exact ⟨_, ofKey, _, ofValue, _, Value.asKey_eq_ok_iff.mpr rfl, fs, others, rfl⟩

theorem toValue_list_iff :
    (list objects).toValue = .ok v ↔
      ∃ vs, v = .list vs ∧ List.Forall₂ (fun o v => o.toValue = .ok v) objects vs := by
  simp only [toValue, except_bind_eq_ok, toValues_eq_ok_iff]
  constructor
  · rintro ⟨vs, each, ⟨⟩⟩
    exact ⟨vs, rfl, each⟩
  · rintro ⟨vs, rfl, each⟩
    exact ⟨vs, each, rfl⟩

/-- The entries of a dictionary are turned one by one, and then written one after another. -/
theorem toValue_dict_iff :
    (dict entries).toValue = .ok v ↔
      ∃ fs, v = .map (Assoc.ofList Key.same fs) ∧ List.Forall₂ BecomesEntry entries fs := by
  simp only [toValue, except_bind_eq_ok, toEntries_eq_ok_iff]
  constructor
  · rintro ⟨_, ⟨fs, each, rfl⟩, ⟨⟩⟩
    exact ⟨fs, rfl, each⟩
  · rintro ⟨fs, rfl, each⟩
    exact ⟨_, ⟨fs, each, rfl⟩, rfl⟩

end HostObject

/-! ### Values that become objects -/

namespace Value

variable {v w : Value} {items : List Value} {entries : List (Key × Value)}

/-- The entry of a dictionary that an entry of a map becomes. -/
def hostEntry (e : Key × Value) : HostObject × HostObject :=
  (e.1.toHost, e.2.toHost)

theorem toHost_list :
    (list items).toHost = .list (items.map toHost) := by
  rw [toHost]
  congr 1
  induction items with
  | nil => rfl
  | cons v items ih => rw [toHostItems, ih, List.map_cons]

theorem toHostEntries_eq
    (written : List (HostObject × HostObject)) :
    toHostEntries written entries =
      (entries.map hostEntry).foldl (fun acc e => Assoc.put HostObject.same e.1 e.2 acc) written := by
  induction entries generalizing written with
  | nil => rfl
  | cons e entries ih => exact ih _

theorem toHost_map :
    (map entries).toHost = .dict (Assoc.ofList HostObject.same (entries.map hostEntry)) :=
  congrArg HostObject.dict (toHostEntries_eq [])

/-- What comes back for a value without parts: an unsigned integer is signed. -/
def signed : Value → Value
  | uint n => int n
  | v => v

/-- Whether a value is no unsigned integer that is too large to be signed. -/
def Signable : Value → Prop
  | uint n => (n : Int) ≤ maxInt
  | _ => True

theorem toValue_toHost_iff_of_atom?
    {x : Atom}
    (leaf : v.atom? = some x)
    (wellFormed : v.WellFormed) :
    v.toHost.toValue = .ok w ↔ w = v.signed ∧ v.Signable := by
  cases v <;> cases leaf
  case int n =>
    have inRange : InIntRange n := wellFormed
    simp [toHost, HostObject.toValue_int_iff, signed, Signable, inRange]
  case uint n =>
    have inRange : InIntRange n ↔ (n : Int) ≤ maxInt :=
      and_iff_right ((show minInt ≤ 0 by decide).trans (Int.natCast_nonneg n))
    simp only [toHost, HostObject.toValue_int_iff, signed, Signable, inRange]
  all_goals simp [toHost, HostObject.toValue, signed, Signable, eq_comm]

/-- What a value must be for the host to give it back: a float that is a number, an unsigned integer
that a signed one could stand for, a map without a truth value and its number among its keys. -/
def Returnable : Value → Prop
  | float f => Number.isUndefined f = false
  | map entries => ¬MixedKeys entries
  | v => v.Signable

/-- Whether a value comes back from the host as an equal value. -/
def ComesBack (v : Value) : Prop :=
  ∃ w, v.toHost.toValue = .ok w ∧ w.equals v = true

theorem comesBack_iff_of_atom?
    {x : Atom}
    (leaf : v.atom? = some x)
    (wellFormed : v.WellFormed) :
    v.ComesBack ↔ v.Returnable := by
  have same : v.signed.atom? = some x := by
    cases v <;> exact leaf
  have equal : v.signed.equals v = true ↔ x ≠ .number .undefined :=
    (equals_iff_of_atom? same leaf).trans (and_iff_right rfl)
  simp only [ComesBack, toValue_toHost_iff_of_atom? leaf wellFormed, and_assoc, exists_eq_left, equal]
  cases v <;> cases leaf <;> simp [Returnable, Signable, Number.extended_eq_undefined_iff]

theorem toHost_key
    (k : Key) :
    k.toHost = k.toValue.toHost := by
  cases k <;> rfl

theorem exists_atom?_key
    (k : Key) :
    ∃ x, k.toValue.atom? = some x := by
  cases k <;> exact ⟨_, rfl⟩

theorem signed_toValue
    (k : Key) :
    k.toValue.signed = k.signed.toValue := by
  cases k <;> rfl

/-- A key comes back signed, if it is an integer. -/
theorem toValue_toHost_key_iff
    {k : Key}
    (inRange : keyInRange k) :
    k.toHost.toValue = .ok v ↔ v = k.signed.toValue ∧ k.toValue.Signable := by
  obtain ⟨x, leaf⟩ := exists_atom?_key k
  rw [toHost_key, toValue_toHost_iff_of_atom? leaf (wellFormed_toValue_iff.mpr inRange),
    signed_toValue]

theorem returnable_key_iff
    {k : Key} :
    k.toValue.Returnable ↔ k.toValue.Signable := by
  cases k <;> exact Iff.rfl

/-! ### Lists and maps -/

theorem comesBack_list_iff :
    (list items).ComesBack ↔ ∀ v ∈ items, v.ComesBack := by
  constructor
  · rintro ⟨w, back, equal⟩ v member
    rw [toHost_list, HostObject.toValue_list_iff] at back
    obtain ⟨vs, rfl, each⟩ := back
    exact exists_of_forall₂_both (List.forall₂_map_left_iff.mp each) (equalItems_iff.mp equal) v member
  · intro each
    obtain ⟨vs, each⟩ := exists_forall₂ each
    refine ⟨.list vs, ?_, equalItems_iff.mpr (each.imp fun _ _ h => h.2).flip⟩
    rw [toHost_list, HostObject.toValue_list_iff]
    exact ⟨vs, rfl, List.forall₂_map_left_iff.mpr (each.imp fun _ _ h => h.1)⟩

theorem becomesEntry_hostEntry_iff
    {e f : Key × Value}
    (inRange : keyInRange e.1) :
    HostObject.BecomesEntry (hostEntry e) f ↔
      (f.1 = e.1.signed ∧ e.1.toValue.Signable) ∧ e.2.toHost.toValue = .ok f.2 :=
  and_congr_left' ((toValue_toHost_key_iff inRange).trans (and_congr_left' Key.toValue_inj))

theorem pairwise_hostEntry_iff
    (distinct : Assoc.Distinct Key.same entries) :
    ((entries.map hostEntry).Pairwise fun o p => o.1.same p.1 = false) ↔ ¬MixedKeys entries :=
  List.pairwise_map.trans (pairwise_toHost_iff distinct)

/-- A value that comes back under a signed key is found under it. -/
theorem lookup?_signed
    {e : Key × Value}
    (distinct : Assoc.Distinct Key.same entries)
    (member : e ∈ entries) :
    lookup? e.1.signed entries = some e.2 :=
  (lookup?_eq_some_iff distinct).mpr ⟨e, member, (Key.signed_signed e.1).symm, rfl⟩

/-- A map that comes back with as many entries as it had has lost none, in the dictionary and on the way
back. -/
theorem parts_of_comesBack_map
    (wellFormed : (map entries).WellFormed)
    (comesBack : (map entries).ComesBack) :
    ¬MixedKeys entries ∧ ∀ e ∈ entries, e.1.toValue.Signable ∧ e.2.ComesBack := by
  obtain ⟨distinct, inRange⟩ := wellFormed_map_iff.mp wellFormed
  obtain ⟨w, back, equal⟩ := comesBack
  rw [toHost_map, HostObject.toValue_dict_iff] at back
  obtain ⟨fs, rfl, each⟩ := back
  obtain ⟨length, found⟩ := equals_map_iff.mp equal
  -- No stage adds an entry, so as many entries at the end mean that no stage lost one.
  have inHost := Assoc.length_ofList_le HostObject.same (entries.map hostEntry)
  have inMap := Assoc.length_ofList_le Key.same fs
  have onTheWay := each.length_eq
  have all : (entries.map hostEntry).length = entries.length := List.length_map hostEntry
  have apart := Assoc.length_ofList_eq_iff.mp
    (show (Assoc.ofList HostObject.same (entries.map hostEntry)).length = _ by omega)
  have apart' := Assoc.length_ofList_eq_iff.mp
    (show (Assoc.ofList Key.same fs).length = fs.length by omega)
  rw [Assoc.ofList_of_distinct apart, List.forall₂_map_left_iff] at each
  rw [Assoc.ofList_of_distinct apart'] at found
  refine ⟨(pairwise_hostEntry_iff distinct).mp apart, fun e member => ?_⟩
  obtain ⟨f, inside, becomes⟩ := exists_mem_of_forall₂ each.flip e member
  obtain ⟨⟨isKey, signable⟩, back⟩ := (becomesEntry_hostEntry_iff (inRange e member).1).mp becomes
  obtain ⟨u, isFound, equal⟩ := found f inside
  rw [isKey, lookup?_signed distinct member] at isFound
  cases isFound
  exact ⟨signable, f.2, back, equal⟩

/-- Entries under signed keys have different keys if the entries that they stand for have. -/
theorem pairwise_of_signed
    {fs : List (Key × Value)}
    (distinct : Assoc.Distinct Key.same entries)
    (each : List.Forall₂ (fun e f => f.1 = e.1.signed) entries fs) :
    fs.Pairwise fun f g => f.1.same g.1 = false := by
  have keys : fs.map (fun f => f.1.signed) = entries.map fun e => e.1.signed := by
    rw [← List.forall₂_eq_eq_eq, List.forall₂_map_left_iff, List.forall₂_map_right_iff]
    refine each.flip.imp fun f e isKey => ?_
    rw [isKey, Key.signed_signed]
  have nodup := distinct_iff.mp distinct
  rw [← keys] at nodup
  exact (List.pairwise_map.mp nodup).imp Key.same_eq_false_iff.mpr

theorem comesBack_map_of_parts
    (wellFormed : (map entries).WellFormed)
    (unmixed : ¬MixedKeys entries)
    (each : ∀ e ∈ entries, e.1.toValue.Signable ∧ e.2.ComesBack) :
    (map entries).ComesBack := by
  obtain ⟨distinct, inRange⟩ := wellFormed_map_iff.mp wellFormed
  have apart := (pairwise_hostEntry_iff distinct).mpr unmixed
  obtain ⟨fs, each⟩ : ∃ fs, List.Forall₂ (fun e f =>
      HostObject.BecomesEntry (hostEntry e) f ∧ f.1 = e.1.signed ∧ f.2.equals e.2 = true)
      entries fs := exists_forall₂ fun e member => by
    obtain ⟨signable, w, back, equal⟩ := each e member
    exact ⟨(e.1.signed, w), (becomesEntry_hostEntry_iff (inRange e member).1).mpr
      ⟨⟨rfl, signable⟩, back⟩, rfl, equal⟩
  have apart' := pairwise_of_signed distinct (each.imp fun _ _ h => h.2.1)
  refine ⟨.map fs, ?_, equals_map_iff.mpr ⟨each.length_eq.symm, fun f inside => ?_⟩⟩
  · rw [toHost_map, HostObject.toValue_dict_iff, Assoc.ofList_of_distinct apart]
    exact ⟨fs, by rw [Assoc.ofList_of_distinct apart'],
      List.forall₂_map_left_iff.mpr (each.imp fun _ _ h => h.1)⟩
  · obtain ⟨e, member, -, isKey, equal⟩ := exists_mem_of_forall₂ each f inside
    exact ⟨e.2, isKey ▸ lookup?_signed distinct member, equal⟩

theorem comesBack_map_iff
    (wellFormed : (map entries).WellFormed) :
    (map entries).ComesBack ↔
      ¬MixedKeys entries ∧ ∀ e ∈ entries, e.1.toValue.Signable ∧ e.2.ComesBack :=
  ⟨parts_of_comesBack_map wellFormed, fun parts =>
    comesBack_map_of_parts wellFormed parts.1 parts.2⟩

end Value

/-! ### Failures -/

namespace HostObject

variable {objects : List HostObject} {entries : List (HostObject × HostObject)}
  {written : List (Key × Value)} {error : RuntimeError}

/-- A dictionary whose keys become keys fails where one of its keys or values does. -/
theorem toEntries_eq_error
    (keys : ∀ o ∈ entries, ∀ v, o.1.toValue = .ok v → v.HasKeyType)
    (failed : toEntries written entries = .error error) :
    ∃ o ∈ entries, o.1.toValue = .error error ∨ o.2.toValue = .error error := by
  induction entries generalizing written with
  | nil => cases failed
  | cons o entries ih =>
      obtain ⟨here, keys⟩ := List.forall_mem_cons.mp keys
      rw [List.exists_mem_cons_iff]
      rcases except_bind_eq_error.mp failed with ofKey | ⟨k, ofKey, failed⟩
      · exact .inl (.inl ofKey)
      rcases except_bind_eq_error.mp failed with ofValue | ⟨v, -, failed⟩
      · exact .inl (.inr ofValue)
      obtain ⟨key, rfl⟩ := Value.hasKeyType_iff.mp (here k ofKey)
      rw [Value.asKey_toValue] at failed
      exact .inr (ih keys failed)

end HostObject

namespace Value

variable {v : Value} {items : List Value} {entries : List (Key × Value)} {error : RuntimeError}

theorem exists_of_toValue_toHost_of_atom?
    {x : Atom}
    (leaf : v.atom? = some x)
    (wellFormed : v.WellFormed)
    (failed : v.toHost.toValue = .error error) :
    ∃ n, v = uint n ∧ maxInt < n ∧ error = .overflow "int" [.number n] := by
  have unsignable : ¬v.Signable := fun signable => by
    rw [(toValue_toHost_iff_of_atom? leaf wellFormed).mpr ⟨rfl, signable⟩] at failed
    cases failed
  cases v
  case uint n =>
    have large : maxInt < n := not_le.mp unsignable
    rw [toHost, HostObject.toValue, if_neg fun inRange => unsignable inRange.2] at failed
    cases failed
    exact ⟨n, rfl, large, rfl⟩
  all_goals exact absurd trivial unsignable

/-- A map fails where one of its keys or values does. -/
theorem exists_entry_of_toValue_toHost_map
    (inRange : ∀ e ∈ entries, keyInRange e.1)
    (failed : (map entries).toHost.toValue = .error error) :
    ∃ e ∈ entries, e.1.toHost.toValue = .error error ∨ e.2.toHost.toValue = .error error := by
  -- What fails is still in the dictionary, and so in the map, though perhaps under another key.
  have fromEntries : ∀ o ∈ Assoc.ofList HostObject.same (entries.map hostEntry),
      (∃ e ∈ entries, o.1 = e.1.toHost) ∧ ∃ e ∈ entries, o.2 = e.2.toHost :=
    Assoc.forall_mem_ofList (P := fun o => ∃ e ∈ entries, o = e.1.toHost)
      (Q := fun o => ∃ e ∈ entries, o = e.2.toHost)
      (List.forall_mem_map.mpr fun e member => ⟨⟨e, member, rfl⟩, ⟨e, member, rfl⟩⟩)
  have keys : ∀ o ∈ Assoc.ofList HostObject.same (entries.map hostEntry), ∀ v,
      o.1.toValue = .ok v → v.HasKeyType := by
    intro o isEntry v ofKey
    obtain ⟨⟨e, member, isKey⟩, -⟩ := fromEntries o isEntry
    rw [isKey, toValue_toHost_key_iff (inRange e member)] at ofKey
    exact hasKeyType_iff.mpr ⟨e.1.signed, ofKey.1⟩
  rw [toHost_map, HostObject.toValue] at failed
  rcases except_bind_eq_error.mp failed with failed | ⟨es, -, ⟨⟩⟩
  obtain ⟨o, isEntry, failed⟩ := HostObject.toEntries_eq_error keys failed
  obtain ⟨⟨e, hasKey, isKey⟩, ⟨f, hasValue, isValue⟩⟩ := fromEntries o isEntry
  rcases failed with ofKey | ofValue
  · exact ⟨e, hasKey, .inl (isKey ▸ ofKey)⟩
  · exact ⟨f, hasValue, .inr (isValue ▸ ofValue)⟩

/-- Handing a value back fails only at an unsigned integer in it that is too large. -/
theorem exists_of_toValue_toHost
    (wellFormed : v.WellFormed)
    (failed : v.toHost.toValue = .error error) :
    ∃ n, v.Contains (uint n) ∧ maxInt < n ∧ error = .overflow "int" [.number n] := by
  induction v using Value.induction with
  | leaf v x leaf =>
      obtain ⟨n, rfl, reported⟩ := exists_of_toValue_toHost_of_atom? leaf wellFormed failed
      exact ⟨n, .self _, reported⟩
  | list items ih =>
      rw [toHost_list, HostObject.toValue] at failed
      rcases except_bind_eq_error.mp failed with failed | ⟨vs, -, ⟨⟩⟩
      rw [HostObject.toValues_eq_mapM] at failed
      obtain ⟨_, isHost, failed⟩ := mapM_eq_error failed
      obtain ⟨v, member, rfl⟩ := List.mem_map.mp isHost
      obtain ⟨n, inside, reported⟩ := ih v member (wellFormed_list_iff.mp wellFormed v member) failed
      exact ⟨n, .item member inside, reported⟩
  | map entries ih =>
      have wellFormed := (wellFormed_map_iff.mp wellFormed).2
      obtain ⟨e, member, failed⟩ :=
        exists_entry_of_toValue_toHost_map (fun e member => (wellFormed e member).1) failed
      rcases failed with ofKey | ofValue
      · obtain ⟨x, leaf⟩ := exists_atom?_key e.1
        rw [toHost_key] at ofKey
        obtain ⟨n, isInteger, reported⟩ := exists_of_toValue_toHost_of_atom? leaf
          (wellFormed_toValue_iff.mpr (wellFormed e member).1) ofKey
        exact ⟨n, isInteger ▸ .key member, reported⟩
      · obtain ⟨n, inside, reported⟩ := ih e member (wellFormed e member).2 ofValue
        exact ⟨n, .value member inside, reported⟩

/-! ### The round trip -/

theorem comesBack_iff
    (wellFormed : v.WellFormed) :
    v.ComesBack ↔ v.Throughout Returnable := by
  induction v using Value.induction with
  | leaf v x leaf =>
      rw [throughout_iff_of_atom? leaf, comesBack_iff_of_atom? leaf wellFormed]
  | list items ih =>
      have wellFormed := wellFormed_list_iff.mp wellFormed
      rw [comesBack_list_iff, throughout_list_iff]
      exact (forall₂_congr fun v member => ih v member (wellFormed v member)).trans
        (and_iff_right trivial).symm
  | map entries ih =>
      rw [comesBack_map_iff wellFormed, throughout_map_iff]
      have wellFormed := (wellFormed_map_iff.mp wellFormed).2
      refine and_congr_right fun _ => forall₂_congr fun e member => ?_
      rw [ih e member (wellFormed e member).2, returnable_key_iff]

theorem throughout_returnable_iff :
    v.Throughout Returnable ↔
      (∀ f, v.Contains (float f) → Number.isUndefined f = false) ∧
      (∀ n, v.Contains (uint n) → (n : Int) ≤ maxInt) ∧
      ∀ entries, v.Contains (map entries) → ¬MixedKeys entries := by
  constructor
  · intro each
    exact ⟨fun f => each (float f), fun n => each (uint n), fun entries => each (map entries)⟩
  · rintro ⟨floats, integers, maps⟩ w inside
    cases w with
    | float f => exact floats f inside
    | uint n => exact integers n inside
    | map entries => exact maps entries inside
    | _ => trivial

/-- A value that is handed to the host and back comes to an equal value if and only if it contains no
float that is not a number, no unsigned integer that is too large to be signed, and no map with a truth
value and its number among its keys.  Handing it back fails only at such an integer. -/
theorem returned_from_host
    (v : Value)
    (wellFormed : v.WellFormed) :
    ((∃ w, v.toHost.toValue = .ok w ∧ w.equals v = true) ↔
      (∀ f, v.Contains (float f) → Number.isUndefined f = false) ∧
      (∀ n, v.Contains (uint n) → (n : Int) ≤ maxInt) ∧
      ∀ entries, v.Contains (map entries) → ¬MixedKeys entries) ∧
    ∀ error, v.toHost.toValue = .error error →
      ∃ n, v.Contains (uint n) ∧ maxInt < n ∧ error = .overflow "int" [.number n] :=
  ⟨(comesBack_iff wellFormed).trans throughout_returnable_iff,
    fun _ failed => exists_of_toValue_toHost wellFormed failed⟩

/-- A map loses an entry although the one that is dropped holds an integer that would have failed;
another comes back with its key and an item signed. -/
theorem returned_from_host_merged :
    let merged := map [(.bool true, uint 9223372036854775808), (.int 1, null)]
    let kept := map [(.uint 2, list [float 0.5, uint 7]), (.bool true, function "size")]
    merged.WellFormed ∧ kept.WellFormed ∧
      (merged.toHost.toValue = .ok (map [(.bool true, null)]) ∧
        ¬∃ w, merged.toHost.toValue = .ok w ∧ w.equals merged = true) ∧
      ∃ w, kept.toHost.toValue = .ok w ∧ w.equals kept = true := by
  intro merged kept
  have wellFormed : merged.WellFormed := by
    simp [merged, WellFormed, WellFormedEntries, keyInRange, InIntRange, minInt, maxInt, maxUInt,
      Assoc.Distinct, Key.same, Key.number?]
  have wellFormed' : kept.WellFormed := by
    simp [kept, WellFormed, WellFormedEntries, WellFormedItems, keyInRange, maxUInt, Assoc.Distinct,
      Key.same, Key.number?]
  have half : Number.isUndefined 0.5 = false := by decide +kernel
  have unmixed : ¬MixedKeys [(.uint 2, list [float 0.5, uint 7]), (.bool true, function "size")] := by
    simp [MixedKeys, Key.IsTruthOf, Key.number?]
  have items : (list [float 0.5, uint 7]).Throughout Returnable :=
    throughout_list_iff.mpr ⟨trivial, List.forall_mem_cons.mpr
      ⟨(throughout_iff_of_atom? rfl).mpr half, List.forall_mem_singleton.mpr
        ((throughout_iff_of_atom? rfl).mpr (show ((7 : Nat) : Int) ≤ maxInt by decide))⟩⟩
  have returnable : kept.Throughout Returnable :=
    throughout_map_iff.mpr ⟨unmixed, List.forall_mem_cons.mpr
      ⟨⟨show ((2 : Nat) : Int) ≤ maxInt by decide, items⟩, List.forall_mem_singleton.mpr
        ⟨trivial, (throughout_iff_of_atom? rfl).mpr trivial⟩⟩⟩
  refine ⟨wellFormed, wellFormed', ⟨rfl, fun back => ?_⟩,
    (returned_from_host kept wellFormed').1.mpr (throughout_returnable_iff.mp returnable)⟩
  have small := ((returned_from_host merged wellFormed).1.mp back).2.1 9223372036854775808
    (.value List.mem_cons_self (.self _))
  exact absurd small (by decide)

end Value
end ExprLang
