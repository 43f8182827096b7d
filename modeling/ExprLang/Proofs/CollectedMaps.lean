import ExprLang.Document
import ExprLang.Proofs.PresenceTests
import ExprLang.Proofs.ValueEquality

/-!
# Collected maps

A map is collected from pairs of a key and a value, one pair after another.  Up to the equality of
the language it is a finite map: there is one entry for each class of equal keys, at the place and
under the key that came first, with the value that came last.

**Invariant.**  What is written so far has the first keys of the pairs that were read, and the last
values.

* `hasKeyType_of_putPairs`, `putPairs_eq_error`: collecting fails at the first value that is no key.
* `keys_putPairs`, `lookup?_putPairs`: the keys that come first, the values that come last.
* `collects_makeMap`: the whole map.
* `evalAt_map`, `toEntries_eq`, `readEntries_eq`: map expressions, dictionaries of the host and
  documents collect their pairs in this way.
-/

namespace ExprLang
namespace Value

/-- The value that was given last for the class of a key. -/
def lastGiven (k : Value) (pairs : List (Value × Value)) : Option Value :=
  (pairs.reverse.find? fun p => p.1.equals k).map (·.2)

/-- Whether the entries of a map are those that pairs of values come to. -/
structure IsCollected
    (pairs : List (Value × Value))
    (entries : List (Key × Value)) : Prop where
  keys : entries.map (fun e => e.1.toValue) = (pairs.map (·.1)).eraseDupsBy equals
  apart : entries.Pairwise fun e e' => e.1.toValue.equals e'.1.toValue = false
  values : ∀ e ∈ entries, lastGiven e.1.toValue pairs = some e.2
  index : ∀ k v, k.HasKeyType → ((map entries).index k = .ok v ↔ lastGiven k pairs = some v)
  hasIndex : ∀ k, k.HasKeyType → (map entries).hasIndex k = (lastGiven k pairs).isSome

/-- Whether an outcome is the map of pairs of values, or the report of the first that has no key. -/
structure Collects
    (pairs : List (Value × Value))
    (outcome : Outcome Value) : Prop where
  fails : (∃ error, outcome = .error error) ↔ ∃ p ∈ pairs, ¬p.1.HasKeyType
  reports : ∀ error, outcome = .error error →
    ∃ before p after, pairs = before ++ p :: after ∧ (∀ q ∈ before, q.1.HasKeyType) ∧
      ¬p.1.HasKeyType ∧ error = .unsupportedKeyType p.1.typeName
  collected : ∀ v, outcome = .ok v → ∃ entries, v = .map entries ∧ IsCollected pairs entries

variable {k v : Value} {key : Key} {pairs : List (Value × Value)}
  {entries written : List (Key × Value)} {error : RuntimeError}

/-! ### Failures -/

theorem asKey_eq_ok_iff :
    k.asKey = .ok key ↔ k = key.toValue := by
  refine ⟨asKey_eq_ok, ?_⟩
  rintro rfl
  exact asKey_toValue key

theorem putPairs_cons_eq_ok :
    putPairs written ((k, v) :: pairs) = .ok entries ↔
      ∃ key : Key, k = key.toValue ∧ putPairs (putEntry written key v) pairs = .ok entries := by
  simp only [← asKey_eq_ok_iff]
  exact except_bind_eq_ok

theorem putPairs_cons_of_not_hasKeyType
    (other : ¬k.HasKeyType) :
    putPairs written ((k, v) :: pairs) = .error (.unsupportedKeyType k.typeName) := by
  rw [putPairs, asKey_of_not_hasKeyType other]
  rfl

theorem putPairs_cons_toValue :
    putPairs written ((key.toValue, v) :: pairs) = putPairs (putEntry written key v) pairs := by
  rw [putPairs, asKey_toValue]
  rfl

theorem hasKeyType_of_putPairs
    (put : putPairs written pairs = .ok entries) :
    ∀ p ∈ pairs, p.1.HasKeyType := by
  induction pairs generalizing written with
  | nil => exact nofun
  | cons p pairs ih =>
      obtain ⟨key, isKey, put⟩ := putPairs_cons_eq_ok.mp put
      exact List.forall_mem_cons.mpr ⟨hasKeyType_iff.mpr ⟨key, isKey⟩, ih put⟩

/-- The report is of the first pair that has no key. -/
theorem putPairs_eq_error
    (failed : putPairs written pairs = .error error) :
    ∃ before p after, pairs = before ++ p :: after ∧ (∀ q ∈ before, q.1.HasKeyType) ∧
      ¬p.1.HasKeyType ∧ error = .unsupportedKeyType p.1.typeName := by
  induction pairs generalizing written with
  | nil => cases failed
  | cons p pairs ih =>
      obtain ⟨k, v⟩ := p
      by_cases hasKeyType : k.HasKeyType
      · obtain ⟨key, rfl⟩ := hasKeyType_iff.mp hasKeyType
        rw [putPairs_cons_toValue] at failed
        obtain ⟨before, p, after, rfl, each, other, reported⟩ := ih failed
        exact ⟨(key.toValue, v) :: before, p, after, rfl,
          List.forall_mem_cons.mpr ⟨hasKeyType, each⟩, other, reported⟩
      · rw [putPairs_cons_of_not_hasKeyType hasKeyType] at failed
        cases failed
        exact ⟨[], (k, v), pairs, rfl, nofun, hasKeyType, rfl⟩

/-! ### Keys -/

theorem keys_putEntry :
    (putEntry written key v).map (fun e => e.1.toValue) =
      if (written.map fun e => e.1.toValue).any (key.toValue.equals ·) then
        written.map fun e => e.1.toValue
      else
        (written.map fun e => e.1.toValue) ++ [key.toValue] := by
  induction written with
  | nil => rfl
  | cons e written ih =>
      have agree : e.1.same key = key.toValue.equals e.1.toValue := by
        rw [← same_eq_equals, Bool.eq_iff_iff, Key.same_iff, Key.same_iff, eq_comm]
      rw [putEntry] at ih
      rw [putEntry, Assoc.put, agree, List.map_cons, List.any_cons]
      cases key.toValue.equals e.1.toValue with
      | true => simp
      | false =>
          simp only [Bool.false_eq_true, ↓reduceIte, List.map_cons, ih, Bool.false_or]
          split <;> rfl

/-- The keys are the first of their classes; the loop that erases duplicates holds those that are
written, the newest first. -/
theorem keys_putPairs
    (put : putPairs written pairs = .ok entries) :
    entries.map (fun e => e.1.toValue) =
      List.eraseDupsBy.loop equals (pairs.map (·.1)) (written.map fun e => e.1.toValue).reverse := by
  induction pairs generalizing written with
  | nil =>
      cases put
      rw [List.map_nil, List.eraseDupsBy.loop, List.reverse_reverse]
  | cons p pairs ih =>
      obtain ⟨k, v⟩ := p
      obtain ⟨key, rfl, putRest⟩ := putPairs_cons_eq_ok.mp put
      rw [ih putRest, keys_putEntry, List.map_cons, List.eraseDupsBy.loop, List.any_reverse]
      cases (written.map fun e => e.1.toValue).any (key.toValue.equals ·) with
      | true => rfl
      | false =>
          simp only [Bool.false_eq_true, ↓reduceIte, List.reverse_append, List.reverse_singleton]
          rfl

theorem distinct_putPairs
    (distinct : Assoc.Distinct Key.same written)
    (put : putPairs written pairs = .ok entries) :
    Assoc.Distinct Key.same entries := by
  induction pairs generalizing written with
  | nil =>
      cases put
      exact distinct
  | cons p pairs ih =>
      obtain ⟨key, -, put⟩ := putPairs_cons_eq_ok.mp put
      exact ih (Assoc.distinct_put distinct key p.2) put

theorem pairwise_of_distinct
    (distinct : Assoc.Distinct Key.same entries) :
    entries.Pairwise fun e e' => e.1.toValue.equals e'.1.toValue = false := by
  induction entries with
  | nil => exact .nil
  | cons e entries ih =>
      obtain ⟨apart, distinct⟩ := distinct
      refine .cons (fun e' member => ?_) (ih distinct)
      rw [← same_eq_equals]
      exact apart e' member

/-! ### Values -/

theorem lastGiven_cons
    {w : Value} :
    lastGiven k ((w, v) :: pairs) =
      (lastGiven k pairs).or (if w.equals k then some v else none) := by
  simp only [lastGiven, List.reverse_cons, List.find?_append, List.find?_singleton]
  cases pairs.reverse.find? fun p => p.1.equals k with
  | some p => rfl
  | none => cases w.equals k <;> rfl

theorem lookup?_putEntry_self
    {sought : Key}
    (same : key.signed = sought.signed) :
    lookup? sought (putEntry written key v) = some v := by
  rw [← lookup?_congr same, lookup?, putEntry]
  exact Assoc.find?_put_self _ (fun k => Key.same_iff.mpr rfl) ..

theorem lookup?_putEntry_other
    {sought : Key}
    (other : key.signed ≠ sought.signed) :
    lookup? sought (putEntry written key v) = lookup? sought written := by
  simp only [lookup?, putEntry]
  induction written with
  | nil =>
      have apart : key.same sought = false := Key.same_eq_false_iff.mpr other
      simp [Assoc.put, Assoc.find?, apart]
  | cons e written ih =>
      rw [Assoc.put]
      split
      next found =>
        have apart : e.1.same sought = false :=
          Key.same_eq_false_iff.mpr (Key.same_iff.mp found ▸ other)
        simp [Assoc.find?, apart]
      next => rw [Assoc.find?, Assoc.find?, ih]

theorem lookup?_putEntry
    {sought : Key} :
    lookup? sought (putEntry written key v) =
      (if key.toValue.equals sought.toValue then some v else none).or (lookup? sought written) := by
  rw [← same_eq_equals]
  split
  next same => exact lookup?_putEntry_self (Key.same_iff.mp same)
  next other => exact lookup?_putEntry_other fun same => other (Key.same_iff.mpr same)

/-- The value under a key is the last that was given for its class. -/
theorem lookup?_putPairs
    (put : putPairs written pairs = .ok entries) :
    lookup? key entries = (lastGiven key.toValue pairs).or (lookup? key written) := by
  induction pairs generalizing written with
  | nil =>
      cases put
      rfl
  | cons p pairs ih =>
      obtain ⟨k, v⟩ := p
      obtain ⟨given, rfl, putRest⟩ := putPairs_cons_eq_ok.mp put
      rw [ih putRest, lookup?_putEntry, lastGiven_cons, Option.or_assoc]

/-! ### Whole maps -/

theorem isCollected_of_putPairs
    (put : putPairs [] pairs = .ok entries) :
    IsCollected pairs entries := by
  have empty : Assoc.Distinct Key.same ([] : List (Key × Value)) := trivial
  have distinct := distinct_putPairs empty put
  have found : ∀ key, lookup? key entries = lastGiven key.toValue pairs := fun key =>
    (lookup?_putPairs put).trans (Option.or_none ..)
  refine ⟨keys_putPairs put, pairwise_of_distinct distinct, fun e member => ?_, ?_, ?_⟩
  · rw [← found]
    exact (lookup?_eq_some_iff distinct).mpr ⟨e, member, rfl, rfl⟩
  · intro k v hasKeyType
    obtain ⟨key, rfl⟩ := hasKeyType_iff.mp hasKeyType
    rw [index_map_toValue, found]
    cases lastGiven key.toValue pairs <;> simp
  · intro k hasKeyType
    obtain ⟨key, rfl⟩ := hasKeyType_iff.mp hasKeyType
    simp only [Value.hasIndex, toKey?_toValue, found]

theorem makeMap_eq_ok_iff :
    makeMap pairs = .ok v ↔ ∃ entries, v = .map entries ∧ putPairs [] pairs = .ok entries := by
  unfold makeMap
  cases putPairs [] pairs <;> simp [Except.map, eq_comm]

theorem makeMap_eq_error_iff :
    makeMap pairs = .error error ↔ putPairs [] pairs = .error error := by
  unfold makeMap
  cases putPairs [] pairs <;> simp [Except.map]

theorem collects_makeMap
    (pairs : List (Value × Value)) :
    Collects pairs (makeMap pairs) := by
  refine ⟨⟨?_, ?_⟩, fun error failed => ?_, fun v made => ?_⟩
  · rintro ⟨error, failed⟩
    obtain ⟨before, p, after, rfl, -, other, -⟩ :=
      putPairs_eq_error (makeMap_eq_error_iff.mp failed)
    exact ⟨p, by simp, other⟩
  · rintro ⟨p, member, other⟩
    cases put : putPairs [] pairs with
    | ok entries => exact absurd (hasKeyType_of_putPairs put p member) other
    | error error => exact ⟨error, makeMap_eq_error_iff.mpr put⟩
  · exact putPairs_eq_error (makeMap_eq_error_iff.mp failed)
  · obtain ⟨entries, rfl, put⟩ := makeMap_eq_ok_iff.mp made
    exact ⟨entries, rfl, isCollected_of_putPairs put⟩

/-! ### Classes -/

/-- Integers are in one class if they are one number, whatever their types. -/
theorem int_equals_uint_iff
    {m : Int} {n : Nat} :
    (int m).equals (uint n) = true ↔ m = n := by
  rw [← show (Key.int m).toValue = int m from rfl, ← show (Key.uint n).toValue = uint n from rfl,
    ← same_eq_equals, Key.same_iff]
  simp [Key.signed]

/-- A truth value is in no class of a number. -/
theorem bool_equals_integer
    {b : Bool} {n : Int}
    (isInteger : v.integer? = some n) :
    (bool b).equals v = false := by
  cases v <;> cases isInteger <;> rfl

end Value

/-! ### Map expressions -/

namespace Eval

open Value

/-- Evaluates pairs of expressions from left to right, each key before its value. -/
def evalPairs (rec : Expr → EvalM Value) : List (Expr × Expr) → EvalM (List (Value × Value))
  | [] => return []
  | (k, e) :: rest => do
      let key ← rec k
      let v ← rec e
      let others ← evalPairs rec rest
      return (key, v) :: others

variable {rec : Expr → EvalM Value} {es : List (Expr × Expr)} {pairs : List (Value × Value)}
  {written : List (Key × Value)} {s t : EvalState}

/-- The entries of a map expression are written as the pairs that they come to. -/
theorem evalEntries_of_pairs
    (evaluated : evalPairs rec es s = (.ok pairs, t)) :
    (evalEntries rec written es s).1 =
      (putPairs written pairs).mapError (.failure · none) := by
  induction es generalizing written pairs s with
  | nil =>
      cases evaluated
      rfl
  | cons e rest ih =>
      obtain ⟨key, s₁, ofKey, evaluated⟩ := EvalM.bind_eq_ok.mp evaluated
      obtain ⟨v, s₂, ofValue, evaluated⟩ := EvalM.bind_eq_ok.mp evaluated
      obtain ⟨others, s₃, ofOthers, evaluated⟩ := EvalM.bind_eq_ok.mp evaluated
      cases evaluated
      rw [evalEntries, EvalM.bind_apply, ofKey]
      dsimp only
      rw [EvalM.bind_apply, ofValue]
      dsimp only
      by_cases hasKeyType : key.HasKeyType
      · obtain ⟨key, rfl⟩ := hasKeyType_iff.mp hasKeyType
        rw [asKey_toValue, EvalM.ofOutcome_ok, pure_bind, putPairs_cons_toValue]
        exact ih ofOthers
      · rw [asKey_of_not_hasKeyType hasKeyType, putPairs_cons_of_not_hasKeyType hasKeyType]
        rfl

/-- A map expression comes to the map of the pairs that its entries come to, or fails at its node. -/
theorem evalAt_map
    {env : Environment} {depth : Nat} {m : Mark}
    (evaluated : evalPairs (evalAt env depth) es s = (.ok pairs, t)) :
    (evalAt env (depth + 1) (.map m es) s).1 =
      (makeMap pairs).mapError (.failure · (some m.id)) := by
  have written : (evalEntries (evalAt env depth) [] es s).1 = _ := evalEntries_of_pairs evaluated
  rw [evalAt]
  show (EvalM.attributed m.id (evalEntries (evalAt env depth) [] es >>= fun entries =>
    pure (Value.map entries)) s).1 = _
  unfold makeMap
  cases put : putPairs [] pairs with
  | ok entries =>
      rw [put] at written
      exact attributed_ok (bind_ok written fun _ => rfl) m.id
  | error error =>
      rw [put] at written
      rw [EvalM.attributed, EvalM.bind_apply]
      rcases ran : evalEntries (evalAt env depth) [] es s with ⟨r, u⟩
      rw [ran] at written
      cases written
      rfl

end Eval

/-! ### Objects of the host and documents -/

namespace HostObject

open Value

variable {objects : List (HostObject × HostObject)} {pairs : List (Value × Value)}
  {written : List (Key × Value)}

/-- Objects are written as the pairs that they are turned into. -/
theorem toEntries_eq
    (converted : List.Forall₂ (fun o p => o.1.toValue = .ok p.1 ∧ o.2.toValue = .ok p.2)
      objects pairs) :
    toEntries written objects = putPairs written pairs := by
  induction converted generalizing written with
  | nil => rw [toEntries, putPairs]
  | @cons o p objects pairs first _ ih =>
      obtain ⟨k, v⟩ := p
      rw [toEntries, first.1, first.2]
      show k.asKey.bind (fun key => toEntries (Value.putEntry written key v) objects) = _
      simp only [ih]
      rfl

/-- Entries of a document are written under the text of their keys. -/
theorem readEntries_eq
    (read : List.Forall₂ (fun o p => p.1 = .string o.1.shownText ∧ o.2.readValue = .ok p.2)
      objects pairs)
    (written : List (Key × Value)) :
    ∃ entries, readEntries written objects = .ok entries ∧
      putPairs written pairs = .ok entries := by
  induction read generalizing written with
  | nil => exact ⟨written, by rw [readEntries], by rw [putPairs]⟩
  | @cons o p objects pairs first _ ih =>
      obtain ⟨k, v⟩ := p
      obtain ⟨rfl, ofValue⟩ := first
      obtain ⟨entries, here, put⟩ := ih (Value.putEntry written (.string o.1.shownText) v)
      refine ⟨entries, ?_, putPairs_cons_eq_ok.mpr ⟨.string _, rfl, put⟩⟩
      rw [readEntries, ofValue]
      exact here

end HostObject

namespace Value

/-- A map that is collected from pairs of values, by the operation, by a map expression whose keys and
values come to them, from a dictionary of the host or from a document, has one entry for each class of
equal keys, under the first key and with the last value; it fails where a value is no key.  Integers of
one number are equal, a truth value and an integer are not. -/
theorem collected_from_pairs
    (pairs : List (Value × Value)) :
    Collects pairs (makeMap pairs) ∧
    (∀ env depth m es s t, Eval.evalPairs (Eval.evalAt env depth) es s = (.ok pairs, t) →
      (Eval.evalAt env (depth + 1) (.map m es) s).1 =
        (makeMap pairs).mapError (.failure · (some m.id))) ∧
    (∀ objects : List (HostObject × HostObject),
      List.Forall₂ (fun o p => o.1.toValue = .ok p.1 ∧ o.2.toValue = .ok p.2) objects pairs →
      (HostObject.dict objects).toValue = makeMap pairs) ∧
    (∀ objects : List (HostObject × HostObject),
      List.Forall₂ (fun o p => p.1 = .string o.1.shownText ∧ o.2.readValue = .ok p.2)
        objects pairs →
      ∃ v, makeMap pairs = .ok v ∧ (HostObject.dict objects).readValue = .ok v) ∧
    (∀ m n, (int m).equals (uint n) = true ↔ m = n) ∧
    (∀ b v n, v.integer? = some n → (bool b).equals v = false) := by
  refine ⟨collects_makeMap pairs, ?_, ?_, ?_, fun _ _ => int_equals_uint_iff,
    fun _ _ _ => bool_equals_integer⟩
  · intro env depth m es s t evaluated
    exact Eval.evalAt_map evaluated
  · intro objects converted
    rw [HostObject.toValue, HostObject.toEntries_eq converted]
    unfold makeMap
    cases putPairs [] pairs <;> rfl
  · intro objects read
    obtain ⟨entries, here, put⟩ := HostObject.readEntries_eq read []
    refine ⟨.map entries, makeMap_eq_ok_iff.mpr ⟨entries, rfl, put⟩, ?_⟩
    rw [HostObject.readValue, here]
    rfl

/-- One number is given as a signed and as an unsigned key, a truth value between them, to a map
expression and in a dictionary of the host; a document has one entry. -/
theorem collected_from_pairs_sameNumber :
    let pairs : List (Value × Value) := [(.int 1, .int 5), (.bool true, .null), (.uint 1, .int 6)]
    let es : List (Expr × Expr) :=
      pairs.map fun p => (.literal default p.1, .literal default p.2)
    let objects : List (HostObject × HostObject) := pairs.map fun p => (.value p.1, .value p.2)
    IsCollected pairs [(.int 1, .int 6), (.bool true, .null)] ∧
    (Eval.evalAt ⟨[], false⟩ 2 (.map default es) .initial).1 =
      (makeMap pairs).mapError (.failure · (some 0)) ∧
    (HostObject.dict objects).toValue = makeMap pairs ∧
    (∃ v, makeMap [(.string "a", .null)] = .ok v ∧
      (HostObject.dict [(.text "a", .none)]).readValue = .ok v) ∧
    (bool true).equals (uint 1) = false := by
  intro pairs es objects
  obtain ⟨collects, ofExpressions, ofObjects, -, -, ofTruth⟩ := collected_from_pairs pairs
  obtain ⟨-, -, -, ofDocuments, -⟩ := collected_from_pairs [(.string "a", .null)]
  refine ⟨?_, ?_, ?_, ?_, ofTruth true (.uint 1) 1 rfl⟩
  · obtain ⟨entries, made, isCollected⟩ := collects.collected _ rfl
    rw [← Value.map.inj made] at isCollected
    exact isCollected
  · exact ofExpressions ⟨[], false⟩ 1 default es .initial .initial rfl
  · refine ofObjects objects (List.forall₂_map_left_iff.mpr ?_)
    exact List.forall₂_same.mpr fun _ _ => ⟨rfl, rfl⟩
  · exact ofDocuments [(.text "a", .none)] (.cons ⟨rfl, rfl⟩ .nil)

end Value
end ExprLang
