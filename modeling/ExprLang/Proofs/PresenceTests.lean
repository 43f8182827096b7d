import ExprLang.Proofs.Denotation

/-!
# Presence tests

A presence test says of an access, without making it, whether it would come to a value.  The test and
the access go through the kinds of containers and keys on their own; they agree because both come down
to the same two questions: whether a position lies in a sequence, and whether a map has an entry under
a key.

* `hasKeyType_iff`, `asKey_toValue`, `asKey_of_not_hasKeyType`: the values that are keys.
* `inBounds_iff`, `exists_itemAt_iff`: the positions in a sequence.
* `hasIndex_iff`, `hasField_iff`: a test agrees with the access.
* `answers_contains`: the function `contains`.
* `has_index_of_operands`, `index_of_operands`: the nodes of an expression, once the operands are
  known.
-/

namespace ExprLang
namespace Value

/-- Whether a value is of one of the types that the keys of maps have. -/
def HasKeyType : Value → Prop
  | int _ | uint _ | bool _ | string _ => True
  | _ => False

/-- Whether a value is a list or a string. -/
def IsSequence : Value → Prop
  | list _ | string _ => True
  | _ => False

variable {c k v : Value} {entries : List (Key × Value)}

/-! ### Keys -/

/-- The values of the key types are those of the keys. -/
theorem hasKeyType_iff :
    v.HasKeyType ↔ ∃ key : Key, v = key.toValue := by
  constructor
  · intro hasKeyType
    cases v with
    | int n => exact ⟨.int n, rfl⟩
    | uint n => exact ⟨.uint n, rfl⟩
    | bool b => exact ⟨.bool b, rfl⟩
    | string s => exact ⟨.string s, rfl⟩
    | _ => cases hasKeyType
  · rintro ⟨key, rfl⟩
    cases key <;> trivial

theorem asKey_toValue
    (key : Key) :
    key.toValue.asKey = .ok key := by
  rw [asKey, toKey?_toValue]

theorem asKey_of_not_hasKeyType
    (other : ¬v.HasKeyType) :
    v.asKey = .error (.unsupportedKeyType v.typeName) := by
  have notKey : v.toKey? = none := Option.eq_none_iff_forall_ne_some.mpr fun key isKey =>
    other (hasKeyType_iff.mpr ⟨key, toKey?_eq_some_iff.mp isKey⟩)
  rw [asKey, notKey]

/-! ### Positions -/

variable {α : Type} {items : List α} {position : Int} {length : Nat}

theorem exists_itemAt_iff :
    (∃ item, itemAt items position = .ok item) ↔ 0 ≤ position ∧ position < items.length := by
  unfold itemAt
  split
  next negative =>
    exact ⟨nofun, fun inside => absurd inside.1 (by omega)⟩
  next notNegative =>
    split
    next found =>
      have inside := (List.getElem?_eq_some_iff.mp found).1
      exact ⟨fun _ => by omega, fun _ => ⟨_, rfl⟩⟩
    next missing =>
      have outside := List.getElem?_eq_none_iff.mp missing
      exact ⟨nofun, fun inside => absurd inside.2 (by omega)⟩

theorem inBounds_iff :
    k.inBounds length = true ↔
      ∃ position, k.integer? = some position ∧ 0 ≤ position ∧ position < length := by
  unfold inBounds
  split
  next found => simp [found]
  next missing => simp [missing]

/-- An integer in bounds is a position, signed or unsigned. -/
theorem inBounds_iff_position :
    k.inBounds length = true ↔
      ∃ position : Nat, position < length ∧ (k = .int position ∨ k = .uint position) := by
  refine inBounds_iff.trans ⟨?_, ?_⟩
  · rintro ⟨position, isInteger, notNegative, inside⟩
    refine ⟨position.toNat, by omega, ?_⟩
    cases k <;> cases isInteger
    · exact .inl (congrArg int (Int.toNat_of_nonneg notNegative).symm)
    · exact .inr rfl
  · rintro ⟨position, inside, rfl | rfl⟩
    all_goals exact ⟨position, rfl, by omega, by omega⟩

/-! ### Tests and accesses -/

theorem exists_index_list_iff
    {items : List Value} :
    (∃ v, (list items).index k = .ok v) ↔ k.inBounds items.length = true := by
  rw [inBounds_iff]
  unfold index
  cases k.integer? with
  | none => simp
  | some position =>
      simp only [Option.some.injEq, exists_eq_left']
      exact exists_itemAt_iff

theorem exists_index_string_iff
    {s : String} :
    (∃ v, (string s).index k = .ok v) ↔ k.inBounds s.length = true := by
  rw [inBounds_iff]
  unfold index
  cases k.integer? with
  | none => simp
  | some position =>
      simp only [Option.some.injEq, exists_eq_left', ← String.length_toList]
      refine Iff.trans ?_ exists_itemAt_iff
      cases itemAt s.toList position <;> simp [Except.map]

theorem index_map_toValue
    (key : Key) :
    (map entries).index key.toValue =
      match lookup? key entries with
      | some v => .ok v
      | none => .error (.noSuchKey key) := by
  simp only [index, asKey_toValue]
  rfl

theorem exists_index_map_iff :
    (∃ v, (map entries).index k = .ok v) ↔ (map entries).hasIndex k = true := by
  by_cases hasKeyType : k.HasKeyType
  · obtain ⟨key, rfl⟩ := hasKeyType_iff.mp hasKeyType
    rw [index_map_toValue]
    simp only [hasIndex, toKey?_toValue]
    cases lookup? key entries <;> simp
  · have notKey : k.toKey? = none := Option.eq_none_iff_forall_ne_some.mpr fun key isKey =>
      hasKeyType (hasKeyType_iff.mpr ⟨key, toKey?_eq_some_iff.mp isKey⟩)
    simp only [index, hasIndex, asKey_of_not_hasKeyType hasKeyType, notKey]
    constructor
    · rintro ⟨_, ⟨⟩⟩
    · rintro ⟨⟩

/-- The test for an index agrees with the access. -/
theorem hasIndex_iff :
    c.hasIndex k = true ↔ ∃ v, c.index k = .ok v := by
  cases c with
  | list items => exact exists_index_list_iff.symm
  | string s => exact exists_index_string_iff.symm
  | map entries => exact exists_index_map_iff.symm
  | _ => exact ⟨nofun, nofun⟩

/-- The test for a field agrees with the access. -/
theorem hasField_iff
    {field : String} :
    c.hasField field = true ↔ ∃ v, c.member field = .ok v := by
  cases c with
  | map entries =>
      simp only [hasField, member]
      cases lookup? (.string field) entries <;> simp
  | _ => exact ⟨nofun, nofun⟩

theorem contains_map :
    (map entries).contains k = .ok ((map entries).hasIndex k) := by
  simp only [contains, hasIndex]
  cases k.toKey? <;> rfl

/-- A sequence can be indexed at the positions below its size. -/
theorem exists_index_iff_of_isSequence
    (isSequence : c.IsSequence) :
    ∃ size, c.size = .ok size ∧
      ((∃ v, c.index k = .ok v) ↔
        ∃ position : Nat, position < size ∧ (k = .int position ∨ k = .uint position)) := by
  cases c with
  | list items => exact ⟨_, rfl, exists_index_list_iff.trans inBounds_iff_position⟩
  | string s => exact ⟨_, rfl, exists_index_string_iff.trans inBounds_iff_position⟩
  | _ => cases isSequence

end Value

/-! ### Containment -/

namespace Stdlib

open Value

variable {now : Time.Timestamp} {k : Value} {entries : List (Key × Value)}

/-- The function `contains` comes to what is said of container and item. -/
theorem answers_contains
    (container item : Value) :
    Eval.Answers now "contains" [container, item] ((containment container item).map .bool) := by
  have member : ("contains", containsEntry) ∈ entries now := List.mem_of_getElem? (i := 2) rfl
  have bound : (containsEntry.function "contains").bind [container, item] =
      .ok [.value container, .value item] := rfl
  exact Eval.answers_of_outcome member bound fun _ => rfl

theorem containment_map_of_hasKeyType
    (hasKeyType : k.HasKeyType) :
    containment (.map entries) k = .ok ((Value.map entries).hasIndex k) := by
  obtain ⟨key, rfl⟩ := hasKeyType_iff.mp hasKeyType
  simp only [containment, asKey_toValue, hasIndex, toKey?_toValue]
  rfl

theorem containment_map_of_not_hasKeyType
    (other : ¬k.HasKeyType) :
    containment (.map entries) k = .error (.unsupportedKeyType k.typeName) := by
  simp only [containment, asKey_of_not_hasKeyType other]
  rfl

end Stdlib

/-! ### Expressions -/

namespace Eval

open Value

section Expressions

variable {env : Environment} {depth : Nat} {m m' : Mark} {e k : Expr} {a b : Value}
  {s t u : EvalState}

/-- Operands that come to values one after the other are indexed. -/
theorem index_of_operands
    (target : evalAt env depth e s = (.ok a, t))
    (key : evalAt env depth k t = (.ok b, u)) :
    (∃ v, (evalAt env (depth + 1) (.index m e k) s).1 = .ok v) ↔ ∃ v, a.index b = .ok v := by
  have node : evalNode env depth (evalAt env depth) (.index m e k) s =
      EvalM.ofOutcome (a.index b) u := by
    rw [evalNode, EvalM.bind_apply, target]
    dsimp only
    rw [EvalM.bind_apply, key]
  rw [evalAt]
  cases found : a.index b with
  | ok v =>
      rw [found] at node
      exact ⟨fun _ => ⟨v, rfl⟩, fun _ => ⟨v, attributed_ok (congrArg Prod.fst node) _⟩⟩
  | error error =>
      rw [found] at node
      constructor
      · rintro ⟨v, ended⟩
        obtain ⟨_, ended⟩ := EvalM.attributed_eq_ok ended
        cases node.symm.trans ended
      · rintro ⟨_, ⟨⟩⟩

/-- Operands that come to values one after the other are tested. -/
theorem has_index_of_operands
    (target : evalAt env depth e s = (.ok a, t))
    (key : evalAt env depth k t = (.ok b, u)) :
    (evalAt env (depth + 1) (.has m (.index m' e k)) s).1 = .ok (.bool (a.hasIndex b)) := by
  have node : evalNode env depth (evalAt env depth) (.has m (.index m' e k)) s =
      (.ok (.bool (a.hasIndex b)), u) := by
    show evalHas _ (.index m' e k) s = _
    rw [evalHas, EvalM.bind_apply, target]
    dsimp only
    rw [EvalM.bind_apply, key]
    rfl
  rw [evalAt]
  exact attributed_ok (congrArg Prod.fst node) _

end Expressions

/-- The tests for presence hold exactly where the accesses come to a value: for an index and for a
field, by the operator and by the function for the keys of a map, and in an expression. -/
theorem presence_iff_access
    (now : Time.Timestamp) (c k : Value) (field : String) :
    (c.hasIndex k = true ↔ ∃ v, c.index k = .ok v) ∧
    (c.hasField field = true ↔ ∃ v, c.member field = .ok v) ∧
    (∀ entries, c = .map entries →
      c.hasIndex (.string field) = c.hasField field ∧
      applyBinary .isIn k c = .ok (.bool (c.hasIndex k)) ∧
      (k.HasKeyType → Answers now "contains" [c, k] (.ok (.bool (c.hasIndex k)))) ∧
      (¬k.HasKeyType → Answers now "contains" [c, k] (.error (.unsupportedKeyType k.typeName)))) ∧
    (c.IsSequence → ∃ size, c.size = .ok size ∧
      ((∃ v, c.index k = .ok v) ↔
        ∃ position : Nat, position < size ∧ (k = .int position ∨ k = .uint position))) ∧
    (∀ env depth m m' target key s t u,
      evalAt env depth target s = (.ok c, t) →
      evalAt env depth key t = (.ok k, u) →
      ∃ present,
        (evalAt env (depth + 1) (.has m (.index m' target key)) s).1 = .ok (.bool present) ∧
        (present = true ↔ ∃ v, (evalAt env (depth + 1) (.index m' target key) s).1 = .ok v)) := by
  refine ⟨hasIndex_iff, hasField_iff, ?_, exists_index_iff_of_isSequence, ?_⟩
  · rintro entries rfl
    refine ⟨rfl, ?_, fun hasKeyType => ?_, fun other => ?_⟩
    · show (do pure (Value.bool (← (Value.map entries).contains k))) = _
      rw [contains_map]
      rfl
    · have answers : Answers now "contains" [.map entries, k] _ :=
        Stdlib.answers_contains (.map entries) k
      rwa [Stdlib.containment_map_of_hasKeyType hasKeyType] at answers
    · have answers : Answers now "contains" [.map entries, k] _ :=
        Stdlib.answers_contains (.map entries) k
      rwa [Stdlib.containment_map_of_not_hasKeyType other] at answers
  · intro env depth m m' target key s t u ofTarget ofKey
    refine ⟨c.hasIndex k, has_index_of_operands ofTarget ofKey, ?_⟩
    exact hasIndex_iff.trans (index_of_operands ofTarget ofKey).symm

/-- An entry under a signed key is there for the unsigned key of its number, and there is none for
null, which is no key; a list has an item at its only position, and an expression finds it. -/
theorem presence_iff_access_instances :
    let entries : List (Key × Value) := [(.int 1, .null)]
    let target : Expr := .list default [.literal default (.int 5)]
    let key : Expr := .literal default (.uint 0)
    Answers .epoch "contains" [.map entries, .uint 1] (.ok (.bool true)) ∧
    Answers .epoch "contains" [.map entries, .null] (.error (.unsupportedKeyType "null")) ∧
    (∃ v, (Value.list [.int 5]).index (.uint 0) = .ok v) ∧
    (∃ present, (evalAt ⟨[], false⟩ 3 (.has default (.index default target key)) .initial).1 =
        .ok (.bool present) ∧
      (present = true ↔
        ∃ v, (evalAt ⟨[], false⟩ 3 (.index default target key) .initial).1 = .ok v)) := by
  intro entries target key
  obtain ⟨-, -, onMap, -, -⟩ := presence_iff_access .epoch (.map entries) (.uint 1) ""
  obtain ⟨-, -, onMap', -, -⟩ := presence_iff_access .epoch (.map entries) .null ""
  obtain ⟨-, -, -, onSequence, onExpressions⟩ :=
    presence_iff_access .epoch (.list [.int 5]) (.uint 0) ""
  obtain ⟨_, ⟨⟩, indexed⟩ := onSequence trivial
  refine ⟨(onMap entries rfl).2.2.1 trivial, (onMap' entries rfl).2.2.2 id, ?_, ?_⟩
  · exact indexed.mpr ⟨0, Nat.one_pos, .inr rfl⟩
  · exact onExpressions ⟨[], false⟩ 2 default default target key .initial .initial .initial rfl rfl

end Eval
end ExprLang
