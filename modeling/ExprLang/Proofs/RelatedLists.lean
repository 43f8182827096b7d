import Mathlib.Data.List.Forall2
import ExprLang.Proofs.WellFormedValues

/-!
# Lists related element by element

* `exists_forall₂`, `exists_forall₂_between`: lists that are related to a list, from elements that are.
* `exists_mem_of_forall₂`, `exists_getElem?_of_forall₂`: elements of related lists.
* `mapM_eq_ok_iff`, `mapM_eq_error`: what comes of the elements of a list one after another.
-/

namespace ExprLang

variable {α β : Type} {R : α → β → Prop} {as : List α} {bs : List β}

/-- Elements are related through a list between them. -/
theorem exists_forall₂_between
    {γ : Type} {S : α → γ → Prop} {T : β → γ → Prop}
    (related : List.Forall₂ R as bs)
    (between : ∀ a ∈ as, ∀ b, R a b → ∃ c, S a c ∧ T b c) :
    ∃ cs, List.Forall₂ S as cs ∧ List.Forall₂ T bs cs := by
  induction related with
  | nil => exact ⟨[], .nil, .nil⟩
  | @cons a b as bs first _ ih =>
      obtain ⟨here, others⟩ := List.forall_mem_cons.mp between
      obtain ⟨c, left, right⟩ := here b first
      obtain ⟨cs, lefts, rights⟩ := ih others
      exact ⟨c :: cs, .cons left lefts, .cons right rights⟩

theorem exists_forall₂
    (each : ∀ a ∈ as, ∃ b, R a b) :
    ∃ bs, List.Forall₂ R as bs := by
  induction as with
  | nil => exact ⟨[], .nil⟩
  | cons a as ih =>
      obtain ⟨⟨b, first⟩, others⟩ := List.forall_mem_cons.mp each
      obtain ⟨bs, rest⟩ := ih others
      exact ⟨b :: bs, .cons first rest⟩

theorem exists_mem_of_forall₂
    (related : List.Forall₂ R as bs) :
    ∀ b ∈ bs, ∃ a ∈ as, R a b := by
  induction related with
  | nil => exact nofun
  | cons first _ ih =>
      refine List.forall_mem_cons.mpr ⟨⟨_, List.mem_cons_self, first⟩, fun b member => ?_⟩
      obtain ⟨a, inside, other⟩ := ih b member
      exact ⟨a, List.mem_cons_of_mem _ inside, other⟩

theorem exists_getElem?_of_forall₂
    {i : Nat} {a : α}
    (related : List.Forall₂ R as bs)
    (here : as[i]? = some a) :
    ∃ b, bs[i]? = some b ∧ R a b := by
  induction related generalizing i with
  | nil => cases here
  | cons first _ ih =>
      cases i with
      | zero =>
          cases here
          exact ⟨_, rfl, first⟩
      | succ i => exact ih here

/-- One element is replaced by another that is related to what looks the same. -/
theorem forall₂_replace
    {γ : Type} {f : β → γ} {a a' : α}
    (replaces : ∀ b, R a b → ∃ b', R a' b' ∧ f b' = f b)
    (before after : List α)
    (related : List.Forall₂ R (before ++ a :: after) bs) :
    ∃ bs', List.Forall₂ R (before ++ a' :: after) bs' ∧ bs'.map f = bs.map f := by
  induction before generalizing bs with
  | nil =>
      obtain ⟨b, rest, here, others, rfl⟩ := List.forall₂_cons_left_iff.mp related
      obtain ⟨b', here', same⟩ := replaces b here
      exact ⟨b' :: rest, .cons here' others, by rw [List.map_cons, List.map_cons, same]⟩
  | cons x before ih =>
      obtain ⟨b, rest, here, others, rfl⟩ := List.forall₂_cons_left_iff.mp related
      obtain ⟨rest', others', same⟩ := ih others
      exact ⟨b :: rest', .cons here others', by rw [List.map_cons, List.map_cons, same]⟩

/-- An element is related both ways to the one at its place. -/
theorem exists_of_forall₂_both
    {S : β → α → Prop}
    (forth : List.Forall₂ R as bs)
    (back : List.Forall₂ S bs as) :
    ∀ a ∈ as, ∃ b, R a b ∧ S b a := by
  induction forth with
  | nil => exact nofun
  | cons first _ ih =>
      cases back with
      | cons here others => exact List.forall_mem_cons.mpr ⟨⟨_, first, here⟩, ih others⟩

/-! ### One element after another -/

section Traversal

variable {ε : Type} {f : α → Except ε β} {error : ε}

theorem mapM_eq_ok_iff :
    as.mapM f = .ok bs ↔ List.Forall₂ (fun a b => f a = .ok b) as bs := by
  induction as generalizing bs with
  | nil => simp [pure, Except.pure, eq_comm]
  | cons a as ih =>
      simp only [List.mapM_cons, except_bind_eq_ok, List.forall₂_cons_left_iff, ih]
      constructor
      · rintro ⟨b, first, rest, others, ⟨⟩⟩
        exact ⟨b, rest, first, others, rfl⟩
      · rintro ⟨b, rest, first, others, rfl⟩
        exact ⟨b, first, rest, others, rfl⟩

/-- The error is that of an element. -/
theorem mapM_eq_error
    (failed : as.mapM f = .error error) :
    ∃ a ∈ as, f a = .error error := by
  induction as with
  | nil => cases failed
  | cons a as ih =>
      rw [List.mapM_cons] at failed
      rw [List.exists_mem_cons_iff]
      rcases except_bind_eq_error.mp failed with here | ⟨b, -, failed⟩
      · exact .inl here
      rcases except_bind_eq_error.mp failed with others | ⟨bs, -, ⟨⟩⟩
      exact .inr (ih others)

end Traversal

end ExprLang
