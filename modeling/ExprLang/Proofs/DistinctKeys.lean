import ExprLang.Assoc

/-!
# Entries with different keys

Entries that are written one after another, into a map or a dictionary, are all kept if and only if
no two of their keys are the same; otherwise there are fewer of them in the end.

* `length_put_le`, `apart_of_length_put`: one write.
* `length_foldl_put_le`, `apart_of_length_foldl_put`: a run of writes, by induction on what is still to
  be written.
* `forall_mem_ofList`, `length_ofList_le`, `length_ofList_eq_iff`: all writes.
-/

namespace ExprLang
namespace Assoc

variable {κ α : Type} {same : κ → κ → Bool} {key : κ} {value : α} {entries written : List (κ × α)}

/-! ### One write -/

theorem length_put_le
    (same : κ → κ → Bool)
    (key : κ) (value : α) (written : List (κ × α)) :
    (put same key value written).length ≤ written.length + 1 := by
  rw [length_put]
  split <;> omega

/-- A write adds an entry only if its key is new. -/
theorem apart_of_length_put
    (longer : written.length < (put same key value written).length) :
    ∀ w ∈ written, same w.1 key = false := by
  induction written with
  | nil => exact nofun
  | cons w written ih =>
      rw [put] at longer
      split at longer
      · exact absurd longer (Nat.lt_irrefl _)
      next apart =>
        refine List.forall_mem_cons.mpr ⟨Bool.eq_false_iff.mpr apart, ih ?_⟩
        exact Nat.lt_of_succ_lt_succ longer

/-! ### All writes -/

theorem length_foldl_put_le
    (same : κ → κ → Bool)
    (entries written : List (κ × α)) :
    (entries.foldl (fun acc e => put same e.1 e.2 acc) written).length ≤
      written.length + entries.length := by
  induction entries generalizing written with
  | nil => exact Nat.le_refl _
  | cons e entries ih =>
      have here := length_put_le same e.1 e.2 written
      have later := ih (put same e.1 e.2 written)
      rw [List.foldl_cons, List.length_cons]
      omega

/-- If each of some writes adds an entry, then their keys are all new and all different. -/
theorem apart_of_length_foldl_put
    (longest : (entries.foldl (fun acc e => put same e.1 e.2 acc) written).length =
      written.length + entries.length) :
    (∀ w ∈ written, ∀ e ∈ entries, same w.1 e.1 = false) ∧
      entries.Pairwise fun e e' => same e.1 e'.1 = false := by
  induction entries generalizing written with
  | nil => exact ⟨fun _ _ => nofun, .nil⟩
  | cons e entries ih =>
      rw [List.foldl_cons, List.length_cons] at longest
      have here := length_put_le same e.1 e.2 written
      have later := length_foldl_put_le same entries (put same e.1 e.2 written)
      have longer : written.length < (put same e.1 e.2 written).length := by omega
      have new := apart_of_length_put longer
      have rest : (entries.foldl (fun acc e => put same e.1 e.2 acc)
          (put same e.1 e.2 written)).length =
          (put same e.1 e.2 written).length + entries.length := by omega
      obtain ⟨apart, distinct⟩ := ih rest
      rw [put_new new e.2] at apart
      obtain ⟨others, first⟩ := List.forall_mem_append.mp apart
      refine ⟨fun w member => ?_, .cons (first _ List.mem_cons_self) distinct⟩
      exact List.forall_mem_cons.mpr ⟨new w member, others w member⟩

/-- What holds of all keys and of all values still does once they are written. -/
theorem forall_mem_ofList
    {P : κ → Prop} {Q : α → Prop}
    (each : ∀ e ∈ entries, P e.1 ∧ Q e.2) :
    ∀ e ∈ ofList same entries, P e.1 ∧ Q e.2 := by
  suffices onto : ∀ written : List (κ × α), (∀ w ∈ written, P w.1 ∧ Q w.2) →
      ∀ e ∈ entries.foldl (fun acc e => put same e.1 e.2 acc) written, P e.1 ∧ Q e.2 from
    onto [] nofun
  induction entries with
  | nil => exact fun _ before => before
  | cons e entries ih =>
      intro written before
      obtain ⟨here, others⟩ := List.forall_mem_cons.mp each
      exact ih others _ (forall_mem_put before here.1 here.2)

theorem length_ofList_le
    (same : κ → κ → Bool)
    (entries : List (κ × α)) :
    (ofList same entries).length ≤ entries.length := by
  have length := length_foldl_put_le same entries []
  rwa [List.length_nil, Nat.zero_add] at length

/-- All entries are kept if and only if no two keys are the same. -/
theorem length_ofList_eq_iff :
    (ofList same entries).length = entries.length ↔
      entries.Pairwise fun e e' => same e.1 e'.1 = false := by
  constructor
  · intro kept
    have longest : (entries.foldl (fun acc e => put same e.1 e.2 acc) []).length =
        ([] : List (κ × α)).length + entries.length := by
      rwa [List.length_nil, Nat.zero_add]
    exact (apart_of_length_foldl_put longest).2
  · intro distinct
    rw [ofList_of_distinct distinct]

end Assoc
end ExprLang
