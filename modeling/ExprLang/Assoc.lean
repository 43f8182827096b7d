/-!
# Association lists in insertion order

Entries keep the order in which their keys came first.  Writing under a key that is already there,
in the sense of the given equality, keeps the old key and its place and replaces the value.

* `find?_put_self`: what is found after a write.
* `length_put`: a write adds an entry exactly when its key is new.
* `put_new`, `ofList_of_distinct`: entries under new keys are added at the end.
* `lookup_put_self`, `lookup_put_other`: look-ups after a write.
* `distinct_put`: a write makes no two keys the same.
-/

namespace ExprLang
namespace Assoc

variable {κ α : Type}

/-- The value under the first key that is the same as `key`. -/
def find? (same : κ → κ → Bool) (key : κ) : List (κ × α) → Option α
  | [] => none
  | (k, v) :: rest => if same k key then some v else find? same key rest

/-- Whether some key is the same as `key`. -/
def has (same : κ → κ → Bool) (key : κ) (entries : List (κ × α)) : Bool :=
  (find? same key entries).isSome

/-- Writes a value under a key. -/
def put (same : κ → κ → Bool) (key : κ) (value : α) : List (κ × α) → List (κ × α)
  | [] => [(key, value)]
  | (k, v) :: rest =>
      if same k key then (k, value) :: rest else (k, v) :: put same key value rest

/-- Writes the entries of a list one after another. -/
def ofList (same : κ → κ → Bool) (entries : List (κ × α)) : List (κ × α) :=
  entries.foldl (fun acc e => put same e.1 e.2 acc) []

/-- Whether no two keys are the same. -/
def Distinct (same : κ → κ → Bool) : List (κ × α) → Prop
  | [] => True
  | (k, _) :: rest => (∀ e ∈ rest, same k e.1 = false) ∧ Distinct same rest

theorem find?_put_self
    (same : κ → κ → Bool)
    (refl : ∀ k, same k k = true)
    (key : κ) (value : α) (entries : List (κ × α)) :
    find? same key (put same key value entries) = some value := by
  induction entries with
  | nil => simp [put, find?, refl]
  | cons e rest ih =>
      obtain ⟨k, v⟩ := e
      by_cases h : same k key = true
      · simp [put, find?, h]
      · simp [put, find?, h, ih]

theorem length_put
    (same : κ → κ → Bool)
    (key : κ) (value : α) (entries : List (κ × α)) :
    (put same key value entries).length =
      if has same key entries then entries.length else entries.length + 1 := by
  induction entries with
  | nil => simp [put, has, find?]
  | cons e rest ih =>
      obtain ⟨k, v⟩ := e
      by_cases h : same k key = true
      · simp [put, has, find?, h]
      · simp only [put, h, has, find?, List.length_cons, Bool.false_eq_true, if_false] at ih ⊢
        rw [ih]
        by_cases hr : (find? same key rest).isSome = true <;> simp [hr]

/-- Writing under a key that is not there adds an entry at the end. -/
theorem put_new
    {same : κ → κ → Bool}
    {key : κ} {entries : List (κ × α)}
    (new : ∀ e ∈ entries, same e.1 key = false)
    (value : α) :
    put same key value entries = entries ++ [(key, value)] := by
  induction entries with
  | nil => rfl
  | cons e entries ih =>
      rw [put, new e List.mem_cons_self, ih fun e member => new e (List.mem_cons_of_mem _ member)]
      rfl

theorem exists_mem_of_find?
    {same : κ → κ → Bool}
    {key : κ} {value : α} {entries : List (κ × α)}
    (found : find? same key entries = some value) :
    ∃ k, (k, value) ∈ entries := by
  induction entries with
  | nil => cases found
  | cons e rest ih =>
      obtain ⟨k, v⟩ := e
      rw [find?] at found
      split at found
      · cases found
        exact ⟨k, List.mem_cons_self⟩
      · obtain ⟨k', member⟩ := ih found
        exact ⟨k', List.mem_cons_of_mem _ member⟩

/-- What holds of all keys and of all values still does after a write of such a key and such a
value. -/
theorem forall_mem_put
    {same : κ → κ → Bool}
    {P : κ → Prop} {Q : α → Prop}
    {key : κ} {value : α} {entries : List (κ × α)}
    (each : ∀ e ∈ entries, P e.1 ∧ Q e.2)
    (hkey : P key)
    (hvalue : Q value) :
    ∀ e ∈ put same key value entries, P e.1 ∧ Q e.2 := by
  induction entries with
  | nil =>
      intro e member
      rw [List.mem_singleton.mp member]
      exact ⟨hkey, hvalue⟩
  | cons e rest ih =>
      obtain ⟨k, v⟩ := e
      obtain ⟨here, each⟩ := List.forall_mem_cons.mp each
      rw [put]
      split
      · exact List.forall_mem_cons.mpr ⟨⟨here.1, hvalue⟩, each⟩
      · exact List.forall_mem_cons.mpr ⟨here, ih each⟩

theorem distinct_put
    {same : κ → κ → Bool}
    {entries : List (κ × α)}
    (distinct : Distinct same entries)
    (key : κ) (value : α) :
    Distinct same (put same key value entries) := by
  induction entries with
  | nil => exact ⟨nofun, trivial⟩
  | cons e rest ih =>
      obtain ⟨k, v⟩ := e
      obtain ⟨apart, distinct⟩ := distinct
      rw [put]
      split
      · exact ⟨apart, distinct⟩
      next isOther =>
        have apart' : ∀ e ∈ put same key value rest, same k e.1 = false ∧ True :=
          @forall_mem_put _ _ _ (same k · = false) (fun _ => True) _ _ _
            (fun e member => ⟨apart e member, trivial⟩) (Bool.eq_false_iff.mpr isOther) trivial
        exact ⟨fun e member => (apart' e member).1, ih distinct⟩

theorem lookup_put_self
    [BEq κ] [LawfulBEq κ]
    {key : κ} {value : α}
    (items : List (κ × α)) :
    (Assoc.put (· == ·) key value items).lookup key = some value := by
  induction items with
  | nil => simp [Assoc.put]
  | cons item items ih =>
      rw [Assoc.put]
      split
      · next same =>
          rw [beq_iff_eq] at same
          simp [same]
      · next differs =>
          have differs : (key == item.1) = false := by
            rw [beq_eq_false_iff_ne]
            rintro rfl
            simp at differs
          rw [List.lookup_cons, differs]
          exact ih

theorem lookup_put_other
    [BEq κ] [LawfulBEq κ]
    {key other : κ} {value : α}
    (differs : other ≠ key)
    (items : List (κ × α)) :
    (Assoc.put (· == ·) key value items).lookup other = items.lookup other := by
  induction items with
  | nil =>
      have differs : (other == key) = false := beq_eq_false_iff_ne.mpr differs
      simp [Assoc.put, List.lookup_cons, differs]
  | cons item items ih =>
      rw [Assoc.put]
      split
      · next same =>
          rw [beq_iff_eq] at same
          have differs : (other == item.1) = false := by
            rw [beq_eq_false_iff_ne, same]
            exact differs
          rw [List.lookup_cons, List.lookup_cons, differs]
      · rw [List.lookup_cons, List.lookup_cons, ih]

/-- Entries whose keys are all different are written one behind the other. -/
theorem ofList_of_distinct
    {same : κ → κ → Bool}
    {entries : List (κ × α)}
    (distinct : entries.Pairwise fun e e' => same e.1 e'.1 = false) :
    ofList same entries = entries := by
  suffices onto : ∀ written : List (κ × α),
      (∀ w ∈ written, ∀ e ∈ entries, same w.1 e.1 = false) →
        entries.foldl (fun acc e => put same e.1 e.2 acc) written = written ++ entries from
    onto [] nofun
  induction entries with
  | nil => exact fun written _ => (List.append_nil written).symm
  | cons e entries ih =>
      intro written new
      obtain ⟨apart, distinct⟩ := List.pairwise_cons.mp distinct
      rw [List.foldl_cons, put_new fun w member => new w member e List.mem_cons_self, ih distinct,
        List.append_assoc, List.singleton_append]
      intro w member e' isLater
      rcases List.mem_append.mp member with before | isLast
      · exact new w before e' (List.mem_cons_of_mem _ isLater)
      · rw [List.mem_singleton.mp isLast]
        exact apart e' isLater

end Assoc
end ExprLang
