import ExprLang.Value.Order

/-!
# Values as trees

Lists and maps hold other values; everything else is a leaf and denotes an atom.  Numbers of all
types denote their exact value, and timestamps the instant that they name.

* `Value.induction`: induction over the values that a value holds.
* `Value.atom?`: what a leaf denotes.
* `leaves_list_iff`, `leaves_map_iff`: properties of all leaves of a value.
* `Contains`, `Throughout`: what is in a value at any depth, leaves, containers and keys.
* `partAt?`: what stands at a place, a path of positions that leads to it.
* `exists_foldlM_of_step`: what is related stays so along a path, if it does for one position.
-/

namespace ExprLang

/-- What a value without parts denotes. -/
inductive Atom where
  | null
  | truth (b : Bool)
  | number (x : Number.Extended)
  | text (s : String)
  | octets (data : List UInt8)
  | instant (micros : Int)
  | length (micros : Int)
  | pattern (source : String)
  | function (name : String)

namespace Value

/-- The atom that a value denotes, unless it is a list or a map. -/
def atom? : Value → Option Atom
  | null => some .null
  | bool b => some (.truth b)
  | int n => some (.number (.finite n))
  | uint n => some (.number (.finite n))
  | float f => some (.number (Number.extended f))
  | string s => some (.text s)
  | bytes data => some (.octets data)
  | list _ => none
  | map _ => none
  | timestamp t => some (.instant t.instant)
  | duration d => some (.length d.micros)
  | regex source => some (.pattern source)
  | function name => some (.function name)

/-- What holds of all leaves, and of a list or a map if it holds of the values in it, holds of every
value. -/
theorem induction
    {P : Value → Prop}
    (leaf : ∀ v x, v.atom? = some x → P v)
    (list : ∀ items, (∀ v ∈ items, P v) → P (list items))
    (map : ∀ entries, (∀ e ∈ entries, P e.2) → P (map entries))
    (v : Value) :
    P v :=
  @Value.rec P (fun items => ∀ v ∈ items, P v) (fun entries => ∀ e ∈ entries, P e.2)
    (fun e => P e.2)
    (leaf _ _ rfl) (fun _ => leaf _ _ rfl) (fun _ => leaf _ _ rfl) (fun _ => leaf _ _ rfl)
    (fun _ => leaf _ _ rfl) (fun _ => leaf _ _ rfl) (fun _ => leaf _ _ rfl) list map
    (fun _ => leaf _ _ rfl) (fun _ => leaf _ _ rfl) (fun _ => leaf _ _ rfl)
    (fun _ => leaf _ _ rfl)
    nofun (fun _ _ first others => List.forall_mem_cons.mpr ⟨first, others⟩)
    nofun (fun _ _ first others => List.forall_mem_cons.mpr ⟨first, others⟩)
    (fun _ _ value => value) v

mutual

/-- Whether a property holds of everything in a value that is neither a list nor a map. -/
def Leaves (P : Value → Prop) : Value → Prop
  | list items => LeavesItems P items
  | map entries => LeavesEntries P entries
  | v => P v

/-- Whether a property holds of the leaves of all items of a list. -/
def LeavesItems (P : Value → Prop) : List Value → Prop
  | [] => True
  | v :: rest => Leaves P v ∧ LeavesItems P rest

/-- Whether a property holds of the leaves of all values of a map. -/
def LeavesEntries (P : Value → Prop) : List (Key × Value) → Prop
  | [] => True
  | (_, v) :: rest => Leaves P v ∧ LeavesEntries P rest

end

section Leaves

variable {P : Value → Prop} {v : Value}

theorem leaves_of_atom?
    {x : Atom}
    (leaf : v.atom? = some x) :
    v.Leaves P ↔ P v := by
  cases v
  case list | map => cases leaf
  all_goals rfl

theorem leaves_list_iff
    {items : List Value} :
    (list items).Leaves P ↔ ∀ v ∈ items, v.Leaves P := by
  rw [Leaves]
  induction items with
  | nil => exact ⟨nofun, fun _ => trivial⟩
  | cons v rest ih => rw [LeavesItems, ih, List.forall_mem_cons]

theorem leaves_map_iff
    {entries : List (Key × Value)} :
    (map entries).Leaves P ↔ ∀ e ∈ entries, e.2.Leaves P := by
  rw [Leaves]
  induction entries with
  | nil => exact ⟨nofun, fun _ => trivial⟩
  | cons e rest ih => rw [LeavesEntries, ih, List.forall_mem_cons]

end Leaves

/-! ### What is in a value -/

section Contains

variable {v w : Value} {items : List Value} {entries : List (Key × Value)} {P : Value → Prop}

/-- Whether a value contains another one, at any depth. -/
inductive Contains : Value → Value → Prop
  | self (v : Value) : Contains v v
  | item {items : List Value} {v w : Value}
      (member : v ∈ items)
      (inside : Contains v w) :
      Contains (list items) w
  | key {entries : List (Key × Value)} {e : Key × Value}
      (member : e ∈ entries) :
      Contains (map entries) e.1.toValue
  | value {entries : List (Key × Value)} {e : Key × Value} {w : Value}
      (member : e ∈ entries)
      (inside : Contains e.2 w) :
      Contains (map entries) w

/-- Whether a property holds of everything that a value contains. -/
def Throughout (P : Value → Prop) (v : Value) : Prop :=
  ∀ w, v.Contains w → P w

theorem throughout_iff_of_atom?
    {x : Atom}
    (leaf : v.atom? = some x) :
    v.Throughout P ↔ P v := by
  refine ⟨fun each => each v (.self v), fun here w inside => ?_⟩
  cases inside with
  | self => exact here
  | item | key | value => cases leaf

theorem throughout_list_iff :
    (list items).Throughout P ↔ P (list items) ∧ ∀ v ∈ items, v.Throughout P := by
  constructor
  · intro each
    exact ⟨each _ (.self _), fun v member w inside => each w (.item member inside)⟩
  · rintro ⟨here, each⟩ w inside
    cases inside with
    | self => exact here
    | item member inside => exact each _ member w inside

theorem throughout_map_iff :
    (map entries).Throughout P ↔
      P (map entries) ∧ ∀ e ∈ entries, P e.1.toValue ∧ e.2.Throughout P := by
  constructor
  · intro each
    exact ⟨each _ (.self _), fun e member =>
      ⟨each _ (.key member), fun w inside => each w (.value member inside)⟩⟩
  · rintro ⟨here, each⟩ w inside
    cases inside with
    | self => exact here
    | key member => exact (each _ member).1
    | value member inside => exact (each _ member).2 w inside

end Contains

/-! ### Places -/

/-- The item of a list, or the value of an entry of a map, at a position. -/
def part? : Value → Nat → Option Value
  | list items, i => items[i]?
  | map entries, i => entries[i]?.map Prod.snd
  | _, _ => none

/-- What stands at a place in a value: a path of positions that leads to it. -/
def partAt? (v : Value) (path : List Nat) : Option Value :=
  path.foldlM part? v

end Value

/-- Two runs stay related if their steps do. -/
theorem exists_foldlM_of_step
    {ι α β : Type} {R : α → β → Prop} {f : α → ι → Option α} {g : β → ι → Option β}
    (step : ∀ a b i a', R a b → f a i = some a' → ∃ b', g b i = some b' ∧ R a' b')
    {path : List ι} {a a' : α} {b : β}
    (related : R a b)
    (run : path.foldlM f a = some a') :
    ∃ b', path.foldlM g b = some b' ∧ R a' b' := by
  induction path generalizing a b with
  | nil =>
      cases run
      exact ⟨b, rfl, related⟩
  | cons i path ih =>
      rw [List.foldlM_cons] at run
      obtain ⟨a₁, first, rest⟩ := Option.bind_eq_some_iff.mp run
      obtain ⟨b₁, first', related⟩ := step a b i a₁ related first
      obtain ⟨b', rest', related⟩ := ih related rest
      exact ⟨b', by rw [List.foldlM_cons, first']; exact rest', related⟩

end ExprLang
