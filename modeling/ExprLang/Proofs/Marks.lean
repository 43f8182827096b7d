import ExprLang.Expr

/-!
# Trees up to their marks

The marks of a tree say where its nodes were read and how they are numbered.  `mapMark` changes
them, `erase` forgets them, and everything that depends on the shape of a tree is untouched by
both: the form of its nodes, the names in it and the binding of variables.

* `mapMark_bindLocals`: binding names and changing marks commute.
* `isAccess_mapMark`, `identName?_mapMark`: a node keeps its form.
-/

namespace ExprLang
namespace Expr

variable (f : Mark → Mark)

mutual

/-- A tree with its marks changed. -/
def mapMark : Expr → Expr
  | literal m value => literal (f m) value
  | ident m name => ident (f m) name
  | localRef m name => localRef (f m) name
  | unary m op operand => unary (f m) op (mapMark operand)
  | binary m op left right => binary (f m) op (mapMark left) (mapMark right)
  | ternary m cond ifTrue ifFalse =>
      ternary (f m) (mapMark cond) (mapMark ifTrue) (mapMark ifFalse)
  | list m items => list (f m) (mapMarkItems items)
  | map m entries => map (f m) (mapMarkEntries entries)
  | select m operand field => select (f m) (mapMark operand) field
  | index m operand key => index (f m) (mapMark operand) (mapMark key)
  | call m function target args =>
      call (f m) function (mapMarkOption target) (mapMarkItems args)
  | invoke m callee args => invoke (f m) (mapMark callee) (mapMarkItems args)
  | has m access => has (f m) (mapMark access)
  | comprehension m kind target binders guard body =>
      comprehension (f m) kind (mapMark target) binders (mapMarkOption guard) (mapMark body)

/-- A list of trees with their marks changed. -/
def mapMarkItems : List Expr → List Expr
  | [] => []
  | e :: rest => mapMark e :: mapMarkItems rest

/-- The entries of a map with their marks changed. -/
def mapMarkEntries : List (Expr × Expr) → List (Expr × Expr)
  | [] => []
  | (k, v) :: rest => (mapMark k, mapMark v) :: mapMarkEntries rest

/-- A tree that may be missing with its marks changed. -/
def mapMarkOption : Option Expr → Option Expr
  | none => none
  | some e => some (mapMark e)

end

theorem mapMarkItems_eq_map
    (items : List Expr) :
    mapMarkItems f items = items.map (mapMark f) := by
  induction items with
  | nil => rfl
  | cons e rest ih => simp [mapMarkItems, ih]

theorem mapMarkEntries_eq_map
    (entries : List (Expr × Expr)) :
    mapMarkEntries f entries = entries.map fun (k, v) => (mapMark f k, mapMark f v) := by
  induction entries with
  | nil => rfl
  | cons entry rest ih => simp [mapMarkEntries, ih]

theorem mapMarkOption_eq_map
    (e : Option Expr) :
    mapMarkOption f e = e.map (mapMark f) := by
  cases e <;> rfl

theorem bindItems_eq_map
    (names : List String) (items : List Expr) :
    bindItems names items = items.map (bindLocals names) := by
  induction items with
  | nil => rfl
  | cons e rest ih => simp [bindItems, ih]

theorem bindEntries_eq_map
    (names : List String) (entries : List (Expr × Expr)) :
    bindEntries names entries =
      entries.map fun (k, v) => (bindLocals names k, bindLocals names v) := by
  induction entries with
  | nil => rfl
  | cons entry rest ih => simp [bindEntries, ih]

theorem bindOption_eq_map
    (names : List String) (e : Option Expr) :
    bindOption names e = e.map (bindLocals names) := by
  cases e <;> rfl

mutual

/-- Binding names does not look at marks. -/
theorem mapMark_bindLocals
    (names : List String) :
    ∀ e : Expr, (bindLocals names e).mapMark f = bindLocals names (e.mapMark f)
  | literal _ _ => rfl
  | ident _ name => by
      by_cases h : name ∈ names <;> simp [bindLocals, mapMark, h]
  | localRef _ _ => rfl
  | unary _ _ operand => by
      simp [bindLocals, mapMark, mapMark_bindLocals names operand]
  | binary _ _ left right => by
      simp [bindLocals, mapMark, mapMark_bindLocals names left, mapMark_bindLocals names right]
  | ternary _ cond ifTrue ifFalse => by
      simp [bindLocals, mapMark, mapMark_bindLocals names cond, mapMark_bindLocals names ifTrue,
        mapMark_bindLocals names ifFalse]
  | list _ items => by
      simp [bindLocals, mapMark, mapMarkItems_bindItems names items]
  | map _ entries => by
      simp [bindLocals, mapMark, mapMarkEntries_bindEntries names entries]
  | select _ operand _ => by
      simp [bindLocals, mapMark, mapMark_bindLocals names operand]
  | index _ operand key => by
      simp [bindLocals, mapMark, mapMark_bindLocals names operand, mapMark_bindLocals names key]
  | call _ _ target args => by
      simp [bindLocals, mapMark, mapMarkOption_bindOption names target,
        mapMarkItems_bindItems names args]
  | invoke _ callee args => by
      simp [bindLocals, mapMark, mapMark_bindLocals names callee,
        mapMarkItems_bindItems names args]
  | has _ access => by
      simp [bindLocals, mapMark, mapMark_bindLocals names access]
  | comprehension _ _ target _ guard body => by
      simp [bindLocals, mapMark, mapMark_bindLocals names target,
        mapMarkOption_bindOption names guard, mapMark_bindLocals names body]

theorem mapMarkItems_bindItems
    (names : List String) :
    ∀ items : List Expr,
      mapMarkItems f (bindItems names items) = bindItems names (mapMarkItems f items)
  | [] => rfl
  | e :: rest => by
      simp [bindItems, mapMarkItems, mapMark_bindLocals names e, mapMarkItems_bindItems names rest]

theorem mapMarkEntries_bindEntries
    (names : List String) :
    ∀ entries : List (Expr × Expr),
      mapMarkEntries f (bindEntries names entries) = bindEntries names (mapMarkEntries f entries)
  | [] => rfl
  | (k, v) :: rest => by
      simp [bindEntries, mapMarkEntries, mapMark_bindLocals names k, mapMark_bindLocals names v,
        mapMarkEntries_bindEntries names rest]

theorem mapMarkOption_bindOption
    (names : List String) :
    ∀ e : Option Expr,
      mapMarkOption f (bindOption names e) = bindOption names (mapMarkOption f e)
  | none => rfl
  | some e => by
      simp [bindOption, mapMarkOption, mapMark_bindLocals names e]

end

@[simp] theorem isAccess_mapMark
    (e : Expr) :
    (e.mapMark f).isAccess = e.isAccess := by
  cases e <;> rfl

@[simp] theorem identName?_mapMark
    (e : Expr) :
    (e.mapMark f).identName? = e.identName? := by
  cases e <;> rfl

/-- The mark of a node about whose place nothing is said. -/
def blank : Mark := ⟨0, ⟨0, 0⟩⟩

/-- A tree without its marks. -/
def erase (e : Expr) : Expr :=
  e.mapMark fun _ => blank

section Erase

variable (m : Mark)

@[simp] theorem erase_literal (v : Value) :
    (literal m v).erase = literal blank v := rfl

@[simp] theorem erase_ident (name : String) :
    (ident m name).erase = ident blank name := rfl

@[simp] theorem erase_localRef (name : String) :
    (localRef m name).erase = localRef blank name := rfl

@[simp] theorem erase_unary (op : UnaryOp) (e : Expr) :
    (unary m op e).erase = unary blank op e.erase := rfl

@[simp] theorem erase_binary (op : BinaryOp) (left right : Expr) :
    (binary m op left right).erase = binary blank op left.erase right.erase := rfl

@[simp] theorem erase_ternary (c a b : Expr) :
    (ternary m c a b).erase = ternary blank c.erase a.erase b.erase := rfl

@[simp] theorem erase_select (e : Expr) (field : String) :
    (select m e field).erase = select blank e.erase field := rfl

@[simp] theorem erase_index (e key : Expr) :
    (index m e key).erase = index blank e.erase key.erase := rfl

@[simp] theorem erase_has (access : Expr) :
    (has m access).erase = has blank access.erase := rfl

@[simp] theorem erase_list (items : List Expr) :
    (list m items).erase = list blank (items.map erase) := by
  simp only [erase, mapMark, mapMarkItems_eq_map]
  rfl

@[simp] theorem erase_map (entries : List (Expr × Expr)) :
    (map m entries).erase = map blank (entries.map fun (k, v) => (k.erase, v.erase)) := by
  simp only [erase, mapMark, mapMarkEntries_eq_map]

@[simp] theorem erase_call (function : String) (target : Option Expr) (args : List Expr) :
    (call m function target args).erase =
      call blank function (target.map erase) (args.map erase) := by
  simp only [erase, mapMark, mapMarkItems_eq_map, mapMarkOption_eq_map]
  rfl

@[simp] theorem erase_invoke (callee : Expr) (args : List Expr) :
    (invoke m callee args).erase = invoke blank callee.erase (args.map erase) := by
  simp only [erase, mapMark, mapMarkItems_eq_map]
  rfl

@[simp] theorem erase_comprehension (kind : Comprehension) (target : Expr) (names : List String)
    (guard : Option Expr) (body : Expr) :
    (comprehension m kind target names guard body).erase =
      comprehension blank kind target.erase names (guard.map erase) body.erase := by
  simp only [erase, mapMark, mapMarkOption_eq_map]
  rfl

end Erase

@[simp] theorem erase_bindLocals
    (names : List String) (e : Expr) :
    (bindLocals names e).erase = bindLocals names e.erase :=
  mapMark_bindLocals _ names e

theorem map_erase_bindOption
    (names : List String) (e : Option Expr) :
    (bindOption names e).map erase = bindOption names (e.map erase) := by
  cases e <;> simp [bindOption]

@[simp] theorem isAccess_erase
    (e : Expr) :
    e.erase.isAccess = e.isAccess :=
  isAccess_mapMark _ e

@[simp] theorem identName?_erase
    (e : Expr) :
    e.erase.identName? = e.identName? :=
  identName?_mapMark _ e

/-- A name is what has the name of one. -/
theorem erase_eq_of_identName?
    {e : Expr} {x : String}
    (h : e.identName? = some x) :
    e.erase = ident blank x := by
  cases e <;> simp [identName?] at h
  rw [h, erase_ident]

end Expr
end ExprLang
