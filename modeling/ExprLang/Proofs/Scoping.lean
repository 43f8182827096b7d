import ExprLang.Proofs.Recognition

/-!
# Which names are bound

The guard and the body of a comprehension are in the scope of its variables, its target is not.
`Occurs root scopes x` says that `x` stands in `root` in the scope of comprehensions with the
variables `scopes`, the innermost first.  A tree is well scoped if each of its names is a reference
to a variable exactly where some comprehension around it binds the name.

The parser binds names from the inside: a comprehension turns the free names of trees that are
built already into references.  Each step of a derivation keeps trees well scoped.

* `WellScoped.bindLocals`: binding names puts one more scope around a tree.
* `wellScoped_of_derives`, `wellScoped_of_parse`: what is parsed is well scoped.
* `Occurs.isLocalRef_iff`: in a well-scoped tree, references are the bound names.
-/

namespace ExprLang
namespace Expr

/-! ### Occurrences -/

/-- The variables of a node. -/
def binders : Expr → List String
  | comprehension _ _ _ names _ _ => names
  | _ => []

/-- The sub-expressions outside the scope of the variables of a node. -/
def outerChildren : Expr → List Expr
  | comprehension _ _ target _ _ _ => [target]
  | e => e.children

/-- The sub-expressions in the scope of the variables of a node. -/
def innerChildren : Expr → List Expr
  | comprehension _ _ _ _ guard body => guard.toList ++ [body]
  | _ => []

/-- `Occurs root scopes x`: the node `x` stands in `root`, in the scope of comprehensions with the
variables `scopes`, the innermost first. -/
inductive Occurs (root : Expr) : List (List String) → Expr → Prop
  | root : Occurs root [] root
  | outer
      {scopes : List (List String)} {e x : Expr}
      (parent : Occurs root scopes e)
      (child : x ∈ e.outerChildren) :
      Occurs root scopes x
  | inner
      {scopes : List (List String)} {e x : Expr}
      (parent : Occurs root scopes e)
      (child : x ∈ e.innerChildren) :
      Occurs root (e.binders :: scopes) x

/-- The name of an occurrence of a name. -/
def occurrenceName? : Expr → Option String
  | ident _ name => some name
  | localRef _ name => some name
  | _ => none

/-- Whether a node is a reference to a variable. -/
def isLocalRef : Expr → Bool
  | localRef .. => true
  | _ => false

/-- What has to hold at a node in the scope of given variables. -/
def Fits (scopes : List (List String)) : Expr → Prop
  | ident _ name => ∀ names ∈ scopes, name ∉ names
  | localRef _ name => ∃ names ∈ scopes, name ∈ names
  | comprehension _ _ _ names _ _ => names.length = 1 ∨ names.length = 2
  | _ => True

/-- Every node of a tree that stands in given scopes fits its place. -/
def WellScoped (outer : List (List String)) (e : Expr) : Prop :=
  ∀ scopes x, Occurs e scopes x → Fits (scopes ++ outer) x

/-- In a well-scoped tree, references are the names that some comprehension around them binds. -/
theorem Occurs.isLocalRef_iff
    {root x : Expr} {scopes : List (List String)} {name : String}
    (wellScoped : WellScoped [] root)
    (occurs : Occurs root scopes x)
    (named : x.occurrenceName? = some name) :
    x.isLocalRef = true ↔ ∃ names ∈ scopes, name ∈ names := by
  have fits := wellScoped scopes x occurs
  rw [List.append_nil] at fits
  cases x with
  | ident _ n =>
      cases named
      simpa [isLocalRef, Fits] using fits
  | localRef _ n =>
      cases named
      simpa [isLocalRef, Fits] using fits
  | _ => cases named

/-! ### From node to node -/

/-- An occurrence in a child is an occurrence in the node. -/
theorem Occurs.of_outer
    {e c x : Expr} {scopes : List (List String)}
    (child : c ∈ e.outerChildren)
    (occurs : Occurs c scopes x) :
    Occurs e scopes x := by
  induction occurs with
  | root => exact .outer .root child
  | outer _ h ih => exact .outer ih h
  | inner _ h ih => exact .inner ih h

theorem Occurs.of_inner
    {e c x : Expr} {scopes : List (List String)}
    (child : c ∈ e.innerChildren)
    (occurs : Occurs c scopes x) :
    Occurs e (scopes ++ [e.binders]) x := by
  induction occurs with
  | root => exact .inner .root child
  | outer _ h ih => exact .outer ih h
  | inner _ h ih => exact .inner ih h

/-- An occurrence in a node is the node or an occurrence in a child. -/
theorem Occurs.cases_root
    {e x : Expr} {scopes : List (List String)}
    (occurs : Occurs e scopes x) :
    (scopes = [] ∧ x = e) ∨ (∃ c ∈ e.outerChildren, Occurs c scopes x) ∨
      ∃ c ∈ e.innerChildren, ∃ within, scopes = within ++ [e.binders] ∧ Occurs c within x := by
  induction occurs with
  | root => exact .inl ⟨rfl, rfl⟩
  | @outer scopes d x _ h ih =>
      rcases ih with ⟨rfl, rfl⟩ | ⟨c, child, occurs⟩ | ⟨c, child, within, rfl, occurs⟩
      · exact .inr (.inl ⟨x, h, .root⟩)
      · exact .inr (.inl ⟨c, child, .outer occurs h⟩)
      · exact .inr (.inr ⟨c, child, within, rfl, .outer occurs h⟩)
  | @inner scopes d x _ h ih =>
      rcases ih with ⟨rfl, rfl⟩ | ⟨c, child, occurs⟩ | ⟨c, child, within, rfl, occurs⟩
      · exact .inr (.inr ⟨x, h, [], rfl, .root⟩)
      · exact .inr (.inl ⟨c, child, .inner occurs h⟩)
      · exact .inr (.inr ⟨c, child, _, rfl, .inner occurs h⟩)

/-- A node is well scoped if it fits its place and its children are well scoped in theirs. -/
theorem wellScoped_iff
    {outer : List (List String)} {e : Expr} :
    WellScoped outer e ↔
      Fits outer e ∧ (∀ c ∈ e.outerChildren, WellScoped outer c) ∧
        ∀ c ∈ e.innerChildren, WellScoped (e.binders :: outer) c := by
  constructor
  · intro h
    refine ⟨h [] e .root, fun c child scopes x occurs => ?_, fun c child scopes x occurs => ?_⟩
    · exact h scopes x (occurs.of_outer child)
    · simpa using h _ x (occurs.of_inner child)
  · rintro ⟨here, outside, inside⟩ scopes x occurs
    rcases occurs.cases_root with ⟨rfl, rfl⟩ | ⟨c, child, h⟩ | ⟨c, child, within, rfl, h⟩
    · exact here
    · exact outside c child scopes x h
    · simpa using inside c child within x h

/-! ### Binding names and changing marks -/

section Map

variable {g : Expr → Expr}

/-- What rewrites the leaves of a tree and keeps its shape. -/
structure KeepsShape (g : Expr → Expr) : Prop where
  outer : ∀ e, (g e).outerChildren = e.outerChildren.map g
  inner : ∀ e, (g e).innerChildren = e.innerChildren.map g
  binders : ∀ e, (g e).binders = e.binders

/-- What occurs in a rewritten tree is a rewritten occurrence. -/
theorem Occurs.of_map
    (keeps : KeepsShape g)
    {e x : Expr} {scopes : List (List String)}
    (occurs : Occurs (g e) scopes x) :
    ∃ y, Occurs e scopes y ∧ x = g y := by
  induction occurs with
  | root => exact ⟨e, .root, rfl⟩
  | outer _ child ih =>
      obtain ⟨y, occurs, rfl⟩ := ih
      rw [keeps.outer, List.mem_map] at child
      obtain ⟨c, child, rfl⟩ := child
      exact ⟨c, .outer occurs child, rfl⟩
  | inner _ child ih =>
      obtain ⟨y, occurs, rfl⟩ := ih
      rw [keeps.inner, List.mem_map] at child
      obtain ⟨c, child, rfl⟩ := child
      rw [keeps.binders]
      exact ⟨c, .inner occurs child, rfl⟩

theorem Occurs.map
    (keeps : KeepsShape g)
    {e x : Expr} {scopes : List (List String)}
    (occurs : Occurs e scopes x) :
    Occurs (g e) scopes (g x) := by
  induction occurs with
  | root => exact .root
  | outer _ child ih =>
      exact .outer ih (by rw [keeps.outer]; exact List.mem_map_of_mem child)
  | @inner _ d _ _ child ih =>
      rw [← keeps.binders d]
      exact .inner ih (by rw [keeps.inner]; exact List.mem_map_of_mem child)

end Map

theorem keepsShape_bindLocals
    (names : List String) :
    KeepsShape (bindLocals names) where
  outer e := by
    cases e with
    | ident _ n =>
        by_cases h : n ∈ names <;> simp [bindLocals, outerChildren, children, h]
    | _ =>
        simp [bindLocals, outerChildren, children, bindItems_eq_map, bindEntries_eq_map,
          bindOption_eq_map, List.flatMap_map, List.map_flatMap, Option.toList_map]
  inner e := by
    cases e with
    | ident _ n =>
        by_cases h : n ∈ names <;> simp [bindLocals, innerChildren, h]
    | _ => simp [bindLocals, innerChildren, bindOption_eq_map, Option.toList_map]
  binders e := by
    cases e with
    | ident _ n => by_cases h : n ∈ names <;> simp [bindLocals, binders, h]
    | _ => simp [bindLocals, binders]

theorem keepsShape_mapMark
    (f : Mark → Mark) :
    KeepsShape (mapMark f) where
  outer e := by
    cases e <;>
      simp [mapMark, outerChildren, children, mapMarkItems_eq_map, mapMarkEntries_eq_map,
        mapMarkOption_eq_map, List.flatMap_map, List.map_flatMap, Option.toList_map]
  inner e := by
    cases e <;> simp [mapMark, innerChildren, mapMarkOption_eq_map, Option.toList_map]
  binders e := by
    cases e <;> simp [mapMark, binders]

theorem keepsShape_erase : KeepsShape erase :=
  keepsShape_mapMark _

/-- Binding names puts one more scope around a tree. -/
theorem WellScoped.bindLocals
    {outer : List (List String)} {e : Expr}
    (h : WellScoped outer e)
    (names : List String) :
    WellScoped (outer ++ [names]) (bindLocals names e) := by
  intro scopes x occurs
  obtain ⟨y, original, rfl⟩ := Occurs.of_map (keepsShape_bindLocals names) occurs
  have fits := h scopes y original
  rw [← List.append_assoc]
  cases y with
  | ident m n =>
      by_cases isBound : n ∈ names
      · simp only [Expr.bindLocals, List.contains_iff_mem, isBound, if_true, Fits]
        exact ⟨names, by simp, isBound⟩
      · simp only [Fits] at fits
        simp only [Expr.bindLocals, List.contains_iff_mem, isBound, if_false, Fits]
        intro names' hnames'
        rcases List.mem_append.mp hnames' with h' | h'
        · exact fits names' h'
        · rwa [List.mem_singleton.mp h']
  | localRef m n =>
      obtain ⟨names', hnames', hn⟩ := fits
      exact ⟨names', List.mem_append_left _ hnames', hn⟩
  | comprehension => exact fits
  | _ => trivial

/-- Marks do not matter. -/
theorem wellScoped_of_erase
    {outer : List (List String)} {e : Expr}
    (h : WellScoped outer e.erase) :
    WellScoped outer e := by
  intro scopes x occurs
  have fits := h scopes _ (occurs.map keepsShape_erase)
  cases x <;> exact fits

end Expr

namespace Grammar

open ExprLang.Expr (WellScoped wellScoped_iff blank)

/-! ### Derivations -/

/-- Without variables around it a node that binds none is well scoped if its children are. -/
theorem wellScoped_node
    {e : Expr}
    (fits : e.Fits [])
    (noBinders : e.innerChildren = [])
    (children : ∀ c ∈ e.outerChildren, WellScoped [] c) :
    WellScoped [] e := by
  refine wellScoped_iff.mpr ⟨fits, children, ?_⟩
  rw [noBinders]
  intro c child
  cases child

theorem wellScoped_comprehension
    {kind : Comprehension} {target body : Expr} {names : List String}
    (guard : Option Expr)
    (count : names.length = 1 ∨ names.length = 2)
    (htarget : WellScoped [] target)
    (hguard : ∀ e ∈ guard, WellScoped [] e)
    (hbody : WellScoped [] body) :
    WellScoped [] (.comprehension blank kind target names (guard.map (Expr.bindLocals names))
      (Expr.bindLocals names body)) := by
  refine wellScoped_iff.mpr ⟨count, ?_, ?_⟩
  · simpa [Expr.outerChildren] using htarget
  · intro c child
    simp only [Expr.innerChildren, List.mem_append, List.mem_singleton, Option.mem_toList,
      Option.map_eq_some_iff] at child
    rcases child with ⟨e, he, rfl⟩ | rfl
    · exact (hguard e he).bindLocals names
    · exact hbody.bindLocals names

theorem wellScoped_prefixed
    (ops : List UnaryOp) {e : Expr}
    (h : WellScoped [] e) :
    WellScoped [] (prefixed ops e) := by
  induction ops with
  | nil => exact h
  | cons op ops ih =>
      exact wellScoped_node trivial rfl fun c child => List.mem_singleton.mp child ▸ ih

theorem wellScoped_functionCall
    {name : String} {args : List Expr} {e : Expr}
    (meaning : FunctionCall name args e)
    (hargs : ∀ arg ∈ args, WellScoped [] arg) :
    WellScoped [] e := by
  cases meaning with
  | presence _ =>
      exact wellScoped_node trivial rfl (by simpa [Expr.outerChildren, Expr.children] using hargs)
  | call _ =>
      exact wellScoped_node trivial rfl (by simpa [Expr.outerChildren, Expr.children] using hargs)

theorem wellScoped_methodCall
    {name : String} {target : Expr} {args : List Expr} {e : Expr}
    (meaning : MethodCall name target args e)
    (htarget : WellScoped [] target)
    (hargs : ∀ arg ∈ args, WellScoped [] arg) :
    WellScoped [] e := by
  cases meaning with
  | call _ =>
      refine wellScoped_node trivial rfl ?_
      simpa [Expr.outerChildren, Expr.children, htarget] using hargs
  | single _ =>
      exact wellScoped_comprehension none (.inl rfl) htarget (by simp)
        (hargs _ (by simp))
  | pair _ _ =>
      exact wellScoped_comprehension none (.inr rfl) htarget (by simp)
        (hargs _ (by simp))
  | guarded _ _ =>
      refine wellScoped_comprehension (some _) (.inl rfl) htarget ?_ (hargs _ (by simp))
      rintro e ⟨⟩
      exact hargs _ (by simp)

/-- The trees of a phrase are well scoped, if those are that the phrase completes. -/
def PhraseScoped : Phrase → Prop
  | .expr e | .chain _ e | .unary e | .member e | .primary e => WellScoped [] e
  | .operators _ _ left e => WellScoped [] left → WellScoped [] e
  | .postfixes inner e => WellScoped [] inner → WellScoped [] e
  | .items _ es => ∀ e ∈ es, WellScoped [] e
  | .entries kvs => ∀ kv ∈ kvs, WellScoped [] kv.1 ∧ WellScoped [] kv.2

/-- What has a derivation is well scoped. -/
theorem wellScoped_of_derives
    {n : Nat} {p : Phrase} {i r : List Token}
    (h : Derives n p i r) :
    PhraseScoped p := by
  induction h with
  | plain _ ih => exact ih
  | ternary _ _ _ _ _ ihc iha ihb =>
      exact wellScoped_node trivial rfl (by
        simpa [Expr.outerChildren, Expr.children] using ⟨ihc, iha, ihb⟩)
  | operand _ ih => exact ih
  | chain _ _ ihFirst ihOthers => exact ihOthers ihFirst
  | operatorsEnd => exact id
  | operator _ _ _ _ ihNext ihOthers =>
      intro hleft
      exact ihOthers (wellScoped_node trivial rfl (by
        simpa [Expr.outerChildren, Expr.children] using ⟨hleft, ihNext⟩))
  | prefixed _ _ _ ih => exact wellScoped_prefixed _ ih
  | negative => exact wellScoped_prefixed _ (wellScoped_node trivial rfl (by
      simp [Expr.outerChildren, Expr.children]))
  | member _ _ ihFirst ihOthers => exact ihOthers ihFirst
  | postfixesEnd => exact id
  | field _ _ _ _ ih =>
      intro hinner
      exact ih (wellScoped_node trivial rfl (by
        simpa [Expr.outerChildren, Expr.children] using hinner))
  | method _ _ _ _ meaning _ ihArguments ih =>
      intro hinner
      exact ih (wellScoped_methodCall meaning hinner ihArguments)
  | index _ _ _ _ ihKey ih =>
      intro hinner
      exact ih (wellScoped_node trivial rfl (by
        simpa [Expr.outerChildren, Expr.children] using ⟨hinner, ihKey⟩))
  | invocation _ _ _ ihArguments ih =>
      intro hinner
      exact ih (wellScoped_node trivial rfl (by
        simpa [Expr.outerChildren, Expr.children, hinner, PhraseScoped] using ihArguments))
  | literal => exact wellScoped_node trivial rfl (by simp [Expr.outerChildren, Expr.children])
  | name =>
      exact wellScoped_node (by simp [Expr.Fits]) rfl (by
        simp [Expr.outerChildren, Expr.children])
  | call _ _ _ _ meaning ih => exact wellScoped_functionCall meaning ih
  | group _ _ _ ih => exact ih
  | list _ _ ih => exact wellScoped_node trivial rfl ih
  | map _ _ ih =>
      refine wellScoped_node trivial rfl fun c child => ?_
      simp only [Expr.outerChildren, Expr.children, List.mem_flatMap] at child
      obtain ⟨kv, hkv, hc⟩ := child
      rcases List.mem_pair.mp hc with rfl | rfl
      · exact (ih kv hkv).1
      · exact (ih kv hkv).2
  | itemsEnd => exact fun e he => by cases he
  | lastItem _ _ ih => simpa [PhraseScoped] using ih
  | item _ _ _ ihFirst ihOthers => exact List.forall_mem_cons.mpr ⟨ihFirst, ihOthers⟩
  | entriesEnd => exact fun kv hkv => by cases hkv
  | lastEntry _ _ _ _ ihKey ihValue => simpa [PhraseScoped] using ⟨ihKey, ihValue⟩
  | entry _ _ _ _ _ ihKey ihValue ihOthers =>
      exact List.forall_mem_cons.mpr ⟨⟨ihKey, ihValue⟩, ihOthers⟩

end Grammar

/-- What is parsed is well scoped. -/
theorem wellScoped_of_parse
    {limit : Int} {source : List Char} {e : Expr}
    (parsed : parse limit source = .ok e) :
    Expr.WellScoped [] e := by
  have derived := (parse_eq_ok_iff (scan_errors_of_parse parsed) _).mp ⟨e, parsed, rfl⟩
  exact Expr.wellScoped_of_erase (Grammar.wellScoped_of_derives derived)

end ExprLang
