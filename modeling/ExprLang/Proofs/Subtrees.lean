import ExprLang.Proofs.Scoping

/-!
# The nodes of a tree

`walk` lists a node in front of the lists of its children, so that facts about all nodes of a tree
are facts about its root and about all nodes of its children.  Rewritings that map the children of a
node map the nodes of the whole tree.

* `induction_children`, `induction_nodes`: induction over a tree by the children of its nodes.
* `walk_eq`: the nodes of a tree, by its children.
* `Everywhere`: a property of all nodes, kept by binding names and by changing marks.
* `exists_occurs`: every node has a place, in the scope of comprehensions.
-/

namespace ExprLang
namespace Expr

/-! ### Children -/

section Size

variable {c : Expr}

theorem sizeOf_lt_of_mem_entries
    {entries : List (Expr × Expr)}
    (child : c ∈ entries.flatMap fun (k, v) => [k, v]) :
    sizeOf c < sizeOf entries := by
  obtain ⟨⟨k, v⟩, member, isPart⟩ := List.mem_flatMap.mp child
  have entry := List.sizeOf_lt_of_mem member
  have size : sizeOf (k, v) = 1 + sizeOf k + sizeOf v := rfl
  rcases List.mem_pair.mp isPart with rfl | rfl <;> omega

theorem sizeOf_lt_of_mem_toList
    {o : Option Expr}
    (child : c ∈ o.toList) :
    sizeOf c < sizeOf o := by
  cases o with
  | none => cases child
  | some e =>
      rw [List.mem_singleton.mp child, Option.some.sizeOf_spec]
      omega

/-- A child is smaller than its node. -/
theorem sizeOf_lt_of_mem_children
    {e : Expr}
    (child : c ∈ e.children) :
    sizeOf c < sizeOf e := by
  cases e with
  | literal | ident | localRef => cases child
  | list _ items =>
      have := List.sizeOf_lt_of_mem (show c ∈ items from child)
      simp only [list.sizeOf_spec]
      omega
  | map _ entries =>
      have := sizeOf_lt_of_mem_entries child
      simp only [map.sizeOf_spec]
      omega
  | call _ _ target args =>
      simp only [call.sizeOf_spec]
      rcases List.mem_append.mp child with child | child
      · have := sizeOf_lt_of_mem_toList child
        omega
      · have := List.sizeOf_lt_of_mem child
        omega
  | invoke _ callee args =>
      simp only [invoke.sizeOf_spec]
      rcases List.mem_cons.mp child with rfl | child
      · omega
      · have := List.sizeOf_lt_of_mem child
        omega
  | comprehension _ _ target _ guard body =>
      simp only [comprehension.sizeOf_spec]
      simp only [children, List.cons_append, List.mem_cons, List.mem_append, List.not_mem_nil,
        or_false] at child
      rcases child with rfl | child | rfl
      · omega
      · have := sizeOf_lt_of_mem_toList child
        omega
      · omega
  | _ =>
      simp only [children, List.mem_cons, List.not_mem_nil, or_false] at child
      simp only [unary.sizeOf_spec, binary.sizeOf_spec, ternary.sizeOf_spec, select.sizeOf_spec,
        index.sizeOf_spec, has.sizeOf_spec]
      grind

end Size

/-- Induction over a tree: a property holds of a node if it holds of its children. -/
theorem induction_children
    {motive : Expr → Prop}
    (node : ∀ e, (∀ c ∈ e.children, motive c) → motive e)
    (e : Expr) :
    motive e :=
  node e fun c _ => induction_children node c
termination_by sizeOf e
decreasing_by exact sizeOf_lt_of_mem_children ‹_›

/-- Induction over a tree, form by form. -/
theorem induction_nodes
    {motive : Expr → Prop}
    (literal : ∀ m v, motive (.literal m v))
    (ident : ∀ m name, motive (.ident m name))
    (localRef : ∀ m name, motive (.localRef m name))
    (unary : ∀ m op operand, motive operand → motive (.unary m op operand))
    (binary : ∀ m op left right, motive left → motive right → motive (.binary m op left right))
    (ternary : ∀ m c a b, motive c → motive a → motive b → motive (.ternary m c a b))
    (list : ∀ m items, (∀ e ∈ items, motive e) → motive (.list m items))
    (map : ∀ m entries, (∀ kv ∈ entries, motive kv.1 ∧ motive kv.2) → motive (.map m entries))
    (select : ∀ m operand field, motive operand → motive (.select m operand field))
    (index : ∀ m operand key, motive operand → motive key → motive (.index m operand key))
    (call : ∀ m function target args, (∀ e ∈ target, motive e) → (∀ e ∈ args, motive e) →
      motive (.call m function target args))
    (invoke : ∀ m callee args, motive callee → (∀ e ∈ args, motive e) →
      motive (.invoke m callee args))
    (has : ∀ m access, motive access → motive (.has m access))
    (comprehension : ∀ m kind target names guard body, motive target → (∀ e ∈ guard, motive e) →
      motive body → motive (.comprehension m kind target names guard body))
    (e : Expr) :
    motive e := by
  induction e using induction_children with
  | node e ih =>
      cases e with
      | literal m v => exact literal m v
      | ident m name => exact ident m name
      | localRef m name => exact localRef m name
      | unary m op operand => exact unary m op operand (ih _ (by simp [children]))
      | binary m op left right =>
          exact binary m op left right (ih _ (by simp [children])) (ih _ (by simp [children]))
      | ternary m c a b =>
          exact ternary m c a b (ih _ (by simp [children])) (ih _ (by simp [children]))
            (ih _ (by simp [children]))
      | list m items => exact list m items ih
      | map m entries =>
          refine map m entries fun kv member => ⟨ih _ ?_, ih _ ?_⟩ <;>
            exact List.mem_flatMap.mpr ⟨kv, member, by simp⟩
      | select m operand field => exact select m operand field (ih _ (by simp [children]))
      | index m operand key =>
          exact index m operand key (ih _ (by simp [children])) (ih _ (by simp [children]))
      | call m function target args =>
          refine call m function target args (fun e member => ih e ?_) fun e member => ih e ?_ <;>
            simp_all [children]
      | invoke m callee args =>
          refine invoke m callee args (ih _ (by simp [children])) fun e member => ih e ?_
          exact List.mem_cons_of_mem _ member
      | has m access => exact has m access (ih _ (by simp [children]))
      | comprehension m kind target names guard body =>
          refine comprehension m kind target names guard body (ih _ (by simp [children]))
            (fun e member => ih e ?_) (ih _ (by simp [children]))
          simp_all [children]

/-- The children in scope of the variables of a node come after those that are not. -/
theorem children_eq_append
    (e : Expr) :
    e.children = e.outerChildren ++ e.innerChildren := by
  cases e <;> simp [children, outerChildren, innerChildren]

theorem mem_children_of_outer
    {e c : Expr}
    (child : c ∈ e.outerChildren) :
    c ∈ e.children := by
  rw [children_eq_append]
  exact List.mem_append_left _ child

theorem mem_children_of_inner
    {e c : Expr}
    (child : c ∈ e.innerChildren) :
    c ∈ e.children := by
  rw [children_eq_append]
  exact List.mem_append_right _ child

theorem children_map
    {g : Expr → Expr}
    (keeps : KeepsShape g)
    (e : Expr) :
    (g e).children = e.children.map g := by
  rw [children_eq_append, children_eq_append e, keeps.outer, keeps.inner, List.map_append]

/-! ### Walks -/

theorem walkItemsOnto_eq_foldr
    (items after : List Expr) :
    walkItemsOnto items after = items.foldr walkOnto after := by
  induction items with
  | nil => rfl
  | cons e rest ih => rw [walkItemsOnto, ih, List.foldr_cons]

theorem walkEntriesOnto_eq_foldr
    (entries : List (Expr × Expr))
    (after : List Expr) :
    walkEntriesOnto entries after =
      (entries.flatMap fun (k, v) => [k, v]).foldr walkOnto after := by
  induction entries with
  | nil => rfl
  | cons entry rest ih =>
      rw [walkEntriesOnto, ih]
      rfl

theorem walkOptionOnto_eq_foldr
    (o : Option Expr)
    (after : List Expr) :
    walkOptionOnto o after = o.toList.foldr walkOnto after := by
  cases o <;> rfl

/-- A node is put in front of its children, each in front of those after it. -/
theorem walkOnto_eq_foldr
    (e : Expr)
    (after : List Expr) :
    walkOnto e after = e :: e.children.foldr walkOnto after := by
  cases e <;>
    simp [walkOnto, children, walkItemsOnto_eq_foldr, walkEntriesOnto_eq_foldr,
      walkOptionOnto_eq_foldr]

theorem foldr_walkOnto
    {es : List Expr}
    (each : ∀ c ∈ es, ∀ after, walkOnto c after = walk c ++ after)
    (after : List Expr) :
    es.foldr walkOnto after = es.flatMap walk ++ after := by
  induction es with
  | nil => rfl
  | cons c es ih =>
      rw [List.foldr_cons, each c (by simp), ih fun d member => each d (by simp [member]),
        List.flatMap_cons, List.append_assoc]

theorem walkOnto_eq_append
    (e : Expr)
    (after : List Expr) :
    walkOnto e after = walk e ++ after := by
  induction e using induction_children generalizing after with
  | node e ih =>
      rw [walk, walkOnto_eq_foldr, walkOnto_eq_foldr, foldr_walkOnto ih, foldr_walkOnto ih]
      simp

/-- The nodes of a tree are its root and the nodes of its children in turn. -/
theorem walk_eq
    (e : Expr) :
    walk e = e :: e.children.flatMap walk := by
  rw [walk, walkOnto_eq_foldr, foldr_walkOnto fun c _ => walkOnto_eq_append c, List.append_nil]

theorem mem_walk
    {x e : Expr} :
    x ∈ e.walk ↔ x = e ∨ ∃ c ∈ e.children, x ∈ c.walk := by
  rw [walk_eq, List.mem_cons, List.mem_flatMap]

theorem mem_walk_self
    (e : Expr) :
    e ∈ e.walk :=
  mem_walk.mpr (.inl rfl)

/-- What rewrites the leaves of a tree rewrites its nodes. -/
theorem walk_map
    {g : Expr → Expr}
    (keeps : KeepsShape g)
    (e : Expr) :
    (g e).walk = e.walk.map g := by
  induction e using induction_children with
  | node e ih =>
      rw [walk_eq, walk_eq e, children_map keeps, List.map_cons, List.flatMap_map,
        List.map_flatMap]
      congr 1
      exact List.flatMap_congr ih

/-! ### Properties of all nodes -/

/-- Whether a property holds of every node of a tree. -/
def Everywhere (P : Expr → Prop) (e : Expr) : Prop :=
  ∀ x ∈ e.walk, P x

section Everywhere

variable {P Q : Expr → Prop} {e : Expr}

/-- A property holds everywhere if it holds at the root and everywhere in the children. -/
theorem everywhere_iff :
    Everywhere P e ↔ P e ∧ ∀ c ∈ e.children, Everywhere P c := by
  unfold Everywhere
  simp only [mem_walk (e := e)]
  constructor
  · intro h
    exact ⟨h e (.inl rfl), fun c child x inside => h x (.inr ⟨c, child, inside⟩)⟩
  · rintro ⟨root, inside⟩ x (rfl | ⟨c, child, hx⟩)
    · exact root
    · exact inside c child x hx

theorem Everywhere.root
    (h : Everywhere P e) :
    P e :=
  (everywhere_iff.mp h).1

theorem Everywhere.child
    {c : Expr}
    (h : Everywhere P e)
    (child : c ∈ e.children) :
    Everywhere P c :=
  (everywhere_iff.mp h).2 c child

theorem Everywhere.mono
    (h : Everywhere P e)
    (weaker : ∀ x, P x → Q x) :
    Everywhere Q e :=
  fun x inside => weaker x (h x inside)

/-- A property of the rewritten nodes is one of the rewritten tree. -/
theorem everywhere_map_iff
    {g : Expr → Expr}
    (keeps : KeepsShape g) :
    Everywhere P (g e) ↔ Everywhere (fun x => P (g x)) e := by
  unfold Everywhere
  rw [walk_map keeps]
  exact List.forall_mem_map

end Everywhere

/-! ### Places of nodes -/

/-- Every node of a tree occurs in it. -/
theorem exists_occurs
    {e x : Expr}
    (inside : x ∈ e.walk) :
    ∃ scopes, Occurs e scopes x := by
  induction e using induction_children with
  | node e ih =>
      rcases mem_walk.mp inside with rfl | ⟨c, child, within⟩
      · exact ⟨[], .root⟩
      · obtain ⟨scopes, occurs⟩ := ih c child within
        rw [children_eq_append] at child
        rcases List.mem_append.mp child with outer | inner
        · exact ⟨scopes, .of_outer outer occurs⟩
        · exact ⟨_, .of_inner inner occurs⟩

theorem Occurs.trans
    {root e x : Expr} {outer inner : List (List String)}
    (h : Occurs root outer e)
    (h' : Occurs e inner x) :
    Occurs root (inner ++ outer) x := by
  induction h' with
  | root => exact h
  | outer _ child ih => exact .outer ih child
  | inner _ child ih => exact .inner ih child

/-- A part of a well-scoped tree is well scoped in the scopes around it. -/
theorem Occurs.wellScoped
    {root e : Expr} {scopes : List (List String)}
    (h : Occurs root scopes e)
    (wellScoped : WellScoped [] root) :
    WellScoped scopes e := by
  intro inner x occurs
  have fits := wellScoped _ x (h.trans occurs)
  rwa [List.append_nil] at fits

end Expr
end ExprLang
