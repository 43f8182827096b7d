import ExprLang.Proofs.FailingNode

/-!
# The order of the nodes of a tree

A tree is walked from its root with a stack: the next node is taken from the top, and its children
are put there in its stead.  Nodes come in the order of their places, where a place is the list of
the steps from the root down to a node.  The parser numbers nodes in another order: children before
their parents.

* `visit_eq`: what the stack yields is the walk of each tree on it.
* `byPlace_walk`: a walk lists each place of a tree once, in lexicographic order.
* `Numbered.increasing`: numbers grow in the order that puts children before their parents.
* `Program.Addressed`: a program whose nodes are found by their numbers.
* `Program.addressed_of_compile`: a compiled program is addressed by its numbers, and binding names
  keeps it so.
-/

namespace ExprLang
namespace Expr

/-! ### Walking with a stack -/

/-- The nodes of the trees on a stack: each node is yielded when it is taken from the top, where its
children take its place. -/
def visit : List Expr → List Expr
  | [] => []
  | e :: stack => e :: visit (e.children ++ stack)
termination_by stack => (stack.flatMap walk).length
decreasing_by
  rw [List.flatMap_cons, walk_eq, List.flatMap_append]
  exact Nat.lt_succ_self _

theorem visit_eq
    (stack : List Expr) :
    visit stack = stack.flatMap walk := by
  induction stack using visit.induct with
  | case1 => rw [visit, List.flatMap_nil]
  | case2 e stack ih =>
      rw [visit, ih, List.flatMap_append, List.flatMap_cons, walk_eq e, List.cons_append]

/-! ### Places -/

/-- The node at a place: each step says which child is entered. -/
def at? : Expr → List Nat → Option Expr
  | e, [] => some e
  | e, i :: place => e.children[i]?.bind fun c => c.at? place

/-- What is found at places among siblings, of which the first is reached by the step `n`. -/
def atAmong? (n : Nat) (es : List Expr) : List Nat → Option Expr
  | [] => none
  | i :: place => if n ≤ i then es[i - n]?.bind fun c => c.at? place else none

/-- Whether a list has what is found at each place once, in the lexicographic order of the places:
a place comes before all that continue it, and these before those with a greater step instead. -/
def ByPlace (find? : List Nat → Option Expr) (xs : List Expr) : Prop :=
  ∃ places : List (List Nat), places.Pairwise (· < ·) ∧ (∀ p, p ∈ places ↔ (find? p).isSome) ∧
    places.map find? = xs.map some

theorem byPlace_root
    {e : Expr} {xs : List Expr}
    (h : ByPlace (atAmong? 0 e.children) xs) :
    ByPlace e.at? (e :: xs) := by
  obtain ⟨places, sorted, all, found⟩ := h
  refine ⟨[] :: places, List.pairwise_cons.mpr ⟨fun p member => ?_, sorted⟩, fun p => ?_, ?_⟩
  · cases p with
    | nil => exact absurd ((all []).mp member) (by simp [atAmong?])
    | cons i place => exact List.nil_lt_cons i place
  · cases p with
    | nil => simp [at?]
    | cons i place => simpa [at?, atAmong?] using all (i :: place)
  · rw [List.map_cons, List.map_cons, at?, ← found]
    refine congrArg _ (List.map_congr_left fun p member => ?_)
    cases p with
    | nil => exact absurd ((all []).mp member) (by simp [atAmong?])
    | cons i place => simp [at?, atAmong?]

theorem byPlace_cons
    {n : Nat} {c : Expr} {es xs ys : List Expr}
    (first : ByPlace c.at? xs)
    (others : ByPlace (atAmong? (n + 1) es) ys) :
    ByPlace (atAmong? n (c :: es)) (xs ++ ys) := by
  obtain ⟨places, sorted, all, found⟩ := first
  obtain ⟨places', sorted', all', found'⟩ := others
  have inFirst : ∀ p, atAmong? n (c :: es) (n :: p) = c.at? p := by simp [atAmong?]
  have inOthers : ∀ i p, n ≠ i →
      atAmong? n (c :: es) (i :: p) = atAmong? (n + 1) es (i :: p) := by
    intro i p other
    by_cases before : n ≤ i
    · have after : n + 1 ≤ i := by omega
      rw [atAmong?, if_pos before, atAmong?, if_pos after, show i - n = i - (n + 1) + 1 by omega,
        List.getElem?_cons_succ]
    · rw [atAmong?, if_neg before, atAmong?, if_neg (by omega)]
  have stepOf : ∀ p ∈ places', ∃ i q, p = i :: q ∧ n + 1 ≤ i := by
    intro p member
    have isFound := (all' p).mp member
    cases p with
    | nil => simp [atAmong?] at isFound
    | cons i q =>
        refine ⟨i, q, rfl, ?_⟩
        by_contra before
        simp [atAmong?, before] at isFound
  refine ⟨places.map (n :: ·) ++ places', ?_, fun p => ?_, ?_⟩
  · refine List.pairwise_append.mpr ⟨?_, sorted', fun p left q right => ?_⟩
    · exact List.pairwise_map.mpr (sorted.imp fun h => List.cons_lt_cons_self.mpr h)
    · obtain ⟨p, -, rfl⟩ := List.mem_map.mp left
      obtain ⟨i, q, rfl, after⟩ := stepOf q right
      exact List.cons_lt_cons_iff.mpr (.inl after)
  · rw [List.mem_append, List.mem_map]
    constructor
    · rintro (⟨q, member, rfl⟩ | member)
      · rw [inFirst]
        exact (all q).mp member
      · obtain ⟨i, q, rfl, after⟩ := stepOf p member
        rw [inOthers i q (by omega)]
        exact (all' _).mp member
    · intro isFound
      cases p with
      | nil => simp [atAmong?] at isFound
      | cons i q =>
          by_cases h : n = i
          · subst h
            exact .inl ⟨q, (all q).mpr (inFirst q ▸ isFound), rfl⟩
          · exact .inr ((all' _).mpr (inOthers i q h ▸ isFound))
  · rw [List.map_append, List.map_append, List.map_map, ← found, ← found']
    refine congrArg₂ _ (List.map_congr_left fun p _ => inFirst p)
      (List.map_congr_left fun p member => ?_)
    obtain ⟨i, q, rfl, after⟩ := stepOf p member
    exact inOthers i q (by omega)

/-- A walk lists the nodes of a tree by their places, by induction on the tree. -/
theorem byPlace_walk
    (e : Expr) :
    ByPlace e.at? e.walk := by
  have siblings : ∀ (es : List Expr) (n : Nat), (∀ c ∈ es, ByPlace c.at? c.walk) →
      ByPlace (atAmong? n es) (es.flatMap walk) := by
    intro es
    induction es with
    | nil =>
        refine fun n _ => ⟨[], .nil, fun p => ?_, rfl⟩
        cases p <;> simp [atAmong?]
    | cons c es ih =>
        intro n each
        exact byPlace_cons (each c List.mem_cons_self)
          (ih (n + 1) fun d member => each d (List.mem_cons_of_mem c member))
  induction e using induction_children with
  | node e ih =>
      rw [walk_eq]
      exact byPlace_root (siblings e.children 0 ih)

/-! ### Children before their parents -/

/-- The nodes of a tree, children before their parents and siblings in source order. -/
def postorder (e : Expr) : List Expr :=
  (e.children.attach.flatMap fun ⟨c, _⟩ => postorder c) ++ [e]
termination_by sizeOf e
decreasing_by exact sizeOf_lt_of_mem_children ‹_›

theorem postorder_eq
    (e : Expr) :
    e.postorder = e.children.flatMap postorder ++ [e] := by
  rw [postorder]
  conv_rhs => rw [← List.attach_map_subtype_val e.children, List.flatMap_map]

/-- What rewrites the leaves of a tree rewrites its nodes. -/
theorem postorder_map
    {g : Expr → Expr}
    (keeps : KeepsShape g)
    (e : Expr) :
    (g e).postorder = e.postorder.map g := by
  induction e using induction_children with
  | node e ih =>
      rw [postorder_eq, postorder_eq e, children_map keeps, List.map_append, List.flatMap_map,
        List.map_flatMap, List.flatMap_congr ih, List.map_singleton]

theorem flatMap_perm
    {f g : Expr → List Expr} {es : List Expr}
    (each : ∀ c ∈ es, (f c).Perm (g c)) :
    (es.flatMap f).Perm (es.flatMap g) := by
  induction es with
  | nil => exact .nil
  | cons c es ih =>
      rw [List.flatMap_cons, List.flatMap_cons]
      exact (each c List.mem_cons_self).append
        (ih fun d member => each d (List.mem_cons_of_mem c member))

/-- Both orders list the same nodes. -/
theorem postorder_perm
    (e : Expr) :
    e.postorder.Perm e.walk := by
  induction e using induction_children with
  | node e ih =>
      rw [postorder_eq, walk_eq]
      exact (List.perm_append_singleton _ _).trans ((flatMap_perm ih).cons e)

/-- Whether the numbers of the nodes grow from children to parents and from left to right. -/
def Increasing (e : Expr) : Prop :=
  (e.postorder.map id).Pairwise (· < ·)

section Increasing

variable {e : Expr}

/-- All nodes of a tree that is numbered in this way are. -/
theorem Increasing.everywhere
    (h : Increasing e) :
    Everywhere Increasing e := by
  induction e using induction_children with
  | node e ih =>
      refine everywhere_iff.mpr ⟨h, fun c child => ih c child ?_⟩
      rw [Increasing, postorder_eq, List.map_append, List.map_flatMap] at h
      exact (List.pairwise_flatMap.mp (List.pairwise_append.mp h).1).1 c child

/-- A node has a greater number than all that is inside it. -/
theorem Increasing.lt_of_inside
    {x : Expr}
    (h : Increasing e)
    (inside : x.Inside e) :
    x.id < e.id := by
  obtain ⟨c, child, member⟩ := inside
  rw [Increasing, postorder_eq, List.map_append] at h
  refine (List.pairwise_append.mp h).2.2 _ (List.mem_map_of_mem ?_) _ (List.mem_singleton_self _)
  exact List.mem_flatMap.mpr ⟨c, child, (postorder_perm c).mem_iff.mpr member⟩

theorem Increasing.nodup
    (h : Increasing e) :
    (e.walk.map id).Nodup := by
  have distinct : (e.postorder.map id).Nodup := h.imp Nat.ne_of_lt
  exact ((postorder_perm e).map id).nodup_iff.mp distinct

/-- Binding names changes no number. -/
theorem map_id_postorder_bindLocals
    (names : List String)
    (e : Expr) :
    (e.bindLocals names).postorder.map id = e.postorder.map id := by
  rw [postorder_map (keepsShape_bindLocals names), List.map_map]
  exact List.map_congr_left fun x _ => id_bindLocals names x

theorem pairwise_append_ids
    {k : Nat} {xs ys : List Expr}
    (left : (xs.map id).Pairwise (· < ·))
    (right : (ys.map id).Pairwise (· < ·))
    (below : ∀ x ∈ xs, x.id < k)
    (above : ∀ y ∈ ys, k ≤ y.id) :
    ((xs ++ ys).map id).Pairwise (· < ·) := by
  rw [List.map_append]
  refine List.pairwise_append.mpr ⟨left, right, fun a ha b hb => ?_⟩
  obtain ⟨x, hx, rfl⟩ := List.mem_map.mp ha
  obtain ⟨y, hy, rfl⟩ := List.mem_map.mp hb
  exact Nat.lt_of_lt_of_le (below x hx) (above y hy)

theorem Numbered.bounds_postorder
    {n k : Nat}
    (h : Numbered n e k) :
    ∀ x ∈ e.postorder, n ≤ x.id ∧ x.id < k :=
  fun x member => h.within.bounds x ((postorder_perm e).mem_iff.mp member)

theorem bounds_postorder_of_chained
    {n k : Nat} {es : List Expr}
    (h : Chained Numbered n es k) :
    ∀ x ∈ es.flatMap postorder, n ≤ x.id ∧ x.id < k := by
  have within := numbersWithin_of_chained (fun _ _ _ _ h => h.within) h
  exact fun x member => within.bounds x
    ((flatMap_perm fun c _ => postorder_perm c).mem_iff.mp member)

theorem increasing_of_chained
    {n k : Nat} {es : List Expr}
    (each : ∀ c ∈ es, ∀ {n k}, Numbered n c k → Increasing c)
    (h : Chained Numbered n es k) :
    ((es.flatMap postorder).map id).Pairwise (· < ·) := by
  induction h with
  | nil => exact .nil
  | cons first others ih =>
      exact pairwise_append_ids (each _ List.mem_cons_self first)
        (ih fun d member => each d (List.mem_cons_of_mem _ member))
        (fun x member => (first.bounds_postorder x member).2)
        fun y member => (bounds_postorder_of_chained others y member).1

/-- A numbered tree has its numbers in increasing order, by induction on the tree: the children are
numbered one after the other, and their node after all of them. -/
theorem Numbered.increasing
    {n k : Nat}
    (h : Numbered n e k) :
    Increasing e := by
  induction e using induction_children generalizing n k with
  | node e ih =>
      obtain ⟨outer, inner, rfl⟩ := h
      have le := (numbersWithin_of_chained (fun _ _ _ _ h => h.within) inner).le
      have children := pairwise_append_ids
        (increasing_of_chained (fun c child _ _ => ih c (mem_children_of_outer child)) outer)
        (increasing_of_chained (fun c child _ _ => ih c (mem_children_of_inner child)) inner)
        (fun x member => (bounds_postorder_of_chained outer x member).2)
        fun y member =>
          (Nat.le_add_right _ _).trans (bounds_postorder_of_chained inner y member).1
      rw [Increasing, postorder_eq, children_eq_append, List.flatMap_append]
      refine pairwise_append_ids children (List.pairwise_singleton _ _) (fun x member => ?_)
        fun y member => by rw [List.mem_singleton.mp member]
      rcases List.mem_append.mp member with left | right
      · have := (bounds_postorder_of_chained outer x left).2
        omega
      · exact (bounds_postorder_of_chained inner x right).2

end Increasing

end Expr

/-! ### Programs -/

namespace Program

open ExprLang.Expr (visit ByPlace Increasing)

/-- A program whose nodes are addressed by their numbers. -/
structure Addressed (p : Program) : Prop where
  /-- Numbers grow from children to parents and from left to right. -/
  increasing : (p.root.postorder.map Expr.id).Pairwise (· < ·)
  /-- A node has a greater number than all that is inside it. -/
  inside : ∀ x ∈ p.root.walk, ∀ y : Expr, y.Inside x → y.id < x.id
  /-- No number is given twice. -/
  distinct : (p.root.walk.map Expr.id).Nodup
  /-- The walk is what a stack of nodes yields. -/
  walk : visit [p.root] = p.root.walk
  /-- The walk has the node at each place once, parents first and siblings in source order. -/
  places : ByPlace p.root.at? p.root.walk
  /-- The table has one entry for each node. -/
  nodes : p.nodes = p.root.walk.map fun x => (x.id, x)
  /-- A number finds the node that has it, and nothing else. -/
  find? : ∀ n x, Assoc.find? (· == ·) n p.nodes = some x ↔ x ∈ p.root.walk ∧ x.id = n
  node? : ∀ n, p.node? n = Assoc.find? (· == ·) n p.nodes

theorem nodes_eq
    {p : Program}
    (distinct : (p.root.walk.map Expr.id).Nodup) :
    p.nodes = p.root.walk.map fun x => (x.id, x) := by
  refine Assoc.ofList_of_distinct (List.pairwise_map.mpr ?_)
  exact (List.pairwise_map.mp distinct).imp fun other => beq_eq_false_iff_ne.mpr other

/-- The first node with a number is the one in the table. -/
theorem find?_walk
    (n : Nat)
    (xs : List Expr) :
    xs.find? (·.id == n) = Assoc.find? (· == ·) n (xs.map fun x => (x.id, x)) := by
  induction xs with
  | nil => rfl
  | cons x xs ih =>
      rw [List.map_cons, Assoc.find?, ← ih]
      cases h : x.id == n <;> simp [h]

/-- A program is addressed by its numbers if these grow from children to parents and from left to
right. -/
theorem addressed_of_increasing
    {p : Program}
    (h : Increasing p.root) :
    p.Addressed where
  increasing := h
  inside x member y inside := (h.everywhere x member).lt_of_inside inside
  distinct := h.nodup
  walk := by rw [Expr.visit_eq, List.flatMap_singleton]
  places := Expr.byPlace_walk p.root
  nodes := nodes_eq h.nodup
  find? n x := by rw [nodes_eq h.nodup, ← find?_walk, find?_eq_some_iff h.nodup]
  node? n := by rw [nodes_eq h.nodup, ← find?_walk, node?]

/-- The nodes of a compiled program are addressed by their numbers.  Binding names in a program
changes no number and keeps it so. -/
theorem addressed_of_compile
    {config : Config} {source : List Char} {p : Program}
    (compiled : compile config source = .ok p) :
    p.Addressed ∧ ∀ q : Program, q.Addressed → ∀ names,
      ({ q with root := q.root.bindLocals names } : Program).Addressed ∧
        (q.root.bindLocals names).postorder.map Expr.id = q.root.postorder.map Expr.id := by
  obtain ⟨_, numbered⟩ := numbered_of_parse (compile_eq_ok_iff.mp compiled).1
  refine ⟨addressed_of_increasing numbered.increasing, fun q addressed names => ⟨?_, ?_⟩⟩
  · refine addressed_of_increasing ?_
    rw [Increasing, Expr.map_id_postorder_bindLocals]
    exact addressed.increasing
  · exact Expr.map_id_postorder_bindLocals names q.root

/-- The variable of the comprehension takes a number and becomes no node. -/
theorem addressed_of_compile_map :
    ∃ p, compile .standard "[1, 2].map(x, x + 1)".toList = .ok p ∧
      p.root.walk.map Expr.id = [8, 3, 1, 2, 7, 5, 6] ∧
      p.Addressed ∧ ∀ q : Program, q.Addressed → ∀ names,
        ({ q with root := q.root.bindLocals names } : Program).Addressed ∧
          (q.root.bindLocals names).postorder.map Expr.id = q.root.postorder.map Expr.id := by
  have compiles : compilesTo .standard "[1, 2].map(x, x + 1)".toList
      (·.root.walk.map Expr.id == [8, 3, 1, 2, 7, 5, 6]) = true := by
    decide +kernel
  obtain ⟨p, compiled, ids⟩ := exists_of_compilesTo compiles
  exact ⟨p, compiled, beq_iff_eq.mp ids, addressed_of_compile compiled⟩

end Program
end ExprLang
