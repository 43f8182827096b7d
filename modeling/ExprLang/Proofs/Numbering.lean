import ExprLang.Proofs.Subtrees

/-!
# Numbers of nodes

The parser numbers the nodes of a tree in the order in which it completes them: children before
their parents, from left to right.  The variables of a comprehension are read as names, so that each
of them takes a number, although it becomes no node.  These numbers are all different, and they
depend on nothing but the tree.

* `Numbered`: a tree whose nodes are numbered in this way.
* `Numbered.bindLocals`: binding names changes no number.
* `Numbered.unspanned_eq`: trees that differ in their marks only have the same numbers.
* `Numbered.nodup`: no number is given twice.
-/

namespace ExprLang
namespace Expr

/-- Trees numbered one after the other: from `n`, the first number that is free, to `k`, the first
that is free after them. -/
inductive Chained (R : Nat → Expr → Nat → Prop) : Nat → List Expr → Nat → Prop
  | nil
      {n : Nat} :
      Chained R n [] n
  | cons
      {n k j : Nat} {e : Expr} {es : List Expr}
      (first : R n e k)
      (others : Chained R k es j) :
      Chained R n (e :: es) j

/-- `Numbered n e k`: the nodes of `e` are numbered from `n` on, and `k` is the next number. -/
inductive Numbered : Nat → Expr → Nat → Prop
  | node
      {n k j : Nat} {e : Expr}
      (outer : Chained Numbered n e.outerChildren k)
      (inner : Chained Numbered (k + e.binders.length) e.innerChildren j)
      (isNext : e.id = j) :
      Numbered n e (j + 1)

section Chained

variable {R : Nat → Expr → Nat → Prop} {n k : Nat} {e : Expr} {es : List Expr}

theorem chained_single
    (h : R n e k) :
    Chained R n [e] k :=
  .cons h .nil

theorem Chained.map
    {g : Expr → Expr}
    (h : Chained R n es k)
    (each : ∀ c ∈ es, ∀ {n k}, R n c k → R n (g c) k) :
    Chained R n (es.map g) k := by
  induction h with
  | nil => exact .nil
  | cons first _ ih =>
      exact .cons (each _ List.mem_cons_self first)
        (ih fun c member => each c (List.mem_cons_of_mem _ member))

/-- A node without variables is numbered after its children. -/
theorem numbered_of_children
    (noBinders : e.binders = [])
    (noInner : e.innerChildren = [])
    (children : Chained Numbered n e.children k)
    (isNext : e.id = k) :
    Numbered n e (k + 1) := by
  rw [children_eq_append, noInner, List.append_nil] at children
  refine .node children ?_ isNext
  rw [noBinders, noInner]
  exact .nil

end Chained

/-! ### Binding names -/

@[simp] theorem id_bindLocals
    (names : List String)
    (e : Expr) :
    (bindLocals names e).id = e.id := by
  cases e with
  | ident _ name => by_cases h : name ∈ names <;> simp [bindLocals, h, id, mark]
  | _ => rfl

/-- Binding names changes no number. -/
theorem Numbered.bindLocals
    {n k : Nat} {e : Expr}
    (h : Numbered n e k)
    (names : List String) :
    Numbered n (bindLocals names e) k := by
  have keeps := keepsShape_bindLocals names
  induction e using induction_children generalizing n k with
  | node e ih =>
      obtain ⟨outer, inner, isNext⟩ := h
      have outer' := outer.map fun c child _ _ h => ih c (mem_children_of_outer child) h
      have inner' := inner.map fun c child _ _ h => ih c (mem_children_of_inner child) h
      rw [← keeps.outer] at outer'
      rw [← keeps.inner, ← keeps.binders e] at inner'
      exact .node outer' inner' ((id_bindLocals names e).trans isNext)

/-! ### Numbers are different -/

/-- Nodes whose numbers are all different, from `n` on and below `k`. -/
structure NumbersWithin (n k : Nat) (xs : List Expr) : Prop where
  le : n ≤ k
  bounds : ∀ x ∈ xs, n ≤ x.id ∧ x.id < k
  nodup : (xs.map id).Nodup

section NumbersWithin

variable {n k k' j : Nat} {xs ys es : List Expr} {e : Expr}

theorem NumbersWithin.append
    (h : NumbersWithin n k xs)
    (h' : NumbersWithin k' j ys)
    (le : k ≤ k') :
    NumbersWithin n j (xs ++ ys) where
  le := h.le.trans (le.trans h'.le)
  bounds x member := by
    have first := h.bounds x
    have second := h'.bounds x
    have := h.le
    have := h'.le
    grind
  nodup := by
    rw [List.map_append, List.nodup_append]
    refine ⟨h.nodup, h'.nodup, fun a left b right => ?_⟩
    obtain ⟨x, hx, rfl⟩ := List.mem_map.mp left
    obtain ⟨y, hy, rfl⟩ := List.mem_map.mp right
    have := (h.bounds x hx).2
    have := (h'.bounds y hy).1
    omega

theorem numbersWithin_of_chained
    (each : ∀ c ∈ es, ∀ {n k}, Numbered n c k → NumbersWithin n k c.walk)
    (h : Chained Numbered n es k) :
    NumbersWithin n k (es.flatMap walk) := by
  induction h with
  | nil => exact ⟨Nat.le_refl _, nofun, .nil⟩
  | cons first _ ih =>
      rw [List.flatMap_cons]
      exact (each _ List.mem_cons_self first).append
        (ih fun c member => each c (List.mem_cons_of_mem _ member)) (Nat.le_refl _)

/-- All numbers are taken between the first and the next, by induction on the tree. -/
theorem Numbered.within
    (h : Numbered n e k) :
    NumbersWithin n k e.walk := by
  induction e using induction_children generalizing n k with
  | node e ih =>
      obtain ⟨outer, inner, rfl⟩ := h
      have before := (numbersWithin_of_chained
          (fun c child _ _ h => ih c (mem_children_of_outer child) h) outer).append
        (numbersWithin_of_chained
          (fun c child _ _ h => ih c (mem_children_of_inner child) h) inner) (Nat.le_add_right _ _)
      rw [walk_eq, children_eq_append, List.flatMap_append]
      refine ⟨Nat.le_succ_of_le before.le, ?_, ?_⟩
      · intro x member
        rcases List.mem_cons.mp member with rfl | inside
        · exact ⟨before.le, Nat.lt_succ_self _⟩
        · exact ⟨(before.bounds x inside).1, Nat.lt_succ_of_lt (before.bounds x inside).2⟩
      · rw [List.map_cons, List.nodup_cons]
        refine ⟨fun member => ?_, before.nodup⟩
        obtain ⟨x, inside, same⟩ := List.mem_map.mp member
        exact absurd same (Nat.ne_of_lt (before.bounds x inside).2)

/-- No number is given twice. -/
theorem Numbered.nodup
    (h : Numbered n e k) :
    (e.walk.map id).Nodup :=
  h.within.nodup

end NumbersWithin

/-! ### Numbers depend on the tree -/

/-- A tree with the numbers of its nodes, but not their places in the source. -/
def unspanned (e : Expr) : Expr :=
  e.mapMark fun m => ⟨m.id, blank.span⟩

theorem flatMap_pair_inj
    {g : Expr → Expr} {l l' : List (Expr × Expr)}
    (h : ((l.flatMap fun (k, v) => [k, v]).map g) = (l'.flatMap fun (k, v) => [k, v]).map g) :
    (l.map fun (k, v) => (g k, g v)) = l'.map fun (k, v) => (g k, g v) := by
  induction l generalizing l' with
  | nil =>
      cases l' with
      | nil => rfl
      | cons => simp at h
  | cons kv l ih =>
      cases l' with
      | nil => simp at h
      | cons kv' l' =>
          simp only [List.flatMap_cons, List.map_cons, List.cons_append, List.nil_append,
            List.cons.injEq] at h
          simp [h.1, h.2.1, ih h.2.2]

/-- Trees that differ in their marks only are the same with changed marks if their roots and their
children are. -/
theorem mapMark_congr
    {f : Mark → Mark} {e e' : Expr}
    (same : e.erase = e'.erase)
    (root : f e.mark = f e'.mark)
    (children : e.children.map (mapMark f) = e'.children.map (mapMark f)) :
    e.mapMark f = e'.mapMark f := by
  cases e <;> cases e' <;> simp only [erase_literal, erase_ident, erase_localRef, erase_unary,
    erase_binary, erase_ternary, erase_list, erase_map, erase_select, erase_index, erase_call,
    erase_invoke, erase_has, erase_comprehension, reduceCtorEq] at same
  case map.map m entries m' entries' =>
    simp only [Expr.children] at children
    simp_all [mapMark, mapMarkEntries_eq_map, mark, flatMap_pair_inj children]
  case call.call m function target args m' function' target' args' =>
    cases target <;> cases target' <;>
      simp_all [mapMark, mapMarkItems_eq_map, mapMarkOption_eq_map, Expr.children, mark]
  case comprehension.comprehension m kind target names guard body m' _ _ _ guard' _ =>
    cases guard <;> cases guard' <;>
      simp_all [mapMark, mapMarkOption_eq_map, Expr.children, mark]
  all_goals simp_all [mapMark, mapMarkItems_eq_map, Expr.children, mark]

theorem Chained.unspanned_eq
    {n k k' : Nat} {es es' : List Expr}
    (each : ∀ c ∈ es, ∀ {n k k' c'}, Numbered n c k → Numbered n c' k' → c.erase = c'.erase →
      k = k' ∧ c.unspanned = c'.unspanned)
    (h : Chained Numbered n es k)
    (h' : Chained Numbered n es' k')
    (same : es.map erase = es'.map erase) :
    k = k' ∧ es.map unspanned = es'.map unspanned := by
  induction h generalizing es' k' with
  | nil =>
      cases h' with
      | nil => exact ⟨rfl, rfl⟩
      | cons => simp at same
  | cons first _ ih =>
      cases h' with
      | nil => simp at same
      | cons first' others' =>
          rw [List.map_cons, List.map_cons, List.cons.injEq] at same
          obtain ⟨rfl, sameFirst⟩ := each _ List.mem_cons_self first first' same.1
          obtain ⟨rfl, sameOthers⟩ :=
            ih (fun c member => each c (List.mem_cons_of_mem _ member)) others' same.2
          exact ⟨rfl, by rw [List.map_cons, List.map_cons, sameFirst, sameOthers]⟩

/-- Trees that differ in their marks only and are numbered from one number on have the same numbers,
by induction on the tree. -/
theorem Numbered.unspanned_eq
    {n k k' : Nat} {e e' : Expr}
    (h : Numbered n e k)
    (h' : Numbered n e' k')
    (same : e.erase = e'.erase) :
    k = k' ∧ e.unspanned = e'.unspanned := by
  induction e using induction_children generalizing n k k' e' with
  | node e ih =>
      obtain ⟨outer, inner, rfl⟩ := h
      obtain ⟨outer', inner', rfl⟩ := h'
      have keeps := keepsShape_erase
      have sameOuter := (keeps.outer e).symm.trans ((congrArg _ same).trans (keeps.outer e'))
      have sameInner := (keeps.inner e).symm.trans ((congrArg _ same).trans (keeps.inner e'))
      have sameBinders := (keeps.binders e).symm.trans ((congrArg _ same).trans (keeps.binders e'))
      obtain ⟨rfl, outside⟩ := outer.unspanned_eq
        (fun c child _ _ _ _ h h' => ih c (mem_children_of_outer child) h h') outer' sameOuter
      rw [← sameBinders] at inner'
      obtain ⟨sameId, inside⟩ := inner.unspanned_eq
        (fun c child _ _ _ _ h h' => ih c (mem_children_of_inner child) h h') inner' sameInner
      refine ⟨congrArg (· + 1) sameId, mapMark_congr same (by rw [← id, ← id, sameId]) ?_⟩
      rw [children_eq_append, children_eq_append, List.map_append, List.map_append]
      exact congrArg₂ _ outside inside

end Expr
end ExprLang
