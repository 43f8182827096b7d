import ExprLang.Proofs.Subtrees

/-!
# Parts of a tree on their own

Read by itself, the text of a part of a tree has names where the tree has references to variables of
comprehensions around the part.  Binding the names of those variables gives the part back.

* `freed`: the part as it is read by itself, without marks.
* `bindLocals_bindLocals`: binding names twice is binding them all.
* `bindLocals_freed`: a well-scoped part is what binding makes of it.
-/

namespace ExprLang
namespace Expr

mutual

/-- A tree as it is read by itself: references to variables from outside are names.  Marks are
forgotten. -/
def freed : Expr → Expr
  | literal _ value => literal blank value
  | ident _ name => ident blank name
  | localRef _ name => ident blank name
  | unary _ op operand => unary blank op (freed operand)
  | binary _ op left right => binary blank op (freed left) (freed right)
  | ternary _ cond ifTrue ifFalse => ternary blank (freed cond) (freed ifTrue) (freed ifFalse)
  | list _ items => list blank (freedItems items)
  | map _ entries => map blank (freedEntries entries)
  | select _ operand field => select blank (freed operand) field
  | index _ operand key => index blank (freed operand) (freed key)
  | call _ function target args => call blank function (freedOption target) (freedItems args)
  | invoke _ callee args => invoke blank (freed callee) (freedItems args)
  | has _ access => has blank (freed access)
  | comprehension _ kind target names guard body =>
      comprehension blank kind (freed target) names (bindOption names (freedOption guard))
        (bindLocals names (freed body))

/-- Trees as they are read by themselves. -/
def freedItems : List Expr → List Expr
  | [] => []
  | e :: rest => freed e :: freedItems rest

/-- Entries of a map as they are read by themselves. -/
def freedEntries : List (Expr × Expr) → List (Expr × Expr)
  | [] => []
  | (k, v) :: rest => (freed k, freed v) :: freedEntries rest

/-- A tree that may be missing, as it is read by itself. -/
def freedOption : Option Expr → Option Expr
  | none => none
  | some e => some (freed e)

end

theorem freedItems_eq_map
    (items : List Expr) :
    freedItems items = items.map freed := by
  induction items with
  | nil => rfl
  | cons e rest ih => rw [freedItems, ih, List.map_cons]

theorem freedEntries_eq_map
    (entries : List (Expr × Expr)) :
    freedEntries entries = entries.map fun (k, v) => (freed k, freed v) := by
  induction entries with
  | nil => rfl
  | cons entry rest ih => rw [freedEntries, ih, List.map_cons]

/-! ### Binding names again -/

theorem bindLocals_nil
    (e : Expr) :
    bindLocals [] e = e := by
  induction e using induction_nodes with
  | list _ items ih =>
      simp [bindLocals, bindItems_eq_map, List.map_congr_left ih]
  | map _ entries ih =>
      have same : (entries.map fun (k, v) => (bindLocals [] k, bindLocals [] v)) = entries :=
        (List.map_congr_left fun kv member => Prod.ext (ih kv member).1 (ih kv member).2).trans
          (List.map_id entries)
      simp [bindLocals, bindEntries_eq_map, same]
  | call _ _ target args ihTarget ihArgs =>
      cases target <;> simp_all [bindLocals, bindItems_eq_map, bindOption, List.map_congr_left ihArgs]
  | invoke _ callee args ihCallee ihArgs =>
      simp [bindLocals, bindItems_eq_map, ihCallee, List.map_congr_left ihArgs]
  | comprehension _ _ target _ guard body ihTarget ihGuard ihBody =>
      cases guard <;> simp_all [bindLocals, bindOption]
  | _ => simp_all [bindLocals]

/-- Binding names twice is binding them all. -/
theorem bindLocals_bindLocals
    (inner outer : List String)
    (e : Expr) :
    bindLocals outer (bindLocals inner e) = bindLocals (inner ++ outer) e := by
  induction e using induction_nodes with
  | ident m name =>
      by_cases isInner : name ∈ inner <;> simp [bindLocals, isInner]
  | list _ items ih => simpa [bindLocals, bindItems_eq_map] using ih
  | map _ entries ih => simpa [bindLocals, bindEntries_eq_map] using ih
  | call _ _ target args ihTarget ihArgs =>
      cases target <;> simp_all [bindLocals, bindItems_eq_map, bindOption]
  | invoke _ callee args ihCallee ihArgs => simp_all [bindLocals, bindItems_eq_map]
  | comprehension _ _ target _ guard body ihTarget ihGuard ihBody =>
      cases guard <;> simp_all [bindLocals, bindOption]
  | _ => simp_all [bindLocals]

theorem WellScoped.outerChild
    {outer : List (List String)} {e c : Expr}
    (h : WellScoped outer e)
    (child : c ∈ e.outerChildren) :
    WellScoped outer c :=
  (wellScoped_iff.mp h).2.1 c child

/-- A part of a tree is what it is by itself with the variables around it bound. -/
theorem bindLocals_freed
    {e : Expr} {outer : List (List String)}
    (h : WellScoped outer e) :
    bindLocals outer.flatten (freed e) = e.erase := by
  induction e using induction_nodes generalizing outer with
  | literal => rfl
  | ident m name =>
      have free : name ∉ outer.flatten := by
        simpa [Fits] using h [] _ .root
      simp [freed, bindLocals, free]
  | localRef m name =>
      have bound : name ∈ outer.flatten := by
        simpa [Fits] using h [] _ .root
      simp [freed, bindLocals, bound]
  | list _ items ih =>
      have inside : ∀ e ∈ items, WellScoped outer e := fun e member => h.outerChild member
      simpa [freed, freedItems_eq_map, bindLocals, bindItems_eq_map] using
        fun e member => ih e member (inside e member)
  | map _ entries ih =>
      have inside : ∀ kv ∈ entries, WellScoped outer kv.1 ∧ WellScoped outer kv.2 :=
        fun kv member => ⟨h.outerChild (List.mem_flatMap.mpr ⟨kv, member, by simp⟩),
          h.outerChild (List.mem_flatMap.mpr ⟨kv, member, by simp⟩)⟩
      have same : ∀ kv ∈ entries, bindLocals outer.flatten (freed kv.1) = kv.1.erase ∧
          bindLocals outer.flatten (freed kv.2) = kv.2.erase :=
        fun kv member => ⟨(ih kv member).1 (inside kv member).1,
          (ih kv member).2 (inside kv member).2⟩
      simpa [freed, freedEntries_eq_map, bindLocals, bindEntries_eq_map] using same
  | call _ _ target args ihTarget ihArgs =>
      have inside : ∀ e ∈ target.toList ++ args, WellScoped outer e :=
        fun e member => h.outerChild member
      have sameArgs : ∀ e ∈ args, bindLocals outer.flatten (freed e) = e.erase :=
        fun e member => ihArgs e member (inside e (by simp [member]))
      cases target with
      | none =>
          simpa [freed, freedItems_eq_map, freedOption, bindLocals, bindItems_eq_map, bindOption]
            using sameArgs
      | some t =>
          have sameTarget := ihTarget t rfl (inside t (by simp))
          simpa [freed, freedItems_eq_map, freedOption, bindLocals, bindItems_eq_map, bindOption,
            sameTarget] using sameArgs
  | invoke _ callee args ihCallee ihArgs =>
      have inside : ∀ e ∈ callee :: args, WellScoped outer e :=
        fun e member => h.outerChild member
      have sameCallee := ihCallee (inside callee (by simp))
      simpa [freed, freedItems_eq_map, bindLocals, bindItems_eq_map, sameCallee] using
        fun e member => ihArgs e member (inside e (by simp [member]))
  | comprehension _ _ target names guard body ihTarget ihGuard ihBody =>
      obtain ⟨-, outside, inside⟩ := wellScoped_iff.mp h
      have sameTarget := ihTarget (outside target (by simp [outerChildren]))
      have sameBody := ihBody (inside body (by simp [innerChildren]))
      have sameGuard : ∀ e ∈ guard, bindLocals (names ++ outer.flatten) (freed e) = e.erase :=
        fun e member => ihGuard e member (inside e (by simp_all [innerChildren]))
      rw [List.flatten_cons] at sameBody
      cases guard <;>
        simp_all [freed, freedOption, bindLocals, bindOption, bindLocals_bindLocals, binders]
  | _ =>
      have inside := (wellScoped_iff.mp h).2.1
      simp_all [freed, bindLocals, outerChildren, children]

/-- A tree without variables from outside is read as it is. -/
theorem freed_eq_erase
    {e : Expr}
    (h : WellScoped [] e) :
    freed e = e.erase := by
  rw [← bindLocals_freed h, List.flatten_nil, bindLocals_nil]

end Expr
end ExprLang
