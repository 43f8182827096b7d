import ExprLang.Proofs.BuiltNodes
import ExprLang.Proofs.PrintedMeaning

/-!
# The span of a node is its source text

The span of a node covers the tokens that the node was read from, and nothing but them.  The spans of
its children lie within it, one behind the other.  The text in the span, compiled by itself, gives
the node back: its numbers and places are the same up to a shift, and the variables of comprehensions
around it are names.

* `freed_bindLocals`, `bindLocals_eq_of_erase`: what binding names keeps.
* `Occurs.wellScoped`: a part of a well-scoped tree is well scoped.
* `stands_slice`: a node that stands on its tokens is what the text in its span is parsed to.
* `Program.spans_of_compile`: the spans of the nodes of a compiled program.
-/

namespace ExprLang
namespace Expr

/-! ### Binding names -/

/-- What is read by itself does not depend on the names that are bound around it. -/
theorem freed_bindLocals
    (names : List String)
    (e : Expr) :
    (e.bindLocals names).freed = e.freed := by
  induction e using induction_nodes with
  | ident m name =>
      by_cases h : name ∈ names <;> simp [bindLocals, freed, h]
  | list _ items ih => simpa [bindLocals, bindItems_eq_map, freed, freedItems_eq_map] using ih
  | map _ entries ih =>
      simpa [bindLocals, bindEntries_eq_map, freed, freedEntries_eq_map] using ih
  | call _ _ target args ihTarget ihArgs =>
      cases target <;>
        simp_all [bindLocals, bindItems_eq_map, bindOption, freed, freedItems_eq_map, freedOption]
  | invoke _ callee args ihCallee ihArgs =>
      simp_all [bindLocals, bindItems_eq_map, freed, freedItems_eq_map]
  | comprehension _ _ target _ guard body ihTarget ihGuard ihBody =>
      cases guard <;> simp_all [bindLocals, bindOption, freed, freedOption]
  | _ => simp_all [bindLocals, freed]

/-- Which names are bound in a tree shows without its marks. -/
theorem bindLocals_eq_of_erase
    {names names' : List String} {e : Expr}
    (same : (e.bindLocals names).erase = (e.bindLocals names').erase) :
    e.bindLocals names = e.bindLocals names' := by
  induction e using induction_nodes with
  | ident m name =>
      by_cases h : name ∈ names <;> by_cases h' : name ∈ names' <;> simp_all [bindLocals]
  | list _ items ih => simp_all [bindLocals, bindItems_eq_map]
  | map _ entries ih =>
      simp only [bindLocals, bindEntries_eq_map, erase_map, List.map_map, map.injEq, true_and,
        List.map_inj_left] at same ⊢
      intro kv member
      obtain ⟨key, value⟩ := Prod.mk.inj (same kv member)
      exact Prod.ext ((ih kv member).1 key) ((ih kv member).2 value)
  | call _ _ target args ihTarget ihArgs =>
      cases target <;> simp_all [bindLocals, bindItems_eq_map, bindOption]
  | invoke _ callee args ihCallee ihArgs => simp_all [bindLocals, bindItems_eq_map]
  | comprehension _ _ target _ guard body ihTarget ihGuard ihBody =>
      cases guard <;> simp_all [bindLocals, bindOption]
  | _ => simp_all [bindLocals]

/-! ### Parts of trees -/

/-- Marks do not matter for which names are bound. -/
theorem WellScoped.mapMark
    {e : Expr} {outer : List (List String)}
    (h : WellScoped outer e)
    (f : Mark → Mark) :
    WellScoped outer (e.mapMark f) := by
  intro scopes x occurs
  obtain ⟨y, original, rfl⟩ := Occurs.of_map (keepsShape_mapMark f) occurs
  have fits := h scopes y original
  cases y <;> exact fits

/-- In a well-scoped tree the names that are bound in a part are those of the scopes around it. -/
theorem Occurs.bindLocals_eq
    {root e : Expr} {scopes : List (List String)} {names : List String}
    (h : Occurs root scopes (e.bindLocals names))
    (wellScoped : WellScoped [] root)
    (alone : WellScoped [] e) :
    e.bindLocals names = e.bindLocals scopes.flatten := by
  refine bindLocals_eq_of_erase ?_
  calc (e.bindLocals names).erase
      = bindLocals scopes.flatten (e.bindLocals names).freed :=
        (bindLocals_freed (h.wellScoped wellScoped)).symm
    _ = bindLocals scopes.flatten e.erase := by rw [freed_bindLocals, freed_eq_erase alone]
    _ = (e.bindLocals scopes.flatten).erase := (erase_bindLocals _ e).symm

end Expr

/-! ### Nodes of source texts -/

section Source

open ExprLang.Parser
open ExprLang.Expr (Everywhere)

variable {limit : Int} {source : List Char}

theorem input_of_rest_nil
    {s : State}
    (rest : (exprAt limit (budget limit) s).2.rest = []) :
    input limit s = exprAt limit (budget limit) s := by
  have none : remaining (exprAt limit (budget limit) s).2 =
      (0, (exprAt limit (budget limit) s).2) := by
    change (_, _) = (_, _)
    rw [rest]
    rfl
  rw [input, bind_apply, bind_apply, none]
  generalize exprAt limit (budget limit) s = result
  rfl

theorem input_fst
    (s : State) :
    (input limit s).1 = (exprAt limit (budget limit) s).1 := by
  rw [input, bind_apply, bind_apply, bind_apply]
  rfl

/-- The text in the span of a node that stands on its tokens is parsed to the node. -/
theorem stands_slice
    {z : Expr}
    (lexed : (Lexer.scan source).errors = [])
    (stands : Stands (exprAt limit (budget limit)) (Lexer.scan source).tokens z) :
    ∃ e k, parse limit (Text.slice source z.span) = .ok e ∧ z = e.moved k z.span.start := by
  obtain ⟨before, inside, after, t, u, tokens, isFirst, isLast, span, k, same⟩ := stands
  obtain ⟨lexed', sameTokens⟩ := Lexer.scan_slice lexed tokens isFirst isLast
  obtain ⟨clean, rest, result⟩ := same (Text.slice source z.span).length _ sameTokens
  rw [span] at clean rest result ⊢
  have run := input_of_rest_nil rest
  exact ⟨_, k, (parse_eq_ok_iff_clean lexed' _).mpr ⟨by rwa [run], by rw [run]⟩, result⟩

/-- The nodes of a tree that is parsed stand around their children and on their tokens. -/
theorem rooted_of_parse
    {root : Expr}
    (parsed : parse limit source = .ok root) :
    Everywhere (Rooted source.length (Lexer.scan source).tokens (exprAt limit (budget limit)))
      root := by
  obtain ⟨clean, rfl⟩ := (parse_eq_ok_iff_clean (scan_errors_of_parse parsed) root).mp parsed
  have reached : (initial source.length (Lexer.scan source).tokens []).Reached source.length
      (Lexer.scan source).tokens := ⟨ordered_scan source, .refl _⟩
  have between : (exprAt limit (budget limit)
      (initial source.length (Lexer.scan source).tokens [])).2.Clean := by
    rw [input, bind_apply] at clean
    exact Proper.clean _ clean
  cases isBudget : budget limit with
  | zero =>
      rw [isBudget] at between
      exact absurd between (not_clean_cutOff limit _)
  | succ n =>
      rw [isBudget] at between
      rw [input_fst, isBudget]
      have grown := finds_exprAt (Nat.le_refl (n + 1)) reached between
      exact grown.each _ (List.mem_singleton_self _)

end Source

namespace Program

/-- The span of a node of a compiled program is its source text.  It is not empty, and the spans of
the children of the node lie in it one behind the other.  The text in the span compiles to the node,
but for a shift of numbers and places, and for the variables of comprehensions around the node, which
are names in the text. -/
theorem spans_of_compile
    {config : Config} {source : List Char} {p : Program}
    (compiled : compile config source = .ok p) :
    ∀ x ∈ p.root.walk,
      x.span.start < x.span.stop ∧ x.span.stop ≤ source.length ∧
      (∀ c ∈ x.children, x.span.start ≤ c.span.start ∧ c.span.stop ≤ x.span.stop) ∧
      x.children.Pairwise (fun a b => a.span.stop ≤ b.span.start) ∧
      ∃ scopes q k, p.root.Occurs scopes x ∧
        compile config (Text.slice source x.span) = .ok q ∧
        x = (q.root.moved k x.span.start).bindLocals scopes.flatten := by
  intro x inside
  obtain ⟨parsed, -, -⟩ := compile_eq_ok_iff.mp compiled
  obtain ⟨proper, ends, children, names, z, rfl, stands⟩ := rooted_of_parse parsed x inside
  refine ⟨proper, ends, fun c child => ?_, children.apart, ?_⟩
  · obtain ⟨starts, -, stops⟩ := children.each c child
    exact ⟨starts, stops⟩
  obtain ⟨scopes, occurs⟩ := Expr.exists_occurs inside
  obtain ⟨e, k, slice, same⟩ := stands_slice (scan_errors_of_parse parsed) stands
  have alone : Expr.WellScoped [] z := by
    rw [same]
    exact (wellScoped_of_parse slice).mapMark _
  rw [Expr.span_bindLocals]
  refine ⟨scopes, ⟨_, e, config⟩, k, occurs, compile_eq_ok_iff.mpr ⟨slice, rfl, rfl⟩, ?_⟩
  rw [← same]
  exact occurs.bindLocals_eq (wellScoped_of_parse parsed) alone

/-- A span has no parentheses around the node, and the sign of an integer belongs to it. -/
theorem spans_of_compile_map :
    ∃ p, compile .standard "[1].map(x, (x) - -2 - y)".toList = .ok p ∧
      p.root.walk.map Expr.span =
        [⟨0, 24⟩, ⟨0, 3⟩, ⟨1, 2⟩, ⟨11, 23⟩, ⟨11, 19⟩, ⟨12, 13⟩, ⟨17, 19⟩, ⟨22, 23⟩] ∧
      ∀ x ∈ p.root.walk,
        x.span.start < x.span.stop ∧ x.span.stop ≤ 24 ∧
        (∀ c ∈ x.children, x.span.start ≤ c.span.start ∧ c.span.stop ≤ x.span.stop) ∧
        x.children.Pairwise (fun a b => a.span.stop ≤ b.span.start) ∧
        ∃ scopes q k, p.root.Occurs scopes x ∧
          compile .standard (Text.slice "[1].map(x, (x) - -2 - y)".toList x.span) = .ok q ∧
          x = (q.root.moved k x.span.start).bindLocals scopes.flatten := by
  have compiles : compilesTo .standard "[1].map(x, (x) - -2 - y)".toList
      (·.root.walk.map Expr.span ==
        [⟨0, 24⟩, ⟨0, 3⟩, ⟨1, 2⟩, ⟨11, 23⟩, ⟨11, 19⟩, ⟨12, 13⟩, ⟨17, 19⟩, ⟨22, 23⟩]) = true := by
    decide +kernel
  obtain ⟨p, compiled, spans⟩ := exists_of_compilesTo compiles
  exact ⟨p, compiled, beq_iff_eq.mp spans, spans_of_compile compiled⟩

end Program
end ExprLang
