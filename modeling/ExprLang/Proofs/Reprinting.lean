import ExprLang.Proofs.PrintedExpressions

/-!
# Printing a tree and parsing the text

The text of a tree that was parsed is parsed as the tree again, with other marks: names are bound to
the same variables, and literals and operators are the same.  Parentheses between two minus signs
may make the text nest deeper than the source, and then deeper than the parser goes.

* `Reprintable`: what a tree must not contain.
* `parse_print`: parsing the text of a tree.
* `not_parse_print_minuses`: a tree with many minus signs, whose text is not parsed.
-/

namespace ExprLang

open Grammar
open ExprLang.Expr (Everywhere FromSource WellScoped freed_eq_erase nesting nesting_eq_of_noDoubleMinus blank)
open ExprLang.Parser (budget maximumNesting)

namespace Expr

/-- A tree whose text says what the tree is: no name or field is invoked, no integer without a sign
is negated, no float is infinite, and floats are read back from their texts. -/
structure Reprintable (e : Expr) : Prop where
  noCall : Everywhere (fun x => x.invokesCallable = false) e
  noLiteral : Everywhere (fun x => x.negatesNatural = false) e
  finite : Everywhere (fun x => x.isInfiniteLiteral = false) e
  readsBack : Everywhere LiteralReadsBack e

theorem Reprintable.readable
    {e : Expr}
    (h : Reprintable e)
    (fromSource : Everywhere FromSource e) :
    Everywhere Readable e :=
  fun x inside => ⟨fromSource x inside, h.noCall x inside, h.noLiteral x inside, h.finite x inside,
    h.readsBack x inside⟩

end Expr

section Reprinting

variable {limit limit' : Int} {source : List Char} {e : Expr}

/-- The text of a tree is parsed under a limit that admits its nesting. -/
theorem parse_print_of_nesting
    (parsed : parse limit source = .ok e)
    (reprintable : e.Reprintable)
    (nests : nesting 1 e < budget limit') :
    ∃ e', parse limit' e.print.toList = .ok e' ∧ e'.erase = e.erase := by
  have readable := reprintable.readable (fromSource_of_parse parsed)
  have loose := loose_of_delimited Lexer.delimited_nil
  obtain ⟨derived, noErrors⟩ := (reads_print readable).whole nests loose 0
  rw [List.append_nil, freed_eq_erase (wellScoped_of_parse parsed)] at derived
  rw [List.append_nil] at noErrors
  exact (parse_eq_ok_iff noErrors e.erase).mpr derived

/-- Where no minus stands before another, the text of a tree nests no deeper than the source. -/
theorem nesting_lt_of_noDoubleMinus
    (parsed : parse limit source = .ok e)
    (single : Everywhere (fun x => x.isDoubleMinus = false) e) :
    nesting 1 e < budget limit := by
  rw [nesting_eq_of_noDoubleMinus single 1]
  exact nesting_lt_of_parse parsed

end Reprinting

/-! ### Many minus signs -/

/-- A name behind a number of minus signs. -/
inductive IsNegated : Nat → Expr → Prop
  | name
      (m : Mark) :
      IsNegated 0 (.ident m "x")
  | minus
      {k : Nat} {e : Expr}
      (m : Mark)
      (inner : IsNegated k e) :
      IsNegated (k + 1) (.unary m .neg e)

/-- A name behind a number of minus signs, as it is written. -/
def minuses (k : Nat) : List Char :=
  List.replicate k '-' ++ ['x']

section Minuses

variable {k n : Nat} {e : Expr} {rest : List Char}

theorem isNegated_of_erase
    {t : Expr}
    (isNegated : IsNegated k t)
    (same : e.erase = t) :
    IsNegated k e := by
  induction isNegated generalizing e with
  | name m =>
      cases e with
      | ident m' name =>
          obtain rfl : name = "x" := by simpa using (Expr.ident.inj same).2
          exact .name m'
      | _ => simp at same
  | minus m _ ih =>
      cases e with
      | unary m' op operand =>
          rw [Expr.erase_unary, Expr.unary.injEq] at same
          obtain ⟨-, rfl, same⟩ := same
          exact .minus m' (ih same)
      | _ => simp at same

/-- Such a tree may be printed. -/
theorem reprintable_of_isNegated
    (isNegated : IsNegated k e) :
    e.Reprintable := by
  have each : Everywhere (fun x => x.invokesCallable = false ∧ x.negatesNatural = false ∧
      x.isInfiniteLiteral = false ∧ x.LiteralReadsBack) e := by
    induction isNegated with
    | name m => exact Expr.everywhere_iff.mpr ⟨⟨rfl, rfl, rfl, trivial⟩, by simp [Expr.children]⟩
    | @minus k e m inner ih =>
        have noLiteral : (Expr.unary m .neg e).negatesNatural = false := by
          cases inner <;> rfl
        exact Expr.everywhere_iff.mpr ⟨⟨rfl, noLiteral, rfl, trivial⟩, by simpa [Expr.children]⟩
  exact ⟨each.mono fun _ h => h.1, each.mono fun _ h => h.2.1, each.mono fun _ h => h.2.2.1,
    each.mono fun _ h => h.2.2.2⟩

theorem isName_x : IsName "x" :=
  isName_of_checkName (by decide)

theorem fromSource_of_isNegated
    (isNegated : IsNegated k e) :
    Everywhere FromSource e := by
  induction isNegated with
  | name => exact Expr.everywhere_iff.mpr ⟨isName_x, by simp [Expr.children]⟩
  | minus m _ ih => exact Expr.everywhere_iff.mpr ⟨trivial, by simpa [Expr.children]⟩

/-- Minus signs in a row do not nest. -/
theorem readsAs_minuses
    (k : Nat) :
    ∃ t, IsNegated k t ∧
      ReadsAs (fun i r => Derives n (.unary t) i r ∧ negatable? i = none) (minuses k) [] := by
  induction k with
  | zero =>
      refine ⟨.ident blank "x", .name blank, ?_⟩
      have ends : Lexer.EndsWord [] := by simp [Lexer.EndsWord]
      exact (readsAs_name (n := n) isName_x ends fun pos => rfl).mono fun i r h =>
        ⟨h.unary_of_member, negatable?_of_member h rfl rfl⟩
  | succ k ih =>
      obtain ⟨t, isNegated, reads⟩ := ih
      refine ⟨.unary blank .neg t, .minus blank isNegated, ?_⟩
      have text : minuses (k + 1) = UnaryOp.neg.symbol.toList ++ minuses k := by
        simp [minuses, List.replicate_succ, UnaryOp.symbol]
      rw [text]
      refine (readsAs_sign .neg fun isNot => by cases isNot).append reads ?_
      rintro i j r ⟨sign, isSign, rfl⟩ ⟨inside, apart⟩
      exact ⟨inside.sign isSign fun _ => apart, negatable?_of_prefixOf? isSign⟩

theorem toList_print_minus
    (m m' : Mark)
    (e : Expr) :
    (Expr.unary m .neg (.unary m' .neg e)).print.toList =
      UnaryOp.neg.symbol.toList ++ '(' :: ((Expr.unary m' .neg e).print.toList ++ [')']) := by
  have noParentheses : ∀ text, (Expr.unary m' .neg e).wrap Expr.unaryPrecedence text = text :=
    fun _ => if_neg (Nat.lt_irrefl _)
  have begins : (Expr.unary m' .neg e).print.toList.head? = some '-' := by
    rw [Expr.print, toList_unaryText]
    rfl
  rw [Expr.print, noParentheses, toList_unaryText, if_pos ⟨rfl, begins⟩]

/-- In the text of the tree each minus sign but the last stands before a parenthesis. -/
theorem readsAs_print_negated
    (isNegated : IsNegated (k + 1) e)
    (delimited : Lexer.Delimited rest) :
    ReadsAs (fun i _ => k ≤ leading i) e.print.toList rest := by
  induction k generalizing e rest with
  | zero =>
      have reads := (reads_print ((reprintable_of_isNegated isNegated).readable
        (fromSource_of_isNegated isNegated))).whole (Nat.lt_succ_self _)
        (loose_of_delimited delimited)
      exact reads.mono fun _ _ _ => Nat.zero_le _
  | succ k ih =>
      cases isNegated with
      | minus m inner =>
          cases inner with
          | minus m' inner =>
              have close : ReadsAs (OneSymbol ")") [')'] rest :=
                readsAs_symbol (.inl (by decide)) fun t _ isClose => ⟨t, isClose, rfl⟩
              have reads : ReadsAs (fun i _ => k ≤ leading i) _ ([')'] ++ rest) :=
                ih (.minus m' inner) (Lexer.delimited_cons (by decide) rest)
              have closed : ReadsAs (fun i _ => k ≤ leading i) _ rest :=
                reads.append close fun _ _ _ leads _ => leads
              have opened : ReadsAs (fun i _ => k + 1 ≤ leading i) _ rest :=
                closed.symbol (c := '(') (.inl (by decide)) fun t i r isOpen leads => by
                  rw [leading_of_isOpening (isOpening_of_isSymbol isOpen)]
                  exact Nat.succ_le_succ leads
              rw [toList_print_minus]
              refine ReadsAs.append (readsAs_sign .neg nofun) opened ?_
              rintro i j r ⟨sign, isSign, rfl⟩ leads
              rwa [leading_of_prefixOf? isSign]

/-- A name behind minus signs is parsed under every limit. -/
theorem parse_minuses
    {limit : Int}
    (positive : 0 < limit)
    (k : Nat) :
    ∃ e, parse limit (minuses k) = .ok e ∧ IsNegated k e := by
  obtain ⟨n, enough⟩ := Nat.exists_eq_succ_of_ne_zero (show budget limit ≠ 0 by
    simp only [budget, maximumNesting]
    omega)
  obtain ⟨t, isNegated, reads⟩ := readsAs_minuses (n := n) k
  obtain ⟨⟨derived, -⟩, noErrors⟩ := reads 0
  rw [List.append_nil] at derived noErrors
  have whole := expr_of_unary derived
  rw [← Nat.succ_eq_add_one, ← enough] at whole
  obtain ⟨e, parsed, same⟩ := (parse_eq_ok_iff noErrors t).mpr whole
  exact ⟨e, parsed, isNegated_of_erase isNegated same⟩

/-- One minus sign does not nest. -/
theorem single_of_isNegated
    (isNegated : IsNegated 1 e) :
    nesting 1 e = 0 ∧ Everywhere (fun x => x.isDoubleMinus = false) e := by
  cases isNegated with
  | minus m inner =>
      cases inner with
      | name m' =>
          refine ⟨rfl, ?_⟩
          simp [Everywhere, Expr.walk, Expr.walkOnto, Expr.isDoubleMinus, Expr.beginsWithMinus]

/-- Operators, parentheses and variables of comprehensions come back as they were. -/
example :
    ((parse 64 "(a+b)*[1].map(x,x<2?-(-x):- -1)[-1]".toList).toOption.map Expr.print) =
      some "(a + b) * [1].map(x, x < 2 ? -(-x) : -(-1))[-1]" := by
  decide +kernel

end Minuses

end ExprLang
