import ExprLang.Proofs.Lookahead
import ExprLang.Proofs.PrintedText

/-!
# Opening brackets in a row

Each opening bracket that an expression begins with is one more level of nesting, so that a text
with too many of them is no expression, however it goes on.  Operators in front of a bracket do not
matter.

* `leading`: the number of opening brackets that tokens begin with.
* `leading_le_of_derives`: an expression begins with no more of them than expressions nest.
* `readsAs_grouped`: a literal in any number of parentheses is an expression.
-/

namespace ExprLang
namespace Grammar

open ExprLang.Expr (blank)
open Lexer (Delimited delimited_cons)

/-- The symbols that open a group, a list or arguments, and a map. -/
def openings : List String := ["(", "[", "\x7b"]

/-- Whether a token is an opening bracket. -/
def isOpening (t : Token) : Bool :=
  openings.any t.isSymbol

/-- The number of opening brackets that tokens begin with, operators in front of them apart. -/
def leading : List Token → Nat
  | [] => 0
  | t :: i =>
      if isOpening t then leading i + 1
      else if (Parser.prefixOf? t).isSome then leading i
      else 0

section Leading

variable {t : Token} {i : List Token}

theorem leading_of_isOpening
    (h : isOpening t = true) :
    leading (t :: i) = leading i + 1 :=
  if_pos h

theorem leading_cons_le : leading (t :: i) ≤ leading i + 1 := by
  rw [leading]
  split
  · exact Nat.le_refl _
  · split <;> omega

theorem leading_le_of_not_isOpening
    (h : isOpening t = false)
    (noSign : Parser.prefixOf? t = none)
    (n : Nat) :
    leading (t :: i) ≤ n := by
  simp [leading, h, noSign]

theorem isOpening_of_isSymbol
    {text : String}
    (h : t.isSymbol text = true) :
    isOpening t = openings.contains text := by
  have same : ∀ other, t.isSymbol other = (text == other) := by
    intro other
    by_cases equal : text = other
    · rw [← equal, h, beq_self_eq_true]
    · rw [beq_eq_false_iff_ne.mpr equal]
      exact isSymbol_eq_false h (Ne.symm equal)
  simp only [isOpening, funext same, List.contains_eq_any_beq]

theorem isOpening_eq_false
    (h : ∀ text, t.isSymbol text = false) :
    isOpening t = false :=
  List.any_eq_false.mpr fun text _ => by simp [h text]

theorem isSymbol_of_negatable?
    {k : Nat}
    (h : negatable? (t :: i) = some k)
    (text : String) :
    t.isSymbol text = false := by
  cases hk : t.kind <;> simp_all [negatable?, Token.isSymbol]

theorem prefixOf?_eq_none
    (h : ∀ text, t.isSymbol text = false) :
    Parser.prefixOf? t = none := by
  cases sign : Parser.prefixOf? t with
  | none => rfl
  | some op =>
      have isSymbol := isSymbol_of_prefixOf? sign
      rw [h] at isSymbol
      cases isSymbol

/-- What is neither a mark nor an operator opens nothing. -/
theorem leading_le_of_no_symbol
    (h : ∀ text, t.isSymbol text = false)
    (n : Nat) :
    leading (t :: i) ≤ n :=
  leading_le_of_not_isOpening (isOpening_eq_false h) (prefixOf?_eq_none h) n

/-- What closes something opens nothing. -/
theorem leading_le_of_isClosing
    {close : String}
    (isClose : t.isSymbol close = true)
    (closes : close ∉ openings)
    (noSign : ∀ op : UnaryOp, close ≠ op.symbol)
    (n : Nat) :
    leading (t :: i) ≤ n := by
  have noOpening := isOpening_of_isSymbol isClose
  rw [List.contains_eq_mem, decide_eq_false closes] at noOpening
  refine leading_le_of_not_isOpening noOpening ?_ n
  cases sign : Parser.prefixOf? t with
  | none => rfl
  | some op =>
      have other := isSymbol_eq_false isClose (noSign op).symm
      rw [isSymbol_of_prefixOf? sign] at other
      cases other

theorem isOpening_of_prefixOf?
    {op : UnaryOp}
    (h : Parser.prefixOf? t = some op) :
    isOpening t = false := by
  rw [isOpening_of_isSymbol (isSymbol_of_prefixOf? h)]
  cases op <;> decide

theorem leading_of_prefixOf?
    {op : UnaryOp}
    (h : Parser.prefixOf? t = some op) :
    leading (t :: i) = leading i := by
  simp [leading, isOpening_of_prefixOf? h, h]

/-- Operators in front open nothing. -/
theorem leading_signs
    {signs : List Token} {ops : List UnaryOp}
    (areSigns : signs.map Parser.prefixOf? = ops.map some) :
    leading (signs ++ i) = leading i := by
  induction signs generalizing ops with
  | nil => rfl
  | cons sign signs ih =>
      cases ops with
      | nil => simp at areSigns
      | cons op ops =>
          simp only [List.map_cons, List.cons.injEq] at areSigns
          rw [List.cons_append, leading_of_prefixOf? areSigns.1, ih areSigns.2]

end Leading

/-- How many opening brackets a phrase may begin with where expressions nest at most `n` deep.  What
follows an operand begins after it, so that nothing is said about it. -/
def Phrase.BeginsWithin (n : Nat) : Phrase → List Token → Prop
  | .expr _, i => leading i ≤ n
  | .chain _ _, i => leading i ≤ n + 1
  | .operators _ _ _ _, _ => True
  | .unary _, i => leading i ≤ n + 1
  | .member _, i => leading i ≤ n + 1
  | .postfixes _ _, _ => True
  | .primary _, i => leading i ≤ n + 1
  | .items close _, i => close ∉ openings → (∀ op : UnaryOp, close ≠ op.symbol) → leading i ≤ n
  | .entries _, i => leading i ≤ n

/-- Every phrase keeps within its brackets, by induction on its derivation. -/
theorem beginsWithin_of_derives
    {n : Nat} {p : Phrase} {i r : List Token}
    (h : Derives n p i r) :
    p.BeginsWithin n i := by
  induction h with
  | plain _ ih => exact ih
  | ternary _ _ _ _ _ ih _ _ => exact ih
  | operand _ ih => exact ih
  | chain _ _ ih _ => exact ih
  | operatorsEnd => trivial
  | operator => trivial
  | prefixed areSigns _ _ ih => exact (leading_signs areSigns).trans_le ih
  | negative areSigns isMinus isInteger _ =>
      rw [Phrase.BeginsWithin, leading_signs areSigns, leading_of_prefixOf? isMinus]
      exact leading_le_of_no_symbol (isSymbol_of_negatable? isInteger) _
  | member _ _ ih _ => exact ih
  | postfixesEnd => trivial
  | field => trivial
  | method => trivial
  | index => trivial
  | invocation => trivial
  | literal value =>
      exact leading_le_of_no_symbol (isSymbol_of_literalValue? value) _
  | name isName _ _ =>
      exact leading_le_of_no_symbol (isSymbol_of_isIdent isName) _
  | call isName _ _ _ _ _ =>
      exact leading_le_of_no_symbol (isSymbol_of_isIdent isName) _
  | group _ _ _ ih => exact leading_cons_le.trans (Nat.add_le_add_right ih 1)
  | list _ _ ih =>
      have inside := ih (by decide) (by rintro (_ | _) <;> decide)
      exact leading_cons_le.trans (Nat.add_le_add_right inside 1)
  | map _ _ ih => exact leading_cons_le.trans (Nat.add_le_add_right ih 1)
  | itemsEnd isClose => exact fun closes noSign => leading_le_of_isClosing isClose closes noSign _
  | lastItem _ _ ih => exact fun _ _ => ih
  | item _ _ _ ih _ => exact fun _ _ => ih
  | entriesEnd isClose =>
      exact leading_le_of_isClosing isClose (by decide) (by rintro (_ | _) <;> decide) _
  | lastEntry _ _ _ _ ih _ => exact ih
  | entry _ _ _ _ _ ih _ _ => exact ih

/-- An expression begins with no more opening brackets than expressions nest. -/
theorem leading_le_of_derives
    {n : Nat} {e : Expr} {i r : List Token}
    (h : Derives n (.expr e) i r) :
    leading i ≤ n :=
  beginsWithin_of_derives h

/-! ### Parentheses -/

/-- A text in a number of parentheses. -/
def grouped (text : List Char) : Nat → List Char
  | 0 => text
  | k + 1 => '(' :: (grouped text k ++ [')'])

/-- An expression in parentheses is the same expression, nested that much deeper. -/
theorem readsAs_grouped
    {n : Nat} {e : Expr} {text : List Char}
    (reads : ∀ rest, Delimited rest → ReadsAs (Derives n (.expr e)) text rest)
    (k : Nat)
    (rest : List Char)
    (delimited : Delimited rest) :
    ReadsAs (fun i r => Derives (n + k) (.expr e) i r ∧ k ≤ leading i) (grouped text k) rest := by
  induction k generalizing rest with
  | zero => exact (reads rest delimited).mono fun i r derived => ⟨derived, Nat.zero_le _⟩
  | succ k ih =>
      have close : ReadsAs (fun i r => ∃ t, t.isSymbol ")" = true ∧ i = t :: r) [')'] rest :=
        readsAs_symbol (.inl (by decide)) fun t r isClose => ⟨t, isClose, rfl⟩
      have inside : ReadsAs (fun i r => ∃ t, t.isSymbol ")" = true ∧
          Derives (n + k) (.expr e) i (t :: r) ∧ k ≤ leading i) (grouped text k ++ [')']) rest := by
        refine (ih _ (delimited_cons (by decide) rest)).append close ?_
        rintro i _ r ⟨derived, leads⟩ ⟨t, isClose, rfl⟩
        exact ⟨t, isClose, derived, leads⟩
      refine inside.symbol (.inl (by decide)) ?_
      rintro t i r isOpen ⟨close, isClose, derived, leads⟩
      refine ⟨expr_of_primary (.group isOpen derived isClose), ?_⟩
      rw [leading_of_isOpening (isOpening_of_isSymbol isOpen)]
      exact Nat.add_le_add_right leads 1

end Grammar
end ExprLang
