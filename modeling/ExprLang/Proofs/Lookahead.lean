import Mathlib.Data.List.Infix
import ExprLang.Proofs.Grammar

/-!
# One token of lookahead

The parser decides by the next token whether a phrase goes on.  What a phrase may begin with and
what must not follow it for the decision to be right is settled here, on derivations alone.

* `Derives.suffix`: a phrase takes tokens from the front.
* `Derives.opens`: no expression begins with a closing symbol, no member with an operator.
* `Follows`, `Stops`: what neither a chain of operators nor a conditional would take.
-/

namespace ExprLang
namespace Grammar

open ExprLang.Parser (Level)

/-! ### Symbols -/

theorem symbol_unique
    {t : Token} {a b : String}
    (ha : t.isSymbol a = true)
    (hb : t.isSymbol b = true) :
    a = b := by
  cases hk : t.kind <;> simp_all [Token.isSymbol]

theorem isSymbol_eq_false
    {t : Token} {a b : String}
    (ha : t.isSymbol a = true)
    (ne : b ≠ a) :
    t.isSymbol b = false := by
  cases hb : t.isSymbol b with
  | false => rfl
  | true => exact absurd (symbol_unique hb ha) ne

theorem isSymbol_of_isIdent
    {t : Token}
    (h : t.isIdent = true)
    (text : String) :
    t.isSymbol text = false := by
  cases hk : t.kind <;> simp_all [Token.isIdent, Token.isSymbol]

theorem prefixOf?_of_isIdent
    {t : Token}
    (h : t.isIdent = true) :
    Parser.prefixOf? t = none := by
  cases hk : t.kind <;> simp_all [Token.isIdent, Parser.prefixOf?]

theorem isSymbol_of_literalValue?
    {t : Token} {v : Value}
    (h : literalValue? t = some v)
    (text : String) :
    t.isSymbol text = false := by
  cases hk : t.kind <;> simp_all [literalValue?, Token.isSymbol]

theorem prefixOf?_of_literalValue?
    {t : Token} {v : Value}
    (h : literalValue? t = some v) :
    Parser.prefixOf? t = none := by
  cases hk : t.kind <;> simp_all [literalValue?, Parser.prefixOf?]

theorem prefixOf?_eq_none_of_isSymbol
    {t : Token} {text : String}
    (h : t.isSymbol text = true)
    (noSign : text ∉ ["!", "-"]) :
    Parser.prefixOf? t = none := by
  simp only [List.mem_cons, List.not_mem_nil, or_false, not_or] at noSign
  cases hk : t.kind <;> simp_all [Token.isSymbol, Parser.prefixOf?]

theorem isSymbol_of_prefixOf?
    {t : Token} {op : UnaryOp}
    (h : Parser.prefixOf? t = some op) :
    t.isSymbol op.symbol = true := by
  unfold Parser.prefixOf? at h
  split at h
  · next isOperator =>
      split at h
      · cases h
        simpa [Token.isSymbol, isOperator]
      · split at h
        · cases h
          simpa [Token.isSymbol, isOperator]
        · cases h
  · cases h

/-! ### How phrases begin -/

/-- The symbols that close brackets. -/
def closers : List String := [")", "]", "\x7d"]

/-- There is a next token, and it closes nothing. -/
def Opens (i : List Token) : Prop :=
  ∃ t after, i = t :: after ∧ ∀ close ∈ closers, t.isSymbol close = false

/-- There is a next token, which closes nothing and is no operator in front of an operand. -/
def OpensMember (i : List Token) : Prop :=
  ∃ t after, i = t :: after ∧ (∀ close ∈ closers, t.isSymbol close = false) ∧
    Parser.prefixOf? t = none

theorem OpensMember.opens
    {i : List Token}
    (h : OpensMember i) :
    Opens i := by
  obtain ⟨t, after, hi, noCloser, -⟩ := h
  exact ⟨t, after, hi, noCloser⟩

theorem opensMember_of_symbol
    {t : Token} {after : List Token} {text : String}
    (isText : t.isSymbol text = true)
    (opening : text ∈ ["(", "[", "\x7b"]) :
    OpensMember (t :: after) := by
  have apart : ∀ text ∈ ["(", "[", "\x7b"], text ∉ closers ∧ text ∉ ["!", "-"] := by decide
  obtain ⟨noCloser, noSign⟩ := apart text opening
  refine ⟨t, after, rfl, fun close hclose => ?_, prefixOf?_eq_none_of_isSymbol isText noSign⟩
  exact isSymbol_eq_false isText fun same => noCloser (same ▸ hclose)

theorem opens_of_prefixOf?
    {t : Token} {after : List Token} {op : UnaryOp}
    (h : Parser.prefixOf? t = some op) :
    Opens (t :: after) := by
  have apart : ∀ op : UnaryOp, op.symbol ∉ closers := by
    intro op
    cases op <;> decide
  refine ⟨t, after, rfl, fun close hclose => ?_⟩
  exact isSymbol_eq_false (isSymbol_of_prefixOf? h) fun same => apart op (same ▸ hclose)

/-- What a phrase begins with. -/
def BeginsWell : Phrase → List Token → Prop
  | .expr _, i | .chain _ _, i | .unary _, i => Opens i
  | .member _, i | .primary _, i => OpensMember i
  | _, _ => True

/-- No expression begins with a closing symbol, and its innermost part with no operator either. -/
theorem Derives.beginsWell
    {n : Nat} {p : Phrase} {i r : List Token}
    (h : Derives n p i r) :
    BeginsWell p i := by
  induction h with
  | plain _ ih => exact ih
  | ternary _ _ _ _ _ ih => exact ih
  | operand _ ih => exact ih
  | chain _ _ ih => exact ih
  | @prefixed _ ops signs _ _ _ areSigns _ _ ih =>
      match signs, ops with
      | [], _ => exact ih.opens
      | sign :: signs, op :: ops =>
          simp only [List.map_cons, List.cons.injEq] at areSigns
          exact opens_of_prefixOf? areSigns.1
  | @negative _ ops signs minus _ _ _ areSigns isMinus =>
      match signs, ops with
      | [], _ => exact opens_of_prefixOf? isMinus
      | sign :: signs, op :: ops =>
          simp only [List.map_cons, List.cons.injEq] at areSigns
          exact opens_of_prefixOf? areSigns.1
  | member _ _ ih => exact ih
  | literal value =>
      exact ⟨_, _, rfl, fun close _ => isSymbol_of_literalValue? value close,
        prefixOf?_of_literalValue? value⟩
  | name isName =>
      exact ⟨_, _, rfl, fun close _ => isSymbol_of_isIdent isName close,
        prefixOf?_of_isIdent isName⟩
  | call isName =>
      exact ⟨_, _, rfl, fun close _ => isSymbol_of_isIdent isName close,
        prefixOf?_of_isIdent isName⟩
  | group isOpen => exact opensMember_of_symbol isOpen (by decide)
  | list isOpen => exact opensMember_of_symbol isOpen (by decide)
  | map isOpen => exact opensMember_of_symbol isOpen (by decide)
  | _ => trivial

/-! ### How many tokens a phrase takes -/

/-- A phrase takes tokens from the front. -/
theorem Derives.suffix
    {n : Nat} {p : Phrase} {i r : List Token}
    (h : Derives n p i r) :
    r <:+ i := by
  induction h <;>
    grind [List.suffix_refl, List.suffix_cons, List.suffix_append, List.IsSuffix.trans]

theorem Derives.length_le
    {n : Nat} {p : Phrase} {i r : List Token}
    (h : Derives n p i r) :
    r.length ≤ i.length :=
  h.suffix.length_le

/-! ### What may follow -/

/-- The symbols after which a member goes on. -/
def postfixOpeners : List String := [".", "[", "("]

/-- The symbols with which operators between operands, fields, indices and calls begin. -/
def continuations (levels : List Level) : List String :=
  postfixOpeners ++ levels.flatMap fun level => level.map Prod.fst

/-- The tokens do not go on with an operator of the levels, a field, an index or a call. -/
def Follows (levels : List Level) (r : List Token) : Prop :=
  ∀ text ∈ continuations levels, startsWith text r = false

/-- The tokens do not go on with anything that belongs to an expression. -/
def Stops (r : List Token) : Prop :=
  Follows operatorLevels r ∧ startsWith "?" r = false

theorem follows_of_isSymbol
    {levels : List Level} {t : Token} {text : String} {r : List Token}
    (isText : t.isSymbol text = true)
    (other : text ∉ continuations levels) :
    Follows levels (t :: r) :=
  fun _ htext => isSymbol_eq_false isText fun same => other (same ▸ htext)

/-- The symbols after which an expression ends. -/
def enders : List String := closers ++ [",", ":"]

theorem stops_of_isSymbol
    {t : Token} {text : String} {r : List Token}
    (isText : t.isSymbol text = true)
    (ends : text ∈ enders) :
    Stops (t :: r) := by
  have apart : ∀ text ∈ enders, text ∉ continuations operatorLevels ∧ "?" ≠ text := by decide
  obtain ⟨other, noQuestion⟩ := apart text ends
  exact ⟨follows_of_isSymbol isText other, isSymbol_eq_false isText noQuestion⟩

theorem stops_nil : Stops [] :=
  ⟨fun _ _ => rfl, rfl⟩

theorem Follows.tighter
    {level : Level} {tighter : List Level} {r : List Token}
    (h : Follows (level :: tighter) r) :
    Follows tighter r := by
  intro text htext
  refine h text ?_
  rw [continuations, List.mem_append] at htext
  rw [continuations, List.flatMap_cons, List.mem_append, List.mem_append]
  exact htext.imp_right .inr

/-- An operator of a level neither belongs to a tighter level nor goes on with a member. -/
theorem follows_of_operator
    {level : Level} {tighter : List Level} {t : Token} {text : String} {op : BinaryOp}
    {r : List Token}
    (levels : (level :: tighter) <:+ operatorLevels)
    (ofLevel : (text, op) ∈ level)
    (isOperator : t.isSymbol text = true) :
    Follows tighter (t :: r) := by
  have apart : ∀ levels ∈ operatorLevels.tails, ∀ level ∈ levels.head?, ∀ p ∈ level,
      p.1 ∉ continuations levels.tail := by decide
  exact follows_of_isSymbol isOperator
    (apart _ ((List.mem_tails _ _).mpr levels) level rfl _ ofLevel)

/-- What follows an operand in a chain is the next operator or the end of the chain. -/
theorem Derives.follows_operators
    {n : Nat} {level : Level} {tighter : List Level} {left e : Expr} {i r : List Token}
    (levels : (level :: tighter) <:+ operatorLevels)
    (h : Derives n (.operators level tighter left e) i r)
    (follows : Follows (level :: tighter) r) :
    Follows tighter i := by
  cases h with
  | operatorsEnd => exact follows.tighter
  | operator ofLevel isOperator => exact follows_of_operator levels ofLevel isOperator

end Grammar
end ExprLang
