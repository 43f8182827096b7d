import Mathlib.Data.List.Forall2
import ExprLang.Proofs.PrintedMeaning

/-!
# Tokens apart from their places

The grammar looks at the kinds and texts of tokens only.  Two source texts without lexical mistakes
whose tokens agree in these are both accepted or both refused, and their trees have the same nodes
with the same numbers.

* `Derives.alike`: a derivation of one sequence of tokens is one of the other.
* `exists_parse_of_alike`, `exists_compile_of_alike`: what is accepted with some tokens is accepted
  with others.
-/

namespace ExprLang

/-- Whether two tokens agree in all but their places. -/
structure Token.Alike (t u : Token) : Prop where
  kind : t.kind = u.kind
  text : t.text = u.text

/-- Whether two sequences of tokens agree in all but the places of the tokens. -/
def AlikeTokens (i j : List Token) : Prop :=
  List.Forall₂ Token.Alike i j

/-! ### What the grammar sees of tokens -/

namespace Token.Alike

variable {t u : Token} (alike : t.Alike u)

include alike

theorem symm :
    u.Alike t :=
  ⟨alike.kind.symm, alike.text.symm⟩

theorem isSymbol
    (text : String) :
    t.isSymbol text = u.isSymbol text := by
  rw [Token.isSymbol, Token.isSymbol, alike.kind, alike.text]

theorem isIdent :
    t.isIdent = u.isIdent := by
  rw [Token.isIdent, Token.isIdent, alike.kind]

theorem prefixOf? :
    Parser.prefixOf? t = Parser.prefixOf? u := by
  rw [Parser.prefixOf?, Parser.prefixOf?, alike.kind, alike.text]

theorem literalValue? :
    Grammar.literalValue? t = Grammar.literalValue? u := by
  rw [Grammar.literalValue?, Grammar.literalValue?, alike.kind]

end Token.Alike

namespace AlikeTokens

variable {i j : List Token}

theorem symm
    (alike : AlikeTokens i j) :
    AlikeTokens j i :=
  List.Forall₂.flip (alike.imp fun _ _ same => same.symm)

theorem of_cons
    {t : Token}
    (alike : AlikeTokens i (t :: j)) :
    ∃ u k, u.Alike t ∧ AlikeTokens k j ∧ i = u :: k :=
  List.forall₂_cons_right_iff.mp alike

theorem of_append
    {signs : List Token}
    (alike : AlikeTokens i (signs ++ j)) :
    ∃ signs' k, AlikeTokens signs' signs ∧ AlikeTokens k j ∧ i = signs' ++ k :=
  ⟨_, _, List.forall₂_take_append i signs j alike, List.forall₂_drop_append i signs j alike,
    (List.take_append_drop _ i).symm⟩

/-- What depends on kinds and texts is the same for all tokens. -/
theorem map_eq
    {α : Type} {f : Token → α}
    (alike : AlikeTokens i j)
    (same : ∀ t u, Token.Alike t u → f t = f u) :
    i.map f = j.map f := by
  induction alike with
  | nil => rfl
  | cons first _ ih => rw [List.map_cons, List.map_cons, same _ _ first, ih]

theorem startsWith
    (alike : AlikeTokens i j)
    (text : String) :
    Grammar.startsWith text i = Grammar.startsWith text j := by
  cases alike with
  | nil => rfl
  | cons first _ => exact first.isSymbol text

theorem negatable?
    (alike : AlikeTokens i j) :
    Grammar.negatable? i = Grammar.negatable? j := by
  cases alike with
  | nil => rfl
  | cons first others =>
      rw [Grammar.negatable?, Grammar.negatable?, first.kind,
        AlikeTokens.startsWith others, AlikeTokens.startsWith others]

end AlikeTokens

/-! ### Derivations -/

namespace Grammar

/-- Tokens that agree in their kinds and texts have the same derivations, and what is left of them
agrees, too. -/
theorem Derives.alike
    {n : Nat} {p : Phrase} {i r i' : List Token}
    (h : Derives n p i r)
    (same : AlikeTokens i' i) :
    ∃ r', AlikeTokens r' r ∧ Derives n p i' r' := by
  induction h generalizing i' with
  | plain _ ih =>
      obtain ⟨r', rest, alternatives⟩ := ih same
      exact ⟨r', rest, .plain alternatives⟩
  | ternary _ isQuestion _ isColon _ ih₁ ih₂ ih₃ =>
      obtain ⟨_, rest₁, condition⟩ := ih₁ same
      obtain ⟨question, j, first, rest₂, rfl⟩ := rest₁.of_cons
      obtain ⟨_, rest₃, ifTrue⟩ := ih₂ rest₂
      obtain ⟨colon, k, second, rest₄, rfl⟩ := rest₃.of_cons
      obtain ⟨r', rest₅, ifFalse⟩ := ih₃ rest₄
      rw [← first.isSymbol] at isQuestion
      rw [← second.isSymbol] at isColon
      exact ⟨r', rest₅, .ternary condition isQuestion ifTrue isColon ifFalse⟩
  | operand _ ih =>
      obtain ⟨r', rest, single⟩ := ih same
      exact ⟨r', rest, .operand single⟩
  | chain _ _ ih₁ ih₂ =>
      obtain ⟨j, rest₁, first⟩ := ih₁ same
      obtain ⟨r', rest₂, others⟩ := ih₂ rest₁
      exact ⟨r', rest₂, .chain first others⟩
  | operatorsEnd => exact ⟨i', same, .operatorsEnd⟩
  | operator ofLevel isOperator _ _ ih₁ ih₂ =>
      obtain ⟨t, i, first, rest₁, rfl⟩ := same.of_cons
      obtain ⟨j, rest₂, next⟩ := ih₁ rest₁
      obtain ⟨r', rest₃, others⟩ := ih₂ rest₂
      rw [← first.isSymbol] at isOperator
      exact ⟨r', rest₃, .operator ofLevel isOperator next others⟩
  | prefixed areSigns separate _ ih =>
      obtain ⟨signs, i, first, rest₁, rfl⟩ := same.of_append
      rw [← first.map_eq fun _ _ sign => sign.prefixOf?] at areSigns
      rw [← rest₁.negatable?] at separate
      obtain ⟨r', rest₂, inner⟩ := ih rest₁
      exact ⟨r', rest₂, .prefixed areSigns separate inner⟩
  | negative areSigns isMinus isInteger inRange =>
      obtain ⟨signs, i, first, rest₁, rfl⟩ := same.of_append
      obtain ⟨minus, i, second, rest₂, rfl⟩ := rest₁.of_cons
      rw [← first.map_eq fun _ _ sign => sign.prefixOf?] at areSigns
      rw [← second.prefixOf?] at isMinus
      rw [← rest₂.negatable?] at isInteger
      obtain ⟨digits, r', -, rest₃, rfl⟩ := rest₂.of_cons
      exact ⟨r', rest₃, .negative areSigns isMinus isInteger inRange⟩
  | member _ _ ih₁ ih₂ =>
      obtain ⟨j, rest₁, first⟩ := ih₁ same
      obtain ⟨r', rest₂, others⟩ := ih₂ rest₁
      exact ⟨r', rest₂, .member first others⟩
  | postfixesEnd => exact ⟨i', same, .postfixesEnd⟩
  | field isDot isName noCall _ ih =>
      obtain ⟨dot, i, first, rest₁, rfl⟩ := same.of_cons
      obtain ⟨name, i, second, rest₂, rfl⟩ := rest₁.of_cons
      rw [← first.isSymbol] at isDot
      rw [← second.isIdent] at isName
      rw [← rest₂.startsWith] at noCall
      obtain ⟨r', rest₃, others⟩ := ih rest₂
      rw [← second.text] at others
      exact ⟨r', rest₃, .field isDot isName noCall others⟩
  | method isDot isName isOpen _ meaning _ ih₁ ih₂ =>
      obtain ⟨dot, i, first, rest₁, rfl⟩ := same.of_cons
      obtain ⟨name, i, second, rest₂, rfl⟩ := rest₁.of_cons
      obtain ⟨paren, i, third, rest₃, rfl⟩ := rest₂.of_cons
      rw [← first.isSymbol] at isDot
      rw [← second.isIdent] at isName
      rw [← third.isSymbol] at isOpen
      rw [← second.text] at meaning
      obtain ⟨j, rest₄, arguments⟩ := ih₁ rest₃
      obtain ⟨r', rest₅, others⟩ := ih₂ rest₄
      exact ⟨r', rest₅, .method isDot isName isOpen arguments meaning others⟩
  | index isOpen _ isClose _ ih₁ ih₂ =>
      obtain ⟨bracket, i, first, rest₁, rfl⟩ := same.of_cons
      obtain ⟨_, rest₂, inside⟩ := ih₁ rest₁
      obtain ⟨close, j, second, rest₃, rfl⟩ := rest₂.of_cons
      obtain ⟨r', rest₄, others⟩ := ih₂ rest₃
      rw [← first.isSymbol] at isOpen
      rw [← second.isSymbol] at isClose
      exact ⟨r', rest₄, .index isOpen inside isClose others⟩
  | invocation isOpen _ _ ih₁ ih₂ =>
      obtain ⟨paren, i, first, rest₁, rfl⟩ := same.of_cons
      obtain ⟨j, rest₂, arguments⟩ := ih₁ rest₁
      obtain ⟨r', rest₃, others⟩ := ih₂ rest₂
      rw [← first.isSymbol] at isOpen
      exact ⟨r', rest₃, .invocation isOpen arguments others⟩
  | literal value =>
      obtain ⟨t, r', first, rest, rfl⟩ := same.of_cons
      rw [← first.literalValue?] at value
      exact ⟨r', rest, .literal value⟩
  | name isName unreserved noCall =>
      obtain ⟨t, r', first, rest, rfl⟩ := same.of_cons
      rw [← first.isIdent] at isName
      rw [← rest.startsWith] at noCall
      rw [← first.text] at unreserved ⊢
      exact ⟨r', rest, .name isName unreserved noCall⟩
  | call isName unreserved isOpen _ meaning ih =>
      obtain ⟨t, i, first, rest₁, rfl⟩ := same.of_cons
      obtain ⟨paren, i, second, rest₂, rfl⟩ := rest₁.of_cons
      obtain ⟨r', rest₃, arguments⟩ := ih rest₂
      rw [← first.isIdent] at isName
      rw [← first.text] at unreserved meaning
      rw [← second.isSymbol] at isOpen
      exact ⟨r', rest₃, .call isName unreserved isOpen arguments meaning⟩
  | group isOpen _ isClose ih =>
      obtain ⟨paren, i, first, rest₁, rfl⟩ := same.of_cons
      obtain ⟨_, rest₂, inside⟩ := ih rest₁
      obtain ⟨close, r', second, rest₃, rfl⟩ := rest₂.of_cons
      rw [← first.isSymbol] at isOpen
      rw [← second.isSymbol] at isClose
      exact ⟨r', rest₃, .group isOpen inside isClose⟩
  | list isOpen _ ih =>
      obtain ⟨bracket, i, first, rest₁, rfl⟩ := same.of_cons
      obtain ⟨r', rest₂, inside⟩ := ih rest₁
      rw [← first.isSymbol] at isOpen
      exact ⟨r', rest₂, .list isOpen inside⟩
  | map isOpen _ ih =>
      obtain ⟨brace, i, first, rest₁, rfl⟩ := same.of_cons
      obtain ⟨r', rest₂, inside⟩ := ih rest₁
      rw [← first.isSymbol] at isOpen
      exact ⟨r', rest₂, .map isOpen inside⟩
  | itemsEnd isClose =>
      obtain ⟨t, r', first, rest, rfl⟩ := same.of_cons
      rw [← first.isSymbol] at isClose
      exact ⟨r', rest, .itemsEnd isClose⟩
  | lastItem _ isClose ih =>
      obtain ⟨_, rest₁, inside⟩ := ih same
      obtain ⟨t, r', first, rest₂, rfl⟩ := rest₁.of_cons
      rw [← first.isSymbol] at isClose
      exact ⟨r', rest₂, .lastItem inside isClose⟩
  | item _ isComma _ ih₁ ih₂ =>
      obtain ⟨_, rest₁, first⟩ := ih₁ same
      obtain ⟨comma, j, second, rest₂, rfl⟩ := rest₁.of_cons
      obtain ⟨r', rest₃, others⟩ := ih₂ rest₂
      rw [← second.isSymbol] at isComma
      exact ⟨r', rest₃, .item first isComma others⟩
  | entriesEnd isClose =>
      obtain ⟨t, r', first, rest, rfl⟩ := same.of_cons
      rw [← first.isSymbol] at isClose
      exact ⟨r', rest, .entriesEnd isClose⟩
  | lastEntry _ isColon _ isClose ih₁ ih₂ =>
      obtain ⟨_, rest₁, key⟩ := ih₁ same
      obtain ⟨colon, j, first, rest₂, rfl⟩ := rest₁.of_cons
      obtain ⟨_, rest₃, value⟩ := ih₂ rest₂
      obtain ⟨t, r', second, rest₄, rfl⟩ := rest₃.of_cons
      rw [← first.isSymbol] at isColon
      rw [← second.isSymbol] at isClose
      exact ⟨r', rest₄, .lastEntry key isColon value isClose⟩
  | entry _ isColon _ isComma _ ih₁ ih₂ ih₃ =>
      obtain ⟨_, rest₁, key⟩ := ih₁ same
      obtain ⟨colon, j, first, rest₂, rfl⟩ := rest₁.of_cons
      obtain ⟨_, rest₃, value⟩ := ih₂ rest₂
      obtain ⟨comma, l, second, rest₄, rfl⟩ := rest₃.of_cons
      obtain ⟨r', rest₅, others⟩ := ih₃ rest₄
      rw [← first.isSymbol] at isColon
      rw [← second.isSymbol] at isComma
      exact ⟨r', rest₅, .entry key isColon value isComma others⟩

end Grammar

/-! ### Programs -/

section Programs

variable {source text : List Char}

/-- What is accepted with some tokens is accepted with others that agree with them, and is the same
tree up to its marks. -/
theorem exists_parse_of_alike
    {limit : Int} {e : Expr}
    (lexed : (Lexer.scan text).errors = [])
    (same : AlikeTokens (Lexer.scan text).tokens (Lexer.scan source).tokens)
    (accepted : parse limit source = .ok e) :
    ∃ e', parse limit text = .ok e' ∧ e'.erase = e.erase := by
  have derived := (parse_eq_ok_iff (scan_errors_of_parse accepted) _).mp ⟨e, accepted, rfl⟩
  obtain ⟨r, rest, derived⟩ := derived.alike same
  obtain rfl : r = [] := List.forall₂_nil_right_iff.mp rest
  exact (parse_eq_ok_iff lexed _).mpr derived

/-- A program is compiled from tokens that agree with its own to the same tree up to spans. -/
theorem exists_compile_of_alike
    {config : Config} {p : Program}
    (lexed : (Lexer.scan text).errors = [])
    (same : AlikeTokens (Lexer.scan text).tokens (Lexer.scan source).tokens)
    (compiled : Program.compile config source = .ok p) :
    ∃ q, Program.compile config text = .ok q ∧ q.root.unspanned = p.root.unspanned := by
  obtain ⟨parsed, -, -⟩ := compile_eq_ok_iff.mp compiled
  obtain ⟨e, accepted, erased⟩ := exists_parse_of_alike lexed same parsed
  exact ⟨⟨text, e, config⟩, compile_eq_ok_iff.mpr ⟨accepted, rfl, rfl⟩,
    unspanned_of_parse accepted parsed erased⟩

end Programs
end ExprLang
