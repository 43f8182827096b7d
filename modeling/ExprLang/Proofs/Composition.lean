import ExprLang.Proofs.Lookahead

/-!
# Phrases put together

The rules of the grammar build a chain of operators and a chain of fields, indices and calls from
the left, one step at a time.  Here they are put together from parts: a chain and what follows its
last operand, an operand where a looser place is asked for, and an operator in front of an operand.

* `Derives.chain_append`, `Derives.member_append`: a phrase and what goes on from it.
* `Derives.looser`: an operand in a place that binds less tightly.
* `Derives.sign`: an operator in front, unless it would become part of a literal.
* `negatable?_of_unary`: where it would.
-/

namespace ExprLang
namespace Expr

/-- Whether a node is an integer without a sign. -/
def isNatural : Expr → Bool
  | literal _ (.int n) => decide (0 ≤ n)
  | _ => false

/-- Whether the innermost step of a chain of fields, indices and calls is the invocation of an
integer without a sign. -/
def invokesNatural : Expr → Bool
  | select _ operand _ | index _ operand _ | call _ _ (some operand) _
  | comprehension _ _ operand _ _ _ => operand.invokesNatural
  | invoke _ callee _ => callee.isNatural || callee.invokesNatural
  | _ => false

end Expr

namespace Grammar

open ExprLang.Expr (blank)
open ExprLang.Parser (Level prefixOf?)

/-! ### Chains -/

section Chains

variable {n : Nat} {level : Level} {tighter : List Level} {left middle e : Expr}
  {i j r : List Token}

theorem Derives.operators_append
    (first : Derives n (.operators level tighter left middle) i j)
    (others : Derives n (.operators level tighter middle e) j r) :
    Derives n (.operators level tighter left e) i r := by
  generalize same : Phrase.operators level tighter left middle = p at first
  induction first generalizing left with
  | operatorsEnd =>
      cases same
      exact others
  | operator ofLevel isOperator next _ _ ih =>
      cases same
      exact .operator ofLevel isOperator next (ih others rfl)
  | _ => cases same

/-- A chain goes on with more operators of its loosest level. -/
theorem Derives.chain_append
    (first : Derives n (.chain (level :: tighter) left) i j)
    (others : Derives n (.operators level tighter left e) j r) :
    Derives n (.chain (level :: tighter) e) i r := by
  cases first with
  | chain operand more => exact .chain operand (more.operators_append others)

theorem Derives.postfixes_append
    (first : Derives n (.postfixes left middle) i j)
    (others : Derives n (.postfixes middle e) j r) :
    Derives n (.postfixes left e) i r := by
  generalize same : Phrase.postfixes left middle = p at first
  induction first generalizing left with
  | postfixesEnd =>
      cases same
      exact others
  | field isDot isName noCall _ ih =>
      cases same
      exact .field isDot isName noCall (ih others rfl)
  | method isDot isName isOpen arguments meaning _ _ ih =>
      cases same
      exact .method isDot isName isOpen arguments meaning (ih others rfl)
  | index isOpen inside isClose _ _ ih =>
      cases same
      exact .index isOpen inside isClose (ih others rfl)
  | invocation isOpen arguments _ _ ih =>
      cases same
      exact .invocation isOpen arguments (ih others rfl)
  | _ => cases same

/-- A member goes on with more fields, indices and calls. -/
theorem Derives.member_append
    (first : Derives n (.member middle) i j)
    (others : Derives n (.postfixes middle e) j r) :
    Derives n (.member e) i r := by
  cases first with
  | member inner more => exact .member inner (more.postfixes_append others)

end Chains

/-! ### Places -/

/-- The phrase that a place asks for: a chain of operators that bind at least so tightly, an operand
behind operators, or a member. -/
def placePhrase (minimum : Nat) (e : Expr) : Phrase :=
  if minimum ≤ 5 then .chain (operatorLevels.drop (minimum - 1)) e
  else if minimum = 6 then .unary e
  else .member e

section Places

variable {n p q : Nat} {e : Expr} {i r : List Token}

theorem Derives.member_of_primary
    (h : Derives n (.primary e) i r) :
    Derives n (.member e) i r :=
  .member h .postfixesEnd

theorem Derives.unary_of_member
    (h : Derives n (.member e) i r) :
    Derives n (.unary e) i r := by
  have unsigned : Derives n (.unary (Grammar.prefixed [] e)) ([] ++ i) r :=
    .prefixed rfl (by simp) h
  exact unsigned

theorem Derives.chain_of_unary
    (h : Derives n (.unary e) i r)
    (levels : List Level) :
    Derives n (.chain levels e) i r := by
  induction levels with
  | nil => exact .operand h
  | cons level levels ih => exact .chain ih .operatorsEnd

theorem Derives.chain_of_suffix
    {levels tighter : List Level}
    (h : Derives n (.chain tighter e) i r)
    (isSuffix : tighter <:+ levels) :
    Derives n (.chain levels e) i r := by
  obtain ⟨looser, rfl⟩ := isSuffix
  induction looser with
  | nil => exact h
  | cons level looser ih => exact .chain ih .operatorsEnd

/-- An operand may stand in a place that binds less tightly. -/
theorem Derives.looser
    (h : Derives n (placePhrase q e) i r)
    (le : p ≤ q) :
    Derives n (placePhrase p e) i r := by
  unfold placePhrase at h ⊢
  split at h
  · rw [if_pos (by omega)]
    refine h.chain_of_suffix ?_
    rw [← Nat.add_sub_of_le (Nat.sub_le_sub_right le 1), ← List.drop_drop]
    exact List.drop_suffix _ _
  split at h
  · split
    · exact h.chain_of_unary _
    · rw [if_pos (by omega)]
      exact h
  · split
    · exact h.unary_of_member.chain_of_unary _
    split
    · exact h.unary_of_member
    · exact h

end Places

/-! ### Operators in front -/

section Signs

variable {n : Nat} {e : Expr} {i r : List Token}

theorem negatable?_of_prefixOf?
    {t : Token} {op : UnaryOp}
    (h : prefixOf? t = some op) :
    negatable? (t :: i) = none := by
  cases kind : t.kind <;> simp_all [prefixOf?, negatable?]

/-- An operator in front of an operand, unless it is a minus sign that would belong to a literal. -/
theorem Derives.sign
    {t : Token} {op : UnaryOp}
    (h : Derives n (.unary e) i r)
    (isSign : prefixOf? t = some op)
    (separate : op = .neg → negatable? i = none) :
    Derives n (.unary (.unary blank op e)) (t :: i) r := by
  cases h with
  | @prefixed _ ops signs _ _ _ areSigns apart inner =>
      have all : (t :: signs).map prefixOf? = (op :: ops).map some := by
        simp [isSign, areSigns]
      refine @Derives.prefixed _ (op :: ops) (t :: signs) _ _ _ all ?_ inner
      cases ops with
      | nil =>
          obtain rfl : signs = [] := by simpa using areSigns
          simpa using separate
      | cons _ _ => simpa using apart
  | @negative _ ops signs _ _ _ _ areSigns isMinus isInteger inRange =>
      have all : (t :: signs).map prefixOf? = (op :: ops).map some := by
        simp [isSign, areSigns]
      exact @Derives.negative _ (op :: ops) (t :: signs) _ _ _ _ all isMinus isInteger inRange

/-- What follows an invocation of an integer goes on from it. -/
def GoesOnFromInvocation : Phrase → Prop
  | .postfixes inner e => inner.invokesNatural = true → e.invokesNatural = true
  | _ => True

theorem goesOnFromInvocation_of_derives
    {p : Phrase}
    (h : Derives n p i r) :
    GoesOnFromInvocation p := by
  induction h with
  | postfixesEnd => exact id
  | field _ _ _ _ ih => exact ih
  | method _ _ _ _ meaning _ _ ih => cases meaning <;> exact ih
  | index _ _ _ _ _ ih => exact ih
  | invocation _ _ _ _ ih =>
      exact fun invoked => ih (by rw [Expr.invokesNatural, invoked, Bool.or_true])
  | _ => trivial

theorem negatable?_of_isSymbol
    {t : Token} {text : String}
    (h : t.isSymbol text = true) :
    negatable? (t :: i) = none := by
  cases kind : t.kind <;> simp_all [Token.isSymbol, negatable?]

theorem negatable?_of_isIdent
    {t : Token}
    (h : t.isIdent = true) :
    negatable? (t :: i) = none := by
  cases kind : t.kind <;> simp_all [Token.isIdent, negatable?]

/-- A minus sign before a member would belong to a literal only if the member is an integer or
invokes one. -/
theorem negatable?_of_member
    (h : Derives n (.member e) i r)
    (noInteger : e.isNatural = false)
    (noInvocation : e.invokesNatural = false) :
    negatable? i = none := by
  cases h with
  | @member _ inner _ _ j _ first others =>
      cases first with
      | @literal _ t v _ value =>
          cases kind : t.kind with
          | int k =>
              obtain ⟨-, rfl⟩ : InIntRange k ∧ Value.int k = v := by
                simpa [literalValue?, kind] using value
              cases others with
              | postfixesEnd => simp [Expr.isNatural] at noInteger
              | field isDot => simp [negatable?, kind, startsWith, isDot]
              | method isDot => simp [negatable?, kind, startsWith, isDot]
              | index isOpen => simp [negatable?, kind, startsWith, isOpen]
              | invocation _ _ others =>
                  have invoked := goesOnFromInvocation_of_derives others
                    (by simp [Expr.invokesNatural, Expr.isNatural])
                  rw [noInvocation] at invoked
                  cases invoked
          | _ => simp [negatable?, kind]
      | name isName => exact negatable?_of_isIdent isName
      | call isName => exact negatable?_of_isIdent isName
      | group isOpen => exact negatable?_of_isSymbol isOpen
      | list isOpen => exact negatable?_of_isSymbol isOpen
      | map isOpen => exact negatable?_of_isSymbol isOpen

/-- A minus sign before an operand would belong to a literal only if the operand is an integer or
invokes one. -/
theorem negatable?_of_unary
    (h : Derives n (.unary e) i r)
    (noInteger : e.isNatural = false)
    (noInvocation : e.invokesNatural = false) :
    negatable? i = none := by
  cases h with
  | @prefixed _ ops signs _ _ _ areSigns _ inner =>
      match signs, ops with
      | [], [] => exact negatable?_of_member inner noInteger noInvocation
      | sign :: signs, op :: ops =>
          simp only [List.map_cons, List.cons.injEq] at areSigns
          exact negatable?_of_prefixOf? areSigns.1
  | @negative _ ops signs _ _ _ _ areSigns isMinus _ _ =>
      match signs, ops with
      | [], [] => exact negatable?_of_prefixOf? isMinus
      | sign :: signs, op :: ops =>
          simp only [List.map_cons, List.cons.injEq] at areSigns
          exact negatable?_of_prefixOf? areSigns.1

end Signs

end Grammar
end ExprLang
