import ExprLang.Proofs.OperandText
import ExprLang.Proofs.Rebinding

/-!
# The texts of expressions

The text that the printer writes for a tree is read as the tree, in whatever place it stands: the
parentheses are where the grammar asks for them, and they are the only ones.

* `Reads`: the text of a tree is read as the tree, on its own and as an operand.
* `reads_of_place`, `reads_of_whole`: it is enough to know this of the text without parentheses.
* `reads_print`: the text of every readable tree is, by induction on the tree.
-/

namespace ExprLang
namespace Grammar

open ExprLang.Expr (Readable FromSource Everywhere blank freed freedItems freedEntries nesting wrapped
  le_wrapped wrapped_eq_self primaryPrecedence unaryPrecedence isCallable)
open ExprLang.Parser (Level)
open Lexer (scanFrom Ends EndsWord Delimited)

/-! ### Places -/

theorem drop_operatorLevels
    (op : BinaryOp) :
    ∃ level, operatorLevels.drop (op.precedence - 1) = level :: operatorLevels.drop op.precedence ∧
      (op.symbol, op) ∈ level := by
  cases op <;> exact ⟨_, rfl, by decide⟩

/-- The right operand of an operator stands in a place that binds more tightly. -/
theorem Derives.chain_of_place
    {n p : Nat} {e : Expr} {i r : List Token}
    (h : Derives n (placePhrase (p + 1) e) i r)
    (isOperator : p ≤ 5) :
    Derives n (.chain (operatorLevels.drop p) e) i r := by
  unfold placePhrase at h
  split at h
  · exact h
  · obtain rfl : p = 5 := by omega
    exact .operand h

/-- The text of a tree is read as the tree: on its own, and as an operand in any place. -/
structure Reads (e : Expr) : Prop where
  whole : ∀ {n : Nat} {rest : List Char}, nesting 1 e < n → Loose rest →
    ReadsAs (Derives n (.expr (freed e))) e.print.toList rest
  place : ∀ {p n : Nat} {rest : List Char}, 1 ≤ p → wrapped e p (nesting 1 e) ≤ n →
    (p ≤ e.precedence → MayFollow e rest) →
      ReadsAs (Derives n (placePhrase p (freed e))) (e.wrap p e.print).toList rest

section Places

variable {e : Expr} {n p : Nat} {rest : List Char}

theorem loose_close
    (rest : List Char) :
    Loose (')' :: rest) :=
  loose_of_delimited (Lexer.delimited_cons (by decide) rest)

/-- A text in parentheses. -/
theorem readsAs_group
    {t : Expr} {cs : List Char}
    (inside : ReadsAs (Derives n (.expr t)) cs (')' :: rest)) :
    ReadsAs (Derives n (.member t)) ('(' :: (cs ++ [')'])) rest := by
  have close : ReadsAs (OneSymbol ")") [')'] rest :=
    readsAs_symbol (.inl (by decide)) fun t _ isClose => ⟨t, isClose, rfl⟩
  have closed : ReadsAs (fun i r => ∃ close, close.isSymbol ")" = true ∧
      Derives n (.expr t) i (close :: r)) (cs ++ [')']) rest :=
    inside.append close fun _ _ _ h ⟨close, isClose, same⟩ => ⟨close, isClose, same ▸ h⟩
  exact closed.symbol (.inl (by decide)) fun _ _ _ isOpen ⟨_, isClose, h⟩ =>
    (Derives.group isOpen h isClose).member_of_primary

/-- Where its place binds more tightly, a tree stands in parentheses. -/
theorem readsAs_wrapped
    (whole : ∀ {n : Nat} {rest : List Char}, nesting 1 e < n → Loose rest →
      ReadsAs (Derives n (.expr (freed e))) e.print.toList rest)
    (low : e.precedence < p)
    (nests : wrapped e p (nesting 1 e) ≤ n) :
    ReadsAs (Derives n (placePhrase p (freed e))) (e.wrap p e.print).toList rest := by
  have text : (e.wrap p e.print).toList = '(' :: (e.print.toList ++ [')']) := by
    simp [Expr.wrap, low]
  rw [wrapped, if_pos low] at nests
  rw [text]
  refine (readsAs_group (whole nests (loose_close rest))).mono fun i r h => ?_
  have member : Derives n (placePhrase (max p 7) (freed e)) i r := by
    unfold placePhrase
    rw [if_neg (by omega), if_neg (by omega)]
    exact h
  exact member.looser (Nat.le_max_left p 7)

/-- What binds more tightly than a conditional is read in any place if it is read where it needs no
parentheses. -/
theorem reads_of_place
    (tight : 1 ≤ e.precedence)
    (own : ∀ {n : Nat} {rest : List Char}, nesting 1 e ≤ n → MayFollow e rest →
      ReadsAs (Derives n (placePhrase e.precedence (freed e))) e.print.toList rest) :
    Reads e := by
  have whole : ∀ {n : Nat} {rest : List Char}, nesting 1 e < n → Loose rest →
      ReadsAs (Derives n (.expr (freed e))) e.print.toList rest := by
    intro n rest nests loose
    obtain ⟨m, rfl⟩ := Nat.exists_eq_succ_of_ne_zero (Nat.ne_zero_of_lt nests)
    refine (own (Nat.le_of_lt_succ nests) (loose.mayFollow e)).mono fun i r h => ?_
    exact .plain (h.looser tight)
  refine ⟨whole, fun {p n rest} _ nests follows => ?_⟩
  by_cases low : e.precedence < p
  · exact readsAs_wrapped whole low nests
  · have fits := Nat.not_lt.mp low
    rw [Expr.wrap, if_neg low]
    exact (own (le_wrapped.trans nests) (follows fits)).mono fun i r h => h.looser fits

/-- A conditional is read in any place if it is read on its own. -/
theorem reads_of_whole
    (low : e.precedence = 0)
    (whole : ∀ {n : Nat} {rest : List Char}, nesting 1 e < n → Loose rest →
      ReadsAs (Derives n (.expr (freed e))) e.print.toList rest) :
    Reads e :=
  ⟨whole, fun positive nests _ => readsAs_wrapped whole (low ▸ positive) nests⟩

/-- A tree that needs no parentheses is read in any place if it is read as a member. -/
theorem reads_of_member
    (tight : e.precedence = primaryPrecedence)
    (own : ∀ {n : Nat} {rest : List Char}, nesting 1 e ≤ n → MayFollow e rest →
      ReadsAs (Derives n (.member (freed e))) e.print.toList rest) :
    Reads e :=
  reads_of_place (by rw [tight]; decide) (by rw [tight]; exact own)

end Places

/-! ### Leaves and operators -/

/-- The text of a literal is one token, or two if it has a sign. -/
theorem reads_literal
    {m : Mark} {v : Value}
    (readable : Readable (.literal m v)) :
    Reads (.literal m v) := by
  by_cases tight : primaryPrecedence ≤ (Expr.literal m v).precedence
  · obtain ⟨-, kind, isToken, value⟩ := isLiteralToken_print readable tight
    refine reads_of_member (Nat.le_antisymm ?_ tight) fun _ follows => ?_
    · rw [Expr.precedence]
      split <;> decide
    · exact readsAs_token (isToken _ follows.ends) fun span _ =>
        (Derives.literal (value _ span)).member_of_primary
  · obtain ⟨k, rfl⟩ := exists_negSucc_of_precedence readable.fromSource (Nat.not_le.mp tight)
    have sign : (Expr.literal m (.int (.negSucc k))).precedence = unaryPrecedence :=
      if_pos (isNegativeLiteral_negSucc k)
    refine reads_of_place (by rw [sign]; decide) fun _ follows => ?_
    rw [sign, Expr.print, toList_print_negSucc]
    exact readsAs_negative (k := k + 1) readable.fromSource (follows.loose (by rw [sign]; decide))

theorem reads_name
    {e : Expr} {name : String}
    (isName : IsName name)
    (text : e.print = name)
    (byItself : freed e = .ident blank name)
    (callable : e.isCallable = true)
    (tight : e.precedence = primaryPrecedence) :
    Reads e := by
  refine reads_of_member tight fun _ follows => ?_
  rw [text, byItself]
  exact readsAs_name isName follows.ends.word (follows.noCall callable)

@[simp] theorem isNatural_freed
    (e : Expr) :
    (freed e).isNatural = e.isNatural := by
  cases e with
  | literal _ v => cases v <;> rfl
  | _ => rfl

@[simp] theorem invokesNatural_freed
    (e : Expr) :
    (freed e).invokesNatural = e.invokesNatural := by
  induction e using Expr.induction_nodes with
  | call _ _ target _ ih _ =>
      cases target with
      | none => rfl
      | some t => exact ih t rfl
  | invoke _ callee _ ih _ => simp [freed, Expr.invokesNatural, ih]
  | select _ _ _ ih | index _ _ _ ih _ | comprehension _ _ _ _ _ _ ih _ _ => exact ih
  | _ => rfl

/-- What is written after an operator in front of an operand: the operand, in parentheses where two
minus signs meet.  It does not begin as another operator would go on. -/
theorem exists_operandText
    {m : Mark} {op : UnaryOp} {operand : Expr} {n : Nat} {rest : List Char}
    (readable : Everywhere Readable operand)
    (ih : Reads operand)
    (nests : nesting 1 (.unary m op operand) ≤ n)
    (loose : Loose rest) :
    ∃ text, (Expr.unary m op operand).print.toList = op.symbol.toList ++ text ∧
      (∀ d ∈ (text ++ rest).head?, d ≠ '=') ∧
        ReadsAs (Derives n (.unary (freed operand))) text rest := by
  obtain ⟨c, cs, begins, noEquals, minus⟩ := begins_operand readable
  rw [Expr.print, toList_unaryText, begins]
  split
  · next double =>
      obtain ⟨rfl, rfl⟩ : op = .neg ∧ c = '-' := by simpa using double
      have isMinus := minus rfl
      have noParentheses : (operand.wrap unaryPrecedence operand.print) = operand.print := by
        refine if_neg (Nat.not_lt.mpr ?_)
        cases operand <;> simp_all [Expr.beginsWithMinus, Expr.precedence, unaryPrecedence]
      rw [nesting, if_pos isMinus] at nests
      rw [noParentheses] at begins
      refine ⟨_, rfl, by simp, ?_⟩
      rw [← begins]
      exact (readsAs_group (ih.whole nests (loose_close rest))).mono fun _ _ h => h.unary_of_member
  · have plain : wrapped operand unaryPrecedence (nesting 1 operand) ≤ n := by
      cases op with
      | not => exact nests
      | neg =>
          rw [nesting] at nests
          split at nests
          · exact Expr.wrapped_le_succ.trans nests
          · exact nests
    refine ⟨_, rfl, by simpa using noEquals, ?_⟩
    rw [← begins]
    exact ih.place (by decide) plain fun _ => loose.mayFollow operand

/-- An operator in front of an operand. -/
theorem reads_unary
    {m : Mark} {op : UnaryOp} {operand : Expr}
    (readable : Everywhere Readable (.unary m op operand))
    (ih : Reads operand) :
    Reads (.unary m op operand) := by
  have low : unaryPrecedence < primaryPrecedence := by decide
  refine reads_of_place (Nat.succ_pos 5) fun {n rest} nests follows => ?_
  change ReadsAs (Derives n (.unary (.unary blank op (freed operand)))) _ rest
  obtain ⟨text, shape, apart, reads⟩ :=
    exists_operandText (readable.child List.mem_cons_self) ih nests (follows.loose low)
  have noLiteral : op = .neg → operand.isNatural = false ∧ operand.invokesNatural = false := by
    rintro rfl
    simpa [Expr.negatesNatural] using readable.root.noLiteral
  rw [shape]
  refine (readsAs_sign op fun _ => apart).append reads ?_
  rintro i j r ⟨t, isSign, rfl⟩ inside
  refine inside.sign isSign fun negates => ?_
  obtain ⟨noInteger, noInvocation⟩ := noLiteral negates
  exact negatable?_of_unary inside (by simpa using noInteger) (by simpa using noInvocation)

/-- An operator between its operands. -/
theorem reads_binary
    {m : Mark} {op : BinaryOp} {left right : Expr}
    (ihLeft : Reads left)
    (ihRight : Reads right) :
    Reads (.binary m op left right) := by
  obtain ⟨loosest, tightest⟩ := op.precedence_mem
  have low : (Expr.binary m op left right).precedence < primaryPrecedence :=
    Nat.lt_of_le_of_lt tightest (by decide)
  refine reads_of_place loosest fun {n rest} nests follows => ?_
  change ReadsAs (Derives n (placePhrase op.precedence (.binary blank op (freed left) (freed right)))) _ rest
  obtain ⟨nestsLeft, nestsRight⟩ := Nat.max_le.mp nests
  obtain ⟨level, levels, ofLevel⟩ := drop_operatorLevels op
  have text : (Expr.binary m op left right).print.toList =
      (left.wrap op.precedence left.print).toList ++ (' ' :: (op.symbol.toList ++
        ' ' :: (right.wrap (op.precedence + 1) right.print).toList)) := by
    simp [Expr.print]
  have second : ReadsAs (Derives n (placePhrase (op.precedence + 1) (freed right)))
      (right.wrap (op.precedence + 1) right.print).toList rest :=
    ihRight.place (by omega) nestsRight fun _ => (follows.loose low).mayFollow right
  have symbol : ReadsAs (OneSymbol op.symbol) op.symbol.toList
      (' ' :: (right.wrap (op.precedence + 1) right.print).toList ++ rest) :=
    readsAs_operator op
  have others : ReadsAs (Derives n (.operators level (operatorLevels.drop op.precedence) (freed left)
      (.binary blank op (freed left) (freed right)))) (op.symbol.toList ++
        ' ' :: (right.wrap (op.precedence + 1) right.print).toList) rest := by
    refine symbol.append (second.space rfl) ?_
    rintro i j r ⟨t, isSymbol, rfl⟩ inside
    exact .operator ofLevel isSymbol (inside.chain_of_place tightest) .operatorsEnd
  have looseLeft := loose_of_symbol symbol (by cases op <;> decide)
  have first := ihLeft.place loosest nestsLeft fun _ => looseLeft.mayFollow left
  rw [text]
  refine ReadsAs.append (by simpa using first) (others.space rfl) fun i j r h more => ?_
  unfold placePhrase at h ⊢
  rw [if_pos tightest] at h ⊢
  rw [levels] at h ⊢
  exact h.chain_append more

/-- The two expressions that a condition chooses between, each behind its operator. -/
theorem readsAs_branches
    {a b : Expr} {n : Nat} {rest : List Char}
    (ihTrue : Reads a)
    (ihFalse : Reads b)
    (nestsTrue : nesting 1 a < n)
    (nestsFalse : nesting 1 b < n)
    (loose : Loose rest) :
    ReadsAs (fun i r => ∃ question colon j k, question.isSymbol "?" = true ∧
      i = question :: j ∧ Derives n (.expr (freed a)) j (colon :: k) ∧
        colon.isSymbol ":" = true ∧ Derives n (.expr (freed b)) k r)
      (['?'] ++ ' ' :: (a.print.toList ++ ' ' :: ([':'] ++ ' ' :: b.print.toList))) rest := by
  have colon : ReadsAs (OneSymbol ":") [':'] (' ' :: b.print.toList ++ rest) :=
    @readsAs_operatorText _ [':'] (by decide)
  have second : ReadsAs (fun i r => ∃ t j, t.isSymbol ":" = true ∧ i = t :: j ∧
      Derives n (.expr (freed b)) j r) ([':'] ++ ' ' :: b.print.toList) rest := by
    refine colon.append ((ihFalse.whole nestsFalse loose).space rfl) ?_
    rintro _ j r ⟨t, isColon, rfl⟩ inside
    exact ⟨t, j, isColon, rfl, inside⟩
  have looseTrue := loose_of_symbol colon (by decide)
  have both : ReadsAs (fun i r => ∃ colon k, colon.isSymbol ":" = true ∧
      Derives n (.expr (freed a)) i (colon :: k) ∧ Derives n (.expr (freed b)) k r)
      (a.print.toList ++ ' ' :: ([':'] ++ ' ' :: b.print.toList)) rest := by
    refine ReadsAs.append (by simpa using ihTrue.whole nestsTrue looseTrue) (second.space rfl) ?_
    rintro i _ r inside ⟨t, k, isColon, rfl, later⟩
    exact ⟨t, k, isColon, inside, later⟩
  have question : ReadsAs (OneSymbol "?") ['?']
      (' ' :: (a.print.toList ++ ' ' :: ([':'] ++ ' ' :: b.print.toList)) ++ rest) :=
    @readsAs_operatorText _ ['?'] (by decide)
  refine question.append (both.space rfl) ?_
  rintro _ j r ⟨t, isQuestion, rfl⟩ ⟨colon, k, isColon, inside, later⟩
  exact ⟨t, colon, j, k, isQuestion, rfl, inside, isColon, later⟩

/-- A condition, and the two expressions it chooses between. -/
theorem reads_ternary
    {m : Mark} {c a b : Expr}
    (ihCond : Reads c)
    (ihTrue : Reads a)
    (ihFalse : Reads b) :
    Reads (.ternary m c a b) := by
  refine reads_of_whole rfl fun {n rest} nests loose => ?_
  obtain ⟨n, rfl⟩ := Nat.exists_eq_succ_of_ne_zero (Nat.ne_zero_of_lt nests)
  obtain ⟨nestsCond, nestsBranches⟩ := Nat.max_le.mp (Nat.le_of_lt_succ nests)
  obtain ⟨nestsTrue, nestsFalse⟩ := Nat.max_le.mp nestsBranches
  have text : (Expr.ternary m c a b).print.toList = (c.wrap 1 c.print).toList ++ (' ' ::
      (['?'] ++ ' ' :: (a.print.toList ++ ' ' :: ([':'] ++ ' ' :: b.print.toList)))) := by
    simp [Expr.print]
  have question : ReadsAs (OneSymbol "?") ['?']
      (' ' :: (a.print.toList ++ ' ' :: ([':'] ++ ' ' :: b.print.toList)) ++ rest) :=
    @readsAs_operatorText _ ['?'] (by decide)
  have looseCond := loose_of_symbol question (by decide)
  have first := ihCond.place (Nat.le_refl 1) nestsCond fun _ => looseCond.mayFollow c
  have branches := readsAs_branches ihTrue ihFalse nestsTrue nestsFalse loose
  rw [text]
  refine ReadsAs.append (by simpa using first) (branches.space rfl) ?_
  rintro i _ r condition ⟨question, colon, j, k, isQuestion, rfl, inside, isColon, later⟩
  exact .ternary condition isQuestion inside isColon later

/-! ### Lists, maps and calls -/

section Parts

variable {n : Nat}

theorem Reads.isPart
    {e : Expr}
    (h : Reads e)
    (nests : nesting 1 e < n) :
    IsPart (fun t => Derives n (.expr t)) e.print (freed e) :=
  fun _ delimited => h.whole nests (loose_of_delimited delimited)

theorem isParts_items
    {items : List Expr}
    (ih : ∀ e ∈ items, Reads e)
    (nests : Expr.nestingItems 1 items ≤ n) :
    List.Forall₂ (IsPart fun t => Derives n (.expr t)) (Expr.printItems items)
      (freedItems items) := by
  induction items with
  | nil => exact .nil
  | cons e rest others =>
      obtain ⟨here, later⟩ := Nat.max_le.mp nests
      exact .cons ((ih e (by simp)).isPart here)
        (others (fun x member => ih x (by simp [member])) later)

theorem isParts_entries
    {entries : List (Expr × Expr)}
    (ih : ∀ kv ∈ entries, Reads kv.1 ∧ Reads kv.2)
    (nests : Expr.nestingEntries 1 entries ≤ n) :
    List.Forall₂ (IsPart (Entry n)) (Expr.printEntries entries) (freedEntries entries) := by
  induction entries with
  | nil => exact .nil
  | cons kv rest others =>
      obtain ⟨key, value⟩ := ih kv (by simp)
      obtain ⟨here, later⟩ := Nat.max_le.mp nests
      obtain ⟨nestsKey, nestsValue⟩ := Nat.max_le.mp here
      refine .cons (fun rest delimited => ?_)
        (others (fun x member => ih x (by simp [member])) later)
      have text : (kv.1.print ++ ": " ++ kv.2.print).toList =
          kv.1.print.toList ++ ':' :: ' ' :: kv.2.print.toList := by
        simp
      rw [text]
      exact readsAs_entry (key.isPart nestsKey _ (Lexer.delimited_cons (by decide) _))
        (value.isPart nestsValue _ delimited)

end Parts

/-- Items between brackets. -/
theorem reads_list
    {m : Mark} {items : List Expr}
    (ih : ∀ e ∈ items, Reads e) :
    Reads (.list m items) := by
  refine reads_of_member rfl fun {n rest} nests _ => ?_
  have text : (Expr.list m items).print.toList =
      '[' :: ((", ".intercalate (Expr.printItems items)).toList ++ [']']) := by
    simp [Expr.print]
  rw [text]
  refine (readsAs_brackets (o := '[') (c := ']') (isSequence_items n "]") (by decide) (by decide)
    (by decide) (isParts_items ih nests) rest).mono ?_
  rintro i r ⟨t, j, isOpen, rfl, inside⟩
  exact (Derives.list isOpen inside).member_of_primary

/-- Entries between braces. -/
theorem reads_map
    {m : Mark} {entries : List (Expr × Expr)}
    (ih : ∀ kv ∈ entries, Reads kv.1 ∧ Reads kv.2) :
    Reads (.map m entries) := by
  refine reads_of_member rfl fun {n rest} nests _ => ?_
  have text : (Expr.map m entries).print.toList =
      '\x7b' :: ((", ".intercalate (Expr.printEntries entries)).toList ++ ['\x7d']) := by
    simp [Expr.print]
  rw [text]
  refine (readsAs_brackets (o := '\x7b') (c := '\x7d') (isSequence_entries n) (by decide) (by decide)
    (by decide) (isParts_entries ih nests) rest).mono ?_
  rintro i r ⟨t, j, isOpen, rfl, inside⟩
  exact (Derives.map isOpen inside).member_of_primary

/-! ### What goes on from an operand -/

section Postfixes

variable {n : Nat} {e inner after : Expr} {rest : List Char}

/-- A field. -/
theorem readsAs_select
    {field : String}
    (isField : IsField field)
    (ends : EndsWord rest)
    (noCall : ∀ pos, startsWith "(" (scanFrom pos 0 rest).tokens = false) :
    ReadsAs (Derives n (.postfixes inner (.select blank inner field))) ('.' :: field.toList) rest := by
  have name : ReadsAs (fun i r => ∃ t, t.isIdent = true ∧ t.text = field ∧ i = t :: r ∧
      startsWith "(" r = false) field.toList rest :=
    readsAs_token (isField.scanFrom ends) fun _ pos => ⟨_, rfl, by simp, rfl, noCall pos⟩
  refine name.symbol (.inl (by decide)) ?_
  rintro dot _ r isDot ⟨t, isName, rfl, rfl, apart⟩
  exact .field isDot isName apart .postfixesEnd

/-- A method and its arguments. -/
theorem readsAs_method
    {name : String} {texts : List String} {args : List Expr}
    (isField : IsField name)
    (parts : List.Forall₂ (IsPart fun t => Derives n (.expr t)) texts args)
    (meaning : MethodCall name inner args after)
    (rest : List Char) :
    ReadsAs (Derives n (.postfixes inner after))
      ('.' :: (name.toList ++ '(' :: ((", ".intercalate texts).toList ++ [')']))) rest := by
  have ends : EndsWord ('(' :: ((", ".intercalate texts).toList ++ [')']) ++ rest) := by
    simp [EndsWord]
    decide
  have called : ReadsAs (fun i r => ∃ t paren j, t.isIdent = true ∧ t.text = name ∧
      paren.isSymbol "(" = true ∧ i = t :: paren :: j ∧ Derives n (.items ")" args) j r)
      (name.toList ++ '(' :: ((", ".intercalate texts).toList ++ [')'])) rest := by
    refine (readsAs_field isField ends).append (readsAs_arguments parts rest) ?_
    rintro _ _ r ⟨t, isIdent, named, rfl⟩ ⟨paren, j, isOpen, rfl, inside⟩
    exact ⟨t, paren, j, isIdent, named, isOpen, rfl, inside⟩
  refine called.symbol (.inl (by decide)) ?_
  rintro dot _ r isDot ⟨t, paren, j, isIdent, rfl, isOpen, rfl, inside⟩
  exact .method isDot isIdent isOpen inside meaning .postfixesEnd

/-- An index. -/
theorem readsAs_index
    {key : Expr}
    (reads : Reads key)
    (nests : nesting 1 key < n)
    (rest : List Char) :
    ReadsAs (Derives n (.postfixes inner (.index blank inner (freed key))))
      ('[' :: (key.print.toList ++ [']'])) rest := by
  have close : ReadsAs (OneSymbol "]") [']'] rest :=
    readsAs_symbol (.inl (by decide)) fun t _ isClose => ⟨t, isClose, rfl⟩
  have inside := reads.isPart nests (']' :: rest) (Lexer.delimited_cons (by decide) rest)
  have closed : ReadsAs (fun i r => ∃ t, t.isSymbol "]" = true ∧
      Derives n (.expr (freed key)) i (t :: r)) (key.print.toList ++ [']']) rest :=
    inside.append close fun _ _ _ h ⟨t, isClose, same⟩ => ⟨t, isClose, same ▸ h⟩
  exact closed.symbol (.inl (by decide)) fun _ _ _ isOpen ⟨_, isClose, h⟩ =>
    .index isOpen h isClose .postfixesEnd

/-- An operand, and the field, index or call that goes on from it. -/
theorem Reads.goOn
    {c : Char} {suffix : List Char}
    (operand : Reads e)
    (nests : wrapped e primaryPrecedence (nesting 1 e) ≤ n)
    (mark : c ∈ Lexer.punctuation)
    (ends : Ends (c :: (suffix ++ rest)))
    (noCall : e.isCallable = true → c ≠ '(')
    (more : ReadsAs (Derives n (.postfixes (freed e) after)) (c :: suffix) rest) :
    ReadsAs (Derives n (.member after))
      ((e.wrap primaryPrecedence e.print).toList ++ c :: suffix) rest := by
  have first : ReadsAs (Derives n (.member (freed e)))
      (e.wrap primaryPrecedence e.print).toList (c :: (suffix ++ rest)) :=
    operand.place (by decide) nests fun tight => mayFollow_mark mark ends tight noCall
  exact first.append more fun _ _ _ h others => h.member_append others

theorem ends_bracket
    {c : Char}
    (isBracket : c = '[' ∨ c = '(')
    (rest : List Char) :
    Ends (c :: rest) := by
  rcases isBracket with rfl | rfl <;> exact ⟨by simp [EndsWord]; decide, rfl⟩

/-- A point before a name is not the point of a number. -/
theorem ends_point
    {name : String}
    (isField : IsField name)
    (rest : List Char) :
    Ends ('.' :: (name.toList ++ rest)) := by
  have identifier := isField.identifier
  cases text : name.toList with
  | nil => simp [text, isIdentifier] at identifier
  | cons c cs =>
      rw [text, isIdentifier, Bool.and_eq_true] at identifier
      refine ⟨by simp [EndsWord]; decide, ?_⟩
      obtain ⟨-, -, noDigit⟩ := Lexer.not_isSpace_of_isIdentStart identifier.1
      simp [Literal.fractionLength, noDigit]

/-- An operand, and a method call on it. -/
theorem Reads.method
    {name : String} {texts : List String} {args : List Expr}
    (operand : Reads e)
    (nests : wrapped e primaryPrecedence (nesting 1 e) ≤ n)
    (isField : IsField name)
    (parts : List.Forall₂ (IsPart fun t => Derives n (.expr t)) texts args)
    (meaning : MethodCall name (freed e) args after)
    (rest : List Char) :
    ReadsAs (Derives n (.member after))
      ((e.wrap primaryPrecedence e.print).toList ++
        '.' :: (name.toList ++ '(' :: ((", ".intercalate texts).toList ++ [')']))) rest := by
  refine operand.goOn nests (by decide) ?_ (fun _ => by decide)
    (readsAs_method isField parts meaning rest)
  rw [List.append_assoc]
  exact ends_point isField _

end Postfixes

theorem reads_select
    {m : Mark} {operand : Expr} {field : String}
    (isField : IsField field)
    (ih : Reads operand) :
    Reads (.select m operand field) := by
  refine reads_of_member rfl fun {n rest} nests follows => ?_
  have text : (Expr.select m operand field).print.toList =
      (operand.wrap primaryPrecedence operand.print).toList ++ '.' :: field.toList := by
    simp [Expr.print]
  rw [text]
  exact ih.goOn nests (by decide) (ends_point isField rest) (fun _ => by decide)
    (readsAs_select isField follows.ends.word (follows.noCall rfl))

theorem reads_index
    {m : Mark} {operand key : Expr}
    (ihOperand : Reads operand)
    (ihKey : Reads key) :
    Reads (.index m operand key) := by
  refine reads_of_member rfl fun {n rest} nests _ => ?_
  obtain ⟨nestsOperand, nestsKey⟩ := Nat.max_le.mp nests
  have text : (Expr.index m operand key).print.toList =
      (operand.wrap primaryPrecedence operand.print).toList ++
        '[' :: (key.print.toList ++ [']']) := by
    simp [Expr.print]
  rw [text]
  exact ihOperand.goOn nestsOperand (by decide) (ends_bracket (.inl rfl) _) (fun _ => by decide)
    (readsAs_index ihKey nestsKey rest)

/-- Arguments of what is neither a name nor a field are those of an invocation. -/
theorem reads_invoke
    {m : Mark} {callee : Expr} {args : List Expr}
    (noCall : callee.isCallable = false)
    (ihCallee : Reads callee)
    (ihArgs : ∀ e ∈ args, Reads e) :
    Reads (.invoke m callee args) := by
  refine reads_of_member rfl fun {n rest} nests _ => ?_
  obtain ⟨nestsCallee, nestsArgs⟩ := Nat.max_le.mp nests
  have text : (Expr.invoke m callee args).print.toList =
      (callee.wrap primaryPrecedence callee.print).toList ++
        '(' :: ((", ".intercalate (Expr.printItems args)).toList ++ [')']) := by
    simp [Expr.print]
  rw [text]
  refine ihCallee.goOn nestsCallee (by decide) (ends_bracket (.inr rfl) _)
    (fun callable => by rw [noCall] at callable; cases callable) ?_
  refine (readsAs_arguments (isParts_items ihArgs nestsArgs) rest).mono ?_
  rintro _ r ⟨t, j, isOpen, rfl, inside⟩
  exact .invocation isOpen inside .postfixesEnd

theorem reads_call
    {m : Mark} {name : String} {target : Option Expr} {args : List Expr}
    (fromSource : FromSource (.call m name target args))
    (ihTarget : ∀ e ∈ target, Reads e)
    (ihArgs : ∀ e ∈ args, Reads e) :
    Reads (.call m name target args) := by
  refine reads_of_member rfl fun {n rest} nests _ => ?_
  obtain ⟨nestsTarget, nestsArgs⟩ := Nat.max_le.mp nests
  have parts := isParts_items ihArgs nestsArgs
  cases target with
  | none =>
      obtain ⟨isName, other⟩ : IsName name ∧ name ≠ "has" := fromSource
      have text : (Expr.call m name none args).print.toList =
          name.toList ++ '(' :: ((", ".intercalate (Expr.printItems args)).toList ++ [')']) := by
        simp [Expr.print, Expr.printTarget]
      rw [text]
      exact readsAs_call isName (.call other) parts rest
  | some t =>
      obtain ⟨isField, other⟩ : IsField name ∧ _ := fromSource
      have text : (Expr.call m name (some t) args).print.toList =
          (t.wrap primaryPrecedence t.print).toList ++ '.' :: (name.toList ++
            '(' :: ((", ".intercalate (Expr.printItems args)).toList ++ [')'])) := by
        simp [Expr.print, Expr.printTarget]
      have meaning : MethodCall name (freed t) (freedItems args)
          (.call blank name (some (freed t)) (freedItems args)) :=
        .call (by simpa [Expr.freedItems_eq_map] using other)
      rw [text]
      exact (ihTarget t rfl).method nestsTarget isField parts meaning rest

theorem reads_has
    {m : Mark} {access : Expr}
    (isAccess : access.isAccess = true)
    (ih : Reads access) :
    Reads (.has m access) := by
  refine reads_of_member rfl fun {n rest} nests _ => ?_
  have isName : IsName "has" := isName_of_checkName (by decide)
  have same : (freed access).isAccess = true := by
    cases access <;> first | rfl | cases isAccess
  have text : (Expr.has m access).print.toList =
      "has".toList ++ '(' :: ((", ".intercalate [access.print]).toList ++ [')']) := by
    simp [Expr.print]
  rw [text]
  exact readsAs_call isName (.presence same) (.cons (ih.isPart nests) .nil) rest

/-! ### Comprehensions -/

@[simp] theorem identName?_freed
    (e : Expr) :
    (freed e).identName? = e.occurrenceName? := by
  cases e <;> rfl

/-- The arguments with which a comprehension is read: its variables as names, and its guard and its
body by themselves. -/
def comprehensionArguments (names : List String) (guard : Option Expr) (body : Expr) : List Expr :=
  names.map (.ident blank) ++ (guard.map freed).toList ++ [freed body]

theorem ofName?_name
    (kind : Comprehension) :
    Comprehension.ofName? kind.name = some kind := by
  cases kind <;> rfl

theorem isField_name
    (kind : Comprehension) :
    IsField kind.name :=
  (isName_of_checkName (by cases kind <;> decide)).toIsField

/-- A comprehension is what its arguments ask for. -/
theorem methodCall_comprehension
    {m : Mark} {kind : Comprehension} {target : Expr} {names : List String} {guard : Option Expr}
    {body : Expr}
    (fromSource : FromSource (.comprehension m kind target names guard body)) :
    MethodCall kind.name (freed target) (comprehensionArguments names guard body)
      (freed (.comprehension m kind target names guard body)) := by
  obtain ⟨-, distinct, counts⟩ := fromSource
  cases guard with
  | none =>
      match names, counts with
      | [x], _ => exact .single (ofName?_name kind)
      | [x, y], _ => exact .pair (ofName?_name kind) (by simpa using distinct)
  | some g =>
      obtain ⟨rfl, one, noName⟩ := counts
      obtain ⟨x, rfl⟩ := List.length_eq_one_iff.mp one
      exact .guarded (ofName?_name .map) (by simpa using noName)

theorem isParts_comprehension
    {n : Nat} {names : List String} {guard : Option Expr} {body : Expr}
    (areNames : ∀ name ∈ names, IsName name)
    (ihGuard : ∀ e ∈ guard, Reads e)
    (ihBody : Reads body)
    (nestsGuard : Expr.nestingGuard 1 guard ≤ n)
    (nestsBody : nesting 1 body < n) :
    List.Forall₂ (IsPart fun t => Derives n (.expr t))
      (names ++ Expr.printGuard guard ++ [body.print])
      (comprehensionArguments names guard body) := by
  have binders : List.Forall₂ (IsPart fun t => Derives n (.expr t)) names
      (names.map (.ident blank)) := by
    rw [List.forall₂_map_right_iff, List.forall₂_same]
    intro name member rest delimited
    obtain ⟨k, rfl⟩ := Nat.exists_eq_succ_of_ne_zero (Nat.ne_zero_of_lt nestsBody)
    have loose := loose_of_delimited delimited
    exact (readsAs_name (areNames name member) loose.ends.word (loose.noPostfix "(" (by decide))).mono
      fun _ _ h => expr_of_unary h.unary_of_member
  have guards : List.Forall₂ (IsPart fun t => Derives n (.expr t)) (Expr.printGuard guard)
      (guard.map freed).toList := by
    cases guard with
    | none => exact .nil
    | some g => exact .cons ((ihGuard g rfl).isPart nestsGuard) .nil
  exact List.rel_append (List.rel_append binders guards) (.cons (ihBody.isPart nestsBody) .nil)

/-- A comprehension is read as the method call that it was. -/
theorem reads_comprehension
    {m : Mark} {kind : Comprehension} {target : Expr} {names : List String} {guard : Option Expr}
    {body : Expr}
    (fromSource : FromSource (.comprehension m kind target names guard body))
    (ihTarget : Reads target)
    (ihGuard : ∀ e ∈ guard, Reads e)
    (ihBody : Reads body) :
    Reads (.comprehension m kind target names guard body) := by
  refine reads_of_member rfl fun {n rest} nests _ => ?_
  obtain ⟨nestsTarget, nestsInside⟩ := Nat.max_le.mp nests
  obtain ⟨nestsGuard, nestsBody⟩ := Nat.max_le.mp nestsInside
  have text : (Expr.comprehension m kind target names guard body).print.toList =
      (target.wrap primaryPrecedence target.print).toList ++ '.' :: (kind.name.toList ++
        '(' :: ((", ".intercalate (names ++ Expr.printGuard guard ++ [body.print])).toList ++
          [')'])) := by
    simp [Expr.print]
  have parts := isParts_comprehension fromSource.1 ihGuard ihBody nestsGuard nestsBody
  rw [text]
  exact ihTarget.method nestsTarget (isField_name kind) parts (methodCall_comprehension fromSource)
    rest

/-! ### All expressions -/

/-- The text of a readable tree is read as the tree, by induction on the tree. -/
theorem reads_print
    {e : Expr}
    (readable : Everywhere Readable e) :
    Reads e := by
  induction e using Expr.induction_nodes with
  | literal => exact reads_literal readable.root
  | ident _ name | localRef _ name =>
      exact reads_name readable.root.fromSource rfl rfl rfl rfl
  | unary _ _ _ ih => exact reads_unary readable (ih (readable.child (by simp [Expr.children])))
  | binary _ _ _ _ ihLeft ihRight =>
      exact reads_binary (ihLeft (readable.child (by simp [Expr.children])))
        (ihRight (readable.child (by simp [Expr.children])))
  | ternary _ _ _ _ ihCond ihTrue ihFalse =>
      exact reads_ternary (ihCond (readable.child (by simp [Expr.children])))
        (ihTrue (readable.child (by simp [Expr.children])))
        (ihFalse (readable.child (by simp [Expr.children])))
  | list _ items ih => exact reads_list fun e member => ih e member (readable.child member)
  | map _ entries ih =>
      have inside : ∀ kv ∈ entries, ∀ e ∈ [kv.1, kv.2], Everywhere Readable e :=
        fun kv member e part => readable.child (List.mem_flatMap.mpr ⟨kv, member, part⟩)
      exact reads_map fun kv member => ⟨(ih kv member).1 (inside kv member _ (by simp)),
        (ih kv member).2 (inside kv member _ (by simp))⟩
  | select _ _ _ ih =>
      exact reads_select readable.root.fromSource (ih (readable.child (by simp [Expr.children])))
  | index _ _ _ ihOperand ihKey =>
      exact reads_index (ihOperand (readable.child (by simp [Expr.children])))
        (ihKey (readable.child (by simp [Expr.children])))
  | call _ _ target args ihTarget ihArgs =>
      refine reads_call readable.root.fromSource
        (fun e member => ihTarget e member (readable.child ?_))
        (fun e member => ihArgs e member (readable.child ?_)) <;> simp_all [Expr.children]
  | invoke _ callee args ihCallee ihArgs =>
      exact reads_invoke readable.root.noCall (ihCallee (readable.child (by simp [Expr.children])))
        fun e member => ihArgs e member (readable.child (List.mem_cons_of_mem _ member))
  | has _ _ ih =>
      exact reads_has readable.root.fromSource (ih (readable.child (by simp [Expr.children])))
  | comprehension _ _ _ _ guard _ ihTarget ihGuard ihBody =>
      refine reads_comprehension readable.root.fromSource
        (ihTarget (readable.child (by simp [Expr.children])))
        (fun e member => ihGuard e member (readable.child ?_))
        (ihBody (readable.child (by simp [Expr.children])))
      simp_all [Expr.children]

end Grammar
end ExprLang
