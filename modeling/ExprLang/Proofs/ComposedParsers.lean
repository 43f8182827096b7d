import ExprLang.Proofs.ParserLoops

/-!
# Parsers composed of steps

Every part of the parser is composed of few steps: it looks at the state, takes a token, records a
mistake, numbers a node, or drops all that is ahead.  What every step does, every part of the parser
does, whether a run is clean or not.

* `Composed m`: the parser `m` is composed of these steps; every part of the parser is.
* `Composed.length_le`: there are never more tokens ahead than before.
* `Composed.cut`: once parsing was cut off nothing more happens.
-/

namespace ExprLang
namespace Parser

variable {α β σ : Type}

/-- The parsers that are composed of the steps below. -/
class inductive Composed : {α : Type} → Parser α → Prop
  | pure {α : Type} (a : α) : Composed (pure a : Parser α)
  | get : Composed (get : Parser State)
  | advance : Composed advance
  | record (cause : SyntaxError) (span : Text.Span) : Composed (record cause span)
  | newMark (start : Nat) : Composed (newMark start)
  | drop : Composed (modify fun s => { s with rest := [], halted := true } : Parser Unit)
  | sequence {α β : Type} {m : Parser α} {f : α → Parser β}
      (first : Composed m)
      (second : ∀ a, Composed (f a)) :
      Composed (m >>= f)

/-- Parsing was cut off: nothing is ahead, and nothing is recorded any more. -/
structure State.Cut (s : State) : Prop where
  rest : s.rest = []
  halted : s.halted = true

namespace Composed

attribute [instance] Composed.pure Composed.get Composed.advance Composed.record Composed.newMark
  Composed.drop

instance bind
    {m : Parser α} {f : α → Parser β}
    [first : Composed m]
    [second : ∀ a, Composed (f a)] :
    Composed (m >>= f) :=
  .sequence first second

instance ite
    {c : Prop} [Decidable c] {m m' : Parser α}
    [h : Composed m]
    [h' : Composed m'] :
    Composed (if c then m else m') := by
  split
  · exact h
  · exact h'

end Composed

/-! ### What the steps do -/

theorem advance_nil
    {s : State}
    (rest : s.rest = []) :
    advance s = ((), s) := by
  obtain ⟨_, _, _, _, _, _, _⟩ := s
  cases rest
  rfl

theorem peek_nil
    {s : State}
    (rest : s.rest = []) :
    peek s = (none, s) := by
  obtain ⟨_, _, _, _, _, _, _⟩ := s
  cases rest
  rfl

theorem record_apply
    (cause : SyntaxError) (span : Text.Span) (s : State) :
    record cause span s =
      ((), if s.halted || s.offsets.contains span.start then s
        else { s with errors := (cause, span) :: s.errors, offsets := span.start :: s.offsets }) :=
  rfl

theorem rest_record
    (cause : SyntaxError) (span : Text.Span) (s : State) :
    (record cause span s).2.rest = s.rest := by
  rw [record_apply]
  dsimp only
  split <;> rfl

/-- There are never more tokens ahead than before. -/
theorem Composed.length_le
    {m : Parser α}
    (h : Composed m)
    (s : State) :
    (m s).2.rest.length ≤ s.rest.length := by
  induction h generalizing s with
  | pure | get | newMark => exact Nat.le_refl _
  | advance =>
      cases rest : s.rest with
      | nil =>
          rw [advance_nil rest, rest]
      | cons t after =>
          rw [advance_cons rest]
          exact Nat.le_succ _
  | record cause span => exact Nat.le_of_eq (by rw [rest_record])
  | drop => exact Nat.zero_le _
  | sequence _ _ ih ih' => exact (ih' _ _).trans (ih s)

/-- Once parsing was cut off it stays so, and no mistake is recorded any more. -/
theorem Composed.cut
    {m : Parser α}
    (h : Composed m)
    {s : State}
    (isCut : s.Cut) :
    (m s).2.Cut ∧ (m s).2.errors = s.errors := by
  induction h generalizing s with
  | pure | get | newMark => exact ⟨⟨isCut.rest, isCut.halted⟩, rfl⟩
  | advance =>
      rw [advance_nil isCut.rest]
      exact ⟨isCut, rfl⟩
  | record cause span =>
      rw [record_apply, isCut.halted, Bool.true_or, if_pos rfl]
      exact ⟨isCut, rfl⟩
  | drop => exact ⟨⟨rfl, rfl⟩, rfl⟩
  | sequence _ _ ih ih' =>
      obtain ⟨between, errors⟩ := ih isCut
      obtain ⟨after, errors'⟩ := ih' _ between
      exact ⟨after, errors'.trans errors⟩

/-! ### The parts of the parser -/

instance composed_peek : Composed peek :=
  .bind

instance composed_nextSpan : Composed nextSpan :=
  .bind

instance composed_found : Composed found :=
  .bind

instance composed_remaining : Composed remaining :=
  .bind

instance composed_atEnd : Composed atEnd :=
  .bind

instance composed_atSymbol
    (text : String) :
    Composed (atSymbol text) :=
  .bind

instance composed_takeSymbol
    (text : String) :
    Composed (takeSymbol text) :=
  .bind

instance composed_expect
    (text : String) :
    Composed (expect text) :=
  .bind

instance composed_placeholder
    (start : Nat) :
    Composed (placeholder start) :=
  .bind

instance composed_takeOperator?
    (level : Level) :
    Composed (takeOperator? level) := by
  refine @Composed.bind _ _ _ _ inferInstance fun s => ?_
  split
  · infer_instance
  · split <;> infer_instance

instance composed_operatorLoop
    {level : Level} {operand : Parser Expr} {start : Nat}
    [Composed operand]
    (fuel : Nat) (left : Expr) :
    Composed (operatorLoop level operand start fuel left) := by
  induction fuel generalizing left with
  | zero => exact .pure _
  | succ fuel ih =>
      refine @Composed.bind _ _ _ _ inferInstance fun op? => ?_
      cases op? <;> infer_instance

instance composed_leftAssoc
    {level : Level} {operand : Parser Expr}
    [Composed operand] :
    Composed (leftAssoc level operand) := by
  refine @Composed.bind _ _ _ _ inferInstance fun span => ?_
  dsimp only
  infer_instance

instance composed_takePrefixes
    (fuel : Nat) :
    Composed (takePrefixes fuel) := by
  induction fuel with
  | zero => exact .pure _
  | succ fuel ih =>
      refine @Composed.bind _ _ _ _ inferInstance fun s => ?_
      split
      · infer_instance
      · split <;> infer_instance

instance composed_applyPrefixes
    (ops : List (UnaryOp × Nat)) (e : Expr) :
    Composed (applyPrefixes ops e) := by
  induction ops generalizing e with
  | nil => exact .pure _
  | cons op ops ih => exact .bind

instance composed_negatedInt? : Composed negatedInt? := by
  rw [negatedInt?_eq]
  infer_instance

instance composed_intLiteral
    (t : Token) (k start : Nat) (negative : Bool) :
    Composed (intLiteral t k start negative) :=
  .ite

instance composed_uintLiteral
    (t : Token) (k start : Nat) :
    Composed (uintLiteral t k start) :=
  .ite

instance composed_valueLiteral
    (start : Nat) (v : Value) :
    Composed (valueLiteral start v) :=
  .bind

instance composed_variableNames
    (macroName : String) (names : List String) (binders : List Expr) :
    Composed (variableNames macroName names binders) := by
  induction binders generalizing names with
  | nil => exact .pure _
  | cons e rest ih =>
      unfold variableNames
      split <;> infer_instance

instance composed_comprehension
    (start : Nat) (macroName : String) (kind : Comprehension) (target : Expr)
    (binders : List Expr) (guard : Option Expr) (body : Expr) :
    Composed (comprehension start macroName kind target binders guard body) :=
  .bind

instance composed_presenceTest
    (start : Nat) (nameSpan : Text.Span) (args : List Expr) :
    Composed (presenceTest start nameSpan args) := by
  unfold presenceTest
  split <;> infer_instance

instance composed_methodCall
    (start : Nat) (name : String) (target : Expr) (args : List Expr) :
    Composed (methodCall start name target args) := by
  unfold methodCall
  split <;> infer_instance

instance composed_functionCall
    (start : Nat) (name : String) (nameSpan : Text.Span) (args : List Expr) :
    Composed (functionCall start name nameSpan args) :=
  .ite

/-! ### The levels of the grammar -/

section Nested

variable {expr : Parser Expr} [Composed expr]

instance composed_itemLoop
    (close : String) (fuel : Nat) :
    Composed (itemLoop expr close fuel) := by
  induction fuel with
  | zero => exact .pure _
  | succ fuel ih => exact .bind

instance composed_items
    (close : String) :
    Composed (items expr close) :=
  .bind

instance composed_entryLoop
    (fuel : Nat) :
    Composed (entryLoop expr fuel) := by
  induction fuel with
  | zero => exact .pure _
  | succ fuel ih => exact .bind

instance composed_mapBody
    (start : Nat) :
    Composed (mapBody expr start) :=
  .bind

instance composed_identifier
    (t : Token) :
    Composed (identifier expr t) := by
  unfold identifier
  dsimp only
  infer_instance

instance composed_bracketed
    (start : Nat) :
    Composed (bracketed expr start) := by
  refine @Composed.bind _ _ _ _ inferInstance fun b => ?_
  refine @Composed.ite _ _ _ _ _ inferInstance <| @Composed.bind _ _ _ _ inferInstance fun b => ?_
  infer_instance

instance composed_primary : Composed (primary expr) := by
  refine @Composed.bind _ _ _ _ inferInstance fun span => ?_
  refine @Composed.bind _ _ _ _ inferInstance fun t? => ?_
  cases t? with
  | none => exact composed_bracketed _
  | some t =>
      dsimp only
      split <;> infer_instance

instance composed_postfixLoop
    (start fuel : Nat) (e : Expr) :
    Composed (postfixLoop expr start fuel e) := by
  induction fuel generalizing e with
  | zero => exact .pure _
  | succ fuel ih =>
      refine @Composed.bind _ _ _ _ inferInstance fun b => ?_
      refine @Composed.ite _ _ _ _ _ (@Composed.bind _ _ _ _ inferInstance fun t? => ?_)
        inferInstance
      cases t? <;> infer_instance

instance composed_member : Composed (member expr) := by
  refine @Composed.bind _ _ _ _ inferInstance fun span => ?_
  dsimp only
  infer_instance

instance composed_behindPrefixes
    (prefixes : List (UnaryOp × Nat)) :
    Composed (behindPrefixes expr prefixes) := by
  refine @Composed.bind _ _ _ _ inferInstance fun found => ?_
  split <;> infer_instance

instance composed_unary : Composed (unary expr) := by
  refine @Composed.bind _ _ _ _ inferInstance fun fuel => ?_
  refine @Composed.bind _ _ _ _ inferInstance fun ops => ?_
  exact composed_behindPrefixes _

instance composed_alternatives : Composed (alternatives expr) := by
  unfold alternatives
  infer_instance

instance composed_conditional : Composed (conditional expr) := by
  refine @Composed.bind _ _ _ _ inferInstance fun span => ?_
  dsimp only
  infer_instance

end Nested

instance composed_cutOff
    (limit : Int) :
    Composed (cutOff limit) := by
  refine @Composed.bind _ _ _ _ inferInstance fun here => ?_
  dsimp only
  infer_instance

instance composed_exprAt
    (limit : Int) (budget : Nat) :
    Composed (exprAt limit budget) := by
  induction budget with
  | zero => exact composed_cutOff limit
  | succ budget ih => exact composed_conditional

/-! ### Rounds -/

instance composed_iterate
    {round : σ → Parser (Step σ)}
    [∀ x, Composed (round x)]
    (fuel : Nat) (x : σ) :
    Composed (iterate round fuel x) := by
  induction fuel generalizing x with
  | zero => exact .pure x
  | succ fuel ih =>
      refine @Composed.bind _ _ _ _ inferInstance fun step => ?_
      cases step <;> infer_instance

section Nested

variable {expr : Parser Expr} [Composed expr]

instance composed_itemRound
    (close : String) (before : List Expr) :
    Composed (itemRound expr close before) :=
  .bind

instance composed_entryRound
    (before : List (Expr × Expr)) :
    Composed (entryRound expr before) :=
  .bind

instance composed_fieldRound
    (start : Nat) (e : Expr) :
    Composed (fieldRound expr start e) := by
  refine @Composed.bind _ _ _ _ inferInstance fun name? => ?_
  cases name? <;> infer_instance

end Nested

end Parser
end ExprLang
