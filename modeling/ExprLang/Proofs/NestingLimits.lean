import ExprLang.Proofs.NarrowerRuns
import ExprLang.Proofs.SourceSpans

/-!
# Limits of nesting

A limit of nesting only cuts off.  What is an expression under a limit is the same expression under a
wider one.  What is an expression only under the wider limit has one mistake under the narrower: the
nesting, at the first token that nests too deeply.

* `narrows_conditional`: one level of nesting, from all parts of an expression.
* `narrows_cutOff`, `narrows_exprAt`: expressions, by induction on how deeply they may nest.
* `parse_narrower`: whole source texts.
-/

namespace ExprLang
namespace Parser

open Grammar

variable {limit : Int} {around : List Frame}

instance onward_behindPrefixes
    {expr : Parser Expr} [Onward expr]
    (operators : List (UnaryOp × Nat)) :
    Onward (behindPrefixes expr operators) := by
  refine @Onward.bind _ _ _ _ inferInstance fun found => ?_
  split <;> infer_instance

/-- Behind an expression there may be second branches that end with it, and where it stands is not too
deep. -/
def Inside (limit : Int) (around : List Frame) (_ : Expr) (around' : List Frame) : Prop :=
  (∃ k, around' = List.replicate k .ifFalse ++ around) ∧ (around.length + 1 : Int) ≤ limit

/-- In a bracket, perhaps in second branches that end with it. -/
def InBracket {α : Type} (around : List Frame) (_ : α) (around' : List Frame) : Prop :=
  ∃ k, around' = List.replicate k .ifFalse ++ .bracket :: around

section Nested

variable {expr expr' : Parser Expr} [Onward expr] [Composed expr']
  (nested : ∀ f, Narrows limit (f :: around) expr expr' (Inside limit (f :: around)))

include nested

/-! ### Brackets -/

theorem narrows_itemLoop
    (close : String) (fuel : Nat) :
    Narrows limit (.bracket :: around) (itemLoop expr close fuel) (itemLoop expr' close fuel)
      (InBracket around) := by
  induction fuel with
  | zero => exact .pure ⟨0, rfl⟩
  | succ fuel ih =>
      refine .ifItemsEnd (.pure ⟨0, rfl⟩) (.bind (nested .bracket) ?_)
      rintro e _ ⟨⟨k, rfl⟩, deep⟩
      refine .ifSymbol behindSymbol_comma (by omega) ?_ (.pure ⟨k, rfl⟩)
      exact .bind ih fun _ _ inside => .pure inside

theorem narrows_entryLoop
    (fuel : Nat) :
    Narrows limit (.bracket :: around) (entryLoop expr fuel) (entryLoop expr' fuel)
      (InBracket around) := by
  induction fuel with
  | zero => exact .pure ⟨0, rfl⟩
  | succ fuel ih =>
      refine .ifItemsEnd (.pure ⟨0, rfl⟩) (.bind (nested .bracket) ?_)
      rintro key _ ⟨⟨k, rfl⟩, deep⟩
      refine .bind (narrows_expect behindSymbol_colon_bracket (by omega)) ?_
      rintro _ _ ⟨rfl, rfl⟩
      refine .bind (nested .bracket) ?_
      rintro v _ ⟨⟨k, rfl⟩, -⟩
      refine .ifSymbol behindSymbol_comma (by omega) ?_ (.pure ⟨k, rfl⟩)
      exact .bind ih fun _ _ inside => .pure inside

variable (fits : (around.length + 1 : Int) ≤ limit)

include fits

theorem narrows_items
    {close : String}
    (closes : close ∈ closers) :
    Narrows limit (.bracket :: around) (items expr close) (items expr' close)
      (Kept around) := by
  refine fun s => .read (.bind (narrows_itemLoop nested close _ s) ?_)
  rintro es _ ⟨k, rfl⟩
  refine .bind (narrows_close closes fits) ?_
  rintro _ _ rfl
  exact .pure rfl

theorem narrows_mapBody
    (start : Nat) :
    Narrows limit (.bracket :: around) (mapBody expr start) (mapBody expr' start)
      (Kept around) := by
  refine fun s => .read (.bind (narrows_entryLoop nested _ s) ?_)
  rintro entries _ ⟨k, rfl⟩
  refine .bind (narrows_close (by decide) fits) ?_
  rintro _ _ rfl
  exact narrows_node fun _ => rfl

/-! ### The innermost parts -/

theorem narrows_identifier
    (t : Token) :
    Narrows limit around (identifier expr t) (identifier expr' t) (Kept around) := by
  unfold identifier
  refine .ite .ofFaulty (.ifSymbol rfl (by omega) ?_ (narrows_node fun _ => rfl))
  refine .bind (narrows_items nested fits (by decide)) ?_
  rintro args _ rfl
  exact narrows_functionCall _ _ _ args

theorem narrows_bracketed
    (start : Nat) :
    Narrows limit around (bracketed expr start) (bracketed expr' start) (Kept around) := by
  refine .ifSymbol rfl (by omega) ?_ <| .ifSymbol rfl (by omega) ?_ <|
    .ifSymbol rfl (by omega) (narrows_mapBody nested fits start) .ofFaulty
  · refine .bind (nested .bracket) ?_
    rintro e _ ⟨⟨k, rfl⟩, -⟩
    refine .bind (narrows_close (by decide) fits) ?_
    rintro _ _ rfl
    exact .pure rfl
  · refine .bind (narrows_items nested fits (by decide)) ?_
    rintro es _ rfl
    exact narrows_node fun _ => rfl

theorem narrows_primary : Narrows limit around (primary expr) (primary expr') (Kept around) := by
  refine fun s => .read (.read ?_)
  cases rest : s.rest with
  | nil => exact narrows_bracketed nested fits _ s
  | cons t i =>
      dsimp only [List.head?_cons]
      have value (v : Value) (noSymbol : t.kind ≠ .operator ∧ t.kind ≠ .punctuation) :
          NarrowsFrom limit around s (valueLiteral t.span.start v) (valueLiteral t.span.start v)
            (Kept around) :=
        .takingPlain rest (framesBehind_of_kind noSymbol) fits (narrows_node fun _ => rfl)
      cases kind : t.kind with
      | int n =>
          have plain : framesBehind around t = around := framesBehind_of_kind (by simp [kind])
          exact .takingPlain rest plain fits (narrows_intLiteral t n _ false)
      | uint n =>
          have plain : framesBehind around t = around := framesBehind_of_kind (by simp [kind])
          exact .takingPlain rest plain fits (narrows_uintLiteral t n _)
      | float | string | bytes | bool | null => exact value _ (by simp [kind])
      | ident =>
          have plain : framesBehind around t = around := framesBehind_of_kind (by simp [kind])
          exact .takingPlain rest plain fits (narrows_identifier nested fits t)
      | operator | punctuation | endOfInput => exact narrows_bracketed nested fits _ s

/-! ### Fields, indices and calls -/

theorem narrows_postfixLoop
    (start fuel : Nat) (e : Expr) :
    Narrows limit around (postfixLoop expr start fuel e) (postfixLoop expr' start fuel e)
      (Kept around) := by
  induction fuel generalizing e with
  | zero => exact .pure rfl
  | succ fuel ih =>
      have dot : behindSymbol around "." = around := rfl
      refine .ifSymbol dot (by omega) (fun s => .read ?_) <| .ifSymbol rfl (by omega) ?_ <|
        .ifSymbol rfl (by omega) ?_ (.pure rfl)
      · cases rest : s.rest with
        | nil =>
            dsimp only [List.head?_nil]
            exact Narrows.ofFaulty s
        | cons name i =>
            dsimp only [List.head?_cons]
            split
            · next isName =>
                have plain : framesBehind around name = around :=
                  framesBehind_of_no_symbol (isSymbol_of_isIdent isName)
                refine .takingPlain rest plain fits (.ifSymbol rfl (by omega) ?_ ?_)
                · refine .bind (narrows_items nested fits (by decide)) ?_
                  rintro args _ rfl
                  refine .bind (narrows_methodCall start name.text e args) ?_
                  rintro called _ rfl
                  exact ih _
                · exact .marked fun _ => ih _
            · exact Narrows.ofFaulty s
      · refine .bind (nested .bracket) ?_
        rintro key _ ⟨⟨k, rfl⟩, -⟩
        refine .bind (narrows_close (by decide) fits) ?_
        rintro _ _ rfl
        exact .marked fun _ => ih _
      · refine .bind (narrows_items nested fits (by decide)) ?_
        rintro args _ rfl
        exact .marked fun _ => ih _

theorem narrows_member : Narrows limit around (member expr) (member expr') (Kept around) := by
  refine fun s => .read (.bind (narrows_primary nested fits s) ?_)
  rintro e _ rfl
  exact fun s => .read (narrows_postfixLoop nested fits _ _ e s)

/-! ### Operators and conditionals -/

theorem narrows_behindPrefixes
    (operators : List (UnaryOp × Nat)) :
    Narrows limit around (behindPrefixes expr operators) (behindPrefixes expr' operators)
      (Kept around) := by
  refine fun s => .congr (behindPrefixes_apply _ s) (behindPrefixes_apply _ s) ?_
  match operators, found : negated? s.rest with
  | (.neg, start) :: outer, some (t, k) =>
      obtain ⟨i, isInteger, rest⟩ := negated?_eq_some found
      rw [rest] at isInteger
      have plain : framesBehind around t = around :=
        framesBehind_of_no_symbol (isSymbol_of_negatable? isInteger)
      refine .takingPlain rest plain fits ?_
      refine .bind (narrows_intLiteral t k start true) ?_
      rintro e _ rfl
      exact narrows_applyPrefixes outer e
  | [], _ | (.not, _) :: _, _ | (.neg, _) :: _, none =>
      refine Narrows.bind (narrows_member nested fits) ?_ s
      rintro e _ rfl
      exact narrows_applyPrefixes _ e

theorem narrows_unary : Narrows limit around (unary expr) (unary expr') (Kept around) := by
  have parts (expr : Parser Expr) : unary expr = (do
      let operators ← takePrefixes (← remaining)
      behindPrefixes expr operators.reverse) := rfl
  rw [parts, parts]
  refine fun s => .read (.bind (narrows_takePrefixes fits _ s) ?_)
  rintro operators _ rfl
  exact narrows_behindPrefixes nested fits _

omit nested in
theorem narrows_leftAssoc
    {level : Level}
    (isLevel : level ∈ operatorLevels)
    (operand : Narrows limit around expr expr' (Kept around)) :
    Narrows limit around (leftAssoc level expr) (leftAssoc level expr') (Kept around) := by
  have loop (start fuel : Nat) (left : Expr) :
      Narrows limit around (operatorLoop level expr start fuel left)
        (operatorLoop level expr' start fuel left) (Kept around) := by
    induction fuel generalizing left with
    | zero => exact .pure rfl
    | succ fuel ih =>
        refine .andThen (narrows_takeOperator? isLevel fits)
          (fun op? => by cases op? <;> infer_instance)
          (fun op? => by cases op? <;> infer_instance) ?_
        rintro op? _ rfl
        cases op? with
        | none => exact .pure rfl
        | some op =>
            refine .bind operand ?_
            rintro right _ rfl
            exact .marked fun _ => ih _
  refine fun s => .read (.bind (operand s) ?_)
  rintro left _ rfl
  exact fun s => .read (loop _ _ left s)

theorem narrows_alternatives :
    Narrows limit around (alternatives expr) (alternatives expr') (Kept around) :=
  narrows_leftAssoc fits (by decide) <| narrows_leftAssoc fits (by decide) <|
    narrows_leftAssoc fits (by decide) <| narrows_leftAssoc fits (by decide) <|
      narrows_leftAssoc fits (by decide) <| narrows_unary nested fits

/-- One level of nesting. -/
theorem narrows_conditional :
    Narrows limit around (conditional expr) (conditional expr') (Inside limit around) := by
  refine fun s => .read (.bind (narrows_alternatives nested fits s) ?_)
  rintro cond _ rfl
  refine .ifSymbol rfl (by omega) (.bind (nested .ifTrue) ?_) (.pure ⟨⟨0, rfl⟩, fits⟩)
  rintro ifTrue _ ⟨⟨k, rfl⟩, deep⟩
  rw [List.length_cons] at deep
  refine .bind (narrows_expect behindSymbol_colon_ifTrue (by rw [List.length_cons]; omega)) ?_
  rintro _ _ ⟨-, rfl⟩
  refine .bind (nested .ifFalse) ?_
  rintro ifFalse _ ⟨⟨k, rfl⟩, -⟩
  exact narrows_node fun _ => ⟨⟨k + 1, by simp [List.replicate_succ']⟩, fits⟩

end Nested

/-! ### Whole expressions -/

/-- Where parsing is cut off, the next token is the only mistake. -/
theorem cutAt_cutOff
    {s : State} {t : Token} {i : List Token}
    (clean : s.Clean)
    (rest : s.rest = t :: i)
    (reachable : limit ≤ maximumNesting) :
    (cutOff limit s).2.CutAt limit t := by
  have run : (cutOff limit s).2 =
      { (record (.nestingExceeded limit) (nextSpan s).1 s).2 with
        rest := [], halted := true,
        nextId := (record (.nestingExceeded limit) (nextSpan s).1 s).2.nextId + 1 } := by
    simp only [cutOff, if_pos reachable]
    rfl
  rw [run, nextSpan_cons rest, record_apply]
  refine ⟨⟨rfl, rfl⟩, ?_⟩
  simp [clean.halted, clean.offsets, clean.errors]

/-- Where nothing may nest any more, the first token of an expression nests too deeply. -/
theorem narrows_cutOff
    {wider : Int} {nesting : Nat}
    (reachable : limit ≤ maximumNesting)
    (beyond : limit < (around.length + 1 : Nat)) :
    Narrows limit around (exprAt wider nesting) (cutOff limit) (Inside limit around) := by
  intro s clean
  have start := (Onward.onward (m := exprAt wider nesting) s clean).1
  have derived := sound_exprAt wider nesting s.rest s rfl clean
  obtain ⟨t, i, rest, inside⟩ := derived.beginsInside
  refine .inr ⟨t, ?_, cutAt_cutOff start rest reachable⟩
  rw [rest, firstBeyond?_of_lt (by rwa [nestingOf_of_inside inside])]

/-- Expressions under a wider limit, by induction on how deeply they may still nest. -/
theorem narrows_exprAt
    {wider : Int} {extra : Nat}
    (budgets : budget wider = budget limit + extra)
    (nesting : Nat) (around : List Frame)
    (level : around.length + nesting = budget limit) :
    Narrows limit around (exprAt wider (nesting + extra)) (exprAt limit nesting)
      (Inside limit around) := by
  have bound : budget wider ≤ maximumNesting := Nat.min_le_right _ _
  induction nesting generalizing around with
  | zero =>
      cases extra with
      | zero => exact fun s clean => absurd clean (not_clean_cutOff wider s)
      | succ extra =>
          simp only [budget, maximumNesting] at level budgets bound
          exact narrows_cutOff (by simp only [maximumNesting]; omega) (by omega)
  | succ nesting ih =>
      have fits : (around.length + 1 : Int) ≤ limit := by
        simp only [budget] at level
        omega
      rw [Nat.add_right_comm]
      exact narrows_conditional
        (fun f => ih (f :: around) (by rw [List.length_cons]; omega)) fits

/-- Where a whole input is read without a mistake, the expression takes all of it. -/
theorem exprAt_of_clean_input
    {s : State}
    (clean : (input limit s).2.Clean) :
    (exprAt limit (budget limit) s).2.Clean ∧ (exprAt limit (budget limit) s).2.rest = [] := by
  rw [input, bind_apply] at clean
  refine ⟨Proper.clean _ clean, ?_⟩
  have ends (e : Expr) (i : List Token) : Sound i (do
      trailingLoop (exprAt limit (budget limit)) (← remaining)
      return e) fun _ _ => i = [] := by
    refine .read fun s rest => ?_
    rw [rest]
    cases i with
    | nil => exact .bind (P := fun _ _ => True) (fun _ _ _ => trivial) fun _ _ _ => .pure rfl
    | cons t i =>
        refine .bind (P := fun _ _ => False) (.read fun s rest => ?_) fun _ _ h => h.elim
        rw [rest]
        exact .afterRecord
  exact ends _ _ _ rfl clean

end Parser

open ExprLang.Grammar ExprLang.Parser

/-! ### Whole source texts -/

variable {limit wider : Int} {source : List Char}

/-- A text whose parsing is cut off has that one mistake. -/
theorem parse_of_cutAt
    {t : Token}
    (lexed : (Lexer.scan source).errors = [])
    (isCut : (exprAt limit (budget limit)
      (initial source.length (Lexer.scan source).tokens [])).2.CutAt limit t) :
    parse limit source = .error [Problem.locate source (.nestingExceeded limit) t.span] := by
  have run := input_of_rest_nil isCut.cut.rest
  rw [parse]
  simp only [lexed, List.map_nil, List.nil_append, StateT.run, run]
  generalize exprAt limit (budget limit) (initial source.length (Lexer.scan source).tokens []) =
    final at isCut
  obtain ⟨root, final⟩ := final
  have errors : final.errors = [(.nestingExceeded limit, t.span)] := isCut.errors
  simp [errors, sortProblems]

/-- What is an expression under a wider limit is the same under a narrower one if no token nests more
deeply than that allows; otherwise parsing is cut off at the first token that does. -/
theorem parse_of_wider
    {extra : Nat} {e : Expr}
    (budgets : budget wider = budget limit + extra)
    (accepted : parse wider source = .ok e) :
    match firstBeyond? limit [] (Lexer.scan source).tokens with
    | none => parse limit source = .ok e
    | some t =>
        parse limit source = .error [Problem.locate source (.nestingExceeded limit) t.span] := by
  have lexed := scan_errors_of_parse accepted
  obtain ⟨clean, rfl⟩ := (parse_eq_ok_iff_clean lexed e).mp accepted
  obtain ⟨between, taken⟩ := exprAt_of_clean_input clean
  have follows := narrows_exprAt budgets (budget limit) [] (Nat.zero_add _)
    (initial source.length (Lexer.scan source).tokens [])
  rw [← budgets] at follows
  rcases follows between with ⟨same, open', -, ahead⟩ | ⟨t, beyond, isCut⟩
  · rw [taken] at ahead
    have noneBeyond : firstBeyond? limit [] (Lexer.scan source).tokens = none := ahead
    have run : input limit (initial source.length (Lexer.scan source).tokens []) =
        input wider (initial source.length (Lexer.scan source).tokens []) := by
      rw [input_of_rest_nil taken, ← same]
      exact input_of_rest_nil (by rw [same, taken])
    rw [noneBeyond]
    refine (parse_eq_ok_iff_clean lexed _).mpr ?_
    rw [run]
    exact ⟨clean, rfl⟩
  · have firstIs : firstBeyond? limit [] (Lexer.scan source).tokens = some t := beyond
    rw [firstIs]
    exact parse_of_cutAt lexed isCut

/-- A limit of nesting only cuts off.  What is an expression under it is the same expression under a
wider one.  What is one under the wider limit is the same under the narrower if no token nests more
deeply than that allows, and otherwise its only mistake is the nesting at the first token that does. -/
theorem parse_narrower
    (narrower : limit ≤ wider)
    (source : List Char) :
    (∀ e, parse limit source = .ok e → parse wider source = .ok e) ∧
    ∀ e, parse wider source = .ok e →
      match firstBeyond? limit [] (Lexer.scan source).tokens with
      | none => parse limit source = .ok e
      | some t =>
          parse limit source = .error [Problem.locate source (.nestingExceeded limit) t.span] := by
  obtain ⟨extra, budgets⟩ : ∃ extra, budget wider = budget limit + extra := by
    refine ⟨budget wider - budget limit, ?_⟩
    simp only [budget]
    omega
  refine ⟨fun e accepted => ?_, fun e accepted => parse_of_wider budgets accepted⟩
  have lexed := scan_errors_of_parse accepted
  have derived := (parse_eq_ok_iff lexed _).mp ⟨e, accepted, rfl⟩
  have deeper := derived.deeper extra
  rw [← budgets] at deeper
  obtain ⟨e', accepted', -⟩ := (parse_eq_ok_iff lexed _).mpr deeper
  -- under the narrower limit there is no mistake, so that it is the same expression
  have same := parse_of_wider budgets accepted'
  rw [accepted] at same
  split at same
  · cases same
    exact accepted'
  · cases same

/-- The item of a list in a branch of a conditional is two levels deep in the expression. -/
theorem parse_narrower_item :
    (2 : Int) ≤ 64 ∧ (∃ e, parse 64 "a ? [b] : c".toList = .ok e) ∧
      parse 2 "a ? [b] : c".toList =
        .error [Problem.locate "a ? [b] : c".toList (.nestingExceeded 2) ⟨5, 6⟩] := by
  have beyond : (firstBeyond? 2 [] (Lexer.scan "a ? [b] : c".toList).tokens).map (·.span) =
      some ⟨5, 6⟩ := by decide +kernel
  have isOk : (parse 64 "a ? [b] : c".toList).isOk = true := by decide +kernel
  obtain ⟨t, first, span⟩ := Option.map_eq_some_iff.mp beyond
  cases accepted : parse 64 "a ? [b] : c".toList with
  | error problems =>
      rw [accepted] at isOk
      cases isOk
  | ok e =>
      have cut := (parse_narrower (by decide : (2 : Int) ≤ 64) "a ? [b] : c".toList).2 e accepted
      rw [first] at cut
      exact ⟨by decide, ⟨e, rfl⟩, span ▸ cut⟩

end ExprLang
