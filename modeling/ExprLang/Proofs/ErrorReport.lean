import ExprLang.Proofs.Coverage
import ExprLang.Proofs.Recognition

/-!
# The report of the mistakes in a source text

The scanner and the parser both record at most one mistake for each offset, and the parser starts
with the offsets that the scanner has used.  So the mistakes of a text have different offsets,
whatever the parser does to go on after them, and in the order of the source the offsets grow.

* `State.Orderly`: the record of a parser has one mistake for each offset, each within the text.
* `Keeps n known m P`: runs of `m` keep the record so, and their results satisfy `P`.
* `keeps_input`: so does the parser of whole inputs.
* `parse_report`: a text has a tree or a report of its mistakes, in the order of the source.
-/

namespace ExprLang

/-- Whether a range lies within a text of length `n`. -/
structure Text.Span.Within (n : Nat) (span : Text.Span) : Prop where
  le : span.start ≤ span.stop
  ends : span.stop ≤ n

theorem Text.Span.Within.start_le
    {n : Nat} {span : Text.Span}
    (h : span.Within n) :
    span.start ≤ n :=
  h.le.trans h.ends

theorem Expr.span_bindLocals
    (names : List String)
    (e : Expr) :
    (e.bindLocals names).span = e.span := by
  cases e with
  | ident _ name => by_cases h : name ∈ names <;> simp [bindLocals, h, span, mark]
  | _ => rfl

namespace Parser

variable {α β : Type} {n : Nat} {known : List Nat}

/-- A state whose tokens and mistakes lie within a text of length `n`, with one mistake for each
offset: those that are recorded, and those that were known before. -/
structure State.Orderly (n : Nat) (known : List Nat) (s : State) : Prop where
  sourceLength : s.sourceLength = n
  rest : ∀ t ∈ s.rest, t.span.Within n
  lastEnd : s.lastEnd ≤ n
  errors : ∀ e ∈ s.errors, e.2.Within n
  offsets : s.offsets = s.errors.map (·.2.start) ++ known
  nodup : s.offsets.Nodup

/-- Runs from orderly states end in such states, with results of some kind. -/
def Keeps (n : Nat) (known : List Nat) (m : Parser α) (P : α → Prop) : Prop :=
  ∀ s : State, s.Orderly n known → P (m s).1 ∧ (m s).2.Orderly n known

/-! ### Composition -/

section Composition

variable {m m' : Parser α} {f : α → Parser β} {P : α → Prop} {R : β → Prop}

theorem Keeps.pure
    {a : α}
    (h : P a) :
    Keeps n known (pure a) P :=
  fun _ orderly => ⟨h, orderly⟩

theorem Keeps.bind
    (hm : Keeps n known m P)
    (hf : ∀ a, P a → Keeps n known (f a) R) :
    Keeps n known (m >>= f) R := by
  intro s orderly
  obtain ⟨result, after⟩ := hm s orderly
  exact hf _ result _ after

theorem Keeps.ite
    {c : Prop} [Decidable c]
    (h : c → Keeps n known m P)
    (h' : ¬ c → Keeps n known m' P) :
    Keeps n known (if c then m else m') P := by
  by_cases hc : c
  · rw [if_pos hc]
    exact h hc
  · rw [if_neg hc]
    exact h' hc

/-- Going on by something read off the state. -/
theorem Keeps.read
    {g : State → α}
    (h : ∀ s : State, s.Orderly n known → P (g s)) :
    Keeps n known (do return g (← get)) P :=
  fun s orderly => ⟨h s orderly, orderly⟩

theorem Keeps.get
    {f : State → Parser α}
    (h : ∀ s : State, s.Orderly n known → Keeps n known (f s) P) :
    Keeps n known (get >>= f) P :=
  fun s orderly => h s orderly s orderly

end Composition

/-! ### Tokens and mistakes -/

theorem keeps_peek : Keeps n known peek fun t? => ∀ t ∈ t?, t.span.Within n :=
  .read fun _ orderly t isNext => orderly.rest t (List.mem_of_mem_head? isNext)

theorem keeps_found : Keeps n known found fun _ => True :=
  .read fun _ _ => trivial

theorem keeps_remaining : Keeps n known remaining fun _ => True :=
  .read fun _ _ => trivial

theorem keeps_atEnd : Keeps n known atEnd fun _ => True :=
  .read fun _ _ => trivial

theorem keeps_atSymbol
    (text : String) :
    Keeps n known (atSymbol text) fun _ => True := by
  intro s orderly
  rw [atSymbol_apply]
  exact ⟨trivial, orderly⟩

theorem keeps_nextSpan : Keeps n known nextSpan (·.Within n) := by
  intro s orderly
  obtain ⟨rest, _, _, _, _, _, _⟩ := s
  cases rest with
  | nil => exact ⟨⟨Nat.le_refl _, orderly.sourceLength.le⟩, orderly⟩
  | cons t rest => exact ⟨orderly.rest t List.mem_cons_self, orderly⟩

theorem keeps_advance : Keeps n known advance fun _ => True := by
  intro s orderly
  cases rest : s.rest with
  | nil =>
      obtain ⟨_, _, _, _, _, _, _⟩ := s
      cases rest
      exact ⟨trivial, orderly⟩
  | cons t after =>
      rw [advance_cons rest]
      have within := orderly.rest
      rw [rest] at within
      obtain ⟨here, later⟩ := List.forall_mem_cons.mp within
      exact ⟨trivial, orderly.sourceLength, later, here.ends, orderly.errors, orderly.offsets,
        orderly.nodup⟩

theorem keeps_takeSymbol
    (text : String) :
    Keeps n known (takeSymbol text) fun _ => True :=
  .bind (keeps_atSymbol text) fun _ _ =>
    .ite (fun _ => .bind keeps_advance fun _ _ => .pure trivial) fun _ => .pure trivial

/-- A choice by whether a symbol comes next. -/
theorem Keeps.ifSymbol
    {text : String} {m m' : Parser α} {P : α → Prop}
    (h : Keeps n known m P)
    (h' : Keeps n known m' P) :
    Keeps n known (do if ← takeSymbol text then m else m') P :=
  .bind (keeps_takeSymbol text) fun _ _ => .ite (fun _ => h) fun _ => h'

/-- A mistake is recorded where there was none. -/
theorem keeps_record
    (cause : SyntaxError) {span : Text.Span}
    (within : span.Within n) :
    Keeps n known (record cause span) fun _ => True := by
  intro s orderly
  refine ⟨trivial, ?_⟩
  change State.Orderly n known (if s.halted || s.offsets.contains span.start then s
    else { s with errors := (cause, span) :: s.errors, offsets := span.start :: s.offsets })
  split
  · exact orderly
  · next isNew =>
      have new : span.start ∉ s.offsets := by
        rw [← List.contains_iff_mem]
        simp_all
      refine ⟨orderly.sourceLength, orderly.rest, orderly.lastEnd, ?_, ?_, ?_⟩
      · exact List.forall_mem_cons.mpr ⟨within, orderly.errors⟩
      · exact congrArg (span.start :: ·) orderly.offsets
      · exact List.nodup_cons.mpr ⟨new, orderly.nodup⟩

theorem keeps_expect
    (text : String) :
    Keeps n known (expect text) fun _ => True :=
  .ifSymbol (.pure trivial) <| .bind keeps_found fun _ _ => .bind keeps_nextSpan fun _ within =>
    .bind (keeps_record _ within) fun _ _ => .pure trivial

/-! ### Nodes -/

/-- Whether a node lies within a text of length `n`. -/
abbrev Located (n : Nat) (e : Expr) : Prop :=
  e.span.Within n

theorem keeps_newMark
    {start : Nat}
    (starts : start ≤ n) :
    Keeps n known (newMark start) (·.span.Within n) := by
  intro s orderly
  refine ⟨⟨Nat.le_max_left _ _, Nat.max_le.mpr ⟨starts, orderly.lastEnd⟩⟩, ?_⟩
  exact ⟨orderly.sourceLength, orderly.rest, orderly.lastEnd, orderly.errors, orderly.offsets,
    orderly.nodup⟩

/-- A new node lies within the text. -/
theorem keeps_node
    {start : Nat} {node : Mark → Expr}
    (starts : start ≤ n)
    (isMark : ∀ m, (node m).mark = m) :
    Keeps n known (do return node (← newMark start)) (Located n) := by
  refine .bind (keeps_newMark starts) fun m within => .pure ?_
  rw [Located, Expr.span, isMark]
  exact within

theorem keeps_placeholder
    {start : Nat}
    (starts : start ≤ n) :
    Keeps n known (placeholder start) (Located n) :=
  keeps_node starts fun _ => rfl

/-! ### Operators -/

theorem keeps_takeOperator?
    (level : Level) :
    Keeps n known (takeOperator? level) fun _ => True := by
  refine .get fun _ _ => ?_
  split
  · exact .pure trivial
  · split
    · exact .bind keeps_advance fun _ _ => .pure trivial
    · exact .pure trivial

section Operators

variable {level : Level} {operand : Parser Expr}

theorem keeps_operatorLoop
    (h : Keeps n known operand (Located n))
    {start : Nat}
    (starts : start ≤ n)
    (fuel : Nat)
    {left : Expr}
    (located : Located n left) :
    Keeps n known (operatorLoop level operand start fuel left) (Located n) := by
  induction fuel generalizing left with
  | zero => exact .pure located
  | succ fuel ih =>
      refine .bind (keeps_takeOperator? level) fun op? _ => ?_
      cases op? with
      | none => exact .pure located
      | some op =>
          exact .bind h fun right _ => .bind (keeps_newMark starts) fun m within => ih within

theorem keeps_leftAssoc
    (h : Keeps n known operand (Located n)) :
    Keeps n known (leftAssoc level operand) (Located n) :=
  .bind keeps_nextSpan fun _ within => .bind h fun _ located => .bind keeps_remaining fun _ _ =>
    keeps_operatorLoop h within.start_le _ located

end Operators

theorem keeps_takePrefixes
    (fuel : Nat) :
    Keeps n known (takePrefixes fuel) fun ops => ∀ op ∈ ops, op.2 ≤ n := by
  induction fuel with
  | zero => exact .pure nofun
  | succ fuel ih =>
      refine .get fun s orderly => ?_
      split
      · exact .pure nofun
      · next t rest isRest =>
          have within := orderly.rest t (isRest ▸ List.mem_cons_self)
          split
          · exact .pure nofun
          · exact .bind keeps_advance fun _ _ => .bind ih fun _ others =>
              .pure (List.forall_mem_cons.mpr ⟨within.start_le, others⟩)

theorem keeps_applyPrefixes
    {ops : List (UnaryOp × Nat)} {e : Expr}
    (starts : ∀ op ∈ ops, op.2 ≤ n)
    (located : Located n e) :
    Keeps n known (applyPrefixes ops e) (Located n) := by
  induction ops generalizing e with
  | nil => exact .pure located
  | cons op ops ih =>
      obtain ⟨here, later⟩ := List.forall_mem_cons.mp starts
      exact .bind (keeps_newMark here) fun m within => ih later within

theorem keeps_negatedInt? :
    Keeps n known negatedInt? fun found => ∀ t k, found = some (t, k) → t.span.Within n := by
  rw [negatedInt?_eq]
  refine .read fun s orderly t k found => ?_
  obtain ⟨after, -, rest⟩ := negated?_eq_some found
  exact orderly.rest t (rest ▸ List.mem_cons_self)

/-! ### Literals, calls and comprehensions -/

theorem keeps_intLiteral
    {t : Token} {start : Nat}
    (within : t.span.Within n)
    (starts : start ≤ n)
    (k : Nat)
    (negative : Bool) :
    Keeps n known (intLiteral t k start negative) (Located n) :=
  .ite (fun _ => keeps_node starts fun _ => rfl) fun _ =>
    .bind (keeps_record _ within) fun _ _ => keeps_node starts fun _ => rfl

theorem keeps_uintLiteral
    {t : Token} {start : Nat}
    (within : t.span.Within n)
    (starts : start ≤ n)
    (k : Nat) :
    Keeps n known (uintLiteral t k start) (Located n) :=
  .ite (fun _ => keeps_node starts fun _ => rfl) fun _ =>
    .bind (keeps_record _ within) fun _ _ => keeps_node starts fun _ => rfl

theorem keeps_valueLiteral
    {start : Nat}
    (starts : start ≤ n)
    (v : Value) :
    Keeps n known (valueLiteral start v) (Located n) :=
  .bind keeps_advance fun _ _ => keeps_node starts fun _ => rfl

theorem keeps_variableNames
    (macroName : String) (names : List String)
    {binders : List Expr}
    (located : ∀ e ∈ binders, Located n e) :
    Keeps n known (variableNames macroName names binders) fun _ => True := by
  induction binders generalizing names with
  | nil => exact .pure trivial
  | cons e rest ih =>
      obtain ⟨here, later⟩ := List.forall_mem_cons.mp located
      unfold variableNames
      split
      · exact .bind (keeps_record _ here) fun _ _ => ih names later
      · exact .ite (fun _ => .bind (keeps_record _ here) fun _ _ => ih names later) fun _ =>
          ih _ later

theorem keeps_comprehension
    {start : Nat}
    (starts : start ≤ n)
    (macroName : String) (kind : Comprehension) (target : Expr)
    {binders : List Expr}
    (located : ∀ e ∈ binders, Located n e)
    (guard : Option Expr) (body : Expr) :
    Keeps n known (comprehension start macroName kind target binders guard body) (Located n) :=
  .bind (keeps_variableNames macroName [] located) fun _ _ => keeps_node starts fun _ => rfl

theorem keeps_methodCall
    {start : Nat}
    (starts : start ≤ n)
    (name : String) (target : Expr)
    {args : List Expr}
    (located : ∀ e ∈ args, Located n e) :
    Keeps n known (methodCall start name target args) (Located n) := by
  unfold methodCall
  split
  · exact keeps_comprehension starts _ _ _ (by simp_all) _ _
  · refine .ite (fun _ => keeps_comprehension starts _ _ _ (by simp_all) _ _) fun _ => ?_
    exact .ite
      (fun _ => .bind (keeps_record _ (located _ (by simp))) fun _ _ =>
        keeps_comprehension starts _ _ _ (by simp_all) _ _)
      fun _ => keeps_comprehension starts _ _ _ (by simp_all) _ _
  · exact keeps_node starts fun _ => rfl

theorem keeps_functionCall
    {start : Nat} {nameSpan : Text.Span}
    (starts : start ≤ n)
    (name : String)
    (within : nameSpan.Within n)
    (args : List Expr) :
    Keeps n known (functionCall start name nameSpan args) (Located n) := by
  have invalid : Keeps n known (record .invalidPresenceTest nameSpan >>= fun _ => placeholder start)
      (Located n) :=
    .bind (keeps_record _ within) fun _ _ => keeps_placeholder starts
  refine .ite (fun _ => ?_) fun _ => keeps_node starts fun _ => rfl
  unfold presenceTest
  split
  · exact .ite (fun _ => keeps_node starts fun _ => rfl) fun _ => invalid
  · exact invalid

/-! ### Items and entries -/

section Nested

variable {expr : Parser Expr} (h : Keeps n known expr (Located n))

include h

theorem keeps_itemLoop
    (close : String) (fuel : Nat) :
    Keeps n known (itemLoop expr close fuel) fun es => ∀ e ∈ es, Located n e := by
  induction fuel with
  | zero => exact .pure nofun
  | succ fuel ih =>
      refine .bind (keeps_atSymbol close) fun _ _ => .bind keeps_atEnd fun _ _ =>
        .ite (fun _ => .pure nofun) fun _ => .bind h fun e here => .ifSymbol ?_ ?_
      · exact .bind ih fun es others => .pure (List.forall_mem_cons.mpr ⟨here, others⟩)
      · exact .pure (List.forall_mem_cons.mpr ⟨here, nofun⟩)

theorem keeps_items
    (close : String) :
    Keeps n known (items expr close) fun es => ∀ e ∈ es, Located n e :=
  .bind keeps_remaining fun _ _ => .bind (keeps_itemLoop h close _) fun _ all =>
    .bind (keeps_expect close) fun _ _ => .pure all

theorem keeps_entryLoop
    (fuel : Nat) :
    Keeps n known (entryLoop expr fuel) fun _ => True := by
  induction fuel with
  | zero => exact .pure trivial
  | succ fuel ih =>
      refine .bind (keeps_atSymbol _) fun _ _ => .bind keeps_atEnd fun _ _ =>
        .ite (fun _ => .pure trivial) fun _ => .bind h fun _ _ => .bind (keeps_expect ":") fun _ _ =>
          .ite (fun _ => .bind h fun _ _ => .ifSymbol ?_ (.pure trivial)) fun _ => .pure trivial
      exact .bind ih fun _ _ => .pure trivial

theorem keeps_mapBody
    {start : Nat}
    (starts : start ≤ n) :
    Keeps n known (mapBody expr start) (Located n) :=
  .bind keeps_remaining fun _ _ => .bind (keeps_entryLoop h _) fun _ _ =>
    .bind (keeps_expect _) fun _ _ => keeps_node starts fun _ => rfl

/-! ### The levels of the grammar -/

theorem keeps_identifier
    {t : Token}
    (within : t.span.Within n) :
    Keeps n known (identifier expr t) (Located n) := by
  have reference : Keeps n known (do
      if ← takeSymbol "(" then
        let args ← items expr ")"
        functionCall t.span.start t.text t.span args
      else
        return .ident (← newMark t.span.start) t.text) (Located n) := by
    refine .ifSymbol ?_ (keeps_node within.start_le fun _ => rfl)
    exact .bind (keeps_items h ")") fun args _ => keeps_functionCall within.start_le _ within args
  exact .ite (fun _ => .bind (keeps_record _ within) fun _ _ => reference) fun _ => reference

theorem keeps_bracketed
    {start : Nat}
    (starts : start ≤ n) :
    Keeps n known (bracketed expr start) (Located n) := by
  refine .ifSymbol ?_ (.ifSymbol ?_ (.ifSymbol (keeps_mapBody h starts) ?_))
  · exact .bind h fun e located => .bind (keeps_expect ")") fun _ _ => .pure located
  · exact .bind (keeps_items h "]") fun _ _ => keeps_node starts fun _ => rfl
  · exact .bind keeps_found fun _ _ => .bind keeps_nextSpan fun _ within =>
      .bind (keeps_record _ within) fun _ _ => keeps_placeholder starts

theorem keeps_primary : Keeps n known (primary expr) (Located n) := by
  refine .bind keeps_nextSpan fun here within => .bind keeps_peek fun t? isNext => ?_
  have starts := within.start_le
  cases t? with
  | none => exact keeps_bracketed h starts
  | some t =>
      have inText := isNext t rfl
      dsimp only
      split
      · exact .bind keeps_advance fun _ _ => keeps_intLiteral inText starts _ false
      · exact .bind keeps_advance fun _ _ => keeps_uintLiteral inText starts _
      · exact keeps_valueLiteral starts _
      · exact keeps_valueLiteral starts _
      · exact keeps_valueLiteral starts _
      · exact keeps_valueLiteral starts _
      · exact keeps_valueLiteral starts _
      · exact .bind keeps_advance fun _ _ => keeps_identifier h inText
      · exact keeps_bracketed h starts

theorem keeps_postfixLoop
    {start : Nat}
    (starts : start ≤ n)
    (fuel : Nat)
    {e : Expr}
    (located : Located n e) :
    Keeps n known (postfixLoop expr start fuel e) (Located n) := by
  induction fuel generalizing e with
  | zero => exact .pure located
  | succ fuel ih =>
      refine .ifSymbol ?_ (.ifSymbol ?_ (.ifSymbol ?_ (.pure located)))
      · refine .bind keeps_peek fun t? isNext => ?_
        cases t? with
        | none =>
            exact .bind keeps_nextSpan fun _ within => .bind (keeps_record _ within) fun _ _ =>
              .pure located
        | some name =>
            refine .ite (fun _ => .bind keeps_advance fun _ _ => .ifSymbol ?_ ?_) fun _ => ?_
            · exact .bind (keeps_items h ")") fun args all =>
                .bind (keeps_methodCall starts _ e all) fun called whole => ih whole
            · exact .bind (keeps_newMark starts) fun m within => ih within
            · exact .bind (keeps_record _ (isNext name rfl)) fun _ _ => .pure located
      · exact .bind h fun _ _ => .bind (keeps_expect "]") fun _ _ =>
          .bind (keeps_newMark starts) fun m within => ih within
      · exact .bind (keeps_items h ")") fun _ _ =>
          .bind (keeps_newMark starts) fun m within => ih within

theorem keeps_member : Keeps n known (member expr) (Located n) :=
  .bind keeps_nextSpan fun _ within => .bind (keeps_primary h) fun _ located =>
    .bind keeps_remaining fun _ _ => keeps_postfixLoop h within.start_le _ located

theorem keeps_unary : Keeps n known (unary expr) (Located n) := by
  refine .bind keeps_remaining fun _ _ => .bind (keeps_takePrefixes _) fun ops starts => ?_
  have reversed : ∀ op ∈ ops.reverse, op.2 ≤ n :=
    fun op member => starts op (List.mem_reverse.mp member)
  dsimp only
  refine .bind keeps_negatedInt? fun found isNext => ?_
  split
  · next start outer t k isOps =>
      rw [isOps] at reversed
      obtain ⟨here, later⟩ := List.forall_mem_cons.mp reversed
      exact .bind keeps_advance fun _ _ =>
        .bind (keeps_intLiteral (isNext t k rfl) here k true) fun e located =>
          keeps_applyPrefixes later located
  · exact .bind (keeps_member h) fun e located => keeps_applyPrefixes reversed located

theorem keeps_conditional : Keeps n known (conditional expr) (Located n) := by
  have alternatives : Keeps n known (alternatives expr) (Located n) :=
    keeps_leftAssoc <| keeps_leftAssoc <| keeps_leftAssoc <| keeps_leftAssoc <| keeps_leftAssoc <|
      keeps_unary h
  refine .bind keeps_nextSpan fun _ within => .bind alternatives fun _ located =>
    .ifSymbol ?_ (.pure located)
  exact .bind h fun _ _ => .bind (keeps_expect ":") fun _ _ => .bind h fun _ _ =>
    keeps_node within.start_le fun _ => rfl

theorem keeps_trailingLoop
    (fuel : Nat) :
    Keeps n known (trailingLoop expr fuel) fun _ => True := by
  induction fuel with
  | zero => exact .pure trivial
  | succ fuel ih =>
      refine .bind keeps_peek fun t? isNext => ?_
      cases t? with
      | none => exact .pure trivial
      | some t =>
          refine .bind (keeps_record _ (isNext t rfl)) fun _ _ => .bind keeps_remaining fun _ _ =>
            .bind h fun _ _ => .bind keeps_remaining fun _ _ => .ite (fun _ => ?_) fun _ => ?_
          · exact .bind keeps_advance fun _ _ => ih
          · exact ih

end Nested

/-- Parsing that is cut off reports where, or that the whole text nests too deeply. -/
theorem keeps_cutOff
    (limit : Int) :
    Keeps n known (cutOff limit) (Located n) := by
  have dropAll : Keeps n known
      (modify fun s => { s with rest := [], halted := true } : Parser Unit) fun _ => True :=
    fun s orderly => ⟨trivial, orderly.sourceLength, nofun, orderly.lastEnd, orderly.errors,
      orderly.offsets, orderly.nodup⟩
  refine .bind keeps_nextSpan fun here within => .ite (fun _ => ?_) fun _ => ?_
  · exact .bind (keeps_record _ within) fun _ _ => .bind dropAll fun _ _ =>
      keeps_placeholder within.start_le
  · refine .get fun s orderly => ?_
    exact .bind (keeps_record _ ⟨Nat.zero_le _, orderly.sourceLength.le⟩) fun _ _ =>
      .bind dropAll fun _ _ => keeps_placeholder within.start_le

/-- Expressions keep the record orderly, by induction on how deeply they may nest. -/
theorem keeps_exprAt
    (limit : Int) (budget : Nat) :
    Keeps n known (exprAt limit budget) (Located n) := by
  induction budget with
  | zero => exact keeps_cutOff limit
  | succ budget ih => exact keeps_conditional ih

theorem keeps_input
    (limit : Int) :
    Keeps n known (input limit) (Located n) :=
  .bind (keeps_exprAt limit _) fun _ located => .bind keeps_remaining fun _ _ =>
    .bind (keeps_trailingLoop (keeps_exprAt limit _) _) fun _ _ => .pure located

end Parser

/-! ### Whole source texts -/

namespace Parser

/-- The run of the parser on the tokens of a text. -/
def run (limit : Int) (source : List Char) : Expr × State :=
  input limit (initial source.length (Lexer.scan source).tokens
    ((Lexer.scan source).errors.map (·.2.start)))

/-- The mistakes of the scanner and those that the parser added. -/
def mistakes (limit : Int) (source : List Char) : List (SyntaxError × Text.Span) :=
  (Lexer.scan source).errors ++ (run limit source).2.errors.reverse

section Source

variable (limit : Int) (source : List Char)

/-- The parser starts with the offsets that the scanner has used. -/
theorem orderly_initial :
    (initial source.length (Lexer.scan source).tokens
      ((Lexer.scan source).errors.map (·.2.start))).Orderly source.length
        ((Lexer.scan source).errors.map (·.2.start)) where
  sourceLength := rfl
  rest t member := by
    obtain ⟨parts, all⟩ := Lexer.exists_partition 0 source [] rfl rfl
    obtain ⟨-, proper, ends⟩ := all.tokens_within t member
    exact ⟨proper.le, ends⟩
  lastEnd := Nat.zero_le _
  errors := nofun
  offsets := rfl
  nodup := (Lexer.errors_scanFrom 0 source).2

theorem orderly_run :
    (run limit source).2.Orderly source.length
      ((Lexer.scan source).errors.map (·.2.start)) :=
  (keeps_input limit _ (orderly_initial source)).2

theorem mistakes_within :
    ∀ e ∈ mistakes limit source, e.2.Within source.length := by
  intro e member
  rcases List.mem_append.mp member with lexical | grammatical
  · obtain ⟨-, proper, ends⟩ := (Lexer.errors_scanFrom 0 source).1 e lexical
    exact ⟨proper.le, by simpa using ends⟩
  · exact (orderly_run limit source).errors e (List.mem_reverse.mp grammatical)

/-- No two mistakes start at the same offset. -/
theorem nodup_mistakes :
    ((mistakes limit source).map (·.2.start)).Nodup := by
  have orderly := orderly_run limit source
  have nodup := orderly.nodup
  rw [orderly.offsets] at nodup
  rw [mistakes, List.map_append, List.map_reverse, List.perm_append_comm.nodup_iff]
  exact ((List.reverse_perm _).append_right _).nodup_iff.mpr nodup

theorem parse_eq :
    parse limit source =
      if (mistakes limit source).isEmpty then .ok (run limit source).1
      else .error (sortProblems ((mistakes limit source).map fun e =>
        Problem.locate source e.1 e.2)) :=
  rfl

/-- A run that records nothing misses no mistake: it ends clean. -/
theorem clean_run
    (nothing : mistakes limit source = []) :
    (run limit source).2.Clean := by
  obtain ⟨lexed, none⟩ := List.append_eq_nil_iff.mp nothing
  have start : (initial source.length (Lexer.scan source).tokens
      ((Lexer.scan source).errors.map (·.2.start))).Clean := by
    rw [lexed]
    exact ⟨rfl, rfl, rfl⟩
  rcases (proper_input : Proper (input limit)).settled _ (.inl start) with clean | faulty
  · exact clean
  · exact absurd (List.reverse_eq_nil_iff.mp none) faulty

end Source

/-- Problems at different offsets are sorted so that the offsets grow. -/
theorem pairwise_sortProblems
    {problems : List Problem}
    (distinct : (problems.map (·.span.start)).Nodup) :
    (sortProblems problems).Pairwise fun p q => p.span.start < q.span.start := by
  have sorted : (sortProblems problems).Pairwise fun p q =>
      decide (p.span.start ≤ q.span.start) = true := by
    refine List.pairwise_mergeSort (fun p q r => ?_) (fun p q => ?_) problems
    · simpa using Nat.le_trans
    · simpa using Nat.le_total _ _
  have apart : (sortProblems problems).Pairwise fun p q => p.span.start ≠ q.span.start :=
    List.pairwise_map.mp (((List.mergeSort_perm problems _).map _).nodup_iff.mpr distinct)
  exact (sorted.and apart).imp fun h => Nat.lt_of_le_of_ne (of_decide_eq_true h.1) h.2

end Parser

/-- A source text has a tree, and then neither the scanner nor the parser met a mistake; or it has a
report, which is not empty and names all mistakes of the scanner.  The report is in the order of the
source, with one problem for each offset, and each problem is located within the text. -/
theorem parse_report
    (limit : Int)
    (source : List Char) :
    match parse limit source with
    | .ok _ => (tokenize source).2 = [] ∧ (Parser.run limit source).2.Clean
    | .error problems => problems ≠ [] ∧ (∀ p ∈ (tokenize source).2, p ∈ problems) ∧
        problems.Pairwise (fun p q => p.span.start < q.span.start) ∧
        ∀ p ∈ problems, p.span.start ≤ p.span.stop ∧ p.span.stop ≤ source.length ∧
          (p.line, p.col) = Text.lineCol source p.span.start := by
  rw [Parser.parse_eq]
  by_cases nothing : (Parser.mistakes limit source).isEmpty = true
  · rw [if_pos nothing]
    have none := List.isEmpty_iff.mp nothing
    have lexed := (List.append_eq_nil_iff.mp none).1
    exact ⟨by rw [tokenize, lexed]; rfl, Parser.clean_run limit source none⟩
  · rw [if_neg nothing]
    have isSorted := List.mergeSort_perm
      ((Parser.mistakes limit source).map fun e => Problem.locate source e.1 e.2)
      fun p q => p.span.start ≤ q.span.start
    refine ⟨?_, ?_, ?_, ?_⟩
    · intro empty
      rw [Parser.sortProblems] at empty
      rw [empty] at isSorted
      exact nothing (by simpa using isSorted.symm.eq_nil)
    · intro p member
      obtain ⟨e, isError, rfl⟩ := List.mem_map.mp member
      exact isSorted.mem_iff.mpr (List.mem_map_of_mem (List.mem_append_left _ isError))
    · refine Parser.pairwise_sortProblems ?_
      rw [List.map_map]
      exact Parser.nodup_mistakes limit source
    · intro p member
      obtain ⟨e, isMistake, rfl⟩ := List.mem_map.mp (isSorted.mem_iff.mp member)
      have within := Parser.mistakes_within limit source e isMistake
      exact ⟨within.le, within.ends, rfl⟩

end ExprLang
