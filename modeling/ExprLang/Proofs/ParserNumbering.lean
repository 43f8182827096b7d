import ExprLang.Proofs.Numbering
import ExprLang.Proofs.Recognition

/-!
# The parser numbers nodes

Every clean run of a level of the parser numbers the nodes of the tree that it builds from the
number that was free before to the number that is free afterwards.

* `Counts n m P`: what holds after a clean run of `m` where `n` is the number that is free.
* `counts_exprAt`: the trees that `exprAt` builds are numbered.
* `numbered_of_parse`: a tree that is parsed is numbered from one on.
-/

namespace ExprLang
namespace Parser

open ExprLang.Expr (Chained Numbered chained_single numbered_of_children)

variable {α β : Type} {n : Nat}

/-- What holds of the result and of the number that is free after a run that ends clean. -/
def Counts (n : Nat) (m : Parser α) (P : α → Nat → Prop) : Prop :=
  ∀ s, s.nextId = n → (m s).2.Clean → P (m s).1 (m s).2.nextId

/-- A parser that takes no number. -/
class Quiet (m : Parser α) : Prop where
  nextId : ∀ s, (m s).2.nextId = s.nextId

/-! ### Composition -/

section Composition

variable {m m' : Parser α} {f : α → Parser β} {P Q : α → Nat → Prop} {R : β → Nat → Prop}

theorem Counts.pure
    {a : α}
    (h : P a n) :
    Counts n (pure a) P := by
  rintro s rfl -
  exact h

theorem Counts.bind
    [proper : ∀ a, Proper (f a)]
    (hm : Counts n m P)
    (hf : ∀ a k, P a k → Counts k (f a) R) :
    Counts n (m >>= f) R := by
  intro s hs clean
  have before : (m s).2.Clean := (proper _).clean _ clean
  exact hf _ _ (hm s hs before) _ rfl clean

/-- A step that takes no number. -/
theorem Counts.skip
    [quiet : Quiet m]
    (hf : ∀ a, Counts n (f a) R) :
    Counts n (m >>= f) R :=
  fun s hs clean => hf (m s).1 (m s).2 ((quiet.nextId s).trans hs) clean

theorem Counts.ite
    {c : Prop} [Decidable c]
    (h : c → Counts n m P)
    (h' : ¬ c → Counts n m' P) :
    Counts n (if c then m else m') P := by
  by_cases hc : c
  · rw [if_pos hc]
    exact h hc
  · rw [if_neg hc]
    exact h' hc

/-- A choice by whether a symbol comes next. -/
theorem Counts.ifSymbol
    {text : String}
    (h : Counts n m P)
    (h' : Counts n m' P)
    [quiet : Quiet (takeSymbol text)] :
    Counts n (do if ← takeSymbol text then m else m') P :=
  .skip fun _ => .ite (fun _ => h) fun _ => h'

theorem Counts.mono
    (hm : Counts n m P)
    (h : ∀ a k, P a k → Q a k) :
    Counts n m Q :=
  fun s hs clean => h _ _ (hm s hs clean)

/-- Nothing is to be said about a run after a mistake. -/
theorem Counts.afterRecord
    {cause : SyntaxError} {span : Text.Span} {next : Unit → Parser β}
    [proper : ∀ a, Proper (next a)] :
    Counts n (record cause span >>= next) R :=
  fun s _ clean => absurd ((proper _).clean _ clean) (not_clean_record cause span s)

instance Quiet.pure
    (a : α) :
    Quiet (pure a : Parser α) :=
  ⟨fun _ => rfl⟩

instance Quiet.get :
    Quiet (get : Parser State) :=
  ⟨fun _ => rfl⟩

instance Quiet.bind
    [hm : Quiet m]
    [hf : ∀ a, Quiet (f a)] :
    Quiet (m >>= f) :=
  ⟨fun s => ((hf _).nextId _).trans (hm.nextId s)⟩

instance Quiet.ite
    {c : Prop} [Decidable c]
    [h : Quiet m]
    [h' : Quiet m'] :
    Quiet (if c then m else m') := by
  split
  · exact h
  · exact h'

end Composition

/-! ### Tokens and nodes -/

instance quiet_advance : Quiet advance where
  nextId s := by
    change (match s.rest with
      | t :: rest => { s with rest := rest, lastEnd := t.span.stop }
      | [] => s : State).nextId = s.nextId
    split <;> rfl

instance quiet_record
    (cause : SyntaxError) (span : Text.Span) :
    Quiet (record cause span) where
  nextId s := by
    change (if s.halted || s.offsets.contains span.start then s
      else { s with errors := (cause, span) :: s.errors,
                    offsets := span.start :: s.offsets } : State).nextId = s.nextId
    split <;> rfl

instance quiet_atSymbol
    (text : String) :
    Quiet (atSymbol text) :=
  .bind

instance quiet_takeSymbol
    (text : String) :
    Quiet (takeSymbol text) :=
  .bind

instance quiet_nextSpan : Quiet nextSpan :=
  .bind

instance quiet_peek : Quiet peek :=
  .bind

instance quiet_found : Quiet found :=
  .bind

instance quiet_remaining : Quiet remaining :=
  .bind

instance quiet_atEnd : Quiet atEnd :=
  .bind

instance quiet_expect
    (text : String) :
    Quiet (expect text) :=
  .bind

/-- A symbol is there, or its absence is a mistake. -/
theorem counts_expect
    (text : String) :
    Counts n (expect text) fun b k => b = true ∧ k = n := by
  refine .ifSymbol (.pure ⟨rfl, rfl⟩) ?_
  exact .skip fun _ => .skip fun _ => .afterRecord

theorem counts_newMark
    (start : Nat) :
    Counts n (newMark start) fun m k => m.id = n ∧ k = n + 1 := by
  rintro s rfl -
  exact ⟨rfl, rfl⟩

/-- A new node takes the next number. -/
theorem counts_node
    {start : Nat} {node : Mark → Expr} {P : Expr → Nat → Prop}
    (h : ∀ m, m.id = n → P (node m) (n + 1)) :
    Counts n (do return node (← newMark start)) P := by
  refine .bind (counts_newMark start) ?_
  rintro m _ ⟨isNext, rfl⟩
  exact .pure (h m isNext)

/-! ### Operators -/

instance quiet_takeOperator?
    (level : Level) :
    Quiet (takeOperator? level) := by
  refine @Quiet.bind _ _ _ _ inferInstance fun s => ?_
  split
  · infer_instance
  · split <;> infer_instance

section Operators

variable {level : Level} {operand : Parser Expr} {start : Nat}

theorem counts_operatorLoop
    [Proper operand]
    (h : ∀ n, Counts n operand (Numbered n))
    (fuel : Nat) (left : Expr) {k : Nat}
    (before : Numbered n left k) :
    Counts k (operatorLoop level operand start fuel left) (Numbered n) := by
  induction fuel generalizing left k with
  | zero => exact .pure before
  | succ fuel ih =>
      refine .skip fun op? => ?_
      cases op? with
      | none => exact .pure before
      | some op =>
          refine .bind (h k) fun right j after => .bind (counts_newMark start) ?_
          rintro m _ ⟨isNext, rfl⟩
          exact ih _ (numbered_of_children rfl rfl (.cons before (chained_single after)) isNext)

theorem counts_leftAssoc
    [Proper operand]
    (h : ∀ n, Counts n operand (Numbered n))
    (n : Nat) :
    Counts n (leftAssoc level operand) (Numbered n) :=
  .skip fun _ => .bind (h n) fun left _ before => .skip fun _ =>
    counts_operatorLoop h _ left before

end Operators

instance quiet_takePrefixes
    (fuel : Nat) :
    Quiet (takePrefixes fuel) := by
  induction fuel with
  | zero => exact .pure _
  | succ fuel ih =>
      refine @Quiet.bind _ _ _ _ inferInstance fun s => ?_
      split
      · infer_instance
      · split <;> infer_instance

theorem counts_applyPrefixes
    (ops : List (UnaryOp × Nat)) (e : Expr) {k : Nat}
    (inner : Numbered n e k) :
    Counts k (applyPrefixes ops e) (Numbered n) := by
  induction ops generalizing e k with
  | nil => exact .pure inner
  | cons op ops ih =>
      refine .bind (counts_newMark op.2) ?_
      rintro m _ ⟨isNext, rfl⟩
      exact ih _ (numbered_of_children rfl rfl (chained_single inner) isNext)

instance quiet_negatedInt? : Quiet negatedInt? := by
  rw [negatedInt?_eq]
  infer_instance

/-! ### Literals, calls and comprehensions -/

theorem numbered_leaf
    {e : Expr}
    (noBinders : e.binders = [])
    (noInner : e.innerChildren = [])
    (noChildren : e.children = [])
    (isNext : e.id = n) :
    Numbered n e (n + 1) :=
  numbered_of_children noBinders noInner (noChildren ▸ .nil) isNext

theorem counts_intLiteral
    (t : Token) (k start : Nat) (negative : Bool) :
    Counts n (intLiteral t k start negative) (Numbered n) :=
  .ite (fun _ => counts_node fun _ isNext => numbered_leaf rfl rfl rfl isNext) fun _ => .afterRecord

theorem counts_uintLiteral
    (t : Token) (k start : Nat) :
    Counts n (uintLiteral t k start) (Numbered n) :=
  .ite (fun _ => counts_node fun _ isNext => numbered_leaf rfl rfl rfl isNext) fun _ => .afterRecord

theorem counts_valueLiteral
    (start : Nat) (v : Value) :
    Counts n (valueLiteral start v) (Numbered n) :=
  .skip fun _ => counts_node fun _ isNext => numbered_leaf rfl rfl rfl isNext

/-- Where all variables are names, each of them is one. -/
theorem counts_variableNames
    (macroName : String) (names : List String) (binders : List Expr) :
    Counts n (variableNames macroName names binders) fun names' k => k = n ∧
      names'.length = names.length + binders.length ∧ ∀ e ∈ binders, e.identName?.isSome := by
  induction binders generalizing names with
  | nil => exact .pure ⟨rfl, rfl, nofun⟩
  | cons e rest ih =>
      unfold variableNames
      split
      · exact .afterRecord
      · next x isName =>
          refine .ite (fun _ => .afterRecord) fun _ => (ih _).mono ?_
          rintro names' k ⟨rfl, count, areNames⟩
          refine ⟨rfl, ?_, ?_⟩
          · simp only [count, List.length_append, List.length_cons, List.length_nil]
            omega
          · exact List.forall_mem_cons.mpr ⟨by simp [isName], areNames⟩

/-- A name takes one number. -/
theorem length_of_chained_names
    {es : List Expr} {k : Nat}
    (h : Chained Numbered n es k)
    (areNames : ∀ e ∈ es, e.identName?.isSome) :
    k = n + es.length := by
  induction h with
  | nil => rfl
  | @cons n k j e es first others ih =>
      have one : k = n + 1 := by
        have isName := areNames e (by simp)
        obtain ⟨outer, inner, isNext⟩ := first
        cases e with
        | ident m name =>
            cases outer
            cases inner
            rfl
        | _ => cases isName
      rw [ih fun e member => areNames e (by simp [member]), one, List.length_cons]
      omega

/-- The guard and the body of a comprehension are numbered after its variables. -/
theorem counts_comprehension
    (start : Nat) (macroName : String) (kind : Comprehension)
    {target body : Expr} {binders : List Expr} {guard : Option Expr} {k j i : Nat}
    (before : Numbered n target k)
    (names : Chained Numbered k binders j)
    (inside : Chained Numbered j (guard.toList ++ [body]) i) :
    Counts i (comprehension start macroName kind target binders guard body) (Numbered n) := by
  refine .bind (counts_variableNames macroName [] binders) ?_
  rintro variableNames _ ⟨rfl, count, areNames⟩
  obtain rfl : j = k + variableNames.length := by
    rw [length_of_chained_names names areNames, count, List.length_nil, Nat.zero_add]
  refine counts_node fun _ isNext => .node (chained_single before) ?_ isNext
  have bound := inside.map fun _ _ _ _ h => h.bindLocals variableNames
  simpa [Expr.innerChildren, Expr.binders, Expr.bindOption_eq_map, Option.toList_map] using bound

theorem counts_methodCall
    (start : Nat) (name : String)
    {target : Expr} {args : List Expr} {k j : Nat}
    (before : Numbered n target k)
    (after : Chained Numbered k args j) :
    Counts j (methodCall start name target args) (Numbered n) := by
  unfold methodCall
  split
  · next kind x body _ =>
      cases after with
      | cons first others => exact counts_comprehension _ _ _ before (chained_single first) others
  · next kind x y body _ =>
      cases after with
      | cons first others =>
          refine .ite (fun _ => ?_) fun _ => ?_
          · cases others with
            | cons second others =>
                exact counts_comprehension _ _ _ before (.cons first (chained_single second)) others
          · by_cases isMap : kind = .map
            · dsimp only
              rw [if_neg (not_not.mpr isMap)]
              exact counts_comprehension _ _ _ before (chained_single first) others
            · rw [if_pos isMap]
              exact .afterRecord
  · exact counts_node fun m isNext => numbered_of_children rfl rfl (.cons before after) isNext

theorem counts_functionCall
    (start : Nat) (name : String) (nameSpan : Text.Span)
    {args : List Expr} {k : Nat}
    (after : Chained Numbered n args k) :
    Counts k (functionCall start name nameSpan args) (Numbered n) := by
  refine .ite (fun _ => ?_) fun _ => ?_
  · unfold presenceTest
    split
    · refine .ite (fun _ => ?_) fun _ => .afterRecord
      exact counts_node fun m isNext => numbered_of_children rfl rfl after isNext
    · exact .afterRecord
  · exact counts_node fun m isNext => numbered_of_children rfl rfl after isNext

/-! ### Items and entries -/

section Nested

variable {expr : Parser Expr} [Proper expr] (h : ∀ n, Counts n expr (Numbered n))

include h

theorem counts_itemLoop
    (close : String) (fuel n : Nat) :
    Counts n (itemLoop expr close fuel) (Chained Numbered n) := by
  induction fuel generalizing n with
  | zero => exact .pure .nil
  | succ fuel ih =>
      refine .skip fun _ => .skip fun _ => .ite (fun _ => .pure .nil) fun _ => ?_
      refine .bind (h n) fun e k first => .ifSymbol ?_ (.pure (chained_single first))
      exact .bind (ih k) fun es j others => .pure (.cons first others)

theorem counts_items
    (close : String) (n : Nat) :
    Counts n (items expr close) (Chained Numbered n) :=
  .skip fun _ => .bind (counts_itemLoop h close _ n) fun _ _ all => .skip fun _ => .pure all

theorem counts_entryLoop
    (fuel n : Nat) :
    Counts n (entryLoop expr fuel) fun kvs =>
      Chained Numbered n (kvs.flatMap fun (k, v) => [k, v]) := by
  induction fuel generalizing n with
  | zero => exact .pure .nil
  | succ fuel ih =>
      refine .skip fun _ => .skip fun _ => .ite (fun _ => .pure .nil) fun _ => ?_
      refine .bind (h n) fun key k first => .bind (counts_expect ":") ?_
      rintro _ _ ⟨rfl, rfl⟩
      refine .bind (h _) fun value j second => .ifSymbol ?_ ?_
      · exact .bind (ih j) fun kvs i others => .pure (.cons first (.cons second others))
      · exact .pure (.cons first (chained_single second))

theorem counts_mapBody
    (start n : Nat) :
    Counts n (mapBody expr start) (Numbered n) :=
  .skip fun _ => .bind (counts_entryLoop h _ n) fun _ _ all => .skip fun _ =>
    counts_node fun _ isNext => numbered_of_children rfl rfl all isNext

/-! ### The levels of the grammar -/

theorem counts_identifier
    (t : Token) (n : Nat) :
    Counts n (identifier expr t) (Numbered n) := by
  unfold identifier
  dsimp only
  refine .ite (fun _ => .afterRecord) fun _ => .ifSymbol ?_ ?_
  · exact .bind (counts_items h ")" n) fun args k after => counts_functionCall _ _ _ after
  · exact counts_node fun m isNext => numbered_leaf rfl rfl rfl isNext

theorem counts_bracketed
    (start n : Nat) :
    Counts n (bracketed expr start) (Numbered n) := by
  refine .ifSymbol ?_ (.ifSymbol ?_ (.ifSymbol (counts_mapBody h start n) ?_))
  · exact .bind (h n) fun e k inside => .skip fun _ => .pure inside
  · exact .bind (counts_items h "]" n) fun es k all =>
      counts_node fun m isNext => numbered_of_children rfl rfl all isNext
  · exact .skip fun _ => .skip fun _ => .afterRecord

theorem counts_primary
    (n : Nat) :
    Counts n (primary expr) (Numbered n) := by
  refine .skip fun _ => .skip fun t? => ?_
  cases t? with
  | none => exact counts_bracketed h _ n
  | some t =>
      dsimp only
      split
      · exact .skip fun _ => counts_intLiteral t _ _ false
      · exact .skip fun _ => counts_uintLiteral t _ _
      · exact counts_valueLiteral _ _
      · exact counts_valueLiteral _ _
      · exact counts_valueLiteral _ _
      · exact counts_valueLiteral _ _
      · exact counts_valueLiteral _ _
      · exact .skip fun _ => counts_identifier h t n
      · exact counts_bracketed h _ n

theorem counts_postfixLoop
    (start fuel : Nat) (e : Expr) {k : Nat}
    (before : Numbered n e k) :
    Counts k (postfixLoop expr start fuel e) (Numbered n) := by
  induction fuel generalizing e k with
  | zero => exact .pure before
  | succ fuel ih =>
      refine .skip fun _ => .ite (fun _ => ?_) fun _ => .ifSymbol ?_ (.ifSymbol ?_ (.pure before))
      · refine .skip fun t? => ?_
        cases t? with
        | none => exact .skip fun _ => .afterRecord
        | some name =>
            refine .ite (fun _ => .skip fun _ => .ifSymbol ?_ ?_) fun _ => .afterRecord
            · exact .bind (counts_items h ")" k) fun args j after =>
                .bind (counts_methodCall _ _ before after) fun called i whole => ih called whole
            · refine .bind (counts_newMark start) ?_
              rintro m _ ⟨isNext, rfl⟩
              exact ih _ (numbered_of_children rfl rfl (chained_single before) isNext)
      · refine .bind (h k) fun key j after => .skip fun _ => .bind (counts_newMark start) ?_
        rintro m _ ⟨isNext, rfl⟩
        exact ih _ (numbered_of_children rfl rfl (.cons before (chained_single after)) isNext)
      · refine .bind (counts_items h ")" k) fun args j after => .bind (counts_newMark start) ?_
        rintro m _ ⟨isNext, rfl⟩
        exact ih _ (numbered_of_children rfl rfl (.cons before after) isNext)

theorem counts_member
    (n : Nat) :
    Counts n (member expr) (Numbered n) :=
  .skip fun _ => .bind (counts_primary h n) fun e _ first => .skip fun _ =>
    counts_postfixLoop h _ _ e first

theorem counts_unary
    (n : Nat) :
    Counts n (unary expr) (Numbered n) := by
  refine .skip fun _ => .skip fun ops => ?_
  dsimp only
  refine .skip fun found => ?_
  split
  · exact .skip fun _ => .bind (counts_intLiteral _ _ _ true) fun e _ inner =>
      counts_applyPrefixes _ e inner
  · exact .bind (counts_member h n) fun e _ inner => counts_applyPrefixes _ e inner

theorem counts_conditional
    (n : Nat) :
    Counts n (conditional expr) (Numbered n) := by
  have alternatives : ∀ n, Counts n (alternatives expr) (Numbered n) :=
    counts_leftAssoc <| counts_leftAssoc <| counts_leftAssoc <| counts_leftAssoc <|
      counts_leftAssoc <| counts_unary h
  refine .skip fun _ => .bind (alternatives n) fun c k condition => .ifSymbol ?_ (.pure condition)
  refine .bind (h k) fun a j ifTrue => .skip fun _ => .bind (h j) fun b i ifFalse => ?_
  exact counts_node fun m isNext => numbered_of_children rfl rfl
    (.cons condition (.cons ifTrue (chained_single ifFalse))) isNext

end Nested

/-- The trees that the parser builds without a mistake are numbered, by induction on how deeply
expressions may nest. -/
theorem counts_exprAt
    (limit : Int) (budget n : Nat) :
    Counts n (exprAt limit budget) (Numbered n) := by
  induction budget generalizing n with
  | zero => exact fun s _ clean => absurd clean (not_clean_cutOff limit s)
  | succ budget ih => exact counts_conditional ih n

theorem counts_input
    (limit : Int) (n : Nat) :
    Counts n (input limit) fun e _ => ∃ k, Numbered n e k := by
  refine .bind (counts_exprAt limit (budget limit) n) fun e k numbered => .skip fun rounds => ?_
  have trailing : Counts k (trailingLoop (exprAt limit (budget limit)) rounds) fun _ _ => True :=
    fun _ _ _ => trivial
  exact .bind trailing fun _ _ _ => .pure ⟨k, numbered⟩

end Parser

/-- A tree that is parsed is numbered from one on. -/
theorem numbered_of_parse
    {limit : Int} {source : List Char} {e : Expr}
    (parsed : parse limit source = .ok e) :
    ∃ k, Expr.Numbered 1 e k := by
  obtain ⟨clean, rfl⟩ := (parse_eq_ok_iff_clean (scan_errors_of_parse parsed) e).mp parsed
  exact Parser.counts_input limit 1 _ rfl clean

/-- No two nodes of a tree that is parsed have the same number. -/
theorem nodup_of_parse
    {limit : Int} {source : List Char} {e : Expr}
    (parsed : parse limit source = .ok e) :
    (e.walk.map Expr.id).Nodup := by
  obtain ⟨_, numbered⟩ := numbered_of_parse parsed
  exact numbered.nodup

/-- Texts of trees that differ in their marks only give them the same numbers. -/
theorem unspanned_of_parse
    {limit limit' : Int} {source source' : List Char} {e e' : Expr}
    (parsed : parse limit source = .ok e)
    (parsed' : parse limit' source' = .ok e')
    (same : e.erase = e'.erase) :
    e.unspanned = e'.unspanned := by
  obtain ⟨_, numbered⟩ := numbered_of_parse parsed
  obtain ⟨_, numbered'⟩ := numbered_of_parse parsed'
  exact (numbered.unspanned_eq numbered' same).2

end ExprLang
