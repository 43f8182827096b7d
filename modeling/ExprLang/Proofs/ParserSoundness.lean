import ExprLang.Proofs.ParserRuns

/-!
# What the parser accepts is derivable

Every run of a level of the parser that ends clean has read a phrase of the grammar and built its
tree, up to marks.  The nested parser is only known to be proper and to be sound itself; the
statement on whole expressions follows by induction on how deeply they may nest.

* `sound_exprAt`: the trees that `exprAt` builds have derivations.
-/

namespace ExprLang
namespace Parser

open ExprLang.Expr (erase blank)
open Grammar

variable {n : Nat} {expr : Parser Expr}

/-! ### Operators between operands -/

instance proper_takeOperator?
    (level : Level) :
    Proper (takeOperator? level) := by
  refine @Proper.bind _ _ _ _ inferInstance fun s => ?_
  split
  · infer_instance
  · split <;> infer_instance

theorem sound_takeOperator?
    (level : Level) (i : List Token) :
    Sound i (takeOperator? level) fun op? r =>
      (op? = none ∧ r = i) ∨
        ∃ text op t, op? = some op ∧ (text, op) ∈ level ∧ t.isSymbol text = true ∧ i = t :: r := by
  refine .get fun s hs => ?_
  rw [hs]
  split
  · exact .pure (.inl ⟨rfl, rfl⟩)
  · next t i =>
      split
      · next text op found =>
          have isOperator := List.find?_some found
          have ofLevel := List.mem_of_find?_eq_some found
          refine .bind (sound_advance (P := fun _ r => r = i) rfl) fun _ r hr => .pure (.inr ?_)
          exact ⟨text, op, t, rfl, ofLevel, isOperator, by rw [hr]⟩
      · exact .pure (.inl ⟨rfl, rfl⟩)

section Operators

variable {level : Level} {tighter : List Level} {operand : Parser Expr} {start : Nat}

instance proper_operatorLoop
    [Proper operand]
    (fuel : Nat) (left : Expr) :
    Proper (operatorLoop level operand start fuel left) := by
  induction fuel generalizing left with
  | zero => exact .pure _
  | succ fuel ih =>
      refine @Proper.bind _ _ _ _ inferInstance fun op? => ?_
      cases op? <;> infer_instance

theorem sound_operatorLoop
    [Proper operand]
    (h : ∀ i, Sound i operand fun e r => Derives n (.chain tighter e.erase) i r)
    (fuel : Nat) (left : Expr) (i : List Token) :
    Sound i (operatorLoop level operand start fuel left) fun e r =>
      Derives n (.operators level tighter left.erase e.erase) i r := by
  induction fuel generalizing left i with
  | zero => exact .pure .operatorsEnd
  | succ fuel ih =>
      refine .andThen (sound_takeOperator? level i) (fun op? => by cases op? <;> infer_instance) ?_
      rintro op? j (⟨rfl, rfl⟩ | ⟨text, op, t, rfl, ofLevel, isOperator, rfl⟩)
      · exact .pure .operatorsEnd
      · refine .bind (h j) fun right k next => .bind sound_newMark ?_
        rintro mark _ rfl
        exact (ih _ _).mono fun e r others => .operator ofLevel isOperator next others

instance proper_leftAssoc
    [Proper operand] :
    Proper (leftAssoc level operand) := by
  refine @Proper.bind _ _ _ _ inferInstance fun span => ?_
  dsimp only
  infer_instance

/-- A level of operators above a sound parser of operands. -/
theorem sound_leftAssoc
    [Proper operand]
    (h : ∀ i, Sound i operand fun e r => Derives n (.chain tighter e.erase) i r)
    (i : List Token) :
    Sound i (leftAssoc level operand) fun e r =>
      Derives n (.chain (level :: tighter) e.erase) i r := by
  refine .read fun _ _ => .bind (h i) fun left j first => .read fun _ _ => ?_
  exact (sound_operatorLoop h _ left j).mono fun e r others => .chain first others

end Operators

/-! ### Operators in front of an operand -/

instance proper_takePrefixes
    (fuel : Nat) :
    Proper (takePrefixes fuel) := by
  induction fuel with
  | zero => exact .pure _
  | succ fuel ih =>
      refine @Proper.bind _ _ _ _ inferInstance fun s => ?_
      split
      · infer_instance
      · split <;> infer_instance

theorem sound_takePrefixes
    (fuel : Nat) (i : List Token) :
    Sound i (takePrefixes fuel) fun ops r =>
      ∃ signs, signs.map prefixOf? = (ops.map Prod.fst).map some ∧ i = signs ++ r := by
  induction fuel generalizing i with
  | zero => exact .pure ⟨[], rfl, rfl⟩
  | succ fuel ih =>
      refine .get fun s hs => ?_
      rw [hs]
      split
      · exact .pure ⟨[], rfl, rfl⟩
      · next t i =>
          split
          · exact .pure ⟨[], rfl, rfl⟩
          · next op isSign =>
              refine .bind (sound_advance (P := fun _ r => r = i) rfl) ?_
              rintro _ _ rfl
              refine .bind (ih _) ?_
              rintro ops r ⟨signs, areSigns, rfl⟩
              exact .pure ⟨t :: signs, by simp [isSign, areSigns], rfl⟩

instance proper_applyPrefixes
    (ops : List (UnaryOp × Nat)) (e : Expr) :
    Proper (applyPrefixes ops e) := by
  induction ops generalizing e with
  | nil => exact .pure _
  | cons op ops ih => exact .bind

/-- Operators are applied from the inside, which is the reverse of how they are written. -/
theorem sound_applyPrefixes
    (ops : List (UnaryOp × Nat)) (e : Expr) (i : List Token) :
    Sound i (applyPrefixes ops e) fun e' r =>
      e'.erase = prefixed (ops.map Prod.fst).reverse e.erase ∧ r = i := by
  induction ops generalizing e with
  | nil => exact .pure ⟨rfl, rfl⟩
  | cons op ops ih =>
      obtain ⟨op, start⟩ := op
      refine .bind sound_newMark ?_
      rintro mark _ rfl
      refine (ih _).mono ?_
      rintro e' r ⟨he, hr⟩
      exact ⟨by simp [he, prefixed], hr⟩

/-- The token of an integer that forms one literal with a minus sign, and the integer. -/
def negated? : List Token → Option (Token × Nat)
  | t :: after => (negatable? (t :: after)).map (t, ·)
  | [] => none

theorem negated?_eq_some
    {i : List Token} {t : Token} {k : Nat}
    (h : negated? i = some (t, k)) :
    ∃ after, negatable? i = some k ∧ i = t :: after := by
  match i with
  | u :: after =>
      simp only [negated?, Option.map_eq_some_iff, Prod.mk.injEq] at h
      obtain ⟨_, found, rfl, rfl⟩ := h
      exact ⟨after, found, rfl⟩

theorem negated?_eq_none_iff
    {i : List Token} :
    negated? i = none ↔ negatable? i = none := by
  cases i <;> simp [negated?, negatable?]

/-- Looking for such an integer takes nothing. -/
theorem negatedInt?_eq :
    negatedInt? = do return negated? (← get).rest := by
  funext s
  change (match s.rest with
    | t :: after => _
    | [] => _ : Parser (Option (Token × Nat))) s = (negated? s.rest, s)
  cases s.rest with
  | nil => rfl
  | cons t after =>
      cases isInt : t.kind with
      | int k =>
          simp only [negated?, negatable?, isInt]
          cases after with
          | nil => rfl
          | cons next after =>
              cases followed : (next.isSymbol "." || next.isSymbol "[") <;>
                simp only [startsWith, followed] <;> rfl
      | _ =>
          simp only [negated?, negatable?, isInt]
          rfl

instance proper_negatedInt? : Proper negatedInt? := by
  rw [negatedInt?_eq]
  infer_instance

/-! ### Literals -/

instance proper_intLiteral
    (t : Token) (k start : Nat) (negative : Bool) :
    Proper (intLiteral t k start negative) :=
  .ite

instance proper_uintLiteral
    (t : Token) (k start : Nat) :
    Proper (uintLiteral t k start) :=
  .ite

instance proper_valueLiteral
    (start : Nat) (v : Value) :
    Proper (valueLiteral start v) :=
  .bind

theorem sound_intLiteral
    (t : Token) (k start : Nat) (negative : Bool) (i : List Token) :
    Sound i (intLiteral t k start negative) fun e r =>
      InIntRange (if negative then -(k : Int) else k) ∧
        e.erase = .literal blank (.int (if negative then -(k : Int) else k)) ∧ r = i := by
  by_cases inRange : InIntRange (if negative then -(k : Int) else k)
  · rw [intLiteral, if_pos inRange]
    exact sound_node fun _ => ⟨inRange, rfl, rfl⟩
  · rw [intLiteral, if_neg inRange]
    exact .afterRecord

theorem sound_uintLiteral
    (t : Token) (k start : Nat) (i : List Token) :
    Sound i (uintLiteral t k start) fun e r =>
      k ≤ maxUInt ∧ e.erase = .literal blank (.uint k) ∧ r = i := by
  unfold uintLiteral
  split
  · next inRange => exact sound_node fun _ => ⟨inRange, rfl, rfl⟩
  · exact .afterRecord

theorem sound_valueLiteral
    (t : Token) (start : Nat) (v : Value) (i : List Token) :
    Sound (t :: i) (valueLiteral start v) fun e r => e.erase = .literal blank v ∧ r = i := by
  refine .bind (sound_advance (P := fun _ r => r = i) rfl) ?_
  rintro _ _ rfl
  exact sound_node fun _ => ⟨rfl, rfl⟩

/-! ### Calls and macros -/

instance proper_variableNames
    (macroName : String) (names : List String) (binders : List Expr) :
    Proper (variableNames macroName names binders) := by
  induction binders generalizing names with
  | nil => exact .pure _
  | cons e rest ih =>
      unfold variableNames
      split <;> infer_instance

instance proper_comprehension
    (start : Nat) (macroName : String) (kind : Comprehension) (target : Expr)
    (binders : List Expr) (guard : Option Expr) (body : Expr) :
    Proper (comprehension start macroName kind target binders guard body) :=
  .bind

instance proper_placeholder
    (start : Nat) :
    Proper (placeholder start) :=
  .bind

instance proper_presenceTest
    (start : Nat) (nameSpan : Text.Span) (args : List Expr) :
    Proper (presenceTest start nameSpan args) := by
  unfold presenceTest
  split <;> infer_instance

instance proper_methodCall
    (start : Nat) (name : String) (target : Expr) (args : List Expr) :
    Proper (methodCall start name target args) := by
  unfold methodCall
  split <;> infer_instance

instance proper_functionCall
    (start : Nat) (name : String) (nameSpan : Text.Span) (args : List Expr) :
    Proper (functionCall start name nameSpan args) :=
  .ite

/-- The variables of a comprehension are names, and they differ. -/
theorem sound_variableNames
    (macroName : String) (binders : List Expr) (i : List Token)
    (names : List String)
    (distinct : names.Nodup) :
    Sound i (variableNames macroName names binders) fun names' r =>
      ∃ added, names' = names ++ added ∧ names'.Nodup ∧
        binders.map erase = added.map (Expr.ident blank) ∧ r = i := by
  induction binders generalizing names with
  | nil => exact .pure ⟨[], by simp, distinct, rfl, rfl⟩
  | cons e rest ih =>
      unfold variableNames
      split
      · exact .afterRecord
      · next x isName =>
          refine .ite (fun _ => .afterRecord) fun isNew => ?_
          have isNew : x ∉ names := by simpa using isNew
          refine (ih (names ++ [x]) (by grind)).mono ?_
          rintro _ r ⟨added, rfl, distinct', same, hr⟩
          exact ⟨x :: added, by simp, distinct', by simp [same, Expr.erase_eq_of_identName? isName],
            hr⟩

theorem sound_comprehension
    (start : Nat) (macroName : String) (kind : Comprehension) (target : Expr)
    (binders : List Expr) (guard : Option Expr) (body : Expr) (i : List Token) :
    Sound i (comprehension start macroName kind target binders guard body) fun e r =>
      ∃ names : List String, binders.map erase = names.map (Expr.ident blank) ∧ names.Nodup ∧
        e.erase = .comprehension blank kind target.erase names
          (Expr.bindOption names (guard.map erase)) (Expr.bindLocals names body.erase) ∧
        r = i := by
  refine .bind (sound_variableNames macroName binders i [] .nil) ?_
  rintro _ _ ⟨names, rfl, distinct, same, rfl⟩
  refine sound_node fun mark => ⟨_, same, distinct, ?_, rfl⟩
  simp [Expr.map_erase_bindOption]

theorem sound_presenceTest
    (start : Nat) (nameSpan : Text.Span) (args : List Expr) (i : List Token) :
    Sound i (presenceTest start nameSpan args) fun e r =>
      FunctionCall "has" (args.map erase) e.erase ∧ r = i := by
  unfold presenceTest
  split
  · next access =>
      refine .ite (fun isAccess => ?_) fun _ => .afterRecord
      refine sound_node fun mark => ⟨?_, rfl⟩
      exact .presence (by simpa using isAccess)
  · exact .afterRecord

theorem sound_functionCall
    (start : Nat) (name : String) (nameSpan : Text.Span) (args : List Expr) (i : List Token) :
    Sound i (functionCall start name nameSpan args) fun e r =>
      FunctionCall name (args.map erase) e.erase ∧ r = i := by
  refine .ite (fun isHas => ?_) fun other => ?_
  · rw [isHas]
    exact sound_presenceTest start nameSpan args i
  · exact sound_node fun mark => ⟨by simpa using .call other, rfl⟩

/-- Two trees that are the names of one list are its two names. -/
theorem names_of_map_erase_pair
    {e e' : Expr} {names : List String}
    (same : [e, e'].map erase = names.map (Expr.ident blank)) :
    ∃ x y, names = [x, y] ∧ e.erase = .ident blank x ∧ e'.erase = .ident blank y := by
  match names with
  | [x, y] =>
      simp only [List.map_cons, List.map_nil, List.cons.injEq, and_true] at same
      exact ⟨x, y, rfl, same⟩
  | [] | [_] | _ :: _ :: _ :: _ => simp at same

theorem names_of_map_erase_single
    {e : Expr} {names : List String}
    (same : [e].map erase = names.map (Expr.ident blank)) :
    ∃ x, names = [x] ∧ e.erase = .ident blank x := by
  match names with
  | [x] =>
      simp only [List.map_cons, List.map_nil, List.cons.injEq, and_true] at same
      exact ⟨x, rfl, same⟩
  | [] | _ :: _ :: _ => simp at same

theorem sound_methodCall
    (start : Nat) (name : String) (target : Expr) (args : List Expr) (i : List Token) :
    Sound i (methodCall start name target args) fun e r =>
      MethodCall name target.erase (args.map erase) e.erase ∧ r = i := by
  unfold methodCall
  split
  · next kind x body named =>
      refine .mono (sound_comprehension _ _ _ _ _ _ _ _) ?_
      rintro e r ⟨names, same, -, he, hr⟩
      obtain ⟨x', rfl, hx⟩ := names_of_map_erase_single same
      refine ⟨?_, hr⟩
      rw [he]
      simpa [hx, Expr.bindOption] using .single named
  · next kind x y body named =>
      refine .ite (fun isName => ?_) fun noName => ?_
      · refine .mono (sound_comprehension _ _ _ _ _ _ _ _) ?_
        rintro e r ⟨names, same, distinct, he, hr⟩
        obtain ⟨x', y', rfl, hx, hy⟩ := names_of_map_erase_pair same
        have distinct : x' ≠ y' := by simpa using distinct
        refine ⟨?_, hr⟩
        rw [he]
        simpa [hx, hy, Expr.bindOption] using .pair named distinct
      · have noName : y.erase.identName? = none := by simpa using noName
        by_cases isMap : kind = .map
        · subst isMap
          dsimp only
          rw [if_neg (fun h => h rfl)]
          refine .mono (sound_comprehension _ _ _ _ _ _ _ _) ?_
          rintro e r ⟨names, same, -, he, hr⟩
          obtain ⟨x', rfl, hx⟩ := names_of_map_erase_single same
          refine ⟨?_, hr⟩
          rw [he]
          simpa [hx, Expr.bindOption] using .guarded named noName
        · rw [if_pos isMap]
          exact .afterRecord
  · next args _ _ two three =>
      refine sound_node fun mark => ⟨?_, rfl⟩
      simp only [Expr.erase_call, Option.map_some]
      refine .call ?_
      cases named : Comprehension.ofName? name with
      | none => exact .inl rfl
      | some kind =>
          refine .inr ⟨fun isTwo => ?_, fun isThree => ?_⟩
          · match args, isTwo with
            | [x, body], _ => exact two kind x body named rfl
          · match args, isThree with
            | [x, y, body], _ => exact three kind x y body named rfl

/-! ### Items and entries -/

section Nested

variable [Proper expr]

instance proper_itemLoop
    (close : String) (fuel : Nat) :
    Proper (itemLoop expr close fuel) := by
  induction fuel with
  | zero => exact .pure _
  | succ fuel ih => exact .bind

instance proper_items
    (close : String) :
    Proper (items expr close) :=
  .bind

instance proper_entryLoop
    (fuel : Nat) :
    Proper (entryLoop expr fuel) := by
  induction fuel with
  | zero => exact .pure _
  | succ fuel ih => exact .bind

instance proper_mapBody
    (start : Nat) :
    Proper (mapBody expr start) :=
  .bind

variable (h : ∀ i, Sound i expr fun e r => Derives n (.expr e.erase) i r)

include h

/-- The loop stops where only the closing symbol is missing. -/
theorem sound_itemLoop
    (close : String) (fuel : Nat) (i : List Token) :
    Sound i (itemLoop expr close fuel) fun es r =>
      ∀ t k, r = t :: k → t.isSymbol close = true →
        Derives n (.items close (es.map erase)) i k := by
  induction fuel generalizing i with
  | zero => exact .pure fun t k hr isClose => hr ▸ .itemsEnd isClose
  | succ fuel ih =>
      refine .read fun _ _ => .read fun _ _ => .ite (fun _ => ?_) fun _ => ?_
      · exact .pure fun t k hr isClose => hr ▸ .itemsEnd isClose
      · refine .bind (h i) fun e j first => .ifSymbol ?_ ?_
        · rintro comma j isComma rfl
          refine .bind (ih j) fun es r others => .pure ?_
          intro t k hr isClose
          exact .item first isComma (others t k hr isClose)
        · intro _
          refine .pure ?_
          rintro t k rfl isClose
          exact .lastItem first isClose

theorem sound_items
    (close : String) (i : List Token) :
    Sound i (items expr close) fun es r => Derives n (.items close (es.map erase)) i r := by
  refine .read fun _ _ => .bind (sound_itemLoop h close _ i) fun es j before => ?_
  refine .bind (sound_expect close j) ?_
  rintro _ r ⟨-, t, isClose, hj⟩
  exact .pure (before t r hj isClose)

theorem sound_entryLoop
    (fuel : Nat) (i : List Token) :
    Sound i (entryLoop expr fuel) fun kvs r =>
      ∀ t k, r = t :: k → t.isSymbol "\x7d" = true →
        Derives n (.entries (kvs.map fun (k, v) => (k.erase, v.erase))) i k := by
  induction fuel generalizing i with
  | zero => exact .pure fun t k hr isClose => hr ▸ .entriesEnd isClose
  | succ fuel ih =>
      refine .read fun _ _ => .read fun _ _ => .ite (fun _ => ?_) fun _ => ?_
      · exact .pure fun t k hr isClose => hr ▸ .entriesEnd isClose
      · refine .bind (h i) fun key j first => .bind (sound_expect ":" j) ?_
        rintro _ l ⟨rfl, colon, isColon, rfl⟩
        refine .bind (h l) fun value m second => .ifSymbol ?_ ?_
        · rintro comma m isComma rfl
          refine .bind (ih m) fun kvs r others => .pure ?_
          intro t k hr isClose
          exact .entry first isColon second isComma (others t k hr isClose)
        · intro _
          refine .pure ?_
          rintro t k rfl isClose
          exact .lastEntry first isColon second isClose

theorem sound_mapBody
    (start : Nat) (i : List Token) :
    Sound i (mapBody expr start) fun e r =>
      ∃ kvs, e.erase = .map blank kvs ∧ Derives n (.entries kvs) i r := by
  refine .read fun _ _ => .bind (sound_entryLoop h _ i) fun kvs j before => ?_
  refine .bind (sound_expect "\x7d" j) ?_
  rintro _ r ⟨-, t, isClose, hj⟩
  exact sound_node fun _ => ⟨_, Expr.erase_map _ _, before t r hj isClose⟩

/-! ### The innermost parts -/

omit h in
instance proper_identifier
    (t : Token) :
    Proper (identifier expr t) := by
  unfold identifier
  dsimp only
  infer_instance

omit h in
instance proper_bracketed
    (start : Nat) :
    Proper (bracketed expr start) := by
  refine @Proper.bind _ _ _ _ inferInstance fun b => ?_
  refine @Proper.ite _ _ _ _ _ inferInstance <| @Proper.bind _ _ _ _ inferInstance fun b => ?_
  infer_instance

omit h in
instance proper_primary :
    Proper (primary expr) := by
  refine @Proper.bind _ _ _ _ inferInstance fun span => ?_
  refine @Proper.bind _ _ _ _ inferInstance fun t? => ?_
  cases t? with
  | none => exact proper_bracketed _
  | some t =>
      dsimp only
      split <;> infer_instance

theorem sound_identifier
    (t : Token) (i : List Token)
    (isName : t.isIdent = true) :
    Sound i (identifier expr t) fun e r => Derives n (.primary e.erase) (t :: i) r := by
  unfold identifier
  dsimp only
  refine .ite (fun _ => .afterRecord) fun unreserved => ?_
  have unreserved : t.text ∉ reservedWords := by simpa using unreserved
  refine .ifSymbol ?_ fun noCall => ?_
  · rintro paren i isOpen rfl
    refine .bind (sound_items h ")" i) fun args j arguments => ?_
    refine (sound_functionCall _ t.text t.span args j).mono ?_
    rintro e _ ⟨meaning, rfl⟩
    exact .call isName unreserved isOpen arguments meaning
  · exact sound_node fun _ => .name isName unreserved noCall

theorem sound_bracketed
    (start : Nat) (i : List Token) :
    Sound i (bracketed expr start) fun e r => Derives n (.primary e.erase) i r := by
  refine .ifSymbol ?_ fun _ => .ifSymbol ?_ fun _ => .ifSymbol ?_ fun _ => ?_
  · rintro paren i isOpen rfl
    refine .bind (h i) fun e j inside => .bind (sound_expect ")" j) ?_
    rintro _ r ⟨-, close, isClose, rfl⟩
    exact .pure (.group isOpen inside isClose)
  · rintro bracket i isOpen rfl
    refine .bind (sound_items h "]" i) fun es j inside => sound_node fun mark => ?_
    rw [Expr.erase_list]
    exact .list isOpen inside
  · rintro brace i isOpen rfl
    refine (sound_mapBody h start i).mono ?_
    rintro e r ⟨kvs, he, inside⟩
    rw [he]
    exact .map isOpen inside
  · exact .read fun _ _ => .read fun _ _ => .afterRecord

theorem sound_primary
    (i : List Token) :
    Sound i (primary expr) fun e r => Derives n (.primary e.erase) i r := by
  refine .read fun _ _ => .read fun s hs => ?_
  rw [hs]
  match i with
  | [] => exact sound_bracketed h _ []
  | t :: i =>
      dsimp only [List.head?_cons]
      have taken (v : Value) (value : literalValue? t = some v) (start : Nat) :
          Sound (t :: i) (valueLiteral start v) fun e r =>
            Derives n (.primary e.erase) (t :: i) r := by
        refine (sound_valueLiteral t start v i).mono ?_
        rintro e _ ⟨he, rfl⟩
        rw [he]
        exact .literal value
      split
      · next k isInt =>
          refine .bind (sound_advance (P := fun _ r => r = i) rfl) ?_
          rintro _ _ rfl
          refine (sound_intLiteral t k _ false _).mono ?_
          rintro e _ ⟨inRange, he, rfl⟩
          rw [he]
          exact .literal (by simpa [literalValue?, isInt] using inRange)
      · next k isUInt =>
          refine .bind (sound_advance (P := fun _ r => r = i) rfl) ?_
          rintro _ _ rfl
          refine (sound_uintLiteral t k _ _).mono ?_
          rintro e _ ⟨inRange, he, rfl⟩
          rw [he]
          exact .literal (by simpa [literalValue?, isUInt] using inRange)
      · next isFloat => exact taken _ (by simp [literalValue?, isFloat]) _
      · next isString => exact taken _ (by simp [literalValue?, isString]) _
      · next isBytes => exact taken _ (by simp [literalValue?, isBytes]) _
      · next isBool => exact taken _ (by simp [literalValue?, isBool]) _
      · next isNull => exact taken _ (by simp [literalValue?, isNull]) _
      · next isName =>
          refine .bind (sound_advance (P := fun _ r => r = i) rfl) ?_
          rintro _ _ rfl
          exact sound_identifier h t _ (by simp [Token.isIdent, isName])
      · exact sound_bracketed h _ (t :: i)

/-! ### Members -/

omit h in
instance proper_postfixLoop
    (start fuel : Nat) (e : Expr) :
    Proper (postfixLoop expr start fuel e) := by
  induction fuel generalizing e with
  | zero => exact .pure _
  | succ fuel ih =>
      refine @Proper.bind _ _ _ _ inferInstance fun b => ?_
      refine @Proper.ite _ _ _ _ _ (@Proper.bind _ _ _ _ inferInstance fun t? => ?_) inferInstance
      cases t? <;> infer_instance

omit h in
instance proper_member :
    Proper (member expr) := by
  refine @Proper.bind _ _ _ _ inferInstance fun span => ?_
  dsimp only
  infer_instance

theorem sound_postfixLoop
    (start fuel : Nat) (e : Expr) (i : List Token) :
    Sound i (postfixLoop expr start fuel e) fun e' r =>
      Derives n (.postfixes e.erase e'.erase) i r := by
  induction fuel generalizing e i with
  | zero => exact .pure .postfixesEnd
  | succ fuel ih =>
      refine .andThen (sound_takeSymbol "." i) ?_ ?_
      · intro b
        refine @Proper.ite _ _ _ _ _ (@Proper.bind _ _ _ _ inferInstance fun t? => ?_) inferInstance
        cases t? <;> infer_instance
      · rintro b j (⟨rfl, dot, isDot, rfl⟩ | ⟨rfl, noDot, rfl⟩)
        · refine .read fun s hs => ?_
          rw [hs]
          match j with
          | [] => exact .read fun _ _ => .afterRecord
          | name :: j =>
              refine .ite (fun isName => ?_) fun _ => .afterRecord
              refine .bind (sound_advance (P := fun _ r => r = j) rfl) ?_
              rintro _ _ rfl
              refine .ifSymbol ?_ fun noCall => ?_
              · rintro paren j isOpen rfl
                refine .bind (sound_items h ")" j) fun args k arguments => ?_
                refine .bind (sound_methodCall start name.text e args k) ?_
                rintro called _ ⟨meaning, rfl⟩
                exact (ih called _).mono fun e' r others =>
                  .method isDot isName isOpen arguments meaning others
              · refine .bind sound_newMark ?_
                rintro mark _ rfl
                exact (ih _ _).mono fun e' r others => .field isDot isName noCall others
        · refine .ifSymbol ?_ fun _ => .ifSymbol ?_ fun _ => .pure .postfixesEnd
          · rintro bracket j isOpen rfl
            refine .bind (h j) fun key k inside => .bind (sound_expect "]" k) ?_
            rintro _ l ⟨-, close, isClose, rfl⟩
            refine .bind sound_newMark ?_
            rintro mark _ rfl
            exact (ih _ _).mono fun e' r others => .index isOpen inside isClose others
          · rintro paren j isOpen rfl
            refine .bind (sound_items h ")" j) fun args k arguments => .bind sound_newMark ?_
            rintro mark _ rfl
            refine (ih _ _).mono fun e' r others => .invocation isOpen arguments ?_
            rwa [Expr.erase_invoke] at others

theorem sound_member
    (i : List Token) :
    Sound i (member expr) fun e r => Derives n (.member e.erase) i r := by
  refine .read fun _ _ => .bind (sound_primary h i) fun e j first => .read fun _ _ => ?_
  exact (sound_postfixLoop h _ _ e j).mono fun e' r others => .member first others

/-! ### Operators in front and between, and conditionals -/

omit h in
instance proper_unary :
    Proper (unary expr) := by
  refine @Proper.bind _ _ _ _ inferInstance fun fuel => ?_
  refine @Proper.bind _ _ _ _ inferInstance fun ops => ?_
  dsimp only
  refine @Proper.bind _ _ _ _ inferInstance fun found => ?_
  split <;> infer_instance

theorem sound_unary
    (i : List Token) :
    Sound i (unary expr) fun e r => Derives n (.unary e.erase) i r := by
  refine .read fun _ _ => .andThen (sound_takePrefixes _ i) ?_ ?_
  · intro ops
    dsimp only
    refine @Proper.bind _ _ _ _ inferInstance fun found => ?_
    split <;> infer_instance
  rintro ops j ⟨signs, areSigns, rfl⟩
  rw [negatedInt?_eq]
  refine .read fun s hs => ?_
  rw [hs]
  split
  · next start outer t k hops hfound =>
      obtain ⟨after, isInteger, rfl⟩ := negated?_eq_some hfound
      have hops : ops = outer.reverse ++ [(.neg, start)] := by
        rw [← List.reverse_reverse ops, hops, List.reverse_cons]
      subst hops
      obtain ⟨signs, minuses, rfl, areOuter, isMinus⟩ : ∃ signs minuses, _ ∧ _ ∧ _ :=
        List.map_eq_append_iff.mp (areSigns.trans (by rw [List.map_append, List.map_append]))
      obtain ⟨minus, rfl, isSign⟩ := List.map_eq_singleton_iff.mp isMinus
      refine .bind (sound_advance (P := fun _ r => r = after) rfl) ?_
      rintro _ _ rfl
      refine .bind (sound_intLiteral t k start true _) ?_
      rintro e _ ⟨inRange, he, rfl⟩
      refine (sound_applyPrefixes outer e _).mono ?_
      rintro e' _ ⟨he', rfl⟩
      rw [he', he, ← List.map_reverse, List.append_assoc]
      exact .negative areOuter isSign isInteger inRange
  · next notNegated =>
      refine .bind (sound_member h _) fun e r inner => ?_
      refine (sound_applyPrefixes ops.reverse e r).mono ?_
      rintro e' _ ⟨he, rfl⟩
      rw [he, List.map_reverse, List.reverse_reverse]
      refine .prefixed areSigns (fun endsInMinus => ?_) inner
      rw [List.getLast?_map, Option.map_eq_some_iff] at endsInMinus
      obtain ⟨⟨_, start⟩, last, rfl⟩ := endsInMinus
      obtain ⟨outer, rfl⟩ := List.getLast?_eq_some_iff.mp last
      refine negated?_eq_none_iff.mp ?_
      cases hfound : negated? j with
      | none => rfl
      | some found => exact (notNegated start outer.reverse _ _ (by simp) hfound).elim

omit h in
instance proper_alternatives :
    Proper (alternatives expr) := by
  unfold alternatives
  infer_instance

omit h in
instance proper_conditional :
    Proper (conditional expr) := by
  refine @Proper.bind _ _ _ _ inferInstance fun span => ?_
  dsimp only
  infer_instance

theorem sound_conditional
    (i : List Token) :
    Sound i (conditional expr) fun e r => Derives (n + 1) (.expr e.erase) i r := by
  have chain (i : List Token) :
      Sound i (alternatives expr) fun e r => Derives n (.chain operatorLevels e.erase) i r :=
    sound_leftAssoc (fun i => sound_leftAssoc (fun i => sound_leftAssoc (fun i => sound_leftAssoc
      (fun i => sound_leftAssoc (fun i => (sound_unary h i).mono fun _ _ => .operand) i) i) i) i) i
  refine .read fun _ _ => .bind (chain i) fun c j condition => .ifSymbol ?_ ?_
  · rintro question j isQuestion rfl
    refine .bind (h j) fun a k ifTrue => .bind (sound_expect ":" k) ?_
    rintro _ l ⟨-, colon, isColon, rfl⟩
    refine .bind (h l) fun b r ifFalse => sound_node fun _ => ?_
    exact .ternary condition isQuestion ifTrue isColon ifFalse
  · intro _
    exact .pure (.plain condition)

end Nested

/-! ### Whole expressions -/

/-- Cutting off records a mistake, drops the tokens and takes a number for the placeholder. -/
theorem cutOff_state
    (limit : Int) (s : State) :
    ∃ cause span, (cutOff limit s).2 =
      { (record cause span s).2 with
        rest := [], halted := true, nextId := (record cause span s).2.nextId + 1 } := by
  by_cases h : limit ≤ maximumNesting
  · refine ⟨.nestingExceeded limit, (nextSpan s).1, ?_⟩
    simp only [cutOff, if_pos h]
    rfl
  · refine ⟨.nestedTooDeeply, ⟨0, s.sourceLength⟩, ?_⟩
    simp only [cutOff, if_neg h]
    rfl

theorem not_clean_cutOff
    (limit : Int) (s : State) :
    ¬ (cutOff limit s).2.Clean := by
  obtain ⟨cause, span, h⟩ := cutOff_state limit s
  intro clean
  have := clean.halted
  rw [h] at this
  exact absurd this (by simp)

instance proper_cutOff
    (limit : Int) :
    Proper (cutOff limit) where
  clean s clean := absurd clean (not_clean_cutOff limit s)
  settled s settled := by
    obtain ⟨cause, span, h⟩ := cutOff_state limit s
    rw [h]
    exact .inr (settled_record cause span s settled)

instance proper_exprAt
    (limit : Int) (budget : Nat) :
    Proper (exprAt limit budget) := by
  induction budget with
  | zero => exact proper_cutOff limit
  | succ budget ih => exact proper_conditional

/-- The trees that the parser builds without a mistake have derivations. -/
theorem sound_exprAt
    (limit : Int) (n : Nat) (i : List Token) :
    Sound i (exprAt limit n) fun e r => Derives n (.expr e.erase) i r := by
  induction n generalizing i with
  | zero => exact fun s _ clean => absurd clean (not_clean_cutOff limit s)
  | succ n ih => exact sound_conditional ih i

end Parser
end ExprLang
