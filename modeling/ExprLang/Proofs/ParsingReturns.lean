import ExprLang.Proofs.UnboundedParser

/-!
# Parsing always comes to an end

The parser without bounds gives a result for all tokens, malformed or not, and the result is the one
that the parser gives.  Two facts carry this, and they hold of all runs, with mistakes or without.  A
round that goes on has taken a token.  A nested expression begins where fewer tokens are ahead than
where the expression around it begins.

* `Ends round`: the round takes a token or is the last; the rounds of all loops are so.
* `Returns n m m'`: where fewer than `n` tokens are ahead, `m` gives the result of `m'`.
* `Returns.repeated`: a loop of rounds that take tokens needs no bound.
* `returns_conditional`: what a nested parser gives matters only where fewer tokens are ahead.
* `unbounded_returns`: all together.
-/

namespace ExprLang
namespace Parser

open Grammar (startsWith)

variable {α β σ : Type}

/-! ### Rounds that take tokens -/

/-- A run that goes on only where it has taken a token. -/
def Takes (m : Parser (Step σ)) : Prop :=
  ∀ s y, (m s).1 = .go y → (m s).2.rest.length < s.rest.length

namespace Takes

theorem stop
    (x : σ) :
    Takes (pure (.stop x)) :=
  fun _ _ went => nomatch went

theorem bind
    {m : Parser α} {f : α → Parser (Step σ)}
    [h : Composed m]
    (later : ∀ a, Takes (f a)) :
    Takes (m >>= f) :=
  fun s y went => Nat.lt_of_lt_of_le (later _ _ y went) (h.length_le s)

theorem ite
    {c : Prop} [Decidable c] {m m' : Parser (Step σ)}
    (h : Takes m)
    (h' : Takes m') :
    Takes (if c then m else m') := by
  split
  · exact h
  · exact h'

/-- A symbol that comes next is a token that is taken. -/
theorem ifSymbol
    {text : String} {m m' : Parser (Step σ)}
    [h : Composed m]
    (absent : Takes m') :
    Takes (do if ← takeSymbol text then m else m') := by
  intro s y went
  rw [ifSymbol_apply] at went ⊢
  by_cases starts : startsWith text s.rest = true
  · rw [if_pos starts]
    exact Nat.lt_of_le_of_lt (h.length_le _) (length_advance_of_startsWith starts)
  · rw [if_neg starts] at went ⊢
    exact absent s y went

end Takes

/-- A round that stops at the end of the input, and goes on only where it has taken a token. -/
structure Ends (round : σ → Parser (Step σ)) : Prop where
  stops : ∀ x s, s.rest = [] → round x s = (.stop x, s)
  takes : ∀ x, Takes (round x)

/-- The operator in front of an operand that comes next, with its offset. -/
def signAt? : List Token → Option (UnaryOp × Nat)
  | [] => none
  | t :: _ => (prefixOf? t).map (·, t.span.start)

theorem prefixRound_apply
    (before : List (UnaryOp × Nat)) (s : State) :
    prefixRound before s =
      match signAt? s.rest with
      | none => (.stop before, s)
      | some sign => (.go (before ++ [sign]), (advance s).2) := by
  have here : (get : Parser State) s = (s, s) := rfl
  rw [prefixRound, bind_apply, here]
  dsimp only
  cases s.rest with
  | nil => rfl
  | cons t after =>
      dsimp only [signAt?]
      cases prefixOf? t <;> rfl

instance composed_prefixRound
    (before : List (UnaryOp × Nat)) :
    Composed (prefixRound before) := by
  refine @Composed.bind _ _ _ _ inferInstance fun s => ?_
  split
  · infer_instance
  · split <;> infer_instance

theorem length_advance_lt
    {s : State}
    (ahead : s.rest ≠ []) :
    (advance s).2.rest.length < s.rest.length := by
  cases rest : s.rest with
  | nil => exact absurd rest ahead
  | cons t after =>
      rw [advance_cons rest]
      exact Nat.lt_succ_self _

theorem ends_prefixRound : Ends prefixRound where
  stops before s rest := by
    rw [prefixRound_apply, rest]
    rfl
  takes before s y went := by
    rw [prefixRound_apply] at went ⊢
    cases sign : signAt? s.rest with
    | none =>
        rw [sign] at went
        cases went
    | some op =>
        refine length_advance_lt fun rest => ?_
        rw [rest] at sign
        cases sign

section Nested

variable {expr : Parser Expr} [Composed expr]

theorem ends_itemRound
    (close : String) :
    Ends (itemRound expr close) where
  stops before s rest := by
    rw [itemRound, ifItemsEnd_apply, rest, List.isEmpty_nil, Bool.or_true]
    rfl
  takes _ := .bind fun _ => .bind fun _ => .ite (.stop _) (.bind fun _ => .ifSymbol (.stop _))

theorem ends_entryRound : Ends (entryRound expr) where
  stops before s rest := by
    rw [entryRound, ifItemsEnd_apply, rest, List.isEmpty_nil, Bool.or_true]
    rfl
  takes _ := .bind fun _ => .bind fun _ => .ite (.stop _) <|
    .bind fun _ => .bind fun _ => .ite (.bind fun _ => .ifSymbol (.stop _)) (.stop _)

theorem ends_postfixRound
    (start : Nat) :
    Ends (postfixRound expr start) where
  stops e s rest := by
    rw [postfixRound, ifSymbol_apply, ifSymbol_apply, ifSymbol_apply, rest]
    rfl
  takes _ := .ifSymbol (.ifSymbol (.ifSymbol (.stop _)))

theorem ends_operatorRound
    (level : Level) (start : Nat) :
    Ends (operatorRound level expr start) where
  stops left s rest := by
    rw [operatorRound, bind_apply, takeOperator?_apply, rest]
    rfl
  takes left s y went := by
    rw [operatorRound, bind_apply, takeOperator?_apply] at went ⊢
    cases found : operatorAt? level s.rest with
    | none =>
        rw [found] at went
        cases went
    | some op =>
        have others : Composed (do
            let right ← expr
            return .go (.binary (← newMark start) op left right) : Parser (Step Expr)) :=
          inferInstance
        exact Nat.lt_of_le_of_lt (others.length_le _) (length_advance_of_operatorAt? found)

instance composed_takeSome : Composed (takeSome expr) :=
  .bind

instance composed_trailingRound
    (x : Unit) :
    Composed (trailingRound expr x) := by
  refine @Composed.bind _ _ _ _ inferInstance fun t? => ?_
  cases t? <;> infer_instance

/-- Where there is a token, one is taken: by the expression, or after it. -/
theorem length_takeSome
    {s : State}
    (ahead : s.rest ≠ []) :
    (takeSome expr s).2.rest.length < s.rest.length := by
  have le := Composed.length_le (m := expr) inferInstance s
  have apply : takeSome expr s =
      (if (expr s).2.rest.length = s.rest.length then advance else pure ()) (expr s).2 := rfl
  rw [apply]
  by_cases unchanged : (expr s).2.rest.length = s.rest.length
  · rw [if_pos unchanged, ← unchanged]
    refine length_advance_lt fun none => ahead ?_
    rw [none] at unchanged
    exact List.length_eq_zero_iff.mp unchanged.symm
  · rw [if_neg unchanged]
    exact Nat.lt_of_le_of_ne le unchanged

theorem ends_trailingRound : Ends (trailingRound expr) where
  stops _ s rest := by
    obtain ⟨_, _, _, _, _, _, _⟩ := s
    cases rest
    rfl
  takes _ s y went := by
    cases rest : s.rest with
    | nil =>
        rw [trailingRound, bind_apply, peek_nil rest] at went
        cases went
    | cons t after =>
        have same := rest_record (.trailing (some t.text)) t.span s
        rw [trailingRound, bind_apply, peek_cons rest, ← rest, ← same]
        refine length_takeSome fun none => ?_
        have atEnd := same.symm.trans none
        rw [rest] at atEnd
        cases atEnd

end Nested

/-! ### Runs that end as those of the parser -/

/-- Where fewer than `n` tokens are ahead, every run of `m` ends as that of `m'` does. -/
def Returns (n : Nat) (m : Reading α) (m' : Parser α) : Prop :=
  ∀ s, s.rest.length < n → ∀ r, m s r ↔ r = m' s

namespace Returns

variable {n : Nat}

theorem pure
    (a : α) :
    Returns n (pure a) (pure a) :=
  fun _ _ _ => .rfl

theorem lift
    (m : Parser α) :
    Returns n (liftM m) m :=
  fun _ _ _ => .rfl

theorem bind
    {m : Reading α} {m' : Parser α} {f : α → Reading β} {f' : α → Parser β}
    [composed : Composed m']
    (first : Returns n m m')
    (second : ∀ a, Returns n (f a) (f' a)) :
    Returns n (m >>= f) (m' >>= f') := by
  intro s few r
  have less := Nat.lt_of_le_of_lt (composed.length_le s) few
  constructor
  · rintro ⟨a, s', ran, others⟩
    obtain ⟨rfl, rfl⟩ := Prod.mk.inj ((first s few _).mp ran)
    exact (second _ _ less r).mp others
  · rintro rfl
    exact ⟨_, _, (first s few _).mpr rfl, (second _ _ less _).mpr rfl⟩

/-- A step of the parser, and what goes on after it. -/
theorem step
    {m : Parser α} {f : α → Reading β} {f' : α → Parser β}
    [Composed m]
    (second : ∀ a, Returns n (f a) (f' a)) :
    Returns n (liftM m >>= f) (m >>= f') :=
  .bind (.lift m) second

theorem ite
    {c : Prop} [Decidable c] {m k : Reading α} {m' k' : Parser α}
    (h : Returns n m m')
    (h' : Returns n k k') :
    Returns n (if c then m else k) (if c then m' else k') := by
  split
  · exact h
  · exact h'

theorem mono
    {k : Nat} {m : Reading α} {m' : Parser α}
    (h : Returns n m m')
    (le : k ≤ n) :
    Returns k m m' :=
  fun s few => h s (Nat.lt_of_lt_of_le few le)

/-- Behind a symbol fewer tokens are ahead. -/
theorem ifSymbol
    {text : String} {m k : Reading α} {m' k' : Parser α}
    (taken : Returns n m m')
    (absent : Returns (n + 1) k k') :
    Returns (n + 1) (do if ← takeSymbol text then m else k)
      (do if ← takeSymbol text then m' else k') := by
  intro s few r
  have first : (do if ← takeSymbol text then m else k : Reading α) s r ↔
      (if (takeSymbol text s).1 then m else k) (takeSymbol text s).2 r := by
    constructor
    · rintro ⟨b, s', ran, others⟩
      obtain ⟨rfl, rfl⟩ := Prod.mk.inj ran
      exact others
    · exact fun others => ⟨_, _, rfl, others⟩
  rw [first, takeSymbol_apply, ifSymbol_apply]
  by_cases starts : startsWith text s.rest = true
  · rw [if_pos starts, if_pos starts]
    exact taken _ (Nat.lt_of_lt_of_le (length_advance_of_startsWith starts) (Nat.le_of_lt_succ few)) r
  · rw [if_neg starts, if_neg starts]
    exact absent s few r

/-- A loop goes on with what its round comes to. -/
theorem repeated_iff
    {round : σ → Reading (Step σ)} {x : σ} {s s' : State} {step : Step σ} {r : σ × State}
    (comesTo : ∀ q, round x s q ↔ q = (step, s')) :
    Parser.repeated round x s r ↔
      match step with
      | .stop y => r = (y, s')
      | .go y => Parser.repeated round y s' r := by
  constructor
  · intro ran
    cases ran with
    | stop stopped =>
        obtain ⟨rfl, rfl⟩ := Prod.mk.inj ((comesTo _).mp stopped)
        rfl
    | go went others =>
        obtain ⟨rfl, rfl⟩ := Prod.mk.inj ((comesTo _).mp went)
        exact others
  · intro goesOn
    cases step with
    | stop y =>
        subst goesOn
        exact .stop ((comesTo _).mpr rfl)
    | go y => exact .go ((comesTo _).mpr rfl) goesOn

/-- A loop of rounds that take tokens comes to an end, by induction on the number of tokens ahead. -/
theorem repeated
    {round : σ → Reading (Step σ)} {round' : σ → Parser (Step σ)}
    (ends : Ends round')
    (rounds : ∀ x, Returns n (round x) (round' x))
    (x : σ) :
    Returns n (Parser.repeated round x) (do iterate round' (← remaining) x) := by
  have enough (fuel : Nat) : ∀ x s, s.rest.length ≤ fuel → s.rest.length < n → ∀ r,
      Parser.repeated round x s r ↔ r = iterate round' fuel x s := by
    induction fuel with
    | zero =>
        intro x s noneAhead few r
        have comesTo := rounds x s few
        rw [ends.stops x s (List.length_eq_zero_iff.mp (Nat.le_zero.mp noneAhead))] at comesTo
        exact repeated_iff comesTo
    | succ fuel ih =>
        intro x s ahead few r
        have comesTo := rounds x s few
        rw [iterate, bind_apply]
        rcases ran : round' x s with ⟨_ | y, s'⟩
        · rw [ran] at comesTo
          exact repeated_iff comesTo
        · have less := ends.takes x s y (congrArg Prod.fst ran)
          rw [ran] at comesTo less
          dsimp only at less
          rw [repeated_iff comesTo]
          exact ih y s' (by omega) (by omega) r
  exact fun s few => enough _ x s (Nat.le_refl _) few

end Returns

/-! ### Loops with a bound -/

theorem iterate_prefixRound
    (fuel : Nat) (before : List (UnaryOp × Nat)) :
    iterate prefixRound fuel before = (before ++ ·) <$> takePrefixes fuel := by
  induction fuel generalizing before with
  | zero => simp [iterate, takePrefixes]
  | succ fuel ih =>
      simp only [iterate, prefixRound, takePrefixes, bind_assoc, map_bind]
      refine bind_congr fun s => ?_
      cases s.rest with
      | nil => simp
      | cons t after =>
          dsimp only
          cases prefixOf? t <;> simp [ih]

theorem unary_eq
    (expr : Parser Expr) :
    unary expr = (do
      let prefixes ← iterate prefixRound (← remaining) []
      behindPrefixes expr prefixes.reverse) := by
  simp only [iterate_prefixRound, List.nil_append, id_map']
  rfl

theorem iterate_trailingRound
    (expr : Parser Expr) (fuel : Nat) :
    iterate (trailingRound expr) fuel () = trailingLoop expr fuel := by
  induction fuel with
  | zero => rfl
  | succ fuel ih =>
      rw [trailingLoop, iterate, trailingRound, bind_assoc]
      refine bind_congr fun t? => ?_
      cases t? with
      | none => rfl
      | some t =>
          simp only [takeSome, bind_assoc, pure_bind]
          refine bind_congr fun _ => bind_congr fun before => bind_congr fun _ =>
            bind_congr fun after => ?_
          split <;> simp only [pure_bind, ih]

/-! ### The parts of the parser -/

section Parts

variable {n : Nat} {expr : Reading Expr} {expr' : Parser Expr} [Composed expr']

section Behind

variable (h : Returns n expr expr')

include h

theorem returns_itemRound
    (close : String) (before : List Expr) :
    Returns n (Unbounded.itemRound expr close before) (itemRound expr' close before) :=
  .step fun _ => .step fun _ => .ite (.pure _) <|
    .bind h fun _ => .step fun _ => .ite (.pure _) (.pure _)

theorem returns_items
    (close : String) :
    Returns n (Unbounded.items expr close) (items expr' close) := by
  rw [items_eq, ← bind_assoc]
  exact .bind (.repeated (ends_itemRound close) (returns_itemRound h close) []) fun _ =>
    .step fun _ => .pure _

theorem returns_entryRound
    (before : List (Expr × Expr)) :
    Returns n (Unbounded.entryRound expr before) (entryRound expr' before) :=
  .step fun _ => .step fun _ => .ite (.pure _) <| .bind h fun _ => .step fun _ =>
    .ite (.bind h fun _ => .step fun _ => .ite (.pure _) (.pure _)) (.pure _)

theorem returns_mapBody
    (start : Nat) :
    Returns n (Unbounded.mapBody expr start) (mapBody expr' start) := by
  rw [mapBody_eq, ← bind_assoc]
  exact .bind (.repeated ends_entryRound (returns_entryRound h) []) fun _ =>
    .step fun _ => .step fun _ => .pure _

theorem returns_fieldRound
    (start : Nat) (e : Expr) :
    Returns n (Unbounded.fieldRound expr start e) (fieldRound expr' start e) := by
  refine .step fun name? => ?_
  cases name? with
  | none => exact .step fun _ => .step fun _ => .pure _
  | some name =>
      refine .ite (.step fun _ => .step fun _ => .ite ?_ (.step fun _ => .pure _))
        (.step fun _ => .pure _)
      exact .bind (returns_items h ")") fun _ => .step fun _ => .pure _

/-! Behind an opening bracket fewer tokens are ahead, so that one more may be ahead before it. -/

theorem returns_identifier
    (t : Token) :
    Returns (n + 1) (Unbounded.identifier expr t) (identifier expr' t) := by
  have call : Returns (n + 1)
      (do if ← takeSymbol "(" then
            let args ← Unbounded.items expr ")"
            functionCall t.span.start t.text t.span args
          else
            return .ident (← newMark t.span.start) t.text)
      (do if ← takeSymbol "(" then
            let args ← items expr' ")"
            functionCall t.span.start t.text t.span args
          else
            return .ident (← newMark t.span.start) t.text) :=
    .ifSymbol (.bind (returns_items h ")") fun _ => .lift _) (.step fun _ => .pure _)
  exact .ite (.step fun _ => call) call

theorem returns_bracketed
    (start : Nat) :
    Returns (n + 1) (Unbounded.bracketed expr start) (bracketed expr' start) := by
  refine .ifSymbol ?_ (.ifSymbol ?_ (.ifSymbol (returns_mapBody h start) ?_))
  · exact .bind h fun _ => .step fun _ => .pure _
  · exact .bind (returns_items h "]") fun _ => .step fun _ => .pure _
  · exact .step fun _ => .step fun _ => .step fun _ => .lift _

theorem returns_primary : Returns (n + 1) (Unbounded.primary expr) (primary expr') := by
  refine .step fun span => .step fun t? => ?_
  cases t? with
  | none => exact returns_bracketed h _
  | some t =>
      dsimp only
      cases t.kind with
      | int | uint => exact .step fun _ => .lift _
      | float | string | bytes | bool | null => exact .lift _
      | ident => exact .step fun _ => returns_identifier h t
      | operator | punctuation | endOfInput => exact returns_bracketed h _

theorem returns_postfixRound
    (start : Nat) (e : Expr) :
    Returns (n + 1) (Unbounded.postfixRound expr start e) (postfixRound expr' start e) := by
  refine .ifSymbol (returns_fieldRound h start e) (.ifSymbol ?_ (.ifSymbol ?_ (.pure _)))
  · exact .bind h fun _ => .step fun _ => .step fun _ => .pure _
  · exact .bind (returns_items h ")") fun _ => .step fun _ => .pure _

theorem returns_member : Returns (n + 1) (Unbounded.member expr) (member expr') := by
  refine .step fun span => .bind (returns_primary h) fun e => ?_
  simp only [← iterate_postfixRound]
  exact .repeated (ends_postfixRound _) (returns_postfixRound h _) e

theorem returns_unary : Returns (n + 1) (Unbounded.unary expr) (unary expr') := by
  rw [unary_eq, ← bind_assoc]
  refine .bind (.repeated ends_prefixRound (fun _ => .lift _) []) fun operators => ?_
  refine .step fun found => ?_
  match operators.reverse, found with
  | (.neg, start) :: outer, some (t, k) => exact .step fun _ => .step fun _ => .lift _
  | [], _ | (.not, _) :: _, _ | (.neg, _) :: _, none =>
      exact .bind (returns_member h) fun _ => .lift _

end Behind

theorem returns_operatorRound
    (h : Returns n expr expr')
    (level : Level) (start : Nat) (left : Expr) :
    Returns n (Unbounded.operatorRound level expr start left)
      (operatorRound level expr' start left) := by
  refine .step fun op? => ?_
  cases op? with
  | none => exact .pure _
  | some op => exact .bind h fun _ => .step fun _ => .pure _

theorem returns_leftAssoc
    (h : Returns n expr expr')
    (level : Level) :
    Returns n (Unbounded.leftAssoc level expr) (leftAssoc level expr') := by
  refine .step fun span => .bind h fun left => ?_
  simp only [← iterate_operatorRound]
  exact .repeated (ends_operatorRound level _) (returns_operatorRound h level _) left

instance composed_chain
    (levels : List Level) :
    Composed (levels.foldr leftAssoc (unary expr')) := by
  induction levels with
  | nil => exact composed_unary
  | cons level levels ih => exact composed_leftAssoc

theorem returns_chain
    (h : Returns n expr expr')
    (levels : List Level) :
    Returns (n + 1) (Unbounded.chain expr levels) (levels.foldr leftAssoc (unary expr')) := by
  induction levels with
  | nil => exact returns_unary h
  | cons level levels ih => exact returns_leftAssoc ih level

/-- What a nested parser gives matters only where fewer tokens are ahead than where the expression
begins: every nested expression begins behind at least one token of it. -/
theorem returns_conditional
    (h : Returns n expr expr') :
    Returns (n + 1) (Unbounded.conditional expr) (conditional expr') := by
  refine .step fun span => .bind (returns_chain h Grammar.operatorLevels) fun cond => ?_
  refine .ifSymbol ?_ (.pure _)
  exact .bind h fun _ => .step fun _ => .bind h fun _ => .step fun _ => .pure _

theorem returns_takeSome
    (h : Returns n expr expr') :
    Returns n (Unbounded.takeSome expr) (takeSome expr') :=
  .step fun _ => .bind h fun _ => .step fun _ => .ite (.lift _) (.pure _)

theorem returns_trailingRound
    (h : Returns n expr expr')
    (x : Unit) :
    Returns n (Unbounded.trailingRound expr x) (trailingRound expr' x) := by
  refine .step fun t? => ?_
  cases t? with
  | none => exact .pure _
  | some t => exact .step fun _ => .bind (returns_takeSome h) fun _ => .pure _

end Parts

theorem returns_exprAt
    (limit : Int) (nesting n : Nat) :
    Returns n (Unbounded.exprAt limit nesting) (exprAt limit nesting) := by
  induction nesting generalizing n with
  | zero => exact .lift _
  | succ nesting ih => exact (returns_conditional (ih n)).mono (Nat.le_succ n)

/-- A whole input in which expressions nest as deeply as is allowed. -/
def inputWithin (limit : Int) (nesting : Nat) : Parser Expr := do
  let e ← exprAt limit nesting
  trailingLoop (exprAt limit nesting) (← remaining)
  return e

theorem returns_input
    (limit : Int) (nesting n : Nat) :
    Returns n (Unbounded.input limit nesting) (inputWithin limit nesting) := by
  have nested := returns_exprAt limit nesting n
  simp only [inputWithin, ← iterate_trailingRound]
  refine .bind nested fun e => ?_
  rw [← bind_assoc]
  exact .bind (.repeated ends_trailingRound (returns_trailingRound nested) ()) fun _ => .pure _

/-! ### All inputs -/

/-- The round of a loop takes a token or is the last. -/
def Advances (round : σ → Reading (Step σ)) : Prop :=
  ∀ x s y s', round x s (.go y, s') → s'.rest.length < s.rest.length

theorem advances_of_ends
    {round : σ → Reading (Step σ)} {round' : σ → Parser (Step σ)}
    (ends : Ends round')
    (rounds : ∀ n x, Returns n (round x) (round' x)) :
    Advances round := by
  intro x s y s' went
  have same := (rounds _ x s (Nat.lt_succ_self _) _).mp went
  have less := ends.takes x s y (congrArg Prod.fst same.symm)
  rwa [← same] at less

/-- In every loop each round takes a token or is the last. -/
structure LoopsAdvance (expr : Reading Expr) : Prop where
  /-- Operators in front of an operand. -/
  signs : Advances fun before => (prefixRound before : Reading _)
  /-- Operators between operands. -/
  operators : ∀ level tighter start,
    Advances (Unbounded.operatorRound level (Unbounded.chain expr tighter) start)
  /-- Fields, indices and calls. -/
  postfixes : ∀ start, Advances (Unbounded.postfixRound expr start)
  /-- Items of a list and arguments. -/
  items : ∀ close, Advances (Unbounded.itemRound expr close)
  /-- Entries of a map. -/
  entries : Advances (Unbounded.entryRound expr)
  /-- Recovery after the expression. -/
  trailing : Advances (Unbounded.trailingRound expr)

theorem loopsAdvance
    (limit : Int) (nesting : Nat) :
    LoopsAdvance (Unbounded.exprAt limit nesting) := by
  have nested := returns_exprAt limit nesting
  exact {
    signs := advances_of_ends ends_prefixRound fun _ _ => .lift _
    operators := fun level tighter start =>
      advances_of_ends (ends_operatorRound level start) fun n left =>
        have operand := returns_chain (nested n) tighter
        (returns_operatorRound operand level start left).mono (Nat.le_succ n)
    postfixes := fun start =>
      advances_of_ends (ends_postfixRound start) fun n e =>
        (returns_postfixRound (nested n) start e).mono (Nat.le_succ n)
    items := fun close =>
      advances_of_ends (ends_itemRound close) fun n => returns_itemRound (nested n) close
    entries := advances_of_ends ends_entryRound fun n => returns_entryRound (nested n)
    trailing := advances_of_ends ends_trailingRound fun n => returns_trailingRound (nested n) }

/-- The runs that start where fewer than `n` tokens are ahead. -/
def startingBelow (n : Nat) (m : Reading α) : Reading α :=
  fun s r => s.rest.length < n ∧ m s r

/-- The parser without bounds comes to exactly one end for all tokens and however deeply expressions
may nest, and it is the one that the parser comes to.  In every loop each round takes a token or is
the last, and of the runs of a nested parser only those matter that start behind a token of the
expression around them. -/
theorem unbounded_returns
    (limit : Int) (nesting : Nat) :
    (∀ s, ∃! r, Unbounded.input limit nesting s r) ∧
    (∀ s r, Unbounded.input limit (budget limit) s r ↔ r = input limit s) ∧
    LoopsAdvance (Unbounded.exprAt limit nesting) ∧
    ∀ s r, Unbounded.conditional
        (startingBelow s.rest.length (Unbounded.exprAt limit nesting)) s r ↔
      Unbounded.conditional (Unbounded.exprAt limit nesting) s r := by
  refine ⟨fun s => ?_, fun s => ?_, loopsAdvance limit nesting, fun s r => ?_⟩
  · have ends := returns_input limit nesting _ s (Nat.lt_succ_self _)
    exact ⟨_, (ends _).mpr rfl, fun r => (ends r).mp⟩
  · exact returns_input limit (budget limit) _ s (Nat.lt_succ_self _)
  · have nested := returns_exprAt limit nesting s.rest.length
    have below : Returns s.rest.length
        (startingBelow s.rest.length (Unbounded.exprAt limit nesting)) (exprAt limit nesting) :=
      fun s' few r => (and_iff_right few).trans (nested s' few r)
    rw [returns_conditional below s (Nat.lt_succ_self _) r,
      returns_conditional nested s (Nat.lt_succ_self _) r]

end Parser
end ExprLang
