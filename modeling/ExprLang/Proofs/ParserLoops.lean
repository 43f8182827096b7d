import ExprLang.Proofs.ParserProgress

/-!
# The loops of the parser

Each loop of the parser repeats a round, which takes at least one token or stops.  The number of
rounds is bounded by the number of tokens ahead, which is always enough.

* `iterate`: repeating a round.
* `Round`: what the rounds of the parser have in common.
* `iterate_itemRound`, `iterate_entryRound`: lists of items and of entries as repeated rounds.
* `chained`: an expression that a repeated round continues.
* `leftAssoc_apply`, `member_apply`: chains of operators and members are such.
* `unary_of_noSign`, `unary_of_negated`, `unary_of_sign`: operators in front of an operand, the first
  of which is applied last.
-/

namespace ExprLang
namespace Parser

open Grammar (startsWith negatable? postfixOpeners)

/-- What a round comes to: the loop stops, or it goes on. -/
inductive Step (σ : Type) where
  | stop (x : σ)
  | go (x : σ)

/-- What a round comes to in other terms. -/
def Step.map {σ τ : Type} (g : σ → τ) : Step σ → Step τ
  | .stop x => .stop (g x)
  | .go x => .go (g x)

variable {σ α β : Type}

theorem bind_apply
    (m : Parser α) (f : α → Parser β) (s : State) :
    (m >>= f) s = f (m s).1 (m s).2 :=
  rfl

theorem nextSpan_cons
    {s : State} {t : Token} {after : List Token}
    (rest : s.rest = t :: after) :
    nextSpan s = (t.span, s) := by
  obtain ⟨_, _, _, _, _, _, _⟩ := s
  cases rest
  rfl

theorem peek_cons
    {s : State} {t : Token} {after : List Token}
    (rest : s.rest = t :: after) :
    peek s = (some t, s) := by
  obtain ⟨_, _, _, _, _, _, _⟩ := s
  cases rest
  rfl

/-- Repeats a round until it stops, at most `fuel` times. -/
def iterate (round : σ → Parser (Step σ)) : Nat → σ → Parser σ
  | 0, x => return x
  | fuel + 1, x => do
      match ← round x with
      | .stop y => return y
      | .go y => iterate round fuel y

/-- A round that stops at the end of the input and takes a token if it goes on. -/
class Round (round : σ → Parser (Step σ)) : Prop where
  onward : ∀ x, Onward (round x)
  stops : ∀ x s, s.rest = [] → round x s = (.stop x, s)
  goes : ∀ x s y, (round x s).2.Clean → (round x s).1 = .go y →
    (round x s).2.rest.length < s.rest.length

section Iterate

variable {round : σ → Parser (Step σ)}

instance onward_iterate
    [rounds : Round round]
    (fuel : Nat) (x : σ) :
    Onward (iterate round fuel x) := by
  induction fuel generalizing x with
  | zero => exact .pure x
  | succ fuel ih =>
      refine @Onward.bind _ _ _ _ (rounds.onward x) fun step => ?_
      cases step <;> infer_instance

/-- One round, and those after it. -/
theorem iterate_go
    {fuel : Nat} {x y : σ} {s : State}
    (went : (round x s).1 = .go y) :
    iterate round (fuel + 1) x s = iterate round fuel y (round x s).2 := by
  rw [iterate, bind_apply, went]

/-- The first round of a clean run is clean, and the others go on after it. -/
theorem first_of_iterate
    [rounds : Round round]
    {fuel : Nat} {x : σ} {s : State}
    (clean : (iterate round (fuel + 1) x s).2.Clean) :
    (round x s).2.Clean ∧ (round x s).2.Before (iterate round (fuel + 1) x s).2 := by
  rw [iterate, bind_apply] at clean ⊢
  cases step : (round x s).1 with
  | stop y =>
      rw [step] at clean
      exact ⟨clean, .refl _⟩
  | go y =>
      rw [step] at clean
      exact Onward.onward _ clean

/-- At the end of the input nothing is repeated. -/
theorem iterate_nil
    [rounds : Round round]
    (fuel : Nat) (x : σ)
    {s : State}
    (rest : s.rest = []) :
    iterate round fuel x s = (x, s) := by
  cases fuel with
  | zero => rfl
  | succ fuel =>
      rw [iterate, bind_apply, rounds.stops x s rest]
      rfl

end Iterate

/-! ### Items and entries -/

section Items

variable (expr : Parser Expr)

/-- One item after those before it. -/
def itemRound (close : String) (before : List Expr) : Parser (Step (List Expr)) := do
  if (← atSymbol close) || (← atEnd) then
    return .stop before
  else
    let e ← expr
    if ← takeSymbol "," then return .go (before ++ [e]) else return .stop (before ++ [e])

theorem iterate_itemRound
    (close : String) (fuel : Nat) (before : List Expr) :
    iterate (itemRound expr close) fuel before = (before ++ ·) <$> itemLoop expr close fuel := by
  induction fuel generalizing before with
  | zero => simp [iterate, itemLoop]
  | succ fuel ih =>
      simp only [iterate, itemRound, itemLoop, bind_assoc, map_bind]
      refine bind_congr fun closes => bind_congr fun ends => ?_
      split
      · simp
      · simp only [bind_assoc, map_bind]
        refine bind_congr fun e => bind_congr fun comma => ?_
        split <;> simp [ih]

theorem items_eq
    (close : String) :
    items expr close = do
      let es ← iterate (itemRound expr close) (← remaining) []
      let _ ← expect close
      return es := by
  simp only [iterate_itemRound, List.nil_append, id_map', items]

/-- One entry after those before it. -/
def entryRound (before : List (Expr × Expr)) : Parser (Step (List (Expr × Expr))) := do
  if (← atSymbol "\x7d") || (← atEnd) then
    return .stop before
  else
    let key ← expr
    if ← expect ":" then
      let value ← expr
      if ← takeSymbol "," then
        return .go (before ++ [(key, value)])
      else
        return .stop (before ++ [(key, value)])
    else
      return .stop before

theorem iterate_entryRound
    (fuel : Nat) (before : List (Expr × Expr)) :
    iterate (entryRound expr) fuel before = (before ++ ·) <$> entryLoop expr fuel := by
  induction fuel generalizing before with
  | zero => simp [iterate, entryLoop]
  | succ fuel ih =>
      simp only [iterate, entryRound, entryLoop, bind_assoc, map_bind]
      refine bind_congr fun closes => bind_congr fun ends => ?_
      split
      · simp
      · simp only [bind_assoc, map_bind]
        refine bind_congr fun key => bind_congr fun colon => ?_
        split
        · simp only [bind_assoc, map_bind]
          refine bind_congr fun value => bind_congr fun comma => ?_
          split <;> simp [ih]
        · simp

theorem mapBody_eq
    (start : Nat) :
    mapBody expr start = do
      let entries ← iterate (entryRound expr) (← remaining) []
      let _ ← expect "\x7d"
      return .map (← newMark start) entries := by
  simp only [iterate_entryRound, List.nil_append, id_map', mapBody]

end Items

/-! ### Chains -/

/-- An expression that a round continues, which knows where the expression starts. -/
def chained (first : Parser Expr) (round : Nat → Expr → Parser (Step Expr)) (fuel : Nat) :
    Parser Expr := do
  let start := (← nextSpan).start
  let e ← first
  iterate (round start) fuel e

instance onward_chained
    {first : Parser Expr} {round : Nat → Expr → Parser (Step Expr)} {fuel : Nat}
    [Onward first]
    [∀ start, Round (round start)] :
    Onward (chained first round fuel) :=
  .bind

instance strict_chained
    {first : Parser Expr} {round : Nat → Expr → Parser (Step Expr)} {fuel : Nat}
    [Onward first]
    [Strict first]
    [∀ start, Round (round start)] :
    Strict (chained first round fuel) :=
  @Strict.skip _ _ _ _ inferInstance (fun _ => .bind) fun _ => .bind

/-- One operator and its right operand, for a left operand. -/
def operatorRound (level : Level) (operand : Parser Expr) (start : Nat) (left : Expr) :
    Parser (Step Expr) := do
  match ← takeOperator? level with
  | none => return .stop left
  | some op =>
      let right ← operand
      return .go (.binary (← newMark start) op left right)

theorem iterate_operatorRound
    (level : Level) (operand : Parser Expr) (start fuel : Nat) (left : Expr) :
    iterate (operatorRound level operand start) fuel left =
      operatorLoop level operand start fuel left := by
  induction fuel generalizing left with
  | zero => rfl
  | succ fuel ih =>
      rw [operatorLoop, iterate, operatorRound, bind_assoc]
      refine bind_congr fun op? => ?_
      cases op? with
      | none => rfl
      | some op => simp only [bind_assoc, pure_bind, ih]

/-- A chain of operators has as many rounds as there are tokens after its first operand. -/
theorem leftAssoc_apply
    (level : Level) (operand : Parser Expr) (s : State) :
    leftAssoc level operand s =
      chained operand (operatorRound level operand) (operand s).2.rest.length s := by
  simp only [leftAssoc, chained, iterate_operatorRound]
  rfl

/-- A field or a method call, after the dot. -/
def fieldRound (expr : Parser Expr) (start : Nat) (e : Expr) : Parser (Step Expr) := do
  match ← peek with
  | none =>
      record (.expectedField none) (← nextSpan)
      return .stop e
  | some name =>
      if name.isIdent then
        advance
        if ← takeSymbol "(" then
          let args ← items expr ")"
          return .go (← methodCall start name.text e args)
        else
          return .go (.select (← newMark start) e name.text)
      else
        record (.expectedField (some name.text)) name.span
        return .stop e

/-- A field, an index or a call after an expression. -/
def postfixRound (expr : Parser Expr) (start : Nat) (e : Expr) : Parser (Step Expr) := do
  if ← takeSymbol "." then
    fieldRound expr start e
  else if ← takeSymbol "[" then
    let key ← expr
    let _ ← expect "]"
    return .go (.index (← newMark start) e key)
  else if ← takeSymbol "(" then
    let args ← items expr ")"
    return .go (.invoke (← newMark start) e args)
  else
    return .stop e

theorem iterate_postfixRound
    (expr : Parser Expr) (start fuel : Nat) (e : Expr) :
    iterate (postfixRound expr start) fuel e = postfixLoop expr start fuel e := by
  induction fuel generalizing e with
  | zero => rfl
  | succ fuel ih =>
      rw [postfixLoop, iterate, postfixRound, bind_assoc]
      refine bind_congr fun dot => ?_
      split
      · rw [fieldRound, bind_assoc]
        refine bind_congr fun name? => ?_
        cases name? with
        | none => simp only [bind_assoc, pure_bind]
        | some name =>
            dsimp only
            split
            · simp only [bind_assoc]
              refine bind_congr fun _ => bind_congr fun paren => ?_
              split <;> simp only [bind_assoc, pure_bind, ih]
            · simp only [bind_assoc, pure_bind]
      · rw [bind_assoc]
        refine bind_congr fun bracket => ?_
        split
        · simp only [bind_assoc, pure_bind, ih]
        · rw [bind_assoc]
          refine bind_congr fun paren => ?_
          split <;> simp only [bind_assoc, pure_bind, ih]

/-- A member has as many rounds as there are tokens after its innermost part. -/
theorem member_apply
    (expr : Parser Expr) (s : State) :
    member expr s =
      chained (primary expr) (postfixRound expr) (primary expr s).2.rest.length s := by
  simp only [member, chained, iterate_postfixRound]
  rfl

/-! ### Operators in front of an operand -/

section Signs

variable {expr : Parser Expr} {s : State} {t : Token} {after : List Token} {op : UnaryOp}

theorem takePrefixes_cons
    {fuel : Nat}
    (rest : s.rest = t :: after) :
    takePrefixes (fuel + 1) s =
      match prefixOf? t with
      | none => ([], s)
      | some op => (do return (op, t.span.start) :: (← takePrefixes fuel)) (advance s).2 := by
  obtain ⟨_, _, _, _, _, _, _⟩ := s
  cases rest
  change (match prefixOf? t with
    | none => return []
    | some op => do
        advance
        let others ← takePrefixes fuel
        return (op, t.span.start) :: others : Parser (List (UnaryOp × Nat))) _ = _
  cases prefixOf? t <;> rfl

theorem takePrefixes_of_noSign
    {fuel : Nat}
    (rest : s.rest = t :: after)
    (noSign : prefixOf? t = none) :
    takePrefixes fuel s = ([], s) := by
  cases fuel with
  | zero => rfl
  | succ fuel => rw [takePrefixes_cons rest, noSign]

theorem takePrefixes_of_sign
    {fuel : Nat}
    (rest : s.rest = t :: after)
    (isSign : prefixOf? t = some op) :
    takePrefixes (fuel + 1) s =
      (do return (op, t.span.start) :: (← takePrefixes fuel)) (advance s).2 := by
  rw [takePrefixes_cons rest, isSign]

theorem takePrefixes_eq_nil
    {fuel : Nat}
    (none : (takePrefixes fuel s).1 = []) :
    (takePrefixes fuel s).2 = s := by
  cases fuel with
  | zero => rfl
  | succ fuel =>
      cases rest : s.rest with
      | nil =>
          obtain ⟨_, _, _, _, _, _, _⟩ := s
          cases rest
          rfl
      | cons t after =>
          cases isSign : prefixOf? t with
          | none => rw [takePrefixes_of_noSign rest isSign]
          | some op =>
              rw [takePrefixes_of_sign rest isSign] at none
              cases none

theorem prefixOf?_of_negated?
    {i : List Token} {u : Token} {n : Nat}
    (found : negated? i = some (u, n)) :
    prefixOf? u = none := by
  obtain ⟨_, isInteger, rfl⟩ := negated?_eq_some found
  cases kind : u.kind <;> simp_all [negatable?, prefixOf?]

/-- An operand behind operators that are taken already, the last of them first. -/
def behindPrefixes (expr : Parser Expr) (prefixes : List (UnaryOp × Nat)) : Parser Expr := do
  match prefixes, ← negatedInt? with
  | (.neg, start) :: outer, some (t, n) => do
      advance
      let e ← intLiteral t n start true
      applyPrefixes outer e
  | _, _ => do
      let e ← member expr
      applyPrefixes prefixes e

theorem unary_apply
    (s : State) :
    unary expr s = behindPrefixes expr (takePrefixes s.rest.length s).1.reverse
      (takePrefixes s.rest.length s).2 :=
  rfl

theorem behindPrefixes_apply
    (prefixes : List (UnaryOp × Nat)) (s : State) :
    behindPrefixes expr prefixes s =
      (match prefixes, negated? s.rest with
      | (.neg, start) :: outer, some (t, n) => do
          advance
          let e ← intLiteral t n start true
          applyPrefixes outer e
      | _, _ => do
          let e ← member expr
          applyPrefixes prefixes e) s := by
  rw [behindPrefixes, negatedInt?_eq]
  rfl

/-- An operand behind one operator. -/
def signed (op : UnaryOp) (start : Nat) (operand : Parser Expr) : Parser Expr := do
  let e ← operand
  return .unary (← newMark start) op e

instance onward_signed
    {start : Nat} {operand : Parser Expr}
    [Onward operand] :
    Onward (signed op start operand) :=
  .bind

instance strict_signed
    {start : Nat} {operand : Parser Expr}
    [Strict operand] :
    Strict (signed op start operand) :=
  .bind

theorem signed_bind
    {start : Nat} (m : Parser α) (f : α → Parser Expr) :
    signed op start (m >>= f) = m >>= fun a => signed op start (f a) :=
  bind_assoc m f _

theorem applyPrefixes_snoc
    (prefixes : List (UnaryOp × Nat)) (start : Nat) (e : Expr) :
    applyPrefixes (prefixes ++ [(op, start)]) e = signed op start (applyPrefixes prefixes e) := by
  induction prefixes generalizing e with
  | nil => simp [applyPrefixes, signed]
  | cons p prefixes ih => simp only [List.cons_append, applyPrefixes, ih, signed_bind]

theorem signed_congr
    {start : Nat} {m m' : Parser Expr} {s' : State}
    (same : m s = m' s') :
    signed op start m s = signed op start m' s' := by
  rw [signed, signed, bind_apply, same]
  rfl

/-- The first operator is applied last, unless it is the sign of an integer. -/
theorem behindPrefixes_snoc
    {prefixes : List (UnaryOp × Nat)} {start : Nat}
    (apart : prefixes = [] → op = .neg → negated? s.rest = none) :
    behindPrefixes expr (prefixes ++ [(op, start)]) s =
      signed op start (behindPrefixes expr prefixes) s := by
  rw [behindPrefixes_apply, signed_congr (behindPrefixes_apply prefixes s)]
  match prefixes with
  | [] =>
      cases op with
      | not => simp [applyPrefixes, signed]
      | neg =>
          rw [apart rfl rfl]
          simp [applyPrefixes, signed]
  | (.not, start') :: outer =>
      rw [signed_bind]
      simp only [← applyPrefixes_snoc, List.cons_append]
  | (.neg, start') :: outer =>
      cases negated? s.rest with
      | none =>
          rw [signed_bind]
          simp only [← applyPrefixes_snoc, List.cons_append]
      | some found =>
          simp only [signed_bind, ← applyPrefixes_snoc, List.cons_append]

theorem unary_of_noSign
    (rest : s.rest = t :: after)
    (noSign : prefixOf? t = none) :
    unary expr s = member expr s := by
  rw [unary_apply, takePrefixes_of_noSign rest noSign, List.reverse_nil, behindPrefixes_apply]
  simp [applyPrefixes]

theorem unary_of_negated
    {u : Token} {n : Nat}
    (rest : s.rest = t :: after)
    (isMinus : prefixOf? t = some .neg)
    (found : negated? after = some (u, n)) :
    unary expr s = (do advance; intLiteral u n t.span.start true) (advance s).2 := by
  have rest' : (advance s).2.rest = after := by rw [advance_cons rest]
  obtain ⟨_, -, isNext⟩ := negated?_eq_some found
  rw [unary_apply, rest, List.length_cons, takePrefixes_of_sign rest isMinus, bind_apply,
    takePrefixes_of_noSign (rest'.trans isNext) (prefixOf?_of_negated? found)]
  change behindPrefixes expr [(.neg, t.span.start)] (advance s).2 = _
  rw [behindPrefixes_apply, rest', found]
  simp [applyPrefixes]

theorem unary_of_sign
    (rest : s.rest = t :: after)
    (isSign : prefixOf? t = some op)
    (apart : op = .neg → negated? after = none) :
    unary expr s = signed op t.span.start (unary expr) (advance s).2 := by
  have rest' : (advance s).2.rest = after := by rw [advance_cons rest]
  rw [unary_apply, rest, List.length_cons, takePrefixes_of_sign rest isSign]
  refine (congrFun (congrArg _ List.reverse_cons) _).trans ((behindPrefixes_snoc ?_).trans ?_)
  · intro none isMinus
    change negated? (takePrefixes after.length (advance s).2).2.rest = _
    rw [takePrefixes_eq_nil (List.reverse_eq_nil_iff.mp none), rest']
    exact apart isMinus
  · refine signed_congr ?_
    rw [unary_apply, rest']
    rfl

end Signs

/-! ### The rounds of the parser -/

section Rounds

variable {expr : Parser Expr} [Onward expr]

/-- The operator of a level that comes next. -/
def operatorAt? (level : Level) : List Token → Option BinaryOp
  | [] => none
  | t :: _ => (level.find? fun (text, _) => t.isSymbol text).map Prod.snd

theorem takeOperator?_apply
    (level : Level) (s : State) :
    takeOperator? level s =
      match operatorAt? level s.rest with
      | none => (none, s)
      | some op => (some op, (advance s).2) := by
  have here : (get : Parser State) s = (s, s) := rfl
  rw [takeOperator?, bind_apply, here]
  dsimp only
  cases s.rest with
  | nil => rfl
  | cons t after =>
      dsimp only [operatorAt?]
      cases level.find? fun entry => t.isSymbol entry.1 <;> rfl

/-- Where an operator comes next, there is a token to take. -/
theorem length_advance_of_operatorAt?
    {level : Level} {s : State} {op : BinaryOp}
    (found : operatorAt? level s.rest = some op) :
    (advance s).2.rest.length < s.rest.length := by
  cases rest : s.rest with
  | nil => simp [rest, operatorAt?] at found
  | cons t after =>
      rw [advance_cons rest]
      exact Nat.lt_succ_self _

instance onward_operatorRound
    (level : Level) (start : Nat) (left : Expr) :
    Onward (operatorRound level expr start left) := by
  refine @Onward.bind _ _ _ _ inferInstance fun op? => ?_
  cases op? <;> infer_instance

instance round_operatorRound
    (level : Level) (start : Nat) :
    Round (operatorRound level expr start) where
  onward := inferInstance
  stops left s rest := by
    rw [operatorRound, bind_apply, takeOperator?_apply, rest]
    rfl
  goes left s y clean went := by
    rw [operatorRound, bind_apply, takeOperator?_apply] at clean went ⊢
    cases found : operatorAt? level s.rest with
    | none =>
        rw [found] at went
        cases went
    | some op =>
        rw [found] at clean
        obtain ⟨-, after⟩ := Onward.onward _ clean
        exact Nat.lt_of_le_of_lt after.length_le (length_advance_of_operatorAt? found)

instance onward_fieldRound
    (start : Nat) (e : Expr) :
    Onward (fieldRound expr start e) := by
  refine @Onward.bind _ _ _ _ inferInstance fun name? => ?_
  cases name? <;> infer_instance

instance strict_fieldRound
    (start : Nat) (e : Expr) :
    Strict (fieldRound expr start e) where
  length_lt s clean := by
    rw [fieldRound, bind_apply] at clean ⊢
    cases rest : s.rest with
    | nil =>
        have noNext : peek s = (none, s) := by
          obtain ⟨_, _, _, _, _, _, _⟩ := s
          cases rest
          rfl
        rw [noNext] at clean
        exact absurd clean (Faulty.unclean s)
    | cons t after =>
        rw [peek_cons rest] at clean ⊢
        dsimp only at clean ⊢
        split at clean
        · next isName =>
            rw [if_pos isName]
            rw [bind_apply, advance_cons rest] at clean ⊢
            exact Nat.lt_succ_of_le (Onward.onward _ clean).2.length_le
        · exact absurd clean (Faulty.unclean s)

instance onward_postfixRound
    (start : Nat) (e : Expr) :
    Onward (postfixRound expr start e) :=
  @Onward.bind _ _ _ _ inferInstance fun _ => @Onward.ite _ _ _ _ _ inferInstance inferInstance

/-- Where a chosen symbol comes next, a token is taken. -/
theorem length_ifSymbol
    {text : String} {m m' : Parser α} {s : State}
    [Onward m]
    (starts : startsWith text s.rest = true)
    (clean : ((do if ← takeSymbol text then m else m' : Parser α) s).2.Clean) :
    ((do if ← takeSymbol text then m else m' : Parser α) s).2.rest.length < s.rest.length := by
  rw [ifSymbol_apply, if_pos starts] at clean ⊢
  obtain ⟨-, after⟩ := Onward.onward _ clean
  exact Nat.lt_of_le_of_lt after.length_le (length_advance_of_startsWith starts)

/-- Where a field, an index or a call comes next, a token is taken. -/
theorem length_postfixRound
    {start : Nat} {e : Expr} {text : String} {s : State}
    (opens : text ∈ postfixOpeners)
    (starts : startsWith text s.rest = true)
    (clean : (postfixRound expr start e s).2.Clean) :
    (postfixRound expr start e s).2.rest.length < s.rest.length := by
  unfold postfixRound at clean ⊢
  by_cases dot : startsWith "." s.rest = true
  · exact length_ifSymbol dot clean
  rw [ifSymbol_apply, if_neg dot] at clean ⊢
  by_cases bracket : startsWith "[" s.rest = true
  · exact length_ifSymbol bracket clean
  rw [ifSymbol_apply, if_neg bracket] at clean ⊢
  by_cases paren : startsWith "(" s.rest = true
  · exact length_ifSymbol paren clean
  · simp only [postfixOpeners, List.mem_cons, List.not_mem_nil, or_false] at opens
    rcases opens with rfl | rfl | rfl <;> contradiction

instance round_postfixRound
    (start : Nat) :
    Round (postfixRound expr start) where
  onward := inferInstance
  stops e s rest := by
    rw [postfixRound, ifSymbol_apply, ifSymbol_apply, ifSymbol_apply, rest]
    rfl
  goes e s y clean went := by
    by_cases found : ∃ text ∈ postfixOpeners, startsWith text s.rest = true
    · obtain ⟨text, opens, starts⟩ := found
      exact length_postfixRound opens starts clean
    · simp only [postfixOpeners, List.mem_cons, List.not_mem_nil, or_false, exists_eq_or_imp,
        exists_eq_left, not_or] at found
      rw [postfixRound, ifSymbol_apply, if_neg found.1, ifSymbol_apply, if_neg found.2.1,
        ifSymbol_apply, if_neg found.2.2] at went
      cases went

/-- A choice by whether items end here. -/
theorem ifItemsEnd_apply
    (close : String) (m m' : Parser α) (s : State) :
    (do if (← atSymbol close) || (← atEnd) then m else m' : Parser α) s =
      if startsWith close s.rest || s.rest.isEmpty then m s else m' s := by
  change (if (atSymbol close s).1 || (atSymbol close s).2.rest.isEmpty then m else m')
    (atSymbol close s).2 = _
  rw [atSymbol_apply]
  split <;> rfl

/-- A round that reads something where items do not end. -/
theorem round_ifItemsEnd
    {m : σ → Parser (Step σ)}
    [∀ x, Onward (m x)]
    [∀ x, Strict (m x)]
    (close : String) :
    Round fun x => do if (← atSymbol close) || (← atEnd) then return .stop x else m x where
  onward _ := .bind
  stops x s rest := by
    rw [ifItemsEnd_apply, rest, List.isEmpty_nil, Bool.or_true]
    rfl
  goes x s y clean went := by
    rw [ifItemsEnd_apply] at clean went ⊢
    split at went
    · cases went
    next more =>
      rw [if_neg more] at clean ⊢
      exact Strict.length_lt s clean

instance round_itemRound
    [Strict expr]
    (close : String) :
    Round (itemRound expr close) :=
  @round_ifItemsEnd _ _ (fun _ => .bind) (fun _ => .bind) close

instance round_entryRound
    [Strict expr] :
    Round (entryRound expr) :=
  @round_ifItemsEnd _ _ (fun _ => .bind) (fun _ => .bind) "\x7d"

end Rounds

end Parser
end ExprLang
