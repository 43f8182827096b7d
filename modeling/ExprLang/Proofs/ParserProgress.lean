import ExprLang.Proofs.Recognition

/-!
# How clean runs go on in the input

A clean run takes tokens from the front of the input, one after the other, and remembers where the
last of them ends.  A run that reads an expression takes at least one.

* `State.Before s s'`: from the one state to the other, tokens were taken.
* `Onward m`: clean runs of `m` take tokens; every part of the parser is so.
* `Faulty m`: runs of `m` record a mistake.
* `Strict m`: clean runs of `m` take at least one token; the levels of the grammar are so.
-/

namespace ExprLang
open Grammar (Phrase Derives startsWith)

namespace Parser

variable {α β : Type}

/-- Where the last of some tokens ends, and `before` if there is none. -/
def lastStop (before : Nat) (taken : List Token) : Nat :=
  taken.foldl (fun _ t => t.span.stop) before

theorem lastStop_append
    (before : Nat)
    (taken more : List Token) :
    lastStop before (taken ++ more) = lastStop (lastStop before taken) more :=
  List.foldl_append

/-- From the state `s` to the state `s'` tokens were taken and nodes were numbered. -/
structure State.Before (s s' : State) : Prop where
  taken : ∃ taken, s.rest = taken ++ s'.rest ∧ s'.lastEnd = lastStop s.lastEnd taken
  nextId : s.nextId ≤ s'.nextId
  sourceLength : s'.sourceLength = s.sourceLength

theorem State.Before.refl
    (s : State) :
    s.Before s :=
  ⟨⟨[], rfl, rfl⟩, Nat.le_refl _, rfl⟩

theorem State.Before.trans
    {s s' s'' : State}
    (h : s.Before s')
    (h' : s'.Before s'') :
    s.Before s'' := by
  obtain ⟨taken, rest, lastEnd⟩ := h.taken
  obtain ⟨more, rest', lastEnd'⟩ := h'.taken
  refine ⟨⟨taken ++ more, ?_, ?_⟩, h.nextId.trans h'.nextId, h'.sourceLength.trans h.sourceLength⟩
  · rw [rest, rest', List.append_assoc]
  · rw [lastEnd', lastEnd, lastStop_append]

theorem State.Before.length_le
    {s s' : State}
    (h : s.Before s') :
    s'.rest.length ≤ s.rest.length := by
  obtain ⟨taken, rest, -⟩ := h.taken
  rw [rest, List.length_append]
  exact Nat.le_add_left _ _

/-- A parser whose clean runs start clean and take tokens from the front of the input. -/
class Onward (m : Parser α) : Prop where
  onward : ∀ s, (m s).2.Clean → s.Clean ∧ s.Before (m s).2

/-! ### Composition -/

section Composition

variable {m m' : Parser α} {f : α → Parser β}

instance Onward.pure
    (a : α) :
    Onward (pure a : Parser α) :=
  ⟨fun s clean => ⟨clean, .refl s⟩⟩

instance Onward.get : Onward (get : Parser State) :=
  ⟨fun s clean => ⟨clean, .refl s⟩⟩

instance Onward.bind
    [hm : Onward m]
    [hf : ∀ a, Onward (f a)] :
    Onward (m >>= f) where
  onward s clean := by
    obtain ⟨between, after⟩ := (hf _).onward _ clean
    obtain ⟨start, before⟩ := hm.onward s between
    exact ⟨start, before.trans after⟩

instance Onward.ite
    {c : Prop} [Decidable c]
    [h : Onward m]
    [h' : Onward m'] :
    Onward (if c then m else m') := by
  split
  · exact h
  · exact h'

end Composition

/-! ### Tokens, mistakes and nodes -/

instance onward_advance : Onward advance where
  onward s clean := by
    refine ⟨proper_advance.clean s clean, ?_⟩
    cases rest : s.rest with
    | nil =>
        obtain ⟨_, _, _, _, _, _, _⟩ := s
        cases rest
        exact .refl _
    | cons t after =>
        rw [advance_cons rest]
        exact ⟨⟨[t], rest, rfl⟩, Nat.le_refl _, rfl⟩

instance onward_record
    (cause : SyntaxError) (span : Text.Span) :
    Onward (record cause span) :=
  ⟨fun s clean => absurd clean (not_clean_record cause span s)⟩

instance onward_newMark
    (start : Nat) :
    Onward (newMark start) :=
  ⟨fun s clean => ⟨(proper_newMark start).clean s clean, ⟨[], rfl, rfl⟩, Nat.le_succ _, rfl⟩⟩

instance onward_atSymbol
    (text : String) :
    Onward (atSymbol text) :=
  .bind

instance onward_takeSymbol
    (text : String) :
    Onward (takeSymbol text) :=
  .bind

/-- A symbol is taken if it comes next. -/
theorem takeSymbol_apply
    (text : String) (s : State) :
    takeSymbol text s =
      if startsWith text s.rest then (true, (advance s).2) else (false, s) := by
  change (if (atSymbol text s).1 then (do advance; return true : Parser Bool) else return false)
    (atSymbol text s).2 = _
  rw [atSymbol_apply]
  split <;> rfl

theorem ifSymbol_apply
    (text : String) (m m' : Parser α) (s : State) :
    (do if ← takeSymbol text then m else m' : Parser α) s =
      if startsWith text s.rest then m (advance s).2 else m' s := by
  change (if (takeSymbol text s).1 then m else m') (takeSymbol text s).2 = _
  rw [takeSymbol_apply]
  split <;> rfl

/-- Where a symbol comes next, there is a token to take. -/
theorem length_advance_of_startsWith
    {text : String} {s : State}
    (starts : startsWith text s.rest = true) :
    (advance s).2.rest.length < s.rest.length := by
  cases rest : s.rest with
  | nil => simp [rest, startsWith] at starts
  | cons t after =>
      rw [advance_cons rest]
      exact Nat.lt_succ_self _

instance onward_nextSpan : Onward nextSpan :=
  .bind

instance onward_peek : Onward peek :=
  .bind

instance onward_found : Onward found :=
  .bind

instance onward_remaining : Onward remaining :=
  .bind

instance onward_atEnd : Onward atEnd :=
  .bind

instance onward_expect
    (text : String) :
    Onward (expect text) :=
  .bind

/-- A parser whose runs never end clean. -/
class Faulty (m : Parser α) : Prop where
  unclean : ∀ s, ¬ (m s).2.Clean

instance faulty_record
    (cause : SyntaxError) (span : Text.Span) :
    Faulty (record cause span) :=
  ⟨not_clean_record cause span⟩

/-- No later step repairs a mistake. -/
instance Faulty.bind
    {m : Parser α} {f : α → Parser β}
    [hm : Faulty m]
    [hf : ∀ a, Onward (f a)] :
    Faulty (m >>= f) :=
  ⟨fun _ clean => hm.unclean _ ((hf _).onward _ clean).1⟩

instance Faulty.skip
    {m : Parser α} {f : α → Parser β}
    [hf : ∀ a, Faulty (f a)] :
    Faulty (m >>= f) :=
  ⟨fun _ clean => (hf _).unclean _ clean⟩

/-! ### Operators -/

instance onward_takeOperator?
    (level : Level) :
    Onward (takeOperator? level) := by
  refine @Onward.bind _ _ _ _ inferInstance fun s => ?_
  split
  · infer_instance
  · split <;> infer_instance

instance onward_operatorLoop
    {level : Level} {operand : Parser Expr} {start : Nat}
    [Onward operand]
    (fuel : Nat) (left : Expr) :
    Onward (operatorLoop level operand start fuel left) := by
  induction fuel generalizing left with
  | zero => exact .pure _
  | succ fuel ih =>
      refine @Onward.bind _ _ _ _ inferInstance fun op? => ?_
      cases op? <;> infer_instance

instance onward_leftAssoc
    {level : Level} {operand : Parser Expr}
    [Onward operand] :
    Onward (leftAssoc level operand) := by
  refine @Onward.bind _ _ _ _ inferInstance fun span => ?_
  dsimp only
  infer_instance

instance onward_takePrefixes
    (fuel : Nat) :
    Onward (takePrefixes fuel) := by
  induction fuel with
  | zero => exact .pure _
  | succ fuel ih =>
      refine @Onward.bind _ _ _ _ inferInstance fun s => ?_
      split
      · infer_instance
      · split <;> infer_instance

instance onward_applyPrefixes
    (ops : List (UnaryOp × Nat)) (e : Expr) :
    Onward (applyPrefixes ops e) := by
  induction ops generalizing e with
  | nil => exact .pure _
  | cons op ops ih => exact .bind

instance onward_negatedInt? : Onward negatedInt? := by
  rw [negatedInt?_eq]
  infer_instance

/-! ### Literals and calls -/

instance onward_intLiteral
    (t : Token) (k start : Nat) (negative : Bool) :
    Onward (intLiteral t k start negative) :=
  .ite

instance onward_uintLiteral
    (t : Token) (k start : Nat) :
    Onward (uintLiteral t k start) :=
  .ite

instance onward_valueLiteral
    (start : Nat) (v : Value) :
    Onward (valueLiteral start v) :=
  .bind

instance onward_variableNames
    (macroName : String) (names : List String) (binders : List Expr) :
    Onward (variableNames macroName names binders) := by
  induction binders generalizing names with
  | nil => exact .pure _
  | cons e rest ih =>
      unfold variableNames
      split <;> infer_instance

instance onward_comprehension
    (start : Nat) (macroName : String) (kind : Comprehension) (target : Expr)
    (binders : List Expr) (guard : Option Expr) (body : Expr) :
    Onward (comprehension start macroName kind target binders guard body) :=
  .bind

instance onward_placeholder
    (start : Nat) :
    Onward (placeholder start) :=
  .bind

instance onward_presenceTest
    (start : Nat) (nameSpan : Text.Span) (args : List Expr) :
    Onward (presenceTest start nameSpan args) := by
  unfold presenceTest
  split <;> infer_instance

instance onward_methodCall
    (start : Nat) (name : String) (target : Expr) (args : List Expr) :
    Onward (methodCall start name target args) := by
  unfold methodCall
  split <;> infer_instance

instance onward_functionCall
    (start : Nat) (name : String) (nameSpan : Text.Span) (args : List Expr) :
    Onward (functionCall start name nameSpan args) :=
  .ite

/-! ### The levels of the grammar -/

section Nested

variable {expr : Parser Expr} [Onward expr]

instance onward_itemLoop
    (close : String) (fuel : Nat) :
    Onward (itemLoop expr close fuel) := by
  induction fuel with
  | zero => exact .pure _
  | succ fuel ih => exact .bind

instance onward_items
    (close : String) :
    Onward (items expr close) :=
  .bind

instance onward_entryLoop
    (fuel : Nat) :
    Onward (entryLoop expr fuel) := by
  induction fuel with
  | zero => exact .pure _
  | succ fuel ih => exact .bind

instance onward_mapBody
    (start : Nat) :
    Onward (mapBody expr start) :=
  .bind

instance onward_identifier
    (t : Token) :
    Onward (identifier expr t) := by
  unfold identifier
  dsimp only
  infer_instance

instance onward_bracketed
    (start : Nat) :
    Onward (bracketed expr start) := by
  refine @Onward.bind _ _ _ _ inferInstance fun b => ?_
  refine @Onward.ite _ _ _ _ _ inferInstance <| @Onward.bind _ _ _ _ inferInstance fun b => ?_
  infer_instance

instance onward_primary : Onward (primary expr) := by
  refine @Onward.bind _ _ _ _ inferInstance fun span => ?_
  refine @Onward.bind _ _ _ _ inferInstance fun t? => ?_
  cases t? with
  | none => exact onward_bracketed _
  | some t =>
      dsimp only
      split <;> infer_instance

instance onward_postfixLoop
    (start fuel : Nat) (e : Expr) :
    Onward (postfixLoop expr start fuel e) := by
  induction fuel generalizing e with
  | zero => exact .pure _
  | succ fuel ih =>
      refine @Onward.bind _ _ _ _ inferInstance fun b => ?_
      refine @Onward.ite _ _ _ _ _ (@Onward.bind _ _ _ _ inferInstance fun t? => ?_) inferInstance
      cases t? <;> infer_instance

instance onward_member : Onward (member expr) := by
  refine @Onward.bind _ _ _ _ inferInstance fun span => ?_
  dsimp only
  infer_instance

instance onward_unary : Onward (unary expr) := by
  refine @Onward.bind _ _ _ _ inferInstance fun fuel => ?_
  refine @Onward.bind _ _ _ _ inferInstance fun ops => ?_
  dsimp only
  refine @Onward.bind _ _ _ _ inferInstance fun found => ?_
  split <;> infer_instance

instance onward_alternatives : Onward (alternatives expr) := by
  unfold alternatives
  infer_instance

instance onward_conditional : Onward (conditional expr) := by
  refine @Onward.bind _ _ _ _ inferInstance fun span => ?_
  dsimp only
  infer_instance

end Nested

instance onward_exprAt
    (limit : Int) (budget : Nat) :
    Onward (exprAt limit budget) := by
  induction budget with
  | zero => exact ⟨fun s clean => absurd clean (not_clean_cutOff limit s)⟩
  | succ budget ih => exact onward_conditional

/-! ### Whole phrases -/

end Parser

namespace Grammar

/-- Whether a phrase has a beginning of its own. -/
def Phrase.isWhole : Phrase → Bool
  | .operators .. => false
  | .postfixes .. => false
  | _ => true

/-- What a phrase with a beginning is read from has at least one token. -/
theorem Derives.length_lt
    {n : Nat} {p : Phrase} {i r : List Token}
    (h : Derives n p i r)
    (whole : p.isWhole = true) :
    r.length < i.length := by
  induction h <;> grind [→ Derives.length_le, Phrase.isWhole, List.length_append]

end Grammar

namespace Parser

variable {α β : Type}

/-- A parser whose clean runs take at least one token. -/
class Strict (m : Parser α) : Prop where
  length_lt : ∀ s, (m s).2.Clean → (m s).2.rest.length < s.rest.length

theorem strict_of_sound
    {n : Nat} {m : Parser α} {p : α → Phrase}
    (whole : ∀ a, (p a).isWhole = true)
    (h : ∀ i, Sound i m fun a r => Derives n (p a) i r) :
    Strict m :=
  ⟨fun s clean => (h s.rest s rfl clean).length_lt (whole _)⟩

/-- A strict parser and whatever goes on after it. -/
instance Strict.bind
    {m : Parser α} {f : α → Parser β}
    [hm : Strict m]
    [hf : ∀ a, Onward (f a)] :
    Strict (m >>= f) where
  length_lt s clean := by
    obtain ⟨between, after⟩ := (hf _).onward _ clean
    exact Nat.lt_of_le_of_lt after.length_le (hm.length_lt s between)

/-- A strict parser after whatever goes before it. -/
theorem Strict.skip
    {m : Parser α} {f : α → Parser β}
    [hm : Onward m]
    [hf : ∀ a, Strict (f a)]
    [onward : ∀ a, Onward (f a)] :
    Strict (m >>= f) where
  length_lt s clean := by
    obtain ⟨between, -⟩ := (onward _).onward _ clean
    exact Nat.lt_of_lt_of_le ((hf _).length_lt _ clean) (hm.onward s between).2.length_le

section Levels

variable {limit : Int} {budget : Nat}

instance strict_exprAt : Strict (exprAt limit budget) :=
  strict_of_sound (fun _ => rfl) (sound_exprAt limit budget)

instance strict_primary : Strict (primary (exprAt limit budget)) :=
  strict_of_sound (fun _ => rfl) (sound_primary (sound_exprAt limit budget))

instance strict_unary : Strict (unary (exprAt limit budget)) :=
  strict_of_sound (fun _ => rfl) (sound_unary (sound_exprAt limit budget))

instance strict_leftAssoc
    {level : Level} {operand : Parser Expr}
    [Onward operand]
    [Strict operand] :
    Strict (leftAssoc level operand) :=
  @Strict.skip _ _ _ _ inferInstance (fun _ => .bind) fun _ => .bind

instance strict_conditional
    {expr : Parser Expr}
    [Onward expr]
    [Strict (unary expr)] :
    Strict (conditional expr) :=
  have : Strict (alternatives expr) := by
    unfold alternatives
    infer_instance
  @Strict.skip _ _ _ _ inferInstance (fun _ => .bind) fun _ => .bind

end Levels

end Parser
end ExprLang
