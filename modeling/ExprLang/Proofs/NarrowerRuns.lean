import ExprLang.Proofs.ComposedParsers
import ExprLang.Proofs.TokenNesting

/-!
# Runs under a narrower limit

Where a run makes no mistake, a run of the same parser under a narrower limit does the same, up to the
first token that nests more deeply than the narrower limit allows.  There it is cut off, and that is
its only mistake.

* `State.CutAt`: parsing was cut off at a token.
* `Narrows`: how the runs of a parser under a narrower limit follow those under a wider one.
* `Narrows.bind`, `Narrows.ifSymbol`, `Narrows.taking`: rules for the ways to compose parsers.
-/

namespace ExprLang
namespace Parser

open Grammar

variable {α β : Type} {limit : Int}

/-- Parsing was cut off at a token, and that is the only mistake. -/
structure State.CutAt (limit : Int) (t : Token) (s : State) : Prop where
  cut : s.Cut
  errors : s.errors = [(.nestingExceeded limit, t.span)]

/-- From the state `s`, a run of `m'` does what a run of `m` without a mistake does, and as many tokens
nest too deeply ahead as before; or it is cut off at the first token that does.  `Q` tells which
frames may be open behind the tokens that are taken. -/
def NarrowsFrom (limit : Int) (around : List Frame) (s : State) (m m' : Parser α)
    (Q : α → List Frame → Prop) : Prop :=
  (m s).2.Clean →
    (m' s = m s ∧ ∃ around', Q (m s).1 around' ∧
      firstBeyond? limit around s.rest = firstBeyond? limit around' (m s).2.rest) ∨
    ∃ t, firstBeyond? limit around s.rest = some t ∧ (m' s).2.CutAt limit t

/-- From every state the runs of `m'` follow those of `m`. -/
def Narrows (limit : Int) (around : List Frame) (m m' : Parser α)
    (Q : α → List Frame → Prop) : Prop :=
  ∀ s, NarrowsFrom limit around s m m' Q

/-- The same frames are open as before. -/
def Kept (around : List Frame) (_ : α) (around' : List Frame) : Prop :=
  around' = around

variable {around : List Frame} {s : State} {m m' : Parser α} {f f' : α → Parser β}
  {Q : α → List Frame → Prop} {R : β → List Frame → Prop}

/-- What comes after the cut changes nothing. -/
theorem State.CutAt.afterwards
    {t : Token}
    (isCut : s.CutAt limit t)
    (composed : Composed m) :
    (m s).2.CutAt limit t := by
  obtain ⟨cut, errors⟩ := composed.cut isCut.cut
  exact ⟨cut, errors.trans isCut.errors⟩

/-! ### Composition -/

theorem NarrowsFrom.mono
    {Q' : α → List Frame → Prop}
    (h : NarrowsFrom limit around s m m' Q)
    (weaker : ∀ a around', Q a around' → Q' a around') :
    NarrowsFrom limit around s m m' Q' := by
  intro clean
  rcases h clean with ⟨same, around', open', ahead⟩ | cut
  · exact .inl ⟨same, around', weaker _ _ open', ahead⟩
  · exact .inr cut

theorem NarrowsFrom.congr
    {k k' : Parser α}
    (same : m s = k s)
    (same' : m' s = k' s)
    (h : NarrowsFrom limit around s k k' Q) :
    NarrowsFrom limit around s m m' Q := by
  rwa [NarrowsFrom, same, same']

theorem Narrows.pure
    {a : α}
    (h : Q a around) :
    Narrows limit around (pure a) (pure a) Q :=
  fun _ _ => .inl ⟨rfl, around, h, rfl⟩

theorem NarrowsFrom.bind
    [onward : ∀ a, Onward (f a)]
    [composed : ∀ a, Composed (f' a)]
    (first : NarrowsFrom limit around s m m' Q)
    (second : ∀ a around', Q a around' → Narrows limit around' (f a) (f' a) R) :
    NarrowsFrom limit around s (m >>= f) (m' >>= f') R := by
  intro clean
  have between := ((onward _).onward _ clean).1
  rcases first between with ⟨same, around', open', ahead⟩ | ⟨t, beyond, isCut⟩
  · rw [bind_apply m' f', same, ahead]
    exact second _ _ open' _ clean
  · exact .inr ⟨t, beyond, isCut.afterwards (composed _)⟩

theorem Narrows.bind
    [∀ a, Onward (f a)]
    [∀ a, Composed (f' a)]
    (first : Narrows limit around m m' Q)
    (second : ∀ a around', Q a around' → Narrows limit around' (f a) (f' a) R) :
    Narrows limit around (m >>= f) (m' >>= f') R :=
  fun s => (first s).bind second

/-- As `Narrows.bind`, with the facts about the later parts handed over. -/
theorem Narrows.andThen
    (first : Narrows limit around m m' Q)
    (onward : ∀ a, Onward (f a))
    (composed : ∀ a, Composed (f' a))
    (second : ∀ a around', Q a around' → Narrows limit around' (f a) (f' a) R) :
    Narrows limit around (m >>= f) (m' >>= f') R :=
  .bind first second

theorem Narrows.ite
    {c : Prop} [Decidable c] {k k' : Parser α}
    (h : Narrows limit around m m' Q)
    (h' : Narrows limit around k k' Q) :
    Narrows limit around (if c then m else k) (if c then m' else k') Q := by
  split
  · exact h
  · exact h'

/-- Nothing is to be shown of runs with a mistake. -/
theorem Narrows.ofFaulty
    [faulty : Faulty m] :
    Narrows limit around m m' Q :=
  fun s clean => absurd clean (faulty.unclean s)

/-- Reading something off the state. -/
theorem NarrowsFrom.read
    {g : State → α}
    (h : NarrowsFrom limit around s (f (g s)) (f' (g s)) R) :
    NarrowsFrom limit around s ((do return g (← MonadState.get)) >>= f)
      ((do return g (← MonadState.get)) >>= f') R :=
  h

/-- A choice by whether items end here. -/
theorem Narrows.ifItemsEnd
    {close : String} {k k' : Parser α}
    (h : Narrows limit around m m' Q)
    (h' : Narrows limit around k k' Q) :
    Narrows limit around (do if (← atSymbol close) || (← atEnd) then m else k)
      (do if (← atSymbol close) || (← atEnd) then m' else k') Q := by
  intro s
  rw [NarrowsFrom, ifItemsEnd_apply, ifItemsEnd_apply]
  split
  · exact h s
  · exact h' s

/-! ### Parts that do not depend on the limit -/

/-- A part whose clean runs tell which frames are open behind what they take. -/
theorem Narrows.ofSound
    (h : ∀ i, Sound i m fun a r => ∃ around', Q a around' ∧
      firstBeyond? limit around i = firstBeyond? limit around' r) :
    Narrows limit around m m Q :=
  fun s clean => .inl ⟨rfl, h s.rest s rfl clean⟩

/-- A part that takes nothing. -/
theorem Narrows.ofStill
    (h : ∀ i, Sound i m fun _ r => r = i) :
    Narrows limit around m m (Kept around) :=
  .ofSound fun i => (h i).mono fun _ _ same => ⟨around, rfl, by rw [same]⟩

/-- Going on with a new mark, whatever it is. -/
theorem Narrows.marked
    {start : Nat} {f f' : Mark → Parser β}
    [∀ mark, Onward (f mark)]
    [∀ mark, Composed (f' mark)]
    (h : ∀ mark, Narrows limit around (f mark) (f' mark) R) :
    Narrows limit around (newMark start >>= f) (newMark start >>= f') R := by
  have still : Narrows limit around (newMark start) (newMark start) (Kept around) :=
    .ofStill fun _ => sound_newMark
  refine .bind still ?_
  rintro mark _ rfl
  exact h mark

/-- A new node, whatever its mark. -/
theorem narrows_node
    {start : Nat} {node : Mark → β}
    (h : ∀ mark, R (node mark) around) :
    Narrows limit around (do return node (← newMark start)) (do return node (← newMark start)) R :=
  .marked fun mark => .pure (h mark)

theorem narrows_intLiteral
    (t : Token) (k start : Nat) (negative : Bool) :
    Narrows limit around (intLiteral t k start negative) (intLiteral t k start negative)
      (Kept around) :=
  .ofStill fun i => (sound_intLiteral t k start negative i).mono fun _ _ h => h.2.2

theorem narrows_uintLiteral
    (t : Token) (k start : Nat) :
    Narrows limit around (uintLiteral t k start) (uintLiteral t k start) (Kept around) :=
  .ofStill fun i => (sound_uintLiteral t k start i).mono fun _ _ h => h.2.2

theorem narrows_applyPrefixes
    (operators : List (UnaryOp × Nat)) (e : Expr) :
    Narrows limit around (applyPrefixes operators e) (applyPrefixes operators e) (Kept around) :=
  .ofStill fun i => (sound_applyPrefixes operators e i).mono fun _ _ h => h.2

theorem narrows_functionCall
    (start : Nat) (name : String) (nameSpan : Text.Span) (args : List Expr) :
    Narrows limit around (functionCall start name nameSpan args)
      (functionCall start name nameSpan args) (Kept around) :=
  .ofStill fun i => (sound_functionCall start name nameSpan args i).mono fun _ _ h => h.2

theorem narrows_methodCall
    (start : Nat) (name : String) (target : Expr) (args : List Expr) :
    Narrows limit around (methodCall start name target args) (methodCall start name target args)
      (Kept around) :=
  .ofStill fun i => (sound_methodCall start name target args i).mono fun _ _ h => h.2

/-! ### Taking tokens -/

/-- A token that is taken is not too deep, and behind it the parts go on. -/
theorem NarrowsFrom.taking
    {t : Token} {i : List Token}
    (rest : s.rest = t :: i)
    (within : (nestingOf around t : Int) ≤ limit)
    (h : Narrows limit (framesBehind around t) m m' Q) :
    NarrowsFrom limit around s (do advance; m) (do advance; m') Q := by
  have taken : (advance s).2.rest = i := by rw [advance_cons rest]
  have ahead := firstBeyond?_of_le (i := i) within
  have others := h (advance s).2
  rw [NarrowsFrom, taken, ← ahead, ← rest] at others
  exact others

/-- Most tokens neither open nor close a frame. -/
theorem NarrowsFrom.takingPlain
    {t : Token} {i : List Token}
    (rest : s.rest = t :: i)
    (plain : framesBehind around t = around)
    (fits : (around.length + 1 : Int) ≤ limit)
    (h : Narrows limit around m m' Q) :
    NarrowsFrom limit around s (do advance; m) (do advance; m') Q := by
  have nesting : nestingOf around t ≤ around.length + 1 := nestingOf_le
  exact .taking rest (by omega) (plain.symm ▸ h)

/-- A choice by whether a symbol comes next, which is taken and opens or closes frames. -/
theorem Narrows.ifSymbol
    {text : String} {around' : List Frame} {k k' : Parser α}
    (opens : behindSymbol around text = around')
    (within : ((min around.length around'.length + 1 : Nat) : Int) ≤ limit)
    (taken : Narrows limit around' m m' Q)
    (absent : Narrows limit around k k' Q) :
    Narrows limit around (do if ← takeSymbol text then m else k)
      (do if ← takeSymbol text then m' else k') Q := by
  intro s
  rw [NarrowsFrom, ifSymbol_apply, ifSymbol_apply]
  by_cases starts : startsWith text s.rest = true
  · rw [if_pos starts, if_pos starts]
    cases rest : s.rest with
    | nil => simp [rest, startsWith] at starts
    | cons t i =>
        rw [rest] at starts
        have opens' : framesBehind around t = around' := (framesBehind_of_isSymbol starts).trans opens
        have within' : (nestingOf around t : Int) ≤ limit := by rwa [nestingOf, opens']
        rw [← rest]
        exact NarrowsFrom.taking rest within' (opens' ▸ taken)
  · rw [if_neg starts, if_neg starts]
    exact absent s

theorem narrows_expect
    {text : String} {around' : List Frame}
    (opens : behindSymbol around text = around')
    (within : ((min around.length around'.length + 1 : Nat) : Int) ≤ limit) :
    Narrows limit around (expect text) (expect text) fun b open' => b = true ∧ open' = around' := by
  refine .ofSound fun i => (sound_expect text i).mono ?_
  rintro b r ⟨isTaken, t, isSymbol, rfl⟩
  have opens' : framesBehind around t = around' := (framesBehind_of_isSymbol isSymbol).trans opens
  have within' : (nestingOf around t : Int) ≤ limit := by rwa [nestingOf, opens']
  exact ⟨around', ⟨isTaken, rfl⟩, by rw [firstBeyond?_of_le within', opens']⟩

/-- What closes a bracket behind an expression. -/
theorem narrows_close
    {close : String} {k : Nat}
    (closes : close ∈ closers)
    (fits : (around.length + 1 : Int) ≤ limit) :
    Narrows limit (List.replicate k .ifFalse ++ .bracket :: around) (expect close) (expect close)
      (Kept around) :=
  fun s => (narrows_expect (behindSymbol_closer closes) (by omega) s).mono fun _ _ h => h.2

/-- Operators in front of an operand do not count. -/
theorem narrows_takePrefixes
    (fits : (around.length + 1 : Int) ≤ limit)
    (fuel : Nat) :
    Narrows limit around (takePrefixes fuel) (takePrefixes fuel) (Kept around) := by
  refine .ofSound fun i => (sound_takePrefixes fuel i).mono ?_
  rintro operators r ⟨signs, areSigns, rfl⟩
  exact ⟨around, rfl, firstBeyond?_signs areSigns fits⟩

/-- Nor do operators between operands. -/
theorem narrows_takeOperator?
    {level : Level}
    (isLevel : level ∈ operatorLevels)
    (fits : (around.length + 1 : Int) ≤ limit) :
    Narrows limit around (takeOperator? level) (takeOperator? level) (Kept around) := by
  refine .ofSound fun i => (sound_takeOperator? level i).mono ?_
  rintro op? r (⟨-, rfl⟩ | ⟨text, op, t, -, ofLevel, isOperator, rfl⟩)
  · exact ⟨around, rfl, rfl⟩
  · have nesting : nestingOf around t ≤ around.length + 1 := nestingOf_le
    have ahead := firstBeyond?_of_le (i := r) (by omega : (nestingOf around t : Int) ≤ limit)
    rw [framesBehind_of_operator isLevel ofLevel isOperator] at ahead
    exact ⟨around, rfl, ahead⟩

end Parser
end ExprLang
