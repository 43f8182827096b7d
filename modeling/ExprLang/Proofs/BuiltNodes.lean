import ExprLang.Proofs.NodeSegments

/-!
# The nodes that the parser builds

Every clean run of a part of the parser builds nodes that stand around their children, and each of
them is read from its tokens alone.  A run builds its nodes from the inside, so that the children of
a new node are known to be as they should.

* `Finds s m P`: what holds after a clean run of `m` from the state `s`.
* `finds_chained`: what the rounds of a chain build, by induction on their number.
* `finds_unary`: what operators in front of an operand build, by induction on their number.
* `finds_exprAt`: what expressions are built of, by induction on how deeply they nest.
-/

namespace ExprLang
namespace Parser

variable {α β : Type} {n : Nat} {tokens : List Token} {whole : Parser Expr}
  {s s₀ s₁ s₂ s₃ : State} {es es' : List Expr} {e : Expr}

/-- What holds of the result of a run that ends clean, and of the state that it comes to. -/
def Finds (s : State) (m : Parser α) (P : α → State → Prop) : Prop :=
  (m s).2.Clean → P (m s).1 (m s).2

/-! ### Composition -/

section Composition

variable {m m' : Parser α} {f : α → Parser β} {P Q : α → State → Prop} {R : β → State → Prop}

theorem Finds.pure
    {a : α}
    (h : P a s) :
    Finds s (pure a) P :=
  fun _ => h

theorem Finds.bind
    [Onward m]
    [onward : ∀ a, Onward (f a)]
    (reached : s.Reached n tokens)
    (hm : Finds s m P)
    (hf : ∀ a s', Path n tokens s s' → P a s' → Finds s' (f a) R) :
    Finds s (m >>= f) R := by
  intro clean
  have between := ((onward (m s).1).onward (m s).2 clean).1
  exact hf _ _ (path_of_run reached between) (hm between) clean

/-- A step of whose result nothing is needed. -/
theorem Finds.skip
    [Onward m]
    [o : ∀ a, Onward (f a)]
    (reached : s.Reached n tokens)
    (hf : ∀ a s', Path n tokens s s' → Finds s' (f a) R) :
    Finds s (m >>= f) R :=
  .bind (P := fun _ _ => True) reached (fun _ => trivial) fun a s' path _ => hf a s' path

theorem Finds.mono
    (hm : Finds s m P)
    (h : ∀ a s', P a s' → Q a s') :
    Finds s m Q :=
  fun clean => h _ _ (hm clean)

theorem Finds.ite
    {c : Prop} [Decidable c]
    (h : Finds s m P)
    (h' : Finds s m' P) :
    Finds s (if c then m else m') P := by
  split
  · exact h
  · exact h'

/-- Nothing is to be said about runs with mistakes. -/
theorem Finds.ofFaulty
    [faulty : Faulty m] :
    Finds s m P :=
  fun clean => absurd clean (faulty.unclean s)

/-- A choice by whether a symbol comes next. -/
theorem Finds.ifSymbol
    {text : String}
    [Onward m]
    (reached : s.Reached n tokens)
    (taken : ∀ s', Path n tokens s s' → s'.rest.length < s.rest.length → Finds s' m P)
    (absent : Finds s m' P) :
    Finds s (do if ← takeSymbol text then m else m') P := by
  unfold Finds
  rw [ifSymbol_apply]
  split
  · next starts =>
      intro clean
      have between := (Onward.onward _ clean).1
      exact taken _ (path_of_run reached between) (length_advance_of_startsWith starts) clean
  · exact absent

/-- A choice by whether items end here. -/
theorem Finds.ifItemsEnd
    {close : String}
    (h : Finds s m P)
    (h' : Finds s m' P) :
    Finds s (do if (← atSymbol close) || (← atEnd) then m else m') P := by
  unfold Finds
  rw [ifItemsEnd_apply]
  split
  · exact h
  · exact h'

/-- Going on by the number of tokens ahead. -/
theorem Finds.atRemaining
    {f : Nat → Parser β}
    (h : Finds s (f s.rest.length) R) :
    Finds s (remaining >>= f) R :=
  h

/-- Going on by where the next token stands. -/
theorem Finds.atNextSpan
    {f : Text.Span → Parser β}
    (h : Finds s (f (nextSpan s).1) R) :
    Finds s (nextSpan >>= f) R :=
  h

/-- Going on by the next token. -/
theorem Finds.atPeek
    {f : Option Token → Parser β}
    (h : Finds s (f s.rest.head?) R) :
    Finds s (peek >>= f) R :=
  h

/-- The next token is taken. -/
theorem Finds.afterAdvance
    {f : Unit → Parser β} {t : Token} {after : List Token}
    [onward : ∀ a, Onward (f a)]
    (reached : s.Reached n tokens)
    (rest : s.rest = t :: after)
    (h : ∀ s', Path n tokens s s' → s'.rest.length < s.rest.length → Finds s' (f ()) R) :
    Finds s (advance >>= f) R := by
  refine .bind (P := fun _ s' => s'.rest.length < s.rest.length) reached (fun _ => ?_)
    fun _ s' path less => h s' path less
  rw [advance_cons rest, rest]
  exact Nat.lt_succ_self _

end Composition

/-- A new node over what was read since the state `s₀`. -/
theorem finds_node
    {node : Mark → Expr}
    (isMark : ∀ m, (node m).mark = m)
    (children : ∀ m, (node m).children = es)
    (grown : Grown n tokens whole s₀ es s)
    (starts : s₀.place ≤ s.lastEnd) :
    Finds s (do return node (← newMark s₀.place)) (Sprout n tokens whole s₀.place) := by
  intro _
  change Sprout n tokens whole s₀.place (node ⟨s.nextId, ⟨s₀.place, max s₀.place s.lastEnd⟩⟩)
    { s with nextId := s.nextId + 1 }
  refine ⟨?_, ?_, ?_⟩
  · rw [Expr.span, isMark, Nat.max_eq_right starts]
  · rw [children]
    exact grown.each
  · rw [children]
    exact grown.row

/-! ### Calls -/

theorem finds_comprehension
    (reached : s.Reached n tokens)
    (macroName : String) (kind : Comprehension) (binders : List Expr)
    {target body : Expr} {guard : Option Expr}
    (grown : Grown n tokens whole s₀ (target :: (guard.toList ++ [body])) s)
    (starts : s₀.place ≤ s.lastEnd) :
    Finds s (comprehension s₀.place macroName kind target binders guard body)
      (Sprout n tokens whole s₀.place) := by
  refine .skip reached fun names s' path => ?_
  have bound := (grown.bindInner [target] names).later path
  refine finds_node (fun _ => rfl) (fun _ => ?_) bound (starts.trans path.places.2.1)
  simp [Expr.children, Expr.bindOption_eq_map, Option.toList_map]

theorem finds_methodCall
    (reached : s.Reached n tokens)
    (name : String)
    {target : Expr} {args : List Expr}
    (grown : Grown n tokens whole s₀ (target :: args) s)
    (starts : s₀.place ≤ s.lastEnd) :
    Finds s (methodCall s₀.place name target args) (Sprout n tokens whole s₀.place) := by
  unfold methodCall
  split
  · next kind x body _ =>
      exact finds_comprehension reached name kind [x] (grown.sublist (by simp)) starts
  · next kind x y body _ =>
      refine .ite (finds_comprehension reached name kind [x, y] (grown.sublist (by simp)) starts) ?_
      have parts : Grown n tokens whole s₀ (target :: ((some y).toList ++ [body])) s :=
        grown.sublist (by simp)
      have guarded := fun binders => finds_comprehension reached name kind binders parts starts
      by_cases isMap : kind = .map
      · dsimp only
        rw [if_neg (not_not.mpr isMap)]
        exact guarded [x]
      · rw [if_pos isMap]
        exact .ofFaulty
  · exact finds_node (fun _ => rfl) (fun _ => rfl) grown starts

theorem finds_functionCall
    (name : String) (nameSpan : Text.Span)
    {args : List Expr}
    (grown : Grown n tokens whole s₀ args s)
    (starts : s₀.place ≤ s.lastEnd) :
    Finds s (functionCall s₀.place name nameSpan args) (Sprout n tokens whole s₀.place) := by
  refine .ite ?_ (finds_node (fun _ => rfl) (fun _ => rfl) grown starts)
  unfold presenceTest
  split
  · exact .ite (finds_node (fun _ => rfl) (fun _ => rfl) grown starts) .ofFaulty
  · exact .ofFaulty

/-! ### Items and entries -/

section Nested

variable {expr : Parser Expr} [Onward expr]
  (h : ∀ s, s.Reached n tokens → Finds s expr fun e s' => Grown n tokens whole s [e] s')

include h

theorem finds_itemLoop
    (close : String) (fuel : Nat)
    (reached : s.Reached n tokens) :
    Finds s (itemLoop expr close fuel) (Grown n tokens whole s) := by
  induction fuel generalizing s with
  | zero => exact .pure .nil
  | succ fuel ih =>
      refine .ifItemsEnd (.pure .nil) (.bind reached (h s reached) fun e s₁ first found => ?_)
      refine .ifSymbol first.ends (fun s₂ between _ => ?_) (.pure found)
      exact .bind between.ends (ih between.ends) fun es s₃ second others =>
        .pure (found.append others first between second)

theorem finds_items
    (close : String)
    (reached : s.Reached n tokens) :
    Finds s (items expr close) (Grown n tokens whole s) :=
  .atRemaining <| .bind reached (finds_itemLoop h close _ reached) fun _ _ path found =>
    .skip path.ends fun _ _ after => .pure (found.later after)

theorem finds_entryLoop
    (fuel : Nat)
    (reached : s.Reached n tokens) :
    Finds s (entryLoop expr fuel) fun entries s' =>
      Grown n tokens whole s (entries.flatMap fun (k, v) => [k, v]) s' := by
  induction fuel generalizing s with
  | zero => exact .pure .nil
  | succ fuel ih =>
      refine .ifItemsEnd (.pure .nil) (.bind reached (h s reached) fun key s₁ first found => ?_)
      refine .skip first.ends fun colon s₂ between => .ite ?_ (.pure .nil)
      refine .bind between.ends (h s₂ between.ends) fun v s₃ second found' => ?_
      have both := found.append found' first between second
      refine .ifSymbol second.ends (fun s₄ between' _ => ?_) (.pure both)
      exact .bind between'.ends (ih between'.ends) fun entries s₅ third others =>
        .pure (both.append others (first.trans (between.trans second)) between' third)

theorem finds_mapBody
    (path : Path n tokens s₀ s)
    (starts : s₀.place ≤ s.lastEnd) :
    Finds s (mapBody expr s₀.place) (Sprout n tokens whole s₀.place) := by
  refine .atRemaining <| .bind path.ends (finds_entryLoop h _ path.ends) fun _ s₁ read found => ?_
  refine .skip read.ends fun _ s₂ after => ?_
  exact finds_node (fun _ => rfl) (fun _ => rfl) ((found.later after).earlier path)
    (starts.trans (read.trans after).places.2.1)

/-! ### Innermost parts -/

theorem finds_identifier
    {t : Token}
    (isNext : t.span.start = s₀.place)
    (path : Path n tokens s₀ s)
    (starts : s₀.place ≤ s.lastEnd) :
    Finds s (identifier expr t) (Sprout n tokens whole s₀.place) := by
  unfold identifier
  dsimp only
  rw [isNext]
  refine .ite .ofFaulty (.ifSymbol path.ends (fun s₁ paren _ => ?_) ?_)
  · refine .bind paren.ends (finds_items h ")" paren.ends) fun args s₂ read found => ?_
    exact finds_functionCall _ _ (found.earlier (path.trans paren))
      (starts.trans (paren.trans read).places.2.1)
  · exact finds_node (fun _ => rfl) (fun _ => rfl) .nil starts

/-- A bracketed expression is one that stands between the brackets; anything else is a new node. -/
theorem finds_bracketed
    (reached : s.Reached n tokens) :
    Finds s (bracketed expr s.place) fun e s' =>
      Sprout n tokens whole s.place e s' ∨ Grown n tokens whole s [e] s' := by
  refine .ifSymbol reached (fun s₁ path less => ?_) <| .ifSymbol reached (fun s₁ path less => ?_) <|
    .ifSymbol reached (fun s₁ path less => ?_) .ofFaulty
  · refine .bind path.ends (h s₁ path.ends) fun e s₂ read found => ?_
    exact .skip read.ends fun _ s₃ after => .pure (.inr ((found.later after).earlier path))
  · refine .bind path.ends (finds_items h "]" path.ends) fun es s₂ read found => ?_
    refine .mono (finds_node (fun _ => rfl) (fun _ => rfl) (found.earlier path) ?_)
      fun _ _ => .inl
    exact (path.places.2.2 less).le.trans read.places.2.1
  · exact .mono (finds_mapBody h path (path.places.2.2 less).le) fun _ _ => .inl

theorem finds_primary
    (reached : s.Reached n tokens) :
    Finds s (primary expr) fun e s' =>
      Sprout n tokens whole s.place e s' ∨ Grown n tokens whole s [e] s' := by
  refine .atNextSpan <| .atPeek ?_
  cases rest : s.rest with
  | nil => exact finds_bracketed h reached
  | cons t after =>
      have leaf {s' : State} {node : Mark → Expr}
          (path : Path n tokens s s')
          (less : s'.rest.length < s.rest.length)
          (isMark : ∀ m, (node m).mark = m)
          (children : ∀ m, (node m).children = []) :
          Finds s' (do return node (← newMark s.place)) fun e s' =>
            Sprout n tokens whole s.place e s' ∨ Grown n tokens whole s [e] s' :=
        .mono (finds_node isMark children .nil (path.places.2.2 less).le) fun _ _ => .inl
      have start : t.span.start = s.place := (place_cons rest).symm
      dsimp only [List.head?_cons]
      cases t.kind with
      | int | uint =>
          exact .afterAdvance reached rest fun s' path less =>
            .ite (leaf path less (fun _ => rfl) fun _ => rfl) .ofFaulty
      | float | string | bytes | bool | null =>
          exact .afterAdvance reached rest fun s' path less =>
            leaf path less (fun _ => rfl) fun _ => rfl
      | ident =>
          exact .afterAdvance reached rest fun s' path less =>
            .mono (finds_identifier h start path (path.places.2.2 less).le) fun _ _ => .inl
      | operator | punctuation | endOfInput => exact finds_bracketed h reached

/-! ### Chains -/

/-- What a round builds: a new node, or nothing where the chain ends. -/
def Continues (n : Nat) (tokens : List Token) (whole : Parser Expr) (start : Nat) (e : Expr) :
    Step Expr → State → Prop
  | .stop y, _ => y = e
  | .go y, s => Sprout n tokens whole start y s

omit [Onward expr] h in
/-- A round that goes on with a new node. -/
theorem finds_go
    {node : Mark → Expr}
    (isMark : ∀ m, (node m).mark = m)
    (children : ∀ m, (node m).children = es)
    (grown : Grown n tokens whole s₀ es s)
    (starts : s₀.place ≤ s.lastEnd) :
    Finds s (do return .go (node (← newMark s₀.place))) (Continues n tokens whole s₀.place e) :=
  fun clean => finds_node isMark children grown starts clean

theorem finds_fieldRound
    (path : Path n tokens s₀ s)
    (starts : s₀.place ≤ s.lastEnd)
    (found : Grown n tokens whole s₀ [e] s) :
    Finds s (fieldRound expr s₀.place e) (Continues n tokens whole s₀.place e) := by
  refine .atPeek ?_
  cases s.rest.head? with
  | none => exact .ofFaulty
  | some name =>
      refine .ite (.skip path.ends fun _ s₁ field => ?_) .ofFaulty
      have starts := starts.trans field.places.2.1
      refine .ifSymbol field.ends (fun s₂ paren _ => ?_) ?_
      · refine .bind paren.ends (finds_items h ")" paren.ends) fun args s₃ read found' => ?_
        have parts := found.append found' path (field.trans paren) read
        have starts := starts.trans (paren.trans read).places.2.1
        exact .bind read.ends (finds_methodCall read.ends _ parts starts) fun _ _ _ sprout =>
          .pure sprout
      · exact finds_go (fun _ => rfl) (fun _ => rfl) (found.later field) starts

theorem finds_postfixRound
    (path : Path n tokens s₀ s)
    (starts : s₀.place ≤ s.lastEnd)
    (found : Grown n tokens whole s₀ [e] s) :
    Finds s (postfixRound expr s₀.place e) (Continues n tokens whole s₀.place e) := by
  refine .ifSymbol path.ends (fun s₁ dot _ => ?_) <| .ifSymbol path.ends (fun s₁ bracket _ => ?_) <|
    .ifSymbol path.ends (fun s₁ paren _ => ?_) (.pure rfl)
  · exact finds_fieldRound h (path.trans dot) (starts.trans dot.places.2.1) (found.later dot)
  · refine .bind bracket.ends (h s₁ bracket.ends) fun key s₂ read found' => ?_
    refine .skip read.ends fun _ s₃ close => ?_
    have parts := (found.append found' path bracket read).later close
    exact finds_go (fun _ => rfl) (fun _ => rfl) parts
      (starts.trans (bracket.trans (read.trans close)).places.2.1)
  · refine .bind paren.ends (finds_items h ")" paren.ends) fun args s₂ read found' => ?_
    exact finds_go (fun _ => rfl) (fun _ => rfl) (found.append found' path paren read)
      (starts.trans (paren.trans read).places.2.1)

theorem finds_operatorRound
    (level : Level)
    (path : Path n tokens s₀ s)
    (starts : s₀.place ≤ s.lastEnd)
    (found : Grown n tokens whole s₀ [e] s) :
    Finds s (operatorRound level expr s₀.place e) (Continues n tokens whole s₀.place e) := by
  refine .skip (o := fun op? => by cases op? <;> infer_instance) path.ends
    fun op? s₁ operator => ?_
  cases op? with
  | none => exact .pure rfl
  | some op =>
      refine .bind operator.ends (h s₁ operator.ends) fun right s₂ read found' => ?_
      exact finds_go (fun _ => rfl) (fun _ => rfl) (found.append found' path operator read)
        (starts.trans (operator.trans read).places.2.1)

end Nested

/-- What the rounds of a chain build, if each is built from what the rounds before it are, by
induction on their number. -/
theorem finds_chained
    {first : Parser Expr} {round : Nat → Expr → Parser (Step Expr)}
    [Onward first]
    [Strict first]
    [rounds : ∀ start, Round (round start)]
    (alone : ∀ fuel, ReadsAlone whole s₀ (chained first round fuel))
    (each : ∀ e s, Path n tokens s₀ s → s₀.place ≤ s.lastEnd → Grown n tokens whole s₀ [e] s →
      Finds s (round s₀.place e) (Continues n tokens whole s₀.place e))
    (reached : s₀.Reached n tokens)
    (start : Finds s₀ first fun e s => Grown n tokens whole s₀ [e] s)
    (fuel : Nat) :
    Finds s₀ (chained first round fuel) fun e s => Grown n tokens whole s₀ [e] s := by
  -- what is built so far is built by some number of rounds from the start
  have go : ∀ fuel e s, Path n tokens s₀ s → s.rest.length < s₀.rest.length →
      Grown n tokens whole s₀ [e] s →
      (∀ j, ∃ i, iterate (round s₀.place) j e s = chained first round i s₀) →
      Finds s (iterate (round s₀.place) fuel e) fun e s => Grown n tokens whole s₀ [e] s := by
    intro fuel
    induction fuel with
    | zero => exact fun e s _ _ found _ => .pure found
    | succ fuel ih =>
        intro e s path less found so clean
        have onward := (rounds s₀.place).onward e
        obtain ⟨between, after⟩ := first_of_iterate clean
        have next := path_of_run path.ends between
        have step := each e s path (path.places.2.2 less).le found between
        cases went : (round s₀.place e s).1 with
        | stop y =>
            rw [went] at step
            obtain rfl : y = e := step
            rw [iterate, bind_apply, went]
            exact found.later next
        | go y =>
            rw [went] at step
            rw [iterate_go went] at clean ⊢
            have less' := Nat.lt_of_le_of_lt next.before.length_le less
            refine ih y _ (path.trans next) less' ?_ (fun j => ?_) clean
            · obtain ⟨i, same⟩ := so 1
              rw [iterate_go went] at same
              have built := grown_of_sprout (alone i) reached
              rw [← same] at built
              exact built between less' step
            · obtain ⟨i, same⟩ := so (j + 1)
              exact ⟨i, by rw [← same, iterate_go went]⟩
  have firstFinds : Finds s₀ first fun e s => Grown n tokens whole s₀ [e] s ∧
      s.rest.length < s₀.rest.length ∧ first s₀ = (e, s) :=
    fun clean => ⟨start clean, Strict.length_lt s₀ clean, rfl⟩
  refine .atNextSpan <| .bind reached firstFinds fun e s₁ path result => ?_
  obtain ⟨found, less, isFirst⟩ := result
  refine go fuel e s₁ path less found fun j => ⟨j, ?_⟩
  have here : (nextSpan s₀).2 = s₀ := rfl
  rw [chained, bind_apply, here, bind_apply, isFirst]
  rfl

/-! ### The levels of the grammar -/

/-- A run that comes to a new node or to one that was built before. -/
theorem Finds.grown
    {m : Parser Expr}
    [Onward m]
    [Strict m]
    (alone : ReadsAlone whole s m)
    (reached : s.Reached n tokens)
    (h : Finds s m fun e s' =>
      Sprout n tokens whole s.place e s' ∨ Grown n tokens whole s [e] s') :
    Finds s m fun e s' => Grown n tokens whole s [e] s' := by
  intro clean
  rcases h clean with sprout | found
  · exact grown_of_sprout alone reached clean (Strict.length_lt s clean) sprout
  · exact found

/-- A part of the parser that reads expressions in the input as `m'` reads them alone, and what it
builds. -/
structure Builds (n : Nat) (tokens : List Token) (whole m m' : Parser Expr) : Prop where
  tracks : ∀ post k d, Tracks post k d m m' (Expr.moved k d)
  finds : ∀ s, s.Reached n tokens → Finds s m fun e s' => Grown n tokens whole s [e] s'

theorem Builds.leftAssoc
    {level : Level} {m m' : Parser Expr}
    [Onward m]
    [Strict m]
    [Onward m']
    (h : Builds n tokens whole m m')
    (widens : Widens (leftAssoc level m') whole) :
    Builds n tokens whole (leftAssoc level m) (leftAssoc level m') where
  tracks post k d := tracks_leftAssoc (h.tracks post k d) level
  finds s reached := by
    have alone (fuel : Nat) : ReadsAlone whole s (chained m (operatorRound level m) fuel) :=
      readsAlone_of_tracks (fun k d s' aligned => .congr rfl (leftAssoc_apply level m' s') <|
        tracksFrom_chained (h.tracks _ k d) (tracks_operatorRound (h.tracks _ k d) level) aligned
          (Nat.le_refl _) (.inr rfl)) widens
    unfold Finds
    rw [leftAssoc_apply]
    exact finds_chained alone (fun e s path => finds_operatorRound h.finds level path) reached
      (h.finds s reached) _

section Levels

variable {limit : Int} {budget budget' : Nat}
  (h : Builds n tokens whole (exprAt limit budget) (exprAt limit budget'))

include h

theorem finds_member
    (widens : Widens (member (exprAt limit budget')) whole)
    (reached : s.Reached n tokens) :
    Finds s (member (exprAt limit budget)) fun e s' => Grown n tokens whole s [e] s' := by
  have alonePrimary : ReadsAlone whole s (primary (exprAt limit budget)) :=
    readsAlone_of_tracks (fun k d s' aligned => tracks_primary (h.tracks _ k d) s s' aligned)
      (widens_member.trans widens)
  have alone (fuel : Nat) : ReadsAlone whole s
      (chained (primary (exprAt limit budget)) (postfixRound (exprAt limit budget)) fuel) :=
    readsAlone_of_tracks (fun k d s' aligned => .congr rfl (member_apply _ s') <|
      tracksFrom_chained (tracks_primary (h.tracks _ k d)) (tracks_postfixRound (h.tracks _ k d))
        aligned (Nat.le_refl _) (.inr rfl)) widens
  unfold Finds
  rw [member_apply]
  exact finds_chained alone (fun e s path => finds_postfixRound h.finds path) reached
    ((finds_primary h.finds reached).grown alonePrimary reached) _

/-- Each operator in front of an operand is a node over it and what is behind it. -/
theorem finds_unary
    (widens : Widens (unary (exprAt limit budget')) whole)
    (reached : s.Reached n tokens) :
    Finds s (unary (exprAt limit budget)) fun e s' => Grown n tokens whole s [e] s' := by
  generalize ahead : s.rest.length = length
  induction length using Nat.strong_induction_on generalizing s with
  | _ length ih =>
      have alone : ReadsAlone whole s (unary (exprAt limit budget)) :=
        readsAlone_of_tracks (fun k d s' aligned => tracks_unary (h.tracks _ k d) s s' aligned) widens
      -- the operator is taken, and the rest is read from there
      have behind {t : Token} {after : List Token} {m : Parser Expr}
          [Onward m]
          (rest : s.rest = t :: after)
          (same : unary (exprAt limit budget) s = m (advance s).2)
          (each : ∀ s', Path n tokens s s' → s'.rest.length < s.rest.length →
            Finds s' m (Sprout n tokens whole s.place)) :
          Finds s (unary (exprAt limit budget)) fun e s' => Grown n tokens whole s [e] s' := by
        have sprouts : Finds s (advance >>= fun _ => m) (Sprout n tokens whole s.place) :=
          .afterAdvance reached rest each
        refine .grown alone reached fun clean => .inl ?_
        rw [same] at clean ⊢
        exact sprouts clean
      cases rest : s.rest with
      | nil =>
          intro clean
          have less := Strict.length_lt s clean
          rw [rest] at less
          exact absurd less (Nat.not_lt_zero _)
      | cons t after =>
          have start : t.span.start = s.place := (place_cons rest).symm
          cases isSign : prefixOf? t with
          | none =>
              unfold Finds
              rw [unary_of_noSign rest isSign]
              exact finds_member h (widens_unary.trans widens) reached
          | some op =>
              by_cases folded : op = .neg ∧ (negated? after).isSome
              · obtain ⟨rfl, isSome⟩ := folded
                obtain ⟨⟨u, m⟩, found⟩ := Option.isSome_iff_exists.mp isSome
                refine behind rest (unary_of_negated rest isSign found) fun s' path less => ?_
                rw [start]
                refine .skip path.ends fun _ s₂ digits => .ite ?_ .ofFaulty
                exact finds_node (fun _ => rfl) (fun _ => rfl) .nil
                  ((path.places.2.2 less).le.trans digits.places.2.1)
              · have apart : op = .neg → negated? after = none := by simpa using folded
                refine behind rest (unary_of_sign rest isSign apart) fun s' path less => ?_
                rw [start]
                refine .bind path.ends (ih _ (ahead ▸ less) path.ends rfl) fun e s₂ read found => ?_
                exact finds_node (fun _ => rfl) (fun _ => rfl) (found.earlier path)
                  ((path.places.2.2 less).le.trans read.places.2.1)

end Levels

section Whole

variable {limit : Int} {budget budget' : Nat}

theorem builds_alternatives
    (h : Builds n tokens (exprAt limit (budget' + 1)) (exprAt limit budget) (exprAt limit budget')) :
    Builds n tokens (exprAt limit (budget' + 1)) (alternatives (exprAt limit budget))
      (alternatives (exprAt limit budget')) := by
  have wOr : Widens (alternatives (exprAt limit budget')) (exprAt limit (budget' + 1)) :=
    widens_conditional
  have wAnd := widens_leftAssoc.trans wOr
  have wRelation := widens_leftAssoc.trans wAnd
  have wSum := widens_leftAssoc.trans wRelation
  have wProduct := widens_leftAssoc.trans wSum
  have wUnary := widens_leftAssoc.trans wProduct
  have unary : Builds n tokens (exprAt limit (budget' + 1)) (unary (exprAt limit budget))
      (unary (exprAt limit budget')) :=
    ⟨fun _ k d => tracks_unary (h.tracks _ k d), fun _ => finds_unary h wUnary⟩
  exact ((((unary.leftAssoc wProduct).leftAssoc wSum).leftAssoc wRelation).leftAssoc wAnd).leftAssoc
    wOr

theorem finds_conditional
    (h : Builds n tokens (exprAt limit (budget' + 1)) (exprAt limit budget) (exprAt limit budget'))
    (reached : s.Reached n tokens) :
    Finds s (conditional (exprAt limit budget)) fun e s' =>
      Grown n tokens (exprAt limit (budget' + 1)) s [e] s' := by
  have alone : ReadsAlone (exprAt limit (budget' + 1)) s (conditional (exprAt limit budget)) :=
    readsAlone_of_tracks (fun k d s' aligned => tracks_conditional (h.tracks _ k d) s s' aligned)
      fun _ _ _ => rfl
  refine .grown alone reached <| .atNextSpan <|
    .bind reached ((builds_alternatives h).finds s reached) fun cond s₁ first found => ?_
  refine .ifSymbol first.ends (fun s₂ question _ => ?_) (.pure (.inr found))
  refine .bind question.ends (h.finds s₂ question.ends) fun a s₃ second found₂ => ?_
  refine .skip second.ends fun _ s₄ colon => ?_
  refine .bind colon.ends (h.finds s₄ colon.ends) fun b s₅ third found₃ => ?_
  have parts := (found.append found₂ first question second).append found₃
    (first.trans (question.trans second)) colon third
  have starts : s.place ≤ s₅.lastEnd := by
    have := parts.row.each cond (by simp)
    omega
  exact .mono (finds_node (fun _ => rfl) (fun _ => rfl) parts starts) fun _ _ => .inl

/-- The nodes of an expression stand where they should, by induction on how deeply expressions
nest. -/
theorem finds_exprAt
    (le : budget ≤ budget' + 1)
    (reached : s.Reached n tokens) :
    Finds s (exprAt limit budget) fun e s' =>
      Grown n tokens (exprAt limit (budget' + 1)) s [e] s' := by
  induction budget generalizing s with
  | zero => exact fun clean => absurd clean (not_clean_cutOff limit s)
  | succ budget ih =>
      have le := Nat.le_of_succ_le_succ le
      exact finds_conditional ⟨fun _ _ _ => tracks_exprAt limit le,
        fun _ reached => ih (Nat.le_succ_of_le le) reached⟩ reached

end Whole

end Parser
end ExprLang
