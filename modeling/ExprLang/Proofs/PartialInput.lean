import ExprLang.Proofs.ParserLoops
import ExprLang.Proofs.TokenSlices

/-!
# Parsing a part of the input

Where a run takes only the first tokens of its input, a run on these tokens alone does the same.  The
two runs go on side by side: what the one reads is there for the other as long as the tokens behind
the part are not taken.  They differ by where the part stands and by how many nodes were numbered
before it.

* `Aligned post k d s s'`: the states `s` and `s'` are at the same place, `post` being what stands
  behind the part.
* `Tracks post k d m m' g`: the runs of `m` and `m'` stay aligned.
* `tracks_exprAt`: expressions in the input and in a part of it.
-/

namespace ExprLang

/-- The mark of a node that stands `d` characters later, after `k` other nodes. -/
def Mark.moved (k d : Nat) (m : Mark) : Mark :=
  ⟨m.id + k, m.span.moved d⟩

/-- A tree that stands `d` characters later, after `k` other nodes. -/
def Expr.moved (k d : Nat) (e : Expr) : Expr :=
  e.mapMark (Mark.moved k d)

namespace Parser

open Grammar (Derives startsWith)

variable {α α' β β' : Type} {post : List Token} {k d : Nat}

/-- The state `s` is ahead of `s'` by the tokens `post`, and behind it stand `d` more characters and
`k` more nodes. -/
structure Aligned (post : List Token) (k d : Nat) (s s' : State) : Prop where
  rest : s.rest = s'.rest.map (Token.moved d) ++ post
  lastEnd : max d s.lastEnd = s'.lastEnd + d
  nextId : s.nextId = s'.nextId + k
  clean : s.Clean
  alone : s'.Clean

/-- Where a run of `m` ends clean and takes no token behind the part, a run of `m'` on the part comes
to the same result and to the same place. -/
def TracksFrom (post : List Token) (k d : Nat) (s s' : State) (m : Parser α) (m' : Parser α')
    (g : α' → α) : Prop :=
  (m s).2.Clean → post.length ≤ (m s).2.rest.length →
    (m s).1 = g (m' s').1 ∧ Aligned post k d (m s).2 (m' s').2

/-- Runs from aligned states stay aligned. -/
def Tracks (post : List Token) (k d : Nat) (m : Parser α) (m' : Parser α') (g : α' → α) : Prop :=
  ∀ s s', Aligned post k d s s' → TracksFrom post k d s s' m m' g

/-! ### Composition -/

section Composition

variable {m : Parser α} {m' : Parser α'} {f : α → Parser β} {f' : α' → Parser β'}
  {g : α' → α} {g' : β' → β}

theorem Tracks.pure
    {a : α} {a' : α'}
    (same : a = g a') :
    Tracks post k d (pure a) (pure a') g :=
  fun _ _ aligned _ _ => ⟨same, aligned⟩

/-- What is said of two runs depends on what they come to alone. -/
theorem TracksFrom.congr
    {n : Parser α} {n' : Parser α'} {s s' s₁ s₁' : State}
    (same : m s = n s₁)
    (same' : m' s' = n' s₁')
    (h : TracksFrom post k d s₁ s₁' n n' g) :
    TracksFrom post k d s s' m m' g := by
  rw [TracksFrom, same, same']
  exact h

/-- The runs go on from where the first steps come to. -/
theorem TracksFrom.bind
    [o : ∀ a, Onward (f a)]
    {s s' : State}
    (hm : TracksFrom post k d s s' m m' g)
    (hf : (m s).1 = g (m' s').1 → Aligned post k d (m s).2 (m' s').2 →
      TracksFrom post k d (m s).2 (m' s').2 (f (g (m' s').1)) (f' (m' s').1) g') :
    TracksFrom post k d s s' (m >>= f) (m' >>= f') g' := by
  intro clean enough
  obtain ⟨between, after⟩ := (o (m s).1).onward (m s).2 clean
  obtain ⟨same, aligned⟩ := hm between (enough.trans after.length_le)
  have step := hf same aligned
  rw [← same] at step
  exact step clean enough

theorem Tracks.bind
    [o : ∀ a, Onward (f a)]
    (hm : Tracks post k d m m' g)
    (hf : ∀ a', Tracks post k d (f (g a')) (f' a') g') :
    Tracks post k d (m >>= f) (m' >>= f') g' :=
  fun s s' aligned => (hm s s' aligned).bind fun _ aligned => hf _ _ _ aligned

theorem Tracks.ite
    {c : Prop} [Decidable c] {m₁ m₂ : Parser α} {m₁' m₂' : Parser α'}
    (h₁ : Tracks post k d m₁ m₁' g)
    (h₂ : Tracks post k d m₂ m₂' g) :
    Tracks post k d (if c then m₁ else m₂) (if c then m₁' else m₂') g := by
  split
  · exact h₁
  · exact h₂

/-- Nothing is to be said about runs with mistakes. -/
theorem Tracks.ofFaulty
    [faulty : Faulty m] :
    Tracks post k d m m' g :=
  fun s _ _ clean _ => absurd clean (faulty.unclean s)

end Composition

/-! ### Tokens and nodes -/

theorem Aligned.cons
    {s s' : State} {t : Token} {after : List Token}
    (h : Aligned post k d s s')
    (rest : s'.rest = t :: after) :
    s.rest = t.moved d :: (after.map (Token.moved d) ++ post) := by
  rw [h.rest, rest]
  rfl

theorem Aligned.nil
    {s s' : State}
    (h : Aligned post k d s s')
    (rest : s'.rest = []) :
    s.rest = post := by
  rw [h.rest, rest]
  rfl

/-- The next token is taken in both states. -/
theorem Aligned.advance
    {s s' : State} {t : Token} {after : List Token}
    (h : Aligned post k d s s')
    (rest : s'.rest = t :: after) :
    Aligned post k d (Parser.advance s).2 (Parser.advance s').2 := by
  rw [advance_cons (h.cons rest), advance_cons rest]
  have clean := h.clean
  have alone := h.alone
  refine ⟨rfl, ?_, h.nextId, ⟨clean.errors, clean.offsets, clean.halted⟩,
    ⟨alone.errors, alone.offsets, alone.halted⟩⟩
  change max d (t.span.stop + d) = t.span.stop + d
  omega

theorem startsWith_moved
    (text : String) (t : Token) (after post : List Token) :
    startsWith text (t.moved d :: (after.map (Token.moved d) ++ post)) =
      startsWith text (t :: after) :=
  rfl

theorem tracks_takeSymbol
    (text : String) :
    Tracks post k d (takeSymbol text) (takeSymbol text) fun b => b := by
  intro s s' aligned clean enough
  rw [takeSymbol_apply] at clean enough ⊢
  rw [takeSymbol_apply]
  cases rest : s'.rest with
  | nil =>
      -- behind the part no symbol is taken
      cases starts : startsWith text s.rest with
      | false => exact ⟨rfl, aligned⟩
      | true =>
          rw [if_pos starts] at enough
          have taken := length_advance_of_startsWith starts
          rw [aligned.nil rest] at taken
          exact absurd enough (Nat.not_le_of_gt taken)
  | cons t after =>
      rw [aligned.cons rest, startsWith_moved]
      split
      · exact ⟨rfl, aligned.advance rest⟩
      · exact ⟨rfl, aligned⟩

/-- A choice by whether a symbol comes next. -/
theorem Tracks.ifSymbol
    {text : String} {m₁ m₂ : Parser α} {m₁' m₂' : Parser α'} {g : α' → α}
    [Onward m₁]
    [Onward m₂]
    (h₁ : Tracks post k d m₁ m₁' g)
    (h₂ : Tracks post k d m₂ m₂' g) :
    Tracks post k d (do if ← takeSymbol text then m₁ else m₂)
      (do if ← takeSymbol text then m₁' else m₂') g :=
  .bind (tracks_takeSymbol text) fun _ => .ite h₁ h₂

theorem tracks_expect
    (text : String) :
    Tracks post k d (expect text) (expect text) fun b => b :=
  .ifSymbol (.pure rfl) .ofFaulty

theorem tracks_newMark
    (start : Nat) :
    Tracks post k d (newMark (start + d)) (newMark start) (Mark.moved k d) := by
  intro s s' aligned _ _
  have lastEnd := aligned.lastEnd
  have nextId := aligned.nextId
  have clean := aligned.clean
  have alone := aligned.alone
  refine ⟨?_, aligned.rest, lastEnd, ?_, ⟨clean.errors, clean.offsets, clean.halted⟩,
    ⟨alone.errors, alone.offsets, alone.halted⟩⟩
  · change Mark.mk s.nextId ⟨start + d, max (start + d) s.lastEnd⟩ =
      Mark.mk (s'.nextId + k) ⟨start + d, max start s'.lastEnd + d⟩
    rw [nextId, show max (start + d) s.lastEnd = max start s'.lastEnd + d by omega]
  · change s.nextId + 1 = s'.nextId + 1 + k
    omega

/-- A new node. -/
theorem tracks_node
    {start : Nat} {node node' : Mark → Expr}
    (same : ∀ m, node (m.moved k d) = (node' m).moved k d) :
    Tracks post k d (do return node (← newMark (start + d))) (do return node' (← newMark start))
      (Expr.moved k d) :=
  .bind (tracks_newMark start) fun m => .pure (same m)

/-! ### Reading without taking -/

section Reading

variable {m : Parser α} {m' : Parser α'} {g : α' → α} {s s' : State}

/-- A run that takes a token takes one of the part. -/
theorem TracksFrom.ofStrict
    [strict : Strict m]
    (aligned : Aligned post k d s s')
    (h : ∀ t after, s'.rest = t :: after → TracksFrom post k d s s' m m' g) :
    TracksFrom post k d s s' m m' g := by
  cases rest : s'.rest with
  | nil =>
      intro clean enough
      have less := strict.length_lt s clean
      rw [aligned.nil rest] at less
      exact absurd enough (Nat.not_le_of_gt less)
  | cons t after => exact h t after rest

/-- Going on by the span of the next token. -/
theorem TracksFrom.atNextSpan
    {f : Text.Span → Parser α} {f' : Text.Span → Parser α'} {t : Token} {after : List Token}
    (aligned : Aligned post k d s s')
    (rest : s'.rest = t :: after)
    (h : TracksFrom post k d s s' (f (t.span.moved d)) (f' t.span) g) :
    TracksFrom post k d s s' (nextSpan >>= f) (nextSpan >>= f') g :=
  .congr (by rw [bind_apply, nextSpan_cons (aligned.cons rest)]; rfl)
    (by rw [bind_apply, nextSpan_cons rest]) h

/-- Going on by the next token. -/
theorem TracksFrom.atPeek
    {f : Option Token → Parser α} {f' : Option Token → Parser α'} {t : Token}
    {after : List Token}
    (aligned : Aligned post k d s s')
    (rest : s'.rest = t :: after)
    (h : TracksFrom post k d s s' (f (some (t.moved d))) (f' (some t)) g) :
    TracksFrom post k d s s' (peek >>= f) (peek >>= f') g :=
  .congr (by rw [bind_apply, peek_cons (aligned.cons rest)])
    (by rw [bind_apply, peek_cons rest]) h

/-- Going on by the number of tokens ahead. -/
theorem TracksFrom.atRemaining
    {f : Nat → Parser α} {f' : Nat → Parser α'}
    (h : TracksFrom post k d s s' (f s.rest.length) (f' s'.rest.length) g) :
    TracksFrom post k d s s' (remaining >>= f) (remaining >>= f') g :=
  h

/-- The next token is taken. -/
theorem TracksFrom.afterAdvance
    {f : Unit → Parser α} {f' : Unit → Parser α'} {t : Token} {after : List Token}
    (aligned : Aligned post k d s s')
    (rest : s'.rest = t :: after)
    (h : Tracks post k d (f ()) (f' ()) g) :
    TracksFrom post k d s s' (advance >>= f) (advance >>= f') g :=
  h _ _ (aligned.advance rest)

end Reading

/-! ### Loops -/

/-- Rounds that stay aligned are repeated alike, as long as there are enough of them or the part ends
with them. -/
theorem tracksFrom_iterate
    {σ σ' : Type} {g : σ' → σ} {round : σ → Parser (Step σ)} {round' : σ' → Parser (Step σ')}
    [rounds : Round round]
    [rounds' : Round round']
    (each : ∀ x, Tracks post k d (round (g x)) (round' x) (Step.map g))
    {fuel fuel' : Nat} {x : σ'} {s s' : State}
    (aligned : Aligned post k d s s')
    (enough' : s'.rest.length ≤ fuel')
    (whole : s.rest.length ≤ fuel ∨ (iterate round fuel (g x) s).2.rest = post) :
    TracksFrom post k d s s' (iterate round fuel (g x)) (iterate round' fuel' x) g := by
  induction fuel generalizing fuel' x s s' with
  | zero =>
      have atEnd : s'.rest = [] := by
        have rest := aligned.rest
        rcases whole with none | isPost
        · rw [List.eq_nil_of_length_eq_zero (Nat.le_zero.mp none)] at rest
          simpa using (List.append_eq_nil_iff.mp rest.symm).1
        · change s.rest = post at isPost
          rw [isPost] at rest
          simpa using rest
      intro _ _
      rw [iterate_nil fuel' x atEnd]
      exact ⟨rfl, aligned⟩
  | succ fuel ih =>
      obtain ⟨fuel', same, enough'⟩ : ∃ n, iterate round' fuel' x s' = iterate round' (n + 1) x s' ∧
          s'.rest.length ≤ n + 1 := by
        cases fuel' with
        | zero =>
            have atEnd := List.eq_nil_of_length_eq_zero (Nat.le_zero.mp enough')
            exact ⟨0, by rw [iterate_nil _ x atEnd, iterate_nil _ x atEnd], by simp [atEnd]⟩
        | succ n => exact ⟨n, rfl, enough'⟩
      refine .congr rfl same ?_
      refine .bind (o := fun step => by cases step <;> infer_instance) (each x s s' aligned)
        fun sameStep aligned' => ?_
      cases went' : (round' x s').1 with
      | stop y => exact fun _ _ => ⟨rfl, aligned'⟩
      | go y =>
          have went : (round (g x) s).1 = .go (g y) := sameStep.trans (congrArg _ went')
          have less := rounds.goes _ _ _ aligned'.clean went
          have less' := rounds'.goes _ _ _ aligned'.alone went'
          rw [iterate_go went] at whole
          exact ih aligned' (by omega) (whole.imp_left fun h => by omega)

/-- As `tracksFrom_iterate`, with the expression that the rounds continue. -/
theorem tracksFrom_chained
    {first first' : Parser Expr} {round round' : Nat → Expr → Parser (Step Expr)}
    [Onward first]
    [Strict first]
    [∀ start, Round (round start)]
    [∀ start, Round (round' start)]
    (h : Tracks post k d first first' (Expr.moved k d))
    (each : ∀ start e, Tracks post k d (round (start + d) (e.moved k d)) (round' start e)
      (Step.map (Expr.moved k d)))
    {fuel fuel' : Nat} {s s' : State}
    (aligned : Aligned post k d s s')
    (enough' : (first' s').2.rest.length ≤ fuel')
    (whole : (first s).2.rest.length ≤ fuel ∨ (chained first round fuel s).2.rest = post) :
    TracksFrom post k d s s' (chained first round fuel) (chained first' round' fuel')
      (Expr.moved k d) := by
  refine .ofStrict aligned fun t after rest => .atNextSpan aligned rest ?_
  refine .bind (h s s' aligned) fun same aligned' => ?_
  refine tracksFrom_iterate (each t.span.start) aligned' enough' (whole.imp_right fun ends => ?_)
  rw [chained, bind_apply, nextSpan_cons (aligned.cons rest), bind_apply, same] at ends
  exact ends

end Parser
end ExprLang
