import ExprLang.Proofs.Grammar

/-!
# Runs of the parser without a mistake

The parser records mistakes and goes on.  A run is clean if nothing was recorded and nothing was
cut off.  What is said about the parser is said of clean runs, in two forms:

* `Sound i m P`: a run of `m` on the tokens `i` that ends clean satisfies `P`.
* `Gives i m A r`: a clean run of `m` on the tokens `i` stays clean and leaves the tokens `r`.

Both compose along the steps of a parser.  For `Sound` no later step may repair an earlier one,
which is `Proper`; every part of the parser is proper.  `Proper` is a class, so that the parts of
a parser are found proper by the shape of its text.
-/

namespace ExprLang
namespace Parser

open Grammar (startsWith negatable?)

variable {α β : Type}

/-- Nothing is recorded and nothing was cut off. -/
structure State.Clean (s : State) : Prop where
  errors : s.errors = []
  offsets : s.offsets = []
  halted : s.halted = false

/-- A state in which a mistake that matters is one that is recorded. -/
def State.Settled (s : State) : Prop :=
  s.Clean ∨ s.errors ≠ []

/-- A parser that repairs nothing and records what goes wrong. -/
class Proper (m : Parser α) : Prop where
  clean : ∀ s, (m s).2.Clean → s.Clean
  settled : ∀ s : State, s.Settled → (m s).2.Settled

/-- What holds of the result and of the tokens left after a run that ends clean. -/
def Sound (i : List Token) (m : Parser α) (P : α → List Token → Prop) : Prop :=
  ∀ s, s.rest = i → (m s).2.Clean → P (m s).1 (m s).2.rest

/-- A clean run stays clean, with a result of some kind, and leaves certain tokens. -/
def Gives (i : List Token) (m : Parser α) (A : α → Prop) (r : List Token) : Prop :=
  ∀ s, s.rest = i → s.Clean → A (m s).1 ∧ (m s).2.rest = r ∧ (m s).2.Clean

/-! ### Composition -/

instance Proper.pure
    (a : α) :
    Proper (pure a : Parser α) :=
  ⟨fun _ h => h, fun _ h => h⟩

instance Proper.get :
    Proper (get : Parser State) :=
  ⟨fun _ h => h, fun _ h => h⟩

instance Proper.bind
    {m : Parser α} {f : α → Parser β}
    [hm : Proper m]
    [hf : ∀ a, Proper (f a)] :
    Proper (m >>= f) where
  clean s h := hm.clean s ((hf _).clean _ h)
  settled s h := (hf _).settled _ (hm.settled s h)

instance Proper.ite
    {c : Prop} [Decidable c] {m m' : Parser α}
    [h : Proper m]
    [h' : Proper m'] :
    Proper (if c then m else m') := by
  split
  · exact h
  · exact h'

theorem Sound.pure
    {i : List Token} {P : α → List Token → Prop} {a : α}
    (h : P a i) :
    Sound i (pure a) P := by
  rintro s rfl -
  exact h

theorem Sound.bind
    {i : List Token} {m : Parser α} {f : α → Parser β}
    {P : α → List Token → Prop} {Q : β → List Token → Prop}
    [proper : ∀ a, Proper (f a)]
    (hm : Sound i m P)
    (hf : ∀ a j, P a j → Sound j (f a) Q) :
    Sound i (m >>= f) Q := by
  intro s hs clean
  have before : (m s).2.Clean := (proper _).clean _ clean
  exact hf _ _ (hm s hs before) _ rfl clean

/-- As `Sound.bind`, where that the later steps are proper has to be said. -/
theorem Sound.andThen
    {i : List Token} {m : Parser α} {f : α → Parser β}
    {P : α → List Token → Prop} {Q : β → List Token → Prop}
    (hm : Sound i m P)
    (proper : ∀ a, Proper (f a))
    (hf : ∀ a j, P a j → Sound j (f a) Q) :
    Sound i (m >>= f) Q :=
  .bind hm hf

theorem Sound.ite
    {c : Prop} [Decidable c] {i : List Token} {m m' : Parser α} {P : α → List Token → Prop}
    (h : c → Sound i m P)
    (h' : ¬ c → Sound i m' P) :
    Sound i (if c then m else m') P := by
  by_cases hc : c
  · rw [if_pos hc]
    exact h hc
  · rw [if_neg hc]
    exact h' hc

theorem Sound.mono
    {i : List Token} {m : Parser α} {P Q : α → List Token → Prop}
    (hm : Sound i m P)
    (h : ∀ a j, P a j → Q a j) :
    Sound i m Q :=
  fun s hs clean => h _ _ (hm s hs clean)

theorem Gives.pure
    {i : List Token} {A : α → Prop} {a : α}
    (h : A a) :
    Gives i (pure a) A i := by
  rintro s hs clean
  exact ⟨h, hs, clean⟩

theorem Gives.bind
    {i j r : List Token} {m : Parser α} {f : α → Parser β} {A : α → Prop} {B : β → Prop}
    (hm : Gives i m A j)
    (hf : ∀ a, A a → Gives j (f a) B r) :
    Gives i (m >>= f) B r := by
  intro s hs clean
  obtain ⟨result, rest, clean'⟩ := hm s hs clean
  exact hf _ result _ rest clean'

theorem Gives.mono
    {i r : List Token} {m : Parser α} {A B : α → Prop}
    (hm : Gives i m A r)
    (h : ∀ a, A a → B a) :
    Gives i m B r := by
  intro s hs clean
  obtain ⟨result, rest, clean'⟩ := hm s hs clean
  exact ⟨h _ result, rest, clean'⟩

/-! ### Reading without taking -/

/-- Going on by what the state is. -/
theorem Sound.get
    {i : List Token} {f : State → Parser α} {P : α → List Token → Prop}
    (h : ∀ s : State, s.rest = i → Sound i (f s) P) :
    Sound i (get >>= f) P :=
  fun s hs clean => h s hs s hs clean

theorem Gives.get
    {i r : List Token} {f : State → Parser α} {A : α → Prop}
    (h : ∀ s : State, s.rest = i → Gives i (f s) A r) :
    Gives i (get >>= f) A r :=
  fun s hs clean => h s hs s hs clean

/-- Going on by something read off the state. -/
theorem Sound.read
    {i : List Token} {g : State → α} {f : α → Parser β} {P : β → List Token → Prop}
    (h : ∀ s : State, s.rest = i → Sound i (f (g s)) P) :
    Sound i ((do return g (← MonadState.get)) >>= f) P :=
  fun s hs clean => h s hs s hs clean

theorem Gives.read
    {i r : List Token} {g : State → α} {f : α → Parser β} {A : β → Prop}
    (h : ∀ s : State, s.rest = i → Gives i (f (g s)) A r) :
    Gives i ((do return g (← MonadState.get)) >>= f) A r :=
  fun s hs clean => h s hs s hs clean

/-! ### Taking tokens -/

/-- What does not touch the record of mistakes is proper. -/
theorem proper_modifyGet
    {f : State → α × State}
    (errors : ∀ s, (f s).2.errors = s.errors)
    (offsets : ∀ s, (f s).2.offsets = s.offsets)
    (halted : ∀ s, (f s).2.halted = s.halted) :
    Proper (modifyGet f : Parser α) where
  clean s h :=
    ⟨(errors s).symm.trans h.errors, (offsets s).symm.trans h.offsets,
      (halted s).symm.trans h.halted⟩
  settled s h := by
    rcases h with h | h
    · exact .inl ⟨(errors s).trans h.errors, (offsets s).trans h.offsets,
        (halted s).trans h.halted⟩
    · exact .inr fun none => h ((errors s).symm.trans none)

instance proper_advance : Proper advance := by
  apply proper_modifyGet <;>
    · intro s
      dsimp only
      split <;> rfl

theorem advance_cons
    {s : State} {t : Token} {i : List Token}
    (hs : s.rest = t :: i) :
    advance s = ((), { s with rest := i, lastEnd := t.span.stop }) := by
  obtain ⟨rest, _, _, _, _, _, _⟩ := s
  subst hs
  rfl

theorem sound_advance
    {t : Token} {i : List Token} {P : Unit → List Token → Prop}
    (h : P () i) :
    Sound (t :: i) advance P := by
  intro s hs _
  rw [advance_cons hs]
  exact h

theorem gives_advance
    {t : Token} {i : List Token} :
    Gives (t :: i) advance (fun _ => True) i := by
  intro s hs clean
  rw [advance_cons hs]
  exact ⟨trivial, rfl, clean.errors, clean.offsets, clean.halted⟩

theorem atSymbol_apply
    (text : String) (s : State) :
    atSymbol text s = (startsWith text s.rest, s) := by
  obtain ⟨rest, _, _, _, _, _, _⟩ := s
  cases rest <;> rfl

instance proper_atSymbol
    (text : String) :
    Proper (atSymbol text) :=
  .bind

instance proper_takeSymbol
    (text : String) :
    Proper (takeSymbol text) :=
  .bind

/-- A symbol that comes next is taken. -/
theorem gives_takeSymbol
    {text : String} {t : Token} {i : List Token}
    (h : t.isSymbol text = true) :
    Gives (t :: i) (takeSymbol text) (· = true) i := by
  refine .bind (A := (· = true)) (j := t :: i) ?_ ?_
  · intro s hs clean
    rw [atSymbol_apply, hs]
    exact ⟨h, rfl, clean⟩
  · rintro _ rfl
    exact .bind gives_advance fun _ _ => .pure rfl

/-- A symbol that does not come next is not taken. -/
theorem gives_takeSymbol_of_not
    {text : String} {i : List Token}
    (h : startsWith text i = false) :
    Gives i (takeSymbol text) (· = false) i := by
  refine .bind (A := (· = false)) (j := i) ?_ ?_
  · intro s hs clean
    rw [atSymbol_apply, hs]
    exact ⟨h, rfl, clean⟩
  · rintro _ rfl
    exact .pure rfl

theorem sound_takeSymbol
    (text : String) (i : List Token) :
    Sound i (takeSymbol text) fun b r =>
      (b = true ∧ ∃ t, t.isSymbol text = true ∧ i = t :: r) ∨
        (b = false ∧ startsWith text i = false ∧ r = i) := by
  refine .bind (P := fun b r => b = startsWith text i ∧ r = i) ?_ ?_
  · rintro s rfl -
    rw [atSymbol_apply]
    exact ⟨rfl, rfl⟩
  · rintro b r ⟨hb, hr⟩
    rw [hr]
    cases b with
    | false => exact .pure (.inr ⟨rfl, hb.symm, rfl⟩)
    | true =>
        match i, hb with
        | t :: i, hb =>
            exact .bind (sound_advance (P := fun _ r => r = i) rfl)
              fun _ r hr => .pure (.inl ⟨rfl, t, hb.symm, by rw [hr]⟩)

/-- A choice by whether a symbol comes next. -/
theorem Sound.ifSymbol
    {text : String} {i : List Token} {m m' : Parser α} {P : α → List Token → Prop}
    [Proper m]
    [Proper m']
    (taken : ∀ t j, t.isSymbol text = true → i = t :: j → Sound j m P)
    (absent : startsWith text i = false → Sound i m' P) :
    Sound i (do if ← takeSymbol text then m else m') P := by
  refine .bind (sound_takeSymbol text i) ?_
  rintro b j (⟨rfl, t, h, hi⟩ | ⟨rfl, h, rfl⟩)
  · exact taken t j h hi
  · exact absent h

theorem Gives.ifSymbol
    {text : String} {t : Token} {i r : List Token} {m m' : Parser α} {A : α → Prop}
    (h : t.isSymbol text = true)
    (hm : Gives i m A r) :
    Gives (t :: i) (do if ← takeSymbol text then m else m') A r := by
  refine .bind (gives_takeSymbol h) ?_
  rintro _ rfl
  exact hm

theorem Gives.ifNoSymbol
    {text : String} {i r : List Token} {m m' : Parser α} {A : α → Prop}
    (h : startsWith text i = false)
    (hm : Gives i m' A r) :
    Gives i (do if ← takeSymbol text then m else m') A r := by
  refine .bind (gives_takeSymbol_of_not h) ?_
  rintro _ rfl
  exact hm

/-! ### Mistakes -/

/-- After a mistake no state is clean. -/
theorem not_clean_record
    (cause : SyntaxError) (span : Text.Span) (s : State) :
    ¬ (record cause span s).2.Clean := by
  intro h
  change (if s.halted || s.offsets.contains span.start then s
    else { s with errors := (cause, span) :: s.errors, offsets := span.start :: s.offsets }).Clean
    at h
  split at h
  · next known =>
      simp [h.halted, h.offsets] at known
  · exact absurd h.errors (by simp)

theorem settled_record
    (cause : SyntaxError) (span : Text.Span) (s : State)
    (h : s.Settled) :
    (record cause span s).2.errors ≠ [] := by
  change (if s.halted || s.offsets.contains span.start then s
    else { s with errors := (cause, span) :: s.errors,
                  offsets := span.start :: s.offsets }).errors ≠ []
  split
  · next known =>
      rcases h with h | h
      · simp [h.halted, h.offsets] at known
      · exact h
  · simp

instance proper_record
    (cause : SyntaxError) (span : Text.Span) :
    Proper (record cause span) where
  clean s h := absurd h (not_clean_record cause span s)
  settled s h := .inr (settled_record cause span s h)

/-- A run that records a mistake does not end clean. -/
theorem sound_record
    {cause : SyntaxError} {span : Text.Span} {i : List Token} {P : Unit → List Token → Prop} :
    Sound i (record cause span) P :=
  fun s _ clean => absurd clean (not_clean_record cause span s)

/-- Nothing is to be said about a run after a mistake. -/
theorem Sound.afterRecord
    {cause : SyntaxError} {span : Text.Span} {i : List Token} {m : Unit → Parser α}
    {P : α → List Token → Prop}
    [∀ a, Proper (m a)] :
    Sound i (record cause span >>= m) P :=
  .bind (P := fun _ _ => False) sound_record fun _ _ h => h.elim

instance proper_found : Proper found :=
  .bind

instance proper_nextSpan : Proper nextSpan :=
  .bind

instance proper_peek : Proper peek :=
  .bind

instance proper_remaining : Proper remaining :=
  .bind

instance proper_atEnd : Proper atEnd :=
  .bind

instance proper_expect
    (text : String) :
    Proper (expect text) :=
  .bind

theorem sound_expect
    (text : String) (i : List Token) :
    Sound i (expect text) fun b r => b = true ∧ ∃ t, t.isSymbol text = true ∧ i = t :: r := by
  refine .ifSymbol ?_ ?_
  · intro t j h hi
    exact .pure ⟨rfl, t, h, hi⟩
  · intro _
    exact .read fun _ _ => .read fun _ _ => .afterRecord

theorem gives_expect
    {text : String} {t : Token} {i : List Token}
    (h : t.isSymbol text = true) :
    Gives (t :: i) (expect text) (· = true) i :=
  .ifSymbol h (.pure rfl)

/-! ### Nodes -/

instance proper_newMark
    (start : Nat) :
    Proper (newMark start) :=
  proper_modifyGet (fun _ => rfl) (fun _ => rfl) (fun _ => rfl)

theorem sound_newMark
    {start : Nat} {i : List Token} :
    Sound i (newMark start) fun _ r => r = i := by
  rintro s rfl -
  rfl

theorem gives_newMark
    {start : Nat} {i : List Token} :
    Gives i (newMark start) (fun _ => True) i := by
  rintro s hs clean
  exact ⟨trivial, hs, clean.errors, clean.offsets, clean.halted⟩

/-- A new node, whatever its mark. -/
theorem sound_node
    {start : Nat} {i : List Token} {node : Mark → Expr} {P : Expr → List Token → Prop}
    (h : ∀ mark, P (node mark) i) :
    Sound i (do return node (← newMark start)) P := by
  refine .bind sound_newMark ?_
  rintro mark _ rfl
  exact .pure (h mark)

theorem gives_node
    {start : Nat} {i : List Token} {node : Mark → Expr} {A : Expr → Prop}
    (h : ∀ mark, A (node mark)) :
    Gives i (do return node (← newMark start)) A i :=
  .bind gives_newMark fun mark _ => .pure (h mark)

end Parser
end ExprLang
