import ExprLang.Proofs.ErrorReport
import ExprLang.Proofs.ParserProgress
import ExprLang.Proofs.Subtrees

/-!
# Where nodes stand in the source

The tokens of a text stand one behind the other, and a clean run takes them in their order.  So what
was taken ends before what comes next, and nodes that are read one after the other stand one behind
the other.

* `Ordered`: tokens that stand one behind the other.
* `State.Reached`: the states of clean runs, and `Path.places`: how places grow along a run.
* `Row`: expressions that stand one behind the other within a range.
-/

namespace ExprLang

/-- Tokens that stand one behind the other in a text of length `n`. -/
structure Ordered (n : Nat) (tokens : List Token) : Prop where
  each : ∀ t ∈ tokens, t.span.start < t.span.stop ∧ t.span.stop ≤ n
  apart : tokens.Pairwise fun t u => t.span.stop ≤ u.span.start

theorem ordered_scan
    (source : List Char) :
    Ordered source.length (Lexer.scan source).tokens := by
  obtain ⟨parts, all⟩ := Lexer.exists_partition 0 source [] rfl rfl
  exact ⟨fun t member => (all.tokens_within t member).2, all.tokens_pairwise⟩

namespace Parser

/-! ### States of clean runs -/

/-- The states that a clean run on tokens of a text of length `n` comes to. -/
structure State.Reached (n : Nat) (tokens : List Token) (s : State) : Prop where
  ordered : Ordered n tokens
  before : (initial n tokens []).Before s

/-- Where the next token starts. -/
def State.place (s : State) : Nat :=
  (nextSpan s).1.start

theorem place_cons
    {s : State} {t : Token} {after : List Token}
    (rest : s.rest = t :: after) :
    s.place = t.span.start := by
  obtain ⟨_, _, _, _, _, _, _⟩ := s
  cases rest
  rfl

theorem place_nil
    {s : State}
    (rest : s.rest = []) :
    s.place = s.sourceLength := by
  obtain ⟨_, _, _, _, _, _, _⟩ := s
  cases rest
  rfl

theorem lastStop_le
    {k before : Nat} {taken : List Token}
    (start : before ≤ k)
    (each : ∀ t ∈ taken, t.span.stop ≤ k) :
    lastStop before taken ≤ k := by
  induction taken generalizing before with
  | nil => exact start
  | cons t taken ih =>
      obtain ⟨here, later⟩ := List.forall_mem_cons.mp each
      exact ih here later

/-- The first of some tokens starts before the last of them ends. -/
theorem lt_lastStop
    {n : Nat} {t : Token} {taken : List Token}
    (ordered : Ordered n (t :: taken))
    (before : Nat) :
    t.span.start < lastStop before (t :: taken) := by
  have here := (ordered.each t List.mem_cons_self).1
  rcases List.eq_nil_or_concat' taken with rfl | ⟨between, u, rfl⟩
  · exact here
  · rw [← List.cons_append, lastStop_append]
    change t.span.start < u.span.stop
    have isLast : u ∈ between ++ [u] := List.mem_append_right _ (List.mem_singleton_self u)
    have after := (List.pairwise_cons.mp ordered.apart).1 u isLast
    have last := (ordered.each u (List.mem_cons_of_mem t isLast)).1
    omega

section Reached

variable {n : Nat} {tokens : List Token} {s s' s'' : State}

/-- What was taken ends before what comes next. -/
theorem State.Reached.lastEnd_le
    (reached : s.Reached n tokens) :
    s.lastEnd ≤ s.place ∧ s.place ≤ n := by
  obtain ⟨taken, all, lastEnd⟩ := reached.before.taken
  change tokens = taken ++ s.rest at all
  have each := reached.ordered.each
  have apart := reached.ordered.apart
  rw [all] at each apart
  rw [lastEnd]
  cases rest : s.rest with
  | nil =>
      rw [place_nil rest, reached.before.sourceLength]
      refine ⟨lastStop_le (Nat.zero_le n) fun t member => ?_, Nat.le_refl n⟩
      exact (each t (List.mem_append_left _ member)).2
  | cons t after =>
      rw [rest] at each apart
      rw [place_cons rest]
      have isNext : t ∈ taken ++ t :: after := List.mem_append_right _ List.mem_cons_self
      refine ⟨lastStop_le (Nat.zero_le _) fun u member => ?_, ?_⟩
      · exact (List.pairwise_append.mp apart).2.2 u member t List.mem_cons_self
      · have := each t isNext
        omega

/-- A part of a clean run, from one state to another. -/
structure Path (n : Nat) (tokens : List Token) (s s' : State) : Prop where
  starts : s.Reached n tokens
  before : s.Before s'
  ends : s'.Reached n tokens

theorem Path.trans
    (h : Path n tokens s s')
    (h' : Path n tokens s' s'') :
    Path n tokens s s'' :=
  ⟨h.starts, h.before.trans h'.before, h'.ends⟩

theorem path_of_run
    {α : Type} {m : Parser α}
    [onward : Onward m]
    (reached : s.Reached n tokens)
    (clean : (m s).2.Clean) :
    Path n tokens s (m s).2 :=
  have before := (onward.onward s clean).2
  ⟨reached, before, reached.ordered, reached.before.trans before⟩

/-- Along a run places grow, and a run that takes a token ends behind where it started. -/
theorem Path.places
    (h : Path n tokens s s') :
    s.place ≤ s'.place ∧ s.lastEnd ≤ s'.lastEnd ∧
      (s'.rest.length < s.rest.length → s.place < s'.lastEnd) := by
  have here := h.starts.lastEnd_le
  have there := h.ends.lastEnd_le
  obtain ⟨all, tokensEq, -⟩ := h.starts.before.taken
  change tokens = all ++ s.rest at tokensEq
  obtain ⟨taken, rest, lastEnd⟩ := h.before.taken
  cases taken with
  | nil =>
      rw [List.nil_append] at rest
      have samePlace : s.place = s'.place := by
        cases isRest : s.rest with
        | nil => rw [place_nil isRest, place_nil (rest ▸ isRest), h.before.sourceLength]
        | cons t after => rw [place_cons isRest, place_cons (rest ▸ isRest)]
      have sameEnd : s'.lastEnd = s.lastEnd := lastEnd
      rw [rest]
      omega
  | cons t taken =>
      have isPart : (t :: taken).Sublist tokens := by
        rw [tokensEq, rest]
        exact (List.sublist_append_left _ _).trans (List.sublist_append_right _ _)
      have ordered := h.starts.ordered
      have start := lt_lastStop ⟨fun u member => ordered.each u (isPart.subset member),
        ordered.apart.sublist isPart⟩ s.lastEnd
      rw [← lastEnd] at start
      rw [place_cons rest] at here ⊢
      omega

end Reached

end Parser

/-! ### Rows of expressions -/

namespace Expr

/-- Expressions that stand one behind the other between two places. -/
structure Row (lo : Nat) (es : List Expr) (hi : Nat) : Prop where
  each : ∀ e ∈ es, lo ≤ e.span.start ∧ e.span.start < e.span.stop ∧ e.span.stop ≤ hi
  apart : es.Pairwise fun a b => a.span.stop ≤ b.span.start

section Row

variable {lo lo' mid mid' hi hi' : Nat} {es es' : List Expr} {e : Expr}

theorem Row.nil : Row lo [] hi :=
  ⟨nofun, .nil⟩

theorem Row.append
    (h : Row lo es mid)
    (h' : Row mid' es' hi)
    (starts : lo ≤ mid')
    (apart : mid ≤ mid')
    (ends : mid ≤ hi) :
    Row lo (es ++ es') hi where
  each e member := by
    rcases List.mem_append.mp member with left | right
    · have := h.each e left
      omega
    · have := h'.each e right
      omega
  apart := by
    refine List.pairwise_append.mpr ⟨h.apart, h'.apart, fun a left b right => ?_⟩
    have := h.each a left
    have := h'.each b right
    omega

theorem Row.mono
    (h : Row lo es hi)
    (starts : lo' ≤ lo)
    (ends : hi ≤ hi') :
    Row lo' es hi' := by
  refine ⟨fun e member => ?_, h.apart⟩
  have := h.each e member
  omega

theorem Row.sublist
    (h : Row lo es hi)
    (part : es'.Sublist es) :
    Row lo es' hi :=
  ⟨fun e member => h.each e (part.subset member), h.apart.sublist part⟩

/-- Only places matter. -/
theorem Row.congr
    (h : Row lo es hi)
    (same : es'.map span = es.map span) :
    Row lo es' hi := by
  have each : ∀ p ∈ es.map span, lo ≤ p.start ∧ p.start < p.stop ∧ p.stop ≤ hi :=
    List.forall_mem_map.mpr h.each
  have apart : (es.map span).Pairwise fun p q => p.stop ≤ q.start := List.pairwise_map.mpr h.apart
  rw [← same] at each apart
  exact ⟨List.forall_mem_map.mp each, List.pairwise_map.mp apart⟩

end Row

end Expr
end ExprLang
