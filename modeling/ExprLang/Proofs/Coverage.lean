import ExprLang.Proofs.ScannedItems
import ExprLang.Proofs.Scanning

/-!
# Scanning loses no character

A source text falls into parts, one after the other without a gap: tokens, blanks and comments, and
mistakes that became no token.  The tokens among them are all tokens that scanning gives, and the
mistakes among them are all that overlap no token; any other mistake lies within a string.

* `scan_induction`: induction over a text, one item after the other.
* `Partition`, `exists_partition`: the parts of a text.
* `errors_scanFrom`: mistakes lie within the text and differ in where they start.
* `tokenize_covers`: tokens, blanks, comments and mistakes cover a source text.
-/

namespace ExprLang

namespace Text

/-- The part of a text that a span covers. -/
def slice (source : List Char) (span : Span) : List Char :=
  (source.drop span.start).take (span.stop - span.start)

namespace Span

/-- Whether an offset lies within a span. -/
def Contains (span : Span) (i : Nat) : Prop :=
  span.start ≤ i ∧ i < span.stop

/-- Whether two spans have no offset in common. -/
def Apart (span span' : Span) : Prop :=
  ∀ i, span.Contains i → ¬ span'.Contains i

/-- A span covers a piece of text that stands where the span says. -/
theorem slice_append
    {before : List Char} {pos : Nat}
    (starts : before.length = pos)
    (text after : List Char) :
    slice (before ++ (text ++ after)) ⟨pos, pos + text.length⟩ = text := by
  subst starts
  simp [slice]

end Span
end Text

/-- A part of a source text. -/
inductive Part where
  | token (t : Token)
  | trivia (span : Text.Span)
  | mistake (p : Problem)

namespace Part

/-- Where a part stands. -/
def span : Part → Text.Span
  | token t => t.span
  | trivia span => span
  | mistake p => p.span

/-- The token that a part is. -/
def token? : Part → Option Token
  | token t => some t
  | _ => none

/-- The span of the blank or comment that a part is. -/
def trivia? : Part → Option Text.Span
  | trivia span => some span
  | _ => none

/-- The mistake that a part is. -/
def mistake? : Part → Option Problem
  | mistake p => some p
  | _ => none

section Forms

variable {parts : List Part}

theorem mem_tokens
    {t : Token} :
    t ∈ parts.filterMap token? ↔ token t ∈ parts := by
  rw [List.mem_filterMap]
  constructor
  · rintro ⟨part, member, isToken⟩
    cases part <;> cases isToken
    exact member
  · exact fun member => ⟨_, member, rfl⟩

theorem mem_trivia
    {span : Text.Span} :
    span ∈ parts.filterMap trivia? ↔ trivia span ∈ parts := by
  rw [List.mem_filterMap]
  constructor
  · rintro ⟨part, member, isTrivia⟩
    cases part <;> cases isTrivia
    exact member
  · exact fun member => ⟨_, member, rfl⟩

theorem mem_mistakes
    {p : Problem} :
    p ∈ parts.filterMap mistake? ↔ mistake p ∈ parts := by
  rw [List.mem_filterMap]
  constructor
  · rintro ⟨part, member, isMistake⟩
    cases part <;> cases isMistake
    exact member
  · exact fun member => ⟨_, member, rfl⟩

end Forms

/-- What holds of a part of a given text. -/
def Fits (source : List Char) : Part → Prop
  | token t => t.kind ≠ .endOfInput ∧ t.text = String.ofList (Text.slice source t.span)
  | trivia span => Lexer.IsTrivia (Text.slice source span) (source.drop span.stop)
  | mistake p => p.cause.isIsolated = true

/-- Parts that stand one after the other, from an offset to another. -/
inductive Tiled : Nat → List Part → Nat → Prop
  | nil
      {n : Nat} :
      Tiled n [] n
  | cons
      {n : Nat} {part : Part} {parts : List Part} {last : Nat}
      (starts : part.span.start = n)
      (proper : n < part.span.stop)
      (others : Tiled part.span.stop parts last) :
      Tiled n (part :: parts) last

section Tiled

variable {first last : Nat} {parts : List Part}

theorem Tiled.le
    (h : Tiled first parts last) :
    first ≤ last := by
  induction h with
  | nil => exact Nat.le_refl _
  | cons _ proper _ ih => exact (Nat.le_of_lt proper).trans ih

theorem Tiled.within
    (h : Tiled first parts last) :
    ∀ part ∈ parts, first ≤ part.span.start ∧ part.span.start < part.span.stop ∧
      part.span.stop ≤ last := by
  induction h with
  | nil => nofun
  | @cons n part parts last starts proper others ih =>
      have ends := others.le
      refine List.forall_mem_cons.mpr ⟨by omega, fun other member => ?_⟩
      obtain ⟨after, nonempty, before⟩ := ih other member
      omega

theorem Tiled.pairwise
    (h : Tiled first parts last) :
    parts.Pairwise fun part other => part.span.stop ≤ other.span.start := by
  induction h with
  | nil => exact .nil
  | cons _ _ others ih =>
      exact .cons (fun other member => (others.within other member).1) ih

/-- Every offset lies in exactly one part. -/
theorem Tiled.existsUnique
    (h : Tiled first parts last)
    {i : Nat}
    (after : first ≤ i)
    (before : i < last) :
    ∃! part, part ∈ parts ∧ part.span.Contains i := by
  induction h with
  | nil => omega
  | @cons n part parts last starts proper others ih =>
      by_cases here : i < part.span.stop
      · refine ⟨part, ⟨List.mem_cons_self, by omega, here⟩, ?_⟩
        rintro other ⟨member, starts', _⟩
        rcases List.mem_cons.mp member with rfl | later
        · rfl
        · have := (others.within other later).1
          omega
      · obtain ⟨other, ⟨later, contains⟩, unique⟩ := ih (by omega) before
        refine ⟨other, ⟨List.mem_cons_of_mem _ later, contains⟩, ?_⟩
        rintro other' ⟨member, contains'⟩
        rcases List.mem_cons.mp member with rfl | later'
        · exact absurd contains'.2 here
        · exact unique other' ⟨later', contains'⟩

end Tiled

end Part

namespace Lexer

open Literal (Item)

/-! ### One item after the other -/

/-- A scan goes on after its first item. -/
theorem scanFrom_item
    (pos : Nat)
    (c : Char)
    (rest : List Char) :
    scanFrom pos 0 (c :: rest) =
      (scanFrom (pos + (scanItem pos c rest).length) 0
        ((c :: rest).drop (scanItem pos c rest).length)).push (scanItem pos c rest) pos
          (c :: rest) := by
  have found := found_scanItem pos c rest
  have positive := found.positive
  have fits := found.fits
  rw [scanFrom]
  generalize scanItem pos c rest = item at *
  obtain ⟨length, kind, errors⟩ := item
  obtain ⟨length, rfl⟩ := Nat.exists_eq_succ_of_ne_zero (Nat.ne_of_gt positive)
  have passed : (rest.take length).length = length := by
    rw [List.length_take]
    exact Nat.min_eq_left (Nat.le_of_succ_le_succ fits)
  have skip := scanFrom_skip (pos + 1) (rest.take length) (rest.drop length)
  rw [List.take_append_drop, passed] at skip
  simp only [Nat.succ_eq_add_one, Nat.add_sub_cancel, List.drop_succ_cons, skip]
  rw [Nat.add_assoc, Nat.add_comm 1]

/-- Induction over a text, one item after the other. -/
theorem scan_induction
    {motive : Nat → List Char → Prop}
    (nil : ∀ pos, motive pos [])
    (item : ∀ pos c rest, motive (pos + (scanItem pos c rest).length)
      ((c :: rest).drop (scanItem pos c rest).length) → motive pos (c :: rest))
    (pos : Nat)
    (cs : List Char) :
    motive pos cs :=
  match cs with
  | [] => nil pos
  | c :: rest => item pos c rest (scan_induction nil item _ _)
termination_by cs.length
decreasing_by
  have positive := (found_scanItem pos c rest).positive
  rw [List.length_drop, List.length_cons]
  omega

/-! ### The parts of a text -/

/-- The parts of the text from one offset to another, as a scan found them. -/
structure Partition (source : List Char) (first last : Nat) (scan : Scan) (parts : List Part) :
    Prop where
  tiled : Part.Tiled first parts last
  fits : ∀ part ∈ parts, part.Fits source
  tokens : scan.tokens = parts.filterMap Part.token?
  mistakes : (scan.errors.filter (·.1.isIsolated)).map (fun e => Problem.locate source e.1 e.2) =
    parts.filterMap Part.mistake?
  shared : ∀ e ∈ scan.errors, e.1.isIsolated = false → ∃ t ∈ scan.tokens,
    t.span.start ≤ e.2.start ∧ e.2.start < e.2.stop ∧ e.2.stop ≤ t.span.stop

/-- One more item in front of a text. -/
theorem Partition.push
    {before cs : List Char} {pos : Nat} {item : Item} {later : Scan} {parts : List Part} {last : Nat}
    (starts : before.length = pos)
    (found : Found pos cs item)
    (h : Partition (before ++ cs) (pos + item.length) last later parts) :
    ∃ part, Partition (before ++ cs) pos last (later.push item pos cs) (part :: parts) := by
  have text : Text.slice (before ++ cs) ⟨pos, pos + item.length⟩ = cs.take item.length := by
    have covered := Text.Span.slice_append starts (cs.take item.length) (cs.drop item.length)
    rwa [List.take_append_drop, List.length_take, Nat.min_eq_left found.fits] at covered
  have follows : (before ++ cs).drop (pos + item.length) = cs.drop item.length := by
    rw [← starts, List.drop_append]
    simp
  obtain ⟨tiled, fits, tokens, mistakes, shared⟩ := h
  cases found with
  | @trivia length positive _ isTrivia =>
      refine ⟨.trivia ⟨pos, pos + length⟩, .cons rfl ?_ tiled, ?_, tokens, mistakes, shared⟩
      · exact Nat.lt_add_of_pos_right positive
      · refine List.forall_mem_cons.mpr ⟨?_, fits⟩
        rw [Part.Fits, text, follows]
        exact isTrivia
  | @token length kind errors positive _ inInput within =>
      have noneIsolated : errors.filter (·.1.isIsolated) = [] :=
        List.filter_eq_nil_iff.mpr fun e member => by simp [within.shared e member]
      refine ⟨.token ⟨kind, String.ofList (cs.take length), ⟨pos, pos + length⟩⟩,
        .cons rfl ?_ tiled, ?_, ?_, ?_, ?_⟩
      · exact Nat.lt_add_of_pos_right positive
      · refine List.forall_mem_cons.mpr ⟨⟨inInput, ?_⟩, fits⟩
        rw [text]
      · simp only [Scan.push, tokens]
        rfl
      · simp only [Scan.push, List.filter_append, noneIsolated, List.nil_append, mistakes]
        rfl
      · intro e member isShared
        rcases List.mem_append.mp member with here | after
        · exact ⟨_, List.mem_cons_self, within.inside e here⟩
        · obtain ⟨t, later, covers⟩ := shared e after isShared
          exact ⟨t, List.mem_cons_of_mem _ later, covers⟩
  | @mistake length cause positive _ isolated =>
      refine ⟨.mistake (Problem.locate (before ++ cs) cause ⟨pos, pos + length⟩),
        .cons rfl ?_ tiled, ?_, tokens, ?_, ?_⟩
      · exact Nat.lt_add_of_pos_right positive
      · exact List.forall_mem_cons.mpr ⟨isolated, fits⟩
      · simp only [Scan.push, Item.bad, List.singleton_append, List.filter_cons, isolated, if_true,
          List.map_cons, mistakes]
        rfl
      · intro e member isShared
        rcases List.mem_cons.mp member with rfl | after
        · rw [isolated] at isShared
          cases isShared
        · exact shared e after isShared

/-- A text falls into parts, by induction over its items. -/
theorem exists_partition
    {source : List Char}
    (pos : Nat)
    (cs : List Char)
    (before : List Char)
    (starts : before.length = pos)
    (whole : before ++ cs = source) :
    ∃ parts, Partition source pos source.length (scanFrom pos 0 cs) parts := by
  induction pos, cs using scan_induction generalizing before with
  | nil pos =>
      rw [List.append_nil] at whole
      subst whole starts
      exact ⟨[], .nil, nofun, rfl, rfl, nofun⟩
  | item pos c rest ih =>
      subst whole
      have found := found_scanItem pos c rest
      obtain ⟨parts, later⟩ := ih (before ++ (c :: rest).take (scanItem pos c rest).length)
        (by rw [List.length_append, List.length_take, Nat.min_eq_left found.fits, starts])
        (by rw [List.append_assoc, List.take_append_drop])
      obtain ⟨part, all⟩ := later.push starts found
      rw [scanFrom_item]
      exact ⟨_, all⟩

/-! ### Mistakes -/

/-- Mistakes lie within the text, and no two start at the same offset. -/
theorem errors_scanFrom
    (pos : Nat)
    (cs : List Char) :
    (∀ e ∈ (scanFrom pos 0 cs).errors,
      pos ≤ e.2.start ∧ e.2.start < e.2.stop ∧ e.2.stop ≤ pos + cs.length) ∧
      ((scanFrom pos 0 cs).errors.map (·.2.start)).Nodup := by
  induction pos, cs using scan_induction with
  | nil pos => exact ⟨nofun, .nil⟩
  | item pos c rest ih =>
      have found := found_scanItem pos c rest
      rw [scanFrom_item]
      generalize scanFrom (pos + _) 0 _ = later at *
      generalize scanItem pos c rest = item at *
      obtain ⟨bounds, nodup⟩ := ih
      have fits := found.fits
      rw [List.length_drop] at bounds
      have here : (∀ e ∈ item.errors, pos ≤ e.2.start ∧ e.2.start < e.2.stop ∧
          e.2.stop ≤ pos + item.length) ∧ (item.errors.map (·.2.start)).Nodup := by
        cases found with
        | trivia => exact ⟨nofun, .nil⟩
        | token _ _ _ within => exact ⟨within.inside, within.nodup⟩
        | mistake positive _ _ =>
            refine ⟨List.forall_mem_singleton.mpr ⟨Nat.le_refl _, ?_, Nat.le_refl _⟩, by simp [Item.bad]⟩
            exact Nat.lt_add_of_pos_right positive
      refine ⟨fun e member => ?_, ?_⟩
      · rcases List.mem_append.mp member with now | after
        · have := here.1 e now
          omega
        · have := bounds e after
          omega
      · rw [Scan.push, List.map_append, List.nodup_append]
        refine ⟨here.2, nodup, ?_⟩
        intro a now b after same
        obtain ⟨e, current, rfl⟩ := List.mem_map.mp now
        obtain ⟨e', later, rfl⟩ := List.mem_map.mp after
        have := here.1 e current
        have := bounds e' later
        omega

end Lexer

/-! ### Whole source texts -/

namespace Lexer

section Whole

variable {source : List Char} {parts : List Part}

/-- Parts that share an offset are the same. -/
theorem Partition.unique
    {scan : Scan}
    (h : Partition source 0 source.length scan parts)
    {part other : Part} {i : Nat}
    (member : part ∈ parts)
    (member' : other ∈ parts)
    (contains : part.span.Contains i)
    (contains' : other.span.Contains i) :
    part = other := by
  have before := (h.tiled.within part member).2.2
  have atMost := contains.2
  obtain ⟨_, _, unique⟩ := h.tiled.existsUnique (Nat.zero_le i) (by omega)
  rw [unique part ⟨member, contains⟩, unique other ⟨member', contains'⟩]

theorem Partition.isToken_iff
    {scan : Scan} {first last : Nat}
    (h : Partition source first last scan parts)
    (t : Token) :
    t ∈ scan.tokens ↔ .token t ∈ parts := by
  rw [h.tokens, Part.mem_tokens]

/-- Tokens lie within the text. -/
theorem Partition.tokens_within
    {scan : Scan} {first last : Nat}
    (h : Partition source first last scan parts) :
    ∀ t ∈ scan.tokens, first ≤ t.span.start ∧ t.span.start < t.span.stop ∧ t.span.stop ≤ last :=
  fun t member => h.tiled.within _ ((h.isToken_iff t).mp member)

/-- Tokens stand one behind the other. -/
theorem Partition.tokens_pairwise
    {scan : Scan} {first last : Nat}
    (h : Partition source first last scan parts) :
    scan.tokens.Pairwise fun t u => t.span.stop ≤ u.span.start := by
  rw [h.tokens]
  refine h.tiled.pairwise.filterMap _ fun part other ends t ht u hu => ?_
  cases part <;> cases ht
  cases other <;> cases hu
  exact ends

/-- A mistake overlaps no token exactly if it is a part of its own. -/
theorem Partition.isMistake_iff
    (h : Partition source 0 source.length (scan source) parts)
    (p : Problem) :
    .mistake p ∈ parts ↔
      p ∈ (tokenize source).2 ∧ ∀ t ∈ (scan source).tokens, t.span.Apart p.span := by
  rw [← Part.mem_mistakes, ← h.mistakes]
  constructor
  · intro member
    have isPart := member
    rw [h.mistakes, Part.mem_mistakes] at isPart
    obtain ⟨e, isolated, rfl⟩ := List.mem_map.mp member
    refine ⟨List.mem_map.mpr ⟨e, (List.mem_filter.mp isolated).1, rfl⟩, ?_⟩
    intro t isToken i contains contains'
    rw [h.tokens, Part.mem_tokens] at isToken
    cases h.unique isToken isPart contains contains'
  · rintro ⟨member, apart⟩
    obtain ⟨e, isError, rfl⟩ := List.mem_map.mp member
    refine List.mem_map.mpr ⟨e, List.mem_filter.mpr ⟨isError, ?_⟩, rfl⟩
    rw [← Bool.not_eq_false]
    intro isShared
    obtain ⟨t, isToken, starts, proper, ends⟩ := h.shared e isError isShared
    exact apart t isToken e.2.start ⟨starts, proper.trans_le ends⟩ ⟨Nat.le_refl _, proper⟩

end Whole

end Lexer

end ExprLang
