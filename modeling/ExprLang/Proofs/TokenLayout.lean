import ExprLang.Proofs.AlikeTokens
import ExprLang.Proofs.Rescanning

/-!
# The layout of a source

The tokens of a source may be written with other blanks and comments between them, as long as a
blank comes right behind each token.  The text is tokenized to the same kinds, texts and values, so
it is compiled if and only if the source is, to the same tree up to spans.

* `Trivia`, `Gap`: blanks and closed comments; those that may stand behind a token.
* `scanFrom_trivia`: trivia are passed over.
* `scanFrom_joined`: tokens joined by gaps are the same tokens again.
* `layout_irrelevant`: every layout of the tokens of a source.
-/

namespace ExprLang

/-! ### Layouts -/

/-- A run of blanks and of comments that end with a newline. -/
inductive Trivia : List Char → Prop
  | nil : Trivia []
  | blank {c : Char} {more : List Char}
      (isBlank : Lexer.isSpace c = true)
      (later : Trivia more) :
      Trivia (c :: more)
  | comment {line more : List Char}
      (inLine : '\n' ∉ line)
      (later : Trivia more) :
      Trivia ('/' :: '/' :: line ++ '\n' :: more)

/-- What may stand behind a token: trivia that begin with a blank, or nothing at the end. -/
structure Gap (gap : List Char) : Prop where
  trivia : Trivia gap
  ahead : Lexer.BlankAhead gap

/-- The texts of tokens with a gap between every two of them. -/
inductive Joined : List Token → List Char → Prop
  | nil : Joined [] []
  | single (t : Token) : Joined [t] t.text.toList
  | cons {t u : Token} {tokens : List Token} {gap text : List Char}
      (separates : gap ≠ [])
      (isGap : Gap gap)
      (later : Joined (u :: tokens) text) :
      Joined (t :: u :: tokens) (t.text.toList ++ (gap ++ text))

/-- Whether a text is made of the texts of tokens in their order, with gaps between them, with or
without trivia before the first, and with or without a gap behind the last. -/
def LaidOut (tokens : List Token) (text : List Char) : Prop :=
  ∃ lead joined trail, Trivia lead ∧ Joined tokens joined ∧ Gap trail ∧
    text = lead ++ (joined ++ trail)

/-! ### Trivia -/

namespace Lexer

/-- A comment is passed over together with its newline. -/
theorem scanFrom_comment
    {line : List Char}
    (inLine : '\n' ∉ line)
    (pos : Nat)
    (rest : List Char) :
    scanFrom pos 0 ('/' :: '/' :: line ++ '\n' :: rest) =
      scanFrom (pos + (line.length + 3)) 0 rest := by
  have noBreak : ∀ c ∈ '/' :: '/' :: line, (c != '\n') = true := by
    intro c member
    rw [bne_iff_ne]
    rintro rfl
    simp [inLine] at member
  have length : commentLength ('/' :: '/' :: line ++ '\n' :: rest) = line.length + 3 := by
    rw [commentLength, Text.takeWhile_run noBreak (by simp)]
    simp
  have item : scanItem pos '/' ('/' :: line ++ '\n' :: rest) = ⟨line.length + 3, none, []⟩ := by
    rw [← length]
    rfl
  have passed : ('/' :: ('/' :: line ++ '\n' :: rest)).drop (line.length + 3) = rest := by
    simp
  rw [List.cons_append, scanFrom_item, item, passed]
  rfl

/-- Trivia are passed over. -/
theorem scanFrom_trivia
    {gap : List Char}
    (trivia : Trivia gap)
    (pos : Nat)
    (rest : List Char) :
    scanFrom pos 0 (gap ++ rest) = scanFrom (pos + gap.length) 0 rest := by
  induction trivia generalizing pos with
  | nil => rfl
  | @blank c more isBlank _ ih =>
      rw [List.cons_append, scanFrom_space isBlank, ih, List.length_cons]
      congr 1
      omega
  | @comment line more inLine _ ih =>
      rw [List.append_assoc]
      refine (scanFrom_comment inLine pos (more ++ rest)).trans ?_
      rw [ih, List.length_append, List.length_cons, List.length_cons, List.length_cons]
      congr 1
      omega

/-- There is no token in a gap at the end. -/
theorem scanFrom_gap
    {gap : List Char}
    (isGap : Gap gap)
    (pos : Nat) :
    scanFrom pos 0 gap = ⟨[], []⟩ := by
  have passed := scanFrom_trivia isGap.trivia pos []
  rwa [List.append_nil] at passed

/-! ### Tokens and gaps -/

theorem BlankAhead.append
    {gap : List Char}
    (ahead : BlankAhead gap)
    (separates : gap ≠ [])
    (rest : List Char) :
    BlankAhead (gap ++ rest) := by
  intro c begins
  rw [List.head?_append_of_ne_nil _ separates] at begins
  exact ahead c begins

/-- A token that reappears is followed by what follows its text. -/
theorem alike_of_reappears
    {t : Token} {tokens : List Token} {tail : List Char} {pos : Nat}
    (reappears : Reappears t.kind t.text.toList)
    (ahead : BlankAhead tail)
    (later : (scanFrom (pos + t.text.toList.length) 0 tail).errors = [] ∧
      AlikeTokens (scanFrom (pos + t.text.toList.length) 0 tail).tokens tokens) :
    (scanFrom pos 0 (t.text.toList ++ tail)).errors = [] ∧
      AlikeTokens (scanFrom pos 0 (t.text.toList ++ tail)).tokens (t :: tokens) := by
  rw [reappears pos tail ahead]
  exact ⟨later.1, .cons ⟨rfl, String.ofList_toList⟩ later.2⟩

/-- Tokens that reappear are the tokens of their texts joined by gaps, by induction on the
joining. -/
theorem scanFrom_joined
    {tokens : List Token} {text trail : List Char}
    (joined : Joined tokens text)
    (ends : Gap trail)
    (reappear : ∀ t ∈ tokens, Reappears t.kind t.text.toList)
    (pos : Nat) :
    (scanFrom pos 0 (text ++ trail)).errors = [] ∧
      AlikeTokens (scanFrom pos 0 (text ++ trail)).tokens tokens := by
  induction joined generalizing pos with
  | nil =>
      rw [List.nil_append, scanFrom_gap ends]
      exact ⟨rfl, .nil⟩
  | single t =>
      refine alike_of_reappears (reappear t (by simp)) ends.ahead ?_
      rw [scanFrom_gap ends]
      exact ⟨rfl, .nil⟩
  | @cons t u tokens gap text separates isGap _ ih =>
      rw [List.append_assoc, List.append_assoc]
      refine alike_of_reappears (reappear t (by simp)) (isGap.ahead.append separates _) ?_
      rw [scanFrom_trivia isGap.trivia]
      exact ih (fun other member => reappear other (.tail t member)) _

/-- The tokens of a layout of the tokens of a source. -/
theorem scan_layout
    {source text : List Char}
    (good : (scan source).errors = [])
    (laidOut : LaidOut (scan source).tokens text) :
    (scan text).errors = [] ∧ AlikeTokens (scan text).tokens (scan source).tokens := by
  obtain ⟨lead, joined, trail, isLead, isJoined, ends, rfl⟩ := laidOut
  rw [scan, scanFrom_trivia isLead]
  exact scanFrom_joined isJoined ends (reappears_of_scan 0 source good) _

end Lexer

/-! ### Programs -/

/-- Whether two source texts are compiled alike: under the same settings both or neither, and to the
same tree up to spans. -/
structure CompiledAlike (source text : List Char) : Prop where
  both : ∀ config, (∃ q, Program.compile config text = .ok q) ↔
    ∃ p, Program.compile config source = .ok p
  tree : ∀ config p q, Program.compile config source = .ok p →
    Program.compile config text = .ok q → q.root.unspanned = p.root.unspanned

theorem compiledAlike_of_alike
    {source text : List Char}
    (sourceLexed : (Lexer.scan source).errors = [])
    (textLexed : (Lexer.scan text).errors = [])
    (same : AlikeTokens (Lexer.scan text).tokens (Lexer.scan source).tokens) :
    CompiledAlike source text where
  both config := by
    constructor
    · rintro ⟨q, compiled⟩
      obtain ⟨p, again, -⟩ := exists_compile_of_alike sourceLexed same.symm compiled
      exact ⟨p, again⟩
    · rintro ⟨p, compiled⟩
      obtain ⟨q, again, -⟩ := exists_compile_of_alike textLexed same compiled
      exact ⟨q, again⟩
  tree config p q compiled found := by
    obtain ⟨q', again, tree⟩ := exists_compile_of_alike textLexed same compiled
    cases again.symm.trans found
    exact tree

/-- A source text without lexical mistakes has the given tokens. -/
theorem tokenize_eq_iff
    {source : List Char} {tokens : List Token} :
    tokenize source = (tokens ++ [.endOfInput source.length], []) ↔
      (Lexer.scan source).errors = [] ∧ (Lexer.scan source).tokens = tokens := by
  rw [tokenize, Prod.mk.injEq, List.append_left_inj, List.map_eq_nil_iff, and_comm]

/-- Layout does not matter: the tokens of a source without lexical mistakes, joined by any gaps, are
the same kinds, texts and values again, and the text is compiled as the source is. -/
theorem layout_irrelevant
    {source text : List Char} {tokens : List Token}
    (lexed : tokenize source = (tokens ++ [.endOfInput source.length], []))
    (laidOut : LaidOut tokens text) :
    ∃ tokens', tokenize text = (tokens' ++ [.endOfInput text.length], []) ∧
      tokens'.map (fun t => (t.kind, t.text)) = tokens.map (fun t => (t.kind, t.text)) ∧
      CompiledAlike source text := by
  obtain ⟨good, rfl⟩ := tokenize_eq_iff.mp lexed
  obtain ⟨textGood, same⟩ := Lexer.scan_layout good laidOut
  exact ⟨_, tokenize_eq_iff.mpr ⟨textGood, rfl⟩,
    same.map_eq fun t u alike => by rw [alike.kind, alike.text],
    compiledAlike_of_alike good textGood same⟩

/-- The tokens of a division. -/
def division : List Token :=
  [⟨.ident, "a", ⟨0, 1⟩⟩, ⟨.operator, "/", ⟨1, 2⟩⟩, ⟨.uint 1, "1u", ⟨2, 4⟩⟩]

/-- A layout of a division, with a comment in front and another behind the slash. -/
def spreadDivision : List Char := "//x\na \n/ //y\n1u\n".toList

theorem laidOut_spreadDivision :
    LaidOut division spreadDivision := by
  have comment : ∀ c : Char, c ≠ '\n' → Trivia ['/', '/', c, '\n'] := fun c noBreak =>
    @Trivia.comment [c] [] (by simpa using noBreak.symm) .nil
  have gap : ∀ more, Trivia more → Gap (' ' :: more) := fun more trivia =>
    ⟨.blank rfl trivia, fun c begins => by cases begins; rfl⟩
  have newline : Gap ['\n'] := ⟨.blank rfl .nil, fun c begins => by cases begins; rfl⟩
  exact ⟨_, _, _, comment 'x' (by decide),
    .cons (by simp) (gap _ newline.trivia)
      (.cons (by simp) (gap _ (comment 'y' (by decide))) (.single _)), newline, rfl⟩

theorem layout_irrelevant_division :
    tokenize "a/1u".toList = (division ++ [.endOfInput 4], []) ∧
      LaidOut division spreadDivision ∧
      ∃ tokens', tokenize spreadDivision = (tokens' ++ [.endOfInput spreadDivision.length], []) ∧
        tokens'.map (fun t => (t.kind, t.text)) = division.map (fun t => (t.kind, t.text)) ∧
        CompiledAlike "a/1u".toList spreadDivision :=
  ⟨rfl, laidOut_spreadDivision, layout_irrelevant rfl laidOut_spreadDivision⟩

end ExprLang
