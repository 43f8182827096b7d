import Mathlib.Data.List.TakeWhile
import ExprLang.Token.Lexer

/-!
# What scanning finds at the front of a text

An item is a blank or a comment, a token, or a mistake that is no token.  It is never empty, it does
not reach past the end of the text, and its mistakes lie within it.  A token with mistakes is a
string; a mistake that is no token is all there is to its item.

* `Found`: what an item at the front of a text may be.
* `found_scanItem`: every item is of that form.
-/

namespace ExprLang

/-- Whether an error is about a part of the source that becomes no token. -/
def SyntaxError.isIsolated : SyntaxError → Bool
  | missingHexDigits | integerTooLong _ | unexpectedCharacter _ => true
  | _ => false

namespace Lexer

open Literal (Item Body Escape)

/-- A blank, or a comment with the end of its line, in front of the text `rest`. -/
def IsTrivia (text rest : List Char) : Prop :=
  (∃ c, isSpace c = true ∧ text = [c]) ∨
    ∃ line, '\n' ∉ line ∧
      (text = '/' :: '/' :: line ++ ['\n'] ∨ text = '/' :: '/' :: line ∧ rest = [])

/-- Mistakes within a token from `first` to `last`: they differ in where they start. -/
structure ErrorsWithin (first last : Nat) (errors : List (SyntaxError × Text.Span)) : Prop where
  inside : ∀ e ∈ errors, first ≤ e.2.start ∧ e.2.start < e.2.stop ∧ e.2.stop ≤ last
  shared : ∀ e ∈ errors, e.1.isIsolated = false
  nodup : (errors.map (·.2.start)).Nodup

/-- What an item at the front of the text `cs` may be, where `pos` is the offset of the text. -/
inductive Found (pos : Nat) (cs : List Char) : Item → Prop
  | trivia
      {length : Nat}
      (positive : 0 < length)
      (fits : length ≤ cs.length)
      (isTrivia : IsTrivia (cs.take length) (cs.drop length)) :
      Found pos cs ⟨length, none, []⟩
  | token
      {length : Nat} {kind : TokenKind} {errors : List (SyntaxError × Text.Span)}
      (positive : 0 < length)
      (fits : length ≤ cs.length)
      (inInput : kind ≠ .endOfInput)
      (within : ErrorsWithin pos (pos + length) errors) :
      Found pos cs ⟨length, some kind, errors⟩
  | mistake
      {length : Nat} {cause : SyntaxError}
      (positive : 0 < length)
      (fits : length ≤ cs.length)
      (isolated : cause.isIsolated = true) :
      Found pos cs (.bad pos length cause)

section Found

variable {pos : Nat} {cs : List Char} {item : Item}

theorem Found.positive
    (h : Found pos cs item) :
    0 < item.length := by
  cases h <;> assumption

theorem Found.fits
    (h : Found pos cs item) :
    item.length ≤ cs.length := by
  cases h <;> assumption

theorem errorsWithin_nil
    (first last : Nat) :
    ErrorsWithin first last [] :=
  ⟨nofun, nofun, .nil⟩

/-- A token without mistakes. -/
theorem found_good
    {length : Nat} {kind : TokenKind}
    (positive : 0 < length)
    (fits : length ≤ cs.length)
    (inInput : kind ≠ .endOfInput) :
    Found pos cs (.good length kind) :=
  .token positive fits inInput (errorsWithin_nil _ _)

end Found

/-! ### Numbers -/

section Numbers

variable {pos : Nat} {cs : List Char}

theorem length_takeWhile_le
    (p : Char → Bool)
    (cs : List Char) :
    (cs.takeWhile p).length ≤ cs.length :=
  (List.takeWhile_prefix p).length_le

/-- Where the mark of an unsigned integer follows, there is one more character. -/
theorem length_pos_of_hasUnsignedMark
    {rest : List Char}
    (marked : Literal.hasUnsignedMark rest = true) :
    0 < rest.length := by
  cases rest with
  | nil => cases marked
  | cons => simp

theorem found_integerItem
    (pos : Nat)
    {cs : List Char} {length : Nat}
    (positive : 0 < length)
    (fits : length ≤ cs.length)
    (value : Nat) :
    Found pos cs (Literal.integerItem length value (cs.drop length)) := by
  unfold Literal.integerItem
  split
  · next marked =>
      have more := length_pos_of_hasUnsignedMark marked
      rw [List.length_drop] at more
      exact found_good (by omega) (by omega) nofun
  · exact found_good positive fits nofun

theorem found_scanHex
    (zero mark : Char)
    (digits : List Char) :
    Found pos (zero :: mark :: digits) (Literal.scanHex pos digits) := by
  have run := length_takeWhile_le Number.isHexDigit digits
  unfold Literal.scanHex
  dsimp only
  split
  · exact .mistake (by decide) (by simp) rfl
  · have fits : 2 + (digits.takeWhile Number.isHexDigit).length ≤
        (zero :: mark :: digits).length := by
      simp only [List.length_cons]
      omega
    have item := found_integerItem pos (by omega) fits
      (Number.hexValue (digits.takeWhile Number.isHexDigit))
    rwa [Nat.add_comm 2, List.drop_succ_cons, List.drop_succ_cons, Nat.add_comm _ 2] at item

theorem fractionLength_le
    (cs : List Char) :
    Literal.fractionLength cs ≤ cs.length := by
  unfold Literal.fractionLength
  split
  · next rest =>
      have run := length_takeWhile_le Char.isDigit rest
      dsimp only
      split <;> simp only [List.length_cons] <;> omega
  · omega

theorem exponentLength_le
    (cs : List Char) :
    Literal.exponentLength cs ≤ cs.length := by
  unfold Literal.exponentLength
  split
  · next c rest =>
      split
      · split
        · next s digits =>
            have run := length_takeWhile_le Char.isDigit digits
            have run' := length_takeWhile_le Char.isDigit (s :: digits)
            simp only [List.length_cons] at run' ⊢
            split <;> split <;> omega
        · omega
      · omega
  · omega

/-- A decimal number begins with at least one digit. -/
theorem found_scanDecimal
    {c : Char} {rest : List Char}
    (digit : c.isDigit = true) :
    Found pos (c :: rest) (Literal.scanDecimal pos (c :: rest)) := by
  have first : 0 < ((c :: rest).takeWhile Char.isDigit).length := by simp [digit]
  have fits := length_takeWhile_le Char.isDigit (c :: rest)
  unfold Literal.scanDecimal
  dsimp only
  generalize (c :: rest) = cs at *
  generalize (cs.takeWhile Char.isDigit).length = whole at *
  have afterWhole := fractionLength_le (cs.drop whole)
  generalize Literal.fractionLength (cs.drop whole) = fraction at *
  have afterFraction := exponentLength_le (cs.drop (whole + fraction))
  generalize Literal.exponentLength (cs.drop (whole + fraction)) = exponent at *
  rw [List.length_drop] at afterWhole afterFraction
  split
  · exact found_good (by omega) (by omega) nofun
  split
  · split
    · next marked =>
        have more := length_pos_of_hasUnsignedMark marked
        rw [List.length_drop] at more
        exact .mistake (by omega) (by omega) rfl
    · exact .mistake (by omega) (by omega) rfl
  · exact found_integerItem pos (by omega) (by omega) _

theorem found_scanNumber
    {c : Char} {rest : List Char}
    (digit : c.isDigit = true) :
    Found pos (c :: rest) (Literal.scanNumber pos (c :: rest)) := by
  unfold Literal.scanNumber
  split
  · next same =>
      split
      · rw [same]
        exact found_scanHex _ _ _
      · exact found_scanDecimal digit
  · exact found_scanDecimal digit

end Numbers

/-! ### Strings -/

section Strings

variable {delim : List Char} {raw isBytes : Bool} {start : Nat}

/-- An escape takes characters that are there, and its mistake is one inside a token. -/
structure FoundEscape (rest : List Char) (escape : Escape) : Prop where
  fits : escape.length ≤ rest.length
  shared : ∀ cause, escape.result = .error cause → cause.isIsolated = false

theorem foundEscape_hexEscape
    (letter : Char)
    (width : Nat)
    (rest : List Char) :
    FoundEscape (letter :: rest) (Literal.hexEscape isBytes letter width rest) := by
  unfold Literal.hexEscape
  dsimp only
  split
  · exact ⟨by simp, by rintro _ ⟨⟩; rfl⟩
  · next digits =>
      have enough : width ≤ rest.length := by
        rw [not_or, Decidable.not_not, List.length_take] at digits
        omega
      split
      · exact ⟨by simp only [List.length_cons]; omega, nofun⟩
      split
      · exact ⟨by simp only [List.length_cons]; omega, nofun⟩
      · exact ⟨by simp only [List.length_cons]; omega, by rintro _ ⟨⟩; rfl⟩

theorem foundEscape_octalEscape
    {cs : List Char}
    (more : 0 < cs.length) :
    FoundEscape cs (Literal.octalEscape isBytes cs) := by
  unfold Literal.octalEscape
  dsimp only
  split
  · exact ⟨more, by rintro _ ⟨⟩; rfl⟩
  · next digits =>
      have enough : 3 ≤ cs.length := by
        rw [not_or, Decidable.not_not, List.length_take] at digits
        omega
      split <;> exact ⟨enough, nofun⟩

theorem foundEscape_scanEscape
    (isBytes : Bool)
    (rest : List Char) :
    FoundEscape rest (Literal.scanEscape isBytes rest) := by
  unfold Literal.scanEscape
  split
  · exact ⟨Nat.le_refl _, by rintro _ ⟨⟩; rfl⟩
  · next c rest =>
      split
      · exact ⟨by simp, nofun⟩
      · exact foundEscape_hexEscape _ _ _
      · split
        · exact foundEscape_octalEscape (by simp)
        · exact ⟨by simp, by rintro _ ⟨⟩; rfl⟩

/-- The characters of an escape are passed over with the body. -/
theorem le_length_scanBody
    (delim : List Char) (raw isBytes : Bool) (start pos : Nat)
    {cs : List Char} {skip : Nat}
    (enough : skip ≤ cs.length) :
    skip ≤ (Literal.scanBody delim raw isBytes start pos skip cs).length := by
  induction cs generalizing pos skip with
  | nil => simpa [Literal.scanBody] using enough
  | cons c rest ih =>
      cases skip with
      | zero => exact Nat.zero_le _
      | succ skip =>
          rw [List.length_cons] at enough
          have later := ih (pos + 1) (Nat.le_of_succ_le_succ enough)
          rw [Literal.scanBody, Literal.Body.afterChar]
          exact Nat.succ_le_succ later

/-- What the body of a literal may be: its mistakes lie within it, but for one that is about the
whole literal. -/
structure FoundBody (start pos : Nat) (cs : List Char) (body : Body) : Prop where
  fits : body.length ≤ cs.length
  inside : ∀ e ∈ body.errors, (e.2.start = start ∨ pos ≤ e.2.start) ∧
    e.2.start < e.2.stop ∧ e.2.stop ≤ pos + body.length
  shared : ∀ e ∈ body.errors, e.1.isIsolated = false
  nodup : (body.errors.map (·.2.start)).Nodup

/-- A literal that ends without its delimiter. -/
theorem foundBody_unterminated
    {pos : Nat}
    (started : start < pos)
    (cs : List Char) :
    FoundBody start pos cs
      ⟨0, [], [(.unterminatedString, ⟨start, max pos (start + 1)⟩)]⟩ where
  fits := Nat.zero_le _
  inside := by
    rw [Nat.max_eq_left started]
    simpa using started
  shared := by simp [SyntaxError.isIsolated]
  nodup := by simp

/-- One more character in front of a body. -/
theorem FoundBody.cons
    {pos : Nat} {cs : List Char} {later : Body}
    (h : FoundBody start (pos + 1) cs later)
    (c : Char)
    (pieces : List Literal.Piece) :
    FoundBody start pos (c :: cs) ⟨later.length + 1, pieces, later.errors⟩ where
  fits := by
    simpa using h.fits
  inside e member := by
    obtain ⟨first, proper, last⟩ := h.inside e member
    refine ⟨?_, proper, ?_⟩
    · exact first.imp_right fun le => by omega
    · dsimp only
      omega
  shared := h.shared
  nodup := h.nodup

/-- A malformed escape in front of a body. -/
theorem FoundBody.escape
    {pos length : Nat} {cs : List Char} {later : Body} {cause : SyntaxError}
    (h : FoundBody start (pos + 1) cs later)
    (started : start < pos)
    (passed : length ≤ later.length)
    (shared : cause.isIsolated = false)
    (c : Char)
    (pieces : List Literal.Piece) :
    FoundBody start pos (c :: cs)
      ⟨later.length + 1, pieces, (cause, ⟨pos, pos + 1 + length⟩) :: later.errors⟩ where
  fits := (h.cons c pieces).fits
  inside := by
    refine List.forall_mem_cons.mpr ⟨⟨.inr (Nat.le_refl _), ?_, ?_⟩, (h.cons c pieces).inside⟩
    · dsimp only
      omega
    · dsimp only
      omega
  shared := List.forall_mem_cons.mpr ⟨shared, h.shared⟩
  nodup := by
    rw [List.map_cons, List.nodup_cons]
    refine ⟨fun member => ?_, h.nodup⟩
    obtain ⟨e, later, same⟩ := List.mem_map.mp member
    dsimp only at same
    rcases (h.inside e later).1 with atStart | after <;> omega

theorem foundBody_scanBody
    (delim : List Char) (raw isBytes : Bool)
    {start pos : Nat}
    (started : start < pos)
    (skip : Nat)
    (cs : List Char) :
    FoundBody start pos cs (Literal.scanBody delim raw isBytes start pos skip cs) := by
  induction cs generalizing pos skip with
  | nil => exact foundBody_unterminated started []
  | cons c rest ih =>
      have later := ih (Nat.lt_succ_of_lt started)
      cases skip with
      | succ skip => exact (later skip).cons c _
      | zero =>
          rw [Literal.scanBody]
          split
          · exact foundBody_unterminated started _
          split
          · next closes =>
              exact ⟨(List.isPrefixOf_iff_prefix.mp closes).length_le, nofun, nofun, .nil⟩
          split
          · have escape := foundEscape_scanEscape isBytes rest
            have passed := le_length_scanBody delim raw isBytes start (pos + 1) escape.fits
            dsimp only
            split
            · exact (later _).cons c _
            · next failed =>
                exact (later _).escape started passed (escape.shared _ failed) c _
          · exact (later 0).cons c _

/-- The letters and the quote of an opening are there. -/
theorem letters_lt_of_opening?
    {cs : List Char} {o : Literal.Opening}
    (opens : Literal.opening? cs = some o) :
    o.letters < cs.length := by
  unfold Literal.opening? at opens
  split at opens <;> grind

theorem delimiter_fits
    (quote : Char) (cs : List Char)
    (more : 0 < cs.length) :
    0 < (Literal.delimiter quote cs).length ∧
      (Literal.delimiter quote cs).length ≤ cs.length := by
  unfold Literal.delimiter
  split
  · next triple =>
      exact ⟨by simp, (List.isPrefixOf_iff_prefix.mp triple).length_le⟩
  · exact ⟨by simp, more⟩

theorem found_scanString
    (pos : Nat)
    {cs : List Char} {o : Literal.Opening}
    (opens : Literal.opening? cs = some o) :
    Found pos cs (Literal.scanString pos o cs) := by
  have more := letters_lt_of_opening? opens
  obtain ⟨positive, fits⟩ := delimiter_fits o.quote (cs.drop o.letters) (by
    rw [List.length_drop]
    omega)
  rw [List.length_drop] at fits
  unfold Literal.scanString
  dsimp only
  generalize Literal.delimiter o.quote (cs.drop o.letters) = delim at *
  have started : pos < pos + (o.letters + delim.length) := by omega
  have body := foundBody_scanBody delim o.raw o.isBytes started 0
    (cs.drop (o.letters + delim.length))
  have bodyFits := body.fits
  rw [List.length_drop] at bodyFits
  refine .token (by omega) (by omega) (by split <;> nofun) ⟨fun e member => ?_, body.shared, body.nodup⟩
  obtain ⟨first, proper, last⟩ := body.inside e member
  refine ⟨?_, proper, by omega⟩
  rcases first with atStart | after <;> omega

end Strings

/-! ### Blanks, comments, words and symbols -/

section Items

variable {pos : Nat} {c : Char} {rest : List Char}

/-- A comment goes up to the end of its line. -/
theorem found_comment
    (rest : List Char) :
    Found pos ('/' :: '/' :: rest) ⟨commentLength ('/' :: '/' :: rest), none, []⟩ := by
  have noNewline : '\n' ∉ rest.takeWhile (· != '\n') := by
    intro member
    simpa using List.mem_takeWhile_imp member
  have parts := List.takeWhile_append_dropWhile (p := (· != '\n')) (l := rest)
  have ends : ∀ c ∈ (rest.dropWhile (· != '\n')).head?, c = '\n' := by
    intro c first
    have noLine := List.head?_dropWhile_not (· != '\n') rest
    rw [first] at noLine
    simpa using noLine
  have length : commentLength ('/' :: '/' :: rest) =
      min (rest.length + 2) ((rest.takeWhile (· != '\n')).length + 3) := by
    simp [commentLength]
  rw [length]
  generalize rest.takeWhile (· != '\n') = line at *
  generalize rest.dropWhile (· != '\n') = after at *
  subst parts
  cases after with
  | nil =>
      have all : min ((line ++ []).length + 2) (line.length + 3) = line.length + 2 := by
        rw [List.append_nil]
        omega
      rw [all]
      refine .trivia (by omega) (by simp) (.inr ⟨line, noNewline, .inr ⟨?_, ?_⟩⟩) <;> simp
  | cons d after =>
      obtain rfl := ends d rfl
      have all : min ((line ++ '\n' :: after).length + 2) (line.length + 3) = line.length + 3 := by
        rw [List.length_append, List.length_cons]
        omega
      rw [all]
      refine .trivia (by omega) (by simp) (.inr ⟨line, noNewline, .inl ?_⟩)
      simp [List.take_append, List.take_of_length_le]

theorem wordKind_ne_endOfInput
    (word : List Char) :
    wordKind word ≠ .endOfInput := by
  unfold wordKind
  split <;> nofun

theorem found_scanSymbol : Found pos (c :: rest) (scanSymbol pos c (c :: rest)) := by
  unfold scanSymbol
  split
  · next op found =>
      have begins : op.isPrefixOf (c :: rest) = true := by
        simpa using List.find?_some found
      have known : ∀ op ∈ operators, 0 < op.length := by decide
      exact found_good (known op (List.mem_of_find?_eq_some found))
        (List.isPrefixOf_iff_prefix.mp begins).length_le nofun
  split
  · exact found_good (by decide) (by simp) nofun
  · exact .mistake (by decide) (by simp) rfl

/-- Every item is of one of the forms. -/
theorem found_scanItem
    (pos : Nat) (c : Char) (rest : List Char) :
    Found pos (c :: rest) (scanItem pos c rest) := by
  unfold scanItem
  dsimp only
  split
  · next space =>
      exact .trivia (by decide) (by simp) (.inl ⟨c, space, by simp⟩)
  split
  · next slashes =>
      obtain ⟨rfl, second⟩ := slashes
      obtain ⟨rest, rfl⟩ := List.head?_eq_some_iff.mp second
      exact found_comment rest
  split
  · next digit => exact found_scanNumber digit
  split
  · next opens => exact found_scanString pos opens
  split
  · next start =>
      refine found_good ?_ (length_takeWhile_le _ _) (wordKind_ne_endOfInput _)
      have part : isIdentPart c = true := by
        simp only [isIdentStart, isIdentPart, Char.isAlphanum, Bool.or_eq_true] at start ⊢
        exact start.imp_left .inl
      simp [part]
  · exact found_scanSymbol

end Items

end Lexer
end ExprLang
