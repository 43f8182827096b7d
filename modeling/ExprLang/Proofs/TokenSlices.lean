import ExprLang.Proofs.Coverage

/-!
# Scanning a slice of a text

What an item is depends on its own characters and on the fact that it does not go on: no longer item
starts at its place.  A text that is cut behind an item leaves it as it is, and so does a text that
stands at another offset.  So the slice of a text from the start of one token to the end of another
has the tokens from the one to the other.

* `takeWhile_cut`: a run that ends before a cut is the run of the cut text.
* `scanItem_cut`: an item without mistakes that ends before a cut is the item of the cut text.
* `scan_slice`: the tokens of a slice.
-/

namespace ExprLang

/-- A range in a text that stands `d` characters later. -/
def Text.Span.moved (d : Nat) (span : Text.Span) : Text.Span :=
  ⟨span.start + d, span.stop + d⟩

/-- A token of a text that stands `d` characters later. -/
def Token.moved (d : Nat) (t : Token) : Token :=
  { t with span := t.span.moved d }

namespace Lexer

open Literal (Item Body Opening)

/-! ### Numbers -/

/-- A run that ends before a cut is the run of the cut text. -/
theorem takeWhile_cut
    {p : Char → Bool} {cs tail : List Char}
    (fits : ((cs ++ tail).takeWhile p).length ≤ cs.length) :
    cs.takeWhile p = (cs ++ tail).takeWhile p := by
  rw [List.takeWhile_append]
  split
  · next whole =>
      rw [List.takeWhile_append, if_pos whole, List.length_append] at fits
      have none : tail.takeWhile p = [] := List.eq_nil_of_length_eq_zero (by omega)
      have all : cs.takeWhile p = cs := (List.takeWhile_prefix p).eq_of_length whole
      rw [none, all, List.append_nil]
  · rfl

/-- A run that counts only with the characters before it ends before a cut if these do. -/
theorem length_le_of_counted
    {run : List Char} {before room : Nat}
    (fits : (if run.isEmpty then 0 else run.length + before) ≤ room + before) :
    run.length ≤ room := by
  split at fits
  · next none => simp [List.isEmpty_iff.mp none]
  · omega

theorem fractionLength_cut
    {cs tail : List Char}
    (fits : Literal.fractionLength (cs ++ tail) ≤ cs.length) :
    Literal.fractionLength cs = Literal.fractionLength (cs ++ tail) := by
  cases cs with
  | nil => exact (Nat.le_zero.mp fits).symm
  | cons c cs =>
      by_cases isPoint : c = '.'
      · subst isPoint
        simp only [List.cons_append, Literal.fractionLength] at fits ⊢
        rw [takeWhile_cut (length_le_of_counted fits)]
      · simp [Literal.fractionLength, isPoint]

/-- An exponent has two characters at least. -/
theorem exponentLength_of_le_one
    {cs : List Char}
    (short : Literal.exponentLength cs ≤ 1) :
    Literal.exponentLength cs = 0 := by
  have counted : ∀ (run : List Char) (before : Nat),
      (if run.isEmpty then 0 else run.length + (before + 1)) ≤ 1 →
        (if run.isEmpty then 0 else run.length + (before + 1)) = 0 := by
    intro run before short
    cases run with
    | nil => rfl
    | cons c run => exact absurd short (by simp; omega)
  revert short
  unfold Literal.exponentLength
  split
  · split
    · split
      · split
        · exact counted _ 1
        · exact counted _ 0
      · exact fun _ => rfl
    · exact fun _ => rfl
  · exact fun _ => rfl

theorem exponentLength_cut
    {cs tail : List Char}
    (fits : Literal.exponentLength (cs ++ tail) ≤ cs.length) :
    Literal.exponentLength cs = Literal.exponentLength (cs ++ tail) := by
  match cs with
  | [] => exact (Nat.le_zero.mp fits).symm
  | [c] =>
      rw [exponentLength_of_le_one fits]
      simp [Literal.exponentLength]
  | c :: sign :: digits =>
      simp only [List.cons_append, Literal.exponentLength] at fits ⊢
      by_cases isMark : c = 'e' ∨ c = 'E'
      · rw [if_pos isMark] at fits
        rw [if_pos isMark, if_pos isMark]
        by_cases signed : sign = '+' ∨ sign = '-'
        · rw [if_pos signed] at fits
          rw [if_pos signed, if_pos signed, takeWhile_cut (length_le_of_counted fits)]
        · rw [if_neg signed, ← List.cons_append] at fits
          rw [if_neg signed, if_neg signed, ← List.cons_append,
            takeWhile_cut (length_le_of_counted fits)]
      · rw [if_neg isMark, if_neg isMark]

theorem hasUnsignedMark_cut
    {rest tail : List Char}
    (fits : Literal.hasUnsignedMark (rest ++ tail) = true → 0 < rest.length) :
    Literal.hasUnsignedMark rest = Literal.hasUnsignedMark (rest ++ tail) := by
  cases rest with
  | nil =>
      cases marked : Literal.hasUnsignedMark ([] ++ tail) with
      | false => rfl
      | true => exact absurd (fits marked) (Nat.lt_irrefl 0)
  | cons => rfl

theorem integerItem_cut
    {length value : Nat} {rest tail : List Char}
    (fits : (Literal.integerItem length value (rest ++ tail)).length ≤ length + rest.length) :
    Literal.integerItem length value rest = Literal.integerItem length value (rest ++ tail) := by
  have same : Literal.hasUnsignedMark rest = Literal.hasUnsignedMark (rest ++ tail) := by
    refine hasUnsignedMark_cut fun marked => ?_
    rw [Literal.integerItem, if_pos marked] at fits
    exact Nat.lt_of_add_lt_add_left fits
  rw [Literal.integerItem, same, Literal.integerItem]

/-- The length of an integer, with the mark after it or without. -/
theorem le_length_integerItem
    (length value : Nat)
    (rest : List Char) :
    length ≤ (Literal.integerItem length value rest).length := by
  unfold Literal.integerItem
  split
  · exact Nat.le_succ length
  · exact Nat.le_refl length

theorem scanHex_cut
    {pos : Nat} {digits tail : List Char}
    (pos' : Nat)
    (good : (Literal.scanHex pos (digits ++ tail)).errors = [])
    (fits : (Literal.scanHex pos (digits ++ tail)).length ≤ digits.length + 2) :
    Literal.scanHex pos' digits = Literal.scanHex pos (digits ++ tail) := by
  unfold Literal.scanHex at good fits ⊢
  dsimp only at good fits ⊢
  split at good
  · cases good
  next some =>
    rw [if_neg some] at fits ⊢
    have length := le_length_integerItem (2 + ((digits ++ tail).takeWhile Number.isHexDigit).length)
      (Number.hexValue ((digits ++ tail).takeWhile Number.isHexDigit))
      ((digits ++ tail).drop ((digits ++ tail).takeWhile Number.isHexDigit).length)
    have run : ((digits ++ tail).takeWhile Number.isHexDigit).length ≤ digits.length := by omega
    rw [takeWhile_cut run, if_neg some]
    rw [List.drop_append_of_le_length run] at fits ⊢
    refine integerItem_cut (fits.trans ?_)
    rw [List.length_drop]
    omega

theorem scanDecimal_cut
    {pos : Nat} {cs tail : List Char}
    (pos' : Nat)
    (good : (Literal.scanDecimal pos (cs ++ tail)).errors = [])
    (fits : (Literal.scanDecimal pos (cs ++ tail)).length ≤ cs.length) :
    Literal.scanDecimal pos' cs = Literal.scanDecimal pos (cs ++ tail) := by
  have enough : ∀ n ≤ cs.length, (cs ++ tail).drop n = cs.drop n ++ tail :=
    fun n le => List.drop_append_of_le_length le
  unfold Literal.scanDecimal at good fits ⊢
  dsimp only at good fits ⊢
  -- the parts of the number end before the cut, one after the other
  have short : ((cs ++ tail).takeWhile Char.isDigit).length +
      Literal.fractionLength ((cs ++ tail).drop ((cs ++ tail).takeWhile Char.isDigit).length) +
      Literal.exponentLength ((cs ++ tail).drop (((cs ++ tail).takeWhile Char.isDigit).length +
        Literal.fractionLength
          ((cs ++ tail).drop ((cs ++ tail).takeWhile Char.isDigit).length))) ≤ cs.length := by
    refine le_trans ?_ fits
    split
    · exact Nat.le_refl _
    split
    · change _ ≤ ite _ _ _
      split
      · exact Nat.le_succ _
      · exact Nat.le_refl _
    · exact le_length_integerItem _ _ _
  have whole : cs.takeWhile Char.isDigit = (cs ++ tail).takeWhile Char.isDigit :=
    takeWhile_cut (by omega)
  rw [← whole] at good fits short ⊢
  generalize (cs.takeWhile Char.isDigit).length = digits at *
  rw [enough digits (by omega)] at good fits short ⊢
  have fraction : Literal.fractionLength (cs.drop digits) =
      Literal.fractionLength (cs.drop digits ++ tail) :=
    fractionLength_cut (by rw [List.length_drop]; omega)
  rw [← fraction] at good fits short ⊢
  generalize Literal.fractionLength (cs.drop digits) = fractional at *
  rw [enough (digits + fractional) (by omega)] at good fits short ⊢
  have exponent : Literal.exponentLength (cs.drop (digits + fractional)) =
      Literal.exponentLength (cs.drop (digits + fractional) ++ tail) :=
    exponentLength_cut (by rw [List.length_drop]; omega)
  rw [← exponent] at good fits short ⊢
  generalize Literal.exponentLength (cs.drop (digits + fractional)) = exponential at *
  rw [enough (digits + fractional + exponential) (by omega),
    List.take_append_of_le_length (by omega)] at good fits ⊢
  split
  · rfl
  split
  · next large many =>
      rw [if_neg large, if_pos many] at good
      cases good
  · next large few =>
      rw [if_neg large, if_neg few] at fits
      refine integerItem_cut (fits.trans ?_)
      rw [List.length_drop]
      omega

theorem scanNumber_of_hex
    (pos : Nat)
    {x : Char}
    (isMark : x = 'x' ∨ x = 'X')
    (digits : List Char) :
    Literal.scanNumber pos ('0' :: x :: digits) = Literal.scanHex pos digits :=
  if_pos isMark

theorem scanNumber_of_not_hex
    (pos : Nat)
    {cs : List Char}
    (other : ∀ x digits, cs = '0' :: x :: digits → ¬ (x = 'x' ∨ x = 'X')) :
    Literal.scanNumber pos cs = Literal.scanDecimal pos cs := by
  unfold Literal.scanNumber
  split
  · next x digits => exact if_neg (other x digits rfl)
  · rfl

theorem scanNumber_cut
    {pos : Nat} {cs tail : List Char}
    (pos' : Nat)
    (good : (Literal.scanNumber pos (cs ++ tail)).errors = [])
    (fits : (Literal.scanNumber pos (cs ++ tail)).length ≤ cs.length) :
    Literal.scanNumber pos' cs = Literal.scanNumber pos (cs ++ tail) := by
  by_cases isHex : ∃ x digits, cs ++ tail = '0' :: x :: digits ∧ (x = 'x' ∨ x = 'X')
  · obtain ⟨x, digits, text, isMark⟩ := isHex
    rw [text, scanNumber_of_hex pos isMark] at good fits ⊢
    have more : 2 < (Literal.scanHex pos digits).length := by
      unfold Literal.scanHex at good ⊢
      dsimp only at good ⊢
      split at good
      · cases good
      next some =>
        rw [if_neg some]
        have positive : 0 < (digits.takeWhile Number.isHexDigit).length :=
          List.length_pos_iff.mpr (by simpa using some)
        have length := le_length_integerItem (2 + (digits.takeWhile Number.isHexDigit).length)
          (Number.hexValue (digits.takeWhile Number.isHexDigit))
          (digits.drop (digits.takeWhile Number.isHexDigit).length)
        omega
    match cs with
    | [] => simp at fits; omega
    | [_] => simp at fits; omega
    | _ :: _ :: cs =>
        simp only [List.cons_append, List.cons.injEq] at text
        obtain ⟨rfl, rfl, rfl⟩ := text
        rw [scanNumber_of_hex pos' isMark]
        exact scanHex_cut pos' good fits
  · have other : ∀ x digits, cs ++ tail = '0' :: x :: digits → ¬ (x = 'x' ∨ x = 'X') :=
      fun x digits text isMark => isHex ⟨x, digits, text, isMark⟩
    rw [scanNumber_of_not_hex pos other] at good fits ⊢
    rw [scanNumber_of_not_hex pos' fun x digits text => other x (digits ++ tail) (by simp [text])]
    exact scanDecimal_cut pos' good fits

/-! ### Strings -/

theorem hexEscape_cut
    {isBytes : Bool} {letter : Char} {width : Nat} {rest tail : List Char} {piece : Literal.Piece}
    (good : (Literal.hexEscape isBytes letter width (rest ++ tail)).result = .ok piece)
    (fits : (Literal.hexEscape isBytes letter width (rest ++ tail)).length ≤ rest.length + 1) :
    Literal.hexEscape isBytes letter width rest =
      Literal.hexEscape isBytes letter width (rest ++ tail) := by
  have short : width ≤ rest.length := by
    unfold Literal.hexEscape at good fits
    grind
  unfold Literal.hexEscape
  rw [List.take_append_of_le_length short]

theorem octalEscape_cut
    {isBytes : Bool} {cs tail : List Char} {piece : Literal.Piece}
    (good : (Literal.octalEscape isBytes (cs ++ tail)).result = .ok piece)
    (fits : (Literal.octalEscape isBytes (cs ++ tail)).length ≤ cs.length) :
    Literal.octalEscape isBytes cs = Literal.octalEscape isBytes (cs ++ tail) := by
  have short : 3 ≤ cs.length := by
    unfold Literal.octalEscape at good fits
    grind
  unfold Literal.octalEscape
  rw [List.take_append_of_le_length short]

theorem scanEscape_cut
    {isBytes : Bool} {cs tail : List Char} {piece : Literal.Piece}
    (good : (Literal.scanEscape isBytes (cs ++ tail)).result = .ok piece)
    (fits : (Literal.scanEscape isBytes (cs ++ tail)).length ≤ cs.length) :
    Literal.scanEscape isBytes cs = Literal.scanEscape isBytes (cs ++ tail) := by
  cases cs with
  | nil =>
      cases tail with
      | nil => rfl
      | cons c tail =>
          have positive : 0 < (Literal.scanEscape isBytes (c :: tail)).length := by
            unfold Literal.scanEscape Literal.hexEscape Literal.octalEscape
            grind
          exact absurd fits (by simpa using Nat.ne_of_gt positive)
  | cons c cs =>
      rw [List.cons_append] at good fits ⊢
      unfold Literal.scanEscape at good fits ⊢
      dsimp only at good fits ⊢
      cases simple : Literal.simpleEscape? c with
      | some plain => rfl
      | none =>
          rw [simple] at good fits
          cases wide : Literal.escapeWidth? c with
          | some width =>
              rw [wide] at good fits
              exact hexEscape_cut good fits
          | none =>
              rw [wide] at good fits
              dsimp only at good fits ⊢
              split
              · next octal =>
                  rw [if_pos octal] at good fits
                  exact octalEscape_cut good fits
              · rfl

/-- A body without mistakes has its closing delimiter. -/
theorem length_pos_scanBody
    {delim : List Char} {raw isBytes : Bool} {start pos skip : Nat} {cs : List Char}
    (delimited : delim ≠ [])
    (good : (Literal.scanBody delim raw isBytes start pos skip cs).errors = []) :
    0 < (Literal.scanBody delim raw isBytes start pos skip cs).length := by
  cases cs with
  | nil => cases good
  | cons c rest =>
      cases skip with
      | succ skip => exact Nat.succ_pos _
      | zero =>
          rw [Literal.scanBody] at good ⊢
          split at good
          · cases good
          next noNewline =>
          rw [if_neg noNewline]
          split
          · exact List.length_pos_iff.mpr delimited
          split
          · dsimp only
            split <;> exact Nat.succ_pos _
          · exact Nat.succ_pos _

/-- What starts with a text that ends before a cut starts with it when cut. -/
theorem isPrefixOf_cut
    {text : List Char}
    (cs tail : List Char)
    (fits : text.isPrefixOf (cs ++ tail) = true → text.length ≤ cs.length) :
    text.isPrefixOf cs = text.isPrefixOf (cs ++ tail) := by
  cases starts : text.isPrefixOf (cs ++ tail) with
  | true =>
      have whole := List.isPrefixOf_iff_prefix.mp starts
      exact List.isPrefixOf_iff_prefix.mpr
        (List.prefix_of_prefix_length_le whole (List.prefix_append cs tail) (fits starts))
  | false =>
      rw [← Bool.not_eq_true] at starts ⊢
      intro isStart
      refine starts (List.isPrefixOf_iff_prefix.mpr ?_)
      exact (List.isPrefixOf_iff_prefix.mp isStart).trans (List.prefix_append cs tail)

/-- A body without mistakes that ends before a cut is the body of the cut text, by induction on the
text: an escape ends before the body does. -/
theorem scanBody_cut
    {delim : List Char} {raw isBytes : Bool} {start pos skip : Nat}
    (start' pos' : Nat)
    (delimited : delim ≠ [])
    {cs tail : List Char}
    (good : (Literal.scanBody delim raw isBytes start pos skip (cs ++ tail)).errors = [])
    (fits : (Literal.scanBody delim raw isBytes start pos skip (cs ++ tail)).length ≤ cs.length) :
    Literal.scanBody delim raw isBytes start' pos' skip cs =
      Literal.scanBody delim raw isBytes start pos skip (cs ++ tail) := by
  induction cs generalizing pos pos' skip with
  | nil => exact absurd fits (Nat.not_le_of_gt (length_pos_scanBody delimited good))
  | cons c cs ih =>
      cases skip with
      | succ skip =>
          rw [List.cons_append, Literal.scanBody] at good fits ⊢
          rw [Literal.scanBody, ih (pos' + 1) good (Nat.le_of_succ_le_succ fits)]
      | zero =>
          rw [List.cons_append, Literal.scanBody] at good fits ⊢
          rw [Literal.scanBody]
          split
          · next newline =>
              rw [if_pos newline] at good
              cases good
          next noNewline =>
          rw [if_neg noNewline] at good fits
          have closes : delim.isPrefixOf (c :: cs) = delim.isPrefixOf (c :: (cs ++ tail)) := by
            refine isPrefixOf_cut (c :: cs) tail fun closes => ?_
            rw [List.cons_append] at closes
            rwa [if_pos closes] at fits
          rw [closes]
          split
          · rfl
          next goesOn =>
          rw [if_neg goesOn] at good fits
          split
          · next escaped =>
              rw [if_pos escaped] at good fits
              dsimp only at good fits ⊢
              have passed := le_length_scanBody delim raw isBytes start (pos + 1)
                (foundEscape_scanEscape isBytes (cs ++ tail)).fits
              cases result : (Literal.scanEscape isBytes (cs ++ tail)).result with
              | error cause =>
                  rw [result] at good
                  cases good
              | ok piece =>
                  rw [result] at good fits
                  have inside := Nat.le_of_succ_le_succ fits
                  rw [scanEscape_cut result (passed.trans inside), result,
                    ih (pos' + 1) good inside]
          · next plain =>
              rw [if_neg plain] at good fits
              rw [ih (pos' + 1) good (Nat.le_of_succ_le_succ fits)]

theorem opening?_cut
    {cs tail : List Char} {o : Opening}
    (opens : Literal.opening? (cs ++ tail) = some o)
    (fits : o.letters < cs.length) :
    Literal.opening? cs = some o := by
  match cs with
  | [] => exact absurd fits (Nat.not_lt_zero _)
  | [a] =>
      have noLetters : o.letters = 0 := by simpa using fits
      rcases tail with _ | ⟨b, _ | ⟨q, rest⟩⟩
      · exact opens
      · simp only [List.cons_append, List.nil_append, Literal.opening?] at opens ⊢
        grind
      · simp only [List.cons_append, List.nil_append, Literal.opening?] at opens ⊢
        grind
  | [a, b] =>
      cases tail with
      | nil => exact opens
      | cons q rest =>
          have letters : o.letters < 2 := fits
          simp only [List.cons_append, List.nil_append, Literal.opening?] at opens ⊢
          grind
  | a :: b :: q :: rest => exact opens

theorem opening?_cut_none
    {cs tail : List Char}
    (noString : Literal.opening? (cs ++ tail) = none) :
    Literal.opening? cs = none := by
  match cs, tail with
  | [], _ => rfl
  | [a], [] => exact noString
  | [a], [b] =>
      simp only [List.cons_append, List.nil_append, Literal.opening?] at noString ⊢
      grind
  | [a], b :: q :: rest =>
      simp only [List.cons_append, List.nil_append, Literal.opening?] at noString ⊢
      grind
  | [a, b], [] => exact noString
  | [a, b], q :: rest =>
      simp only [List.cons_append, List.nil_append, Literal.opening?] at noString ⊢
      grind
  | a :: b :: q :: rest, _ => exact noString

theorem delimiter_cut
    {quote : Char} {cs tail : List Char}
    (fits : (Literal.delimiter quote (cs ++ tail)).length ≤ cs.length) :
    Literal.delimiter quote cs = Literal.delimiter quote (cs ++ tail) := by
  unfold Literal.delimiter at fits ⊢
  have triple : (List.replicate 3 quote).isPrefixOf cs =
      (List.replicate 3 quote).isPrefixOf (cs ++ tail) := by
    refine isPrefixOf_cut cs tail fun triple => ?_
    rwa [if_pos triple] at fits
  rw [triple]

theorem delimiter_ne_nil
    (quote : Char)
    (cs : List Char) :
    Literal.delimiter quote cs ≠ [] := by
  unfold Literal.delimiter
  split <;> simp

theorem letters_lt_length_scanString
    (pos : Nat)
    (o : Opening)
    (cs : List Char) :
    o.letters < (Literal.scanString pos o cs).length := by
  have delimited := List.length_pos_iff.mpr (delimiter_ne_nil o.quote (cs.drop o.letters))
  unfold Literal.scanString
  dsimp only
  omega

theorem scanString_cut
    {pos : Nat} {o : Opening} {cs tail : List Char}
    (pos' : Nat)
    (good : (Literal.scanString pos o (cs ++ tail)).errors = [])
    (fits : (Literal.scanString pos o (cs ++ tail)).length ≤ cs.length) :
    Literal.scanString pos' o cs = Literal.scanString pos o (cs ++ tail) := by
  unfold Literal.scanString at good fits ⊢
  dsimp only at good fits ⊢
  rw [List.drop_append_of_le_length (by omega)] at good fits ⊢
  have same : Literal.delimiter o.quote (cs.drop o.letters) =
      Literal.delimiter o.quote (cs.drop o.letters ++ tail) :=
    delimiter_cut (by rw [List.length_drop]; omega)
  rw [← same] at good fits ⊢
  have delimited := delimiter_ne_nil o.quote (cs.drop o.letters)
  clear same
  generalize Literal.delimiter o.quote (cs.drop o.letters) = delim at *
  rw [List.drop_append_of_le_length (by omega)] at good fits ⊢
  rw [scanBody_cut pos' (pos' + (o.letters + delim.length)) delimited good
    (by rw [List.length_drop]; omega)]

/-! ### Items -/

/-- The first of some texts that a text starts with. -/
theorem find?_cut
    {texts : List (List Char)} {cs tail : List Char}
    (fits : ∀ text, texts.find? (·.isPrefixOf (cs ++ tail)) = some text →
      text.length ≤ cs.length) :
    texts.find? (·.isPrefixOf cs) = texts.find? (·.isPrefixOf (cs ++ tail)) := by
  induction texts with
  | nil => rfl
  | cons text texts ih =>
      have same : text.isPrefixOf cs = text.isPrefixOf (cs ++ tail) :=
        isPrefixOf_cut cs tail fun starts => fits text (by rw [List.find?_cons, starts])
      rw [List.find?_cons, List.find?_cons, same]
      split
      · rfl
      · next other =>
          refine ih fun text' found => fits text' ?_
          rwa [List.find?_cons, other]

theorem scanSymbol_cut
    {pos : Nat} {c : Char} {cs tail : List Char}
    (pos' : Nat)
    (good : (scanSymbol pos c (cs ++ tail)).errors = [])
    (fits : (scanSymbol pos c (cs ++ tail)).length ≤ cs.length) :
    scanSymbol pos' c cs = scanSymbol pos c (cs ++ tail) := by
  have same : operators.find? (·.isPrefixOf cs) = operators.find? (·.isPrefixOf (cs ++ tail)) :=
    find?_cut fun op found => by rwa [scanSymbol, found] at fits
  unfold scanSymbol at good ⊢
  rw [same]
  cases found : operators.find? (·.isPrefixOf (cs ++ tail)) with
  | some op => rfl
  | none =>
      rw [found] at good
      dsimp only at good ⊢
      split
      · rfl
      · next other =>
          rw [if_neg other] at good
          cases good

theorem commentLength_cut
    {cs tail : List Char}
    (fits : commentLength (cs ++ tail) ≤ cs.length) :
    commentLength cs = commentLength (cs ++ tail) := by
  unfold commentLength at fits ⊢
  dsimp only at fits ⊢
  by_cases whole : tail = []
  · rw [whole, List.append_nil]
  · have more : 0 < tail.length := List.length_pos_iff.mpr whole
    have line : ((cs ++ tail).takeWhile (· != '\n')).length ≤ cs.length := by
      rw [List.length_append] at fits
      omega
    rw [takeWhile_cut line, List.length_append]
    rw [List.length_append] at fits
    omega

theorem two_le_commentLength
    (rest : List Char) :
    2 ≤ commentLength ('/' :: '/' :: rest) := by
  simp [commentLength]

/-- An item without mistakes that ends before a cut is the item of the cut text, wherever the text
stands. -/
theorem scanItem_cut
    {pos : Nat} {c : Char} {rest tail : List Char}
    (pos' : Nat)
    (good : (scanItem pos c (rest ++ tail)).errors = [])
    (fits : (scanItem pos c (rest ++ tail)).length ≤ rest.length + 1) :
    scanItem pos' c rest = scanItem pos c (rest ++ tail) := by
  unfold scanItem at good fits ⊢
  dsimp only at good fits ⊢
  rw [← List.cons_append] at good fits ⊢
  split
  · rfl
  next noSpace =>
  rw [if_neg noSpace] at good fits
  have slashes : (c = '/' ∧ rest.head? = some '/') ↔
      (c = '/' ∧ (rest ++ tail).head? = some '/') := by
    cases rest with
    | cons => rfl
    | nil =>
        refine ⟨fun h => absurd h.2 nofun, fun slashes => ?_⟩
        obtain ⟨rfl, second⟩ := slashes
        obtain ⟨tail, rfl⟩ := List.head?_eq_some_iff.mp second
        rw [if_pos ⟨rfl, rfl⟩] at fits
        exact absurd (two_le_commentLength tail) (Nat.not_le_of_gt (Nat.lt_succ_of_le fits))
  rw [if_congr slashes rfl rfl]
  split
  · next comment =>
      rw [if_pos comment] at fits
      rw [commentLength_cut fits]
  next noComment =>
  rw [if_neg noComment] at good fits
  split
  · next digit =>
      rw [if_pos digit] at good fits
      exact scanNumber_cut pos' good fits
  next noDigit =>
  rw [if_neg noDigit] at good fits
  cases opens : Literal.opening? (c :: rest ++ tail) with
  | some o =>
      rw [opens] at good fits
      have letters := (letters_lt_length_scanString pos o (c :: rest ++ tail)).trans_le fits
      rw [opening?_cut opens letters]
      exact scanString_cut pos' good fits
  | none =>
      rw [opens] at good fits
      rw [opening?_cut_none opens]
      dsimp only at good fits ⊢
      split
      · next word =>
          rw [if_pos word] at fits
          have run : ((c :: rest ++ tail).takeWhile isIdentPart).length ≤ (c :: rest).length := fits
          rw [takeWhile_cut run]
      · next symbol =>
          rw [if_neg symbol] at good fits
          exact scanSymbol_cut pos' good fits

/-! ### Scans -/

section Scans

variable {pos : Nat} {cs : List Char}

theorem tokens_within_scanFrom
    (pos : Nat)
    (cs : List Char) :
    ∀ t ∈ (scanFrom pos 0 cs).tokens,
      pos ≤ t.span.start ∧ t.span.start < t.span.stop ∧ t.span.stop ≤ pos + cs.length := by
  obtain ⟨parts, all⟩ := exists_partition pos cs (List.replicate pos ' ') (by simp) rfl
  simpa using all.tokens_within

/-- A scan without mistakes begins with an item without mistakes, and goes on without. -/
theorem good_push
    {item : Item} {later : Scan}
    (good : (later.push item pos cs).errors = []) :
    item.errors = [] ∧ later.errors = [] :=
  List.append_eq_nil_iff.mp good

/-- The text from a token on has the tokens from it on, by induction on the text. -/
theorem scanFrom_drop
    {before after : List Token} {t : Token}
    (good : (scanFrom pos 0 cs).errors = [])
    (tokens : (scanFrom pos 0 cs).tokens = before ++ t :: after) :
    scanFrom t.span.start 0 (cs.drop (t.span.start - pos)) = ⟨t :: after, []⟩ := by
  induction pos, cs using scan_induction generalizing before with
  | nil pos => simp [scanFrom] at tokens
  | item pos c rest ih =>
      have whole := scanFrom_item pos c rest
      rw [whole] at good tokens
      have within := tokens_within_scanFrom (pos + (scanItem pos c rest).length)
        ((c :: rest).drop (scanItem pos c rest).length)
      have later := (good_push good).2
      have onward : ∀ before', (scanFrom (pos + (scanItem pos c rest).length) 0
          ((c :: rest).drop (scanItem pos c rest).length)).tokens = before' ++ t :: after →
            scanFrom t.span.start 0 ((c :: rest).drop (t.span.start - pos)) = ⟨t :: after, []⟩ := by
        intro before' tokens'
        have starts := (within t (by rw [tokens']; simp)).1
        have step := ih later tokens'
        rw [List.drop_drop] at step
        rwa [show (scanItem pos c rest).length +
          (t.span.start - (pos + (scanItem pos c rest).length)) = t.span.start - pos by omega]
          at step
      rw [Scan.push] at tokens
      dsimp only at tokens
      split at tokens
      · cases before with
        | nil =>
            rw [List.nil_append, List.cons.injEq] at tokens
            obtain ⟨rfl, rfl⟩ := tokens
            dsimp only
            rw [Nat.sub_self, List.drop_zero, whole, Scan.push, (good_push good).1, later]
            simp [*]
        | cons first before =>
            rw [List.cons_append, List.cons.injEq] at tokens
            exact onward before tokens.2
      · exact onward before tokens

/-- A text that is cut behind its first item begins with that item, wherever it stands. -/
theorem scanFrom_item_cut
    {c : Char} {rest : List Char} {n : Nat}
    (pos' : Nat)
    (good : (scanItem pos c rest).errors = [])
    (fits : (scanItem pos c rest).length ≤ n)
    (within : n ≤ (c :: rest).length) :
    scanFrom pos' 0 ((c :: rest).take n) =
      (scanFrom (pos' + (scanItem pos c rest).length) 0
        (((c :: rest).drop (scanItem pos c rest).length).take
          (n - (scanItem pos c rest).length))).push (scanItem pos c rest) pos' (c :: rest) := by
  have positive := (found_scanItem pos c rest).positive
  obtain ⟨m, rfl⟩ := Nat.exists_eq_succ_of_ne_zero (Nat.ne_of_gt (positive.trans_le fits))
  have halves := List.take_append_drop m rest
  have same : scanItem pos' c (rest.take m) = scanItem pos c rest := by
    have length : (rest.take m).length = m :=
      List.length_take_of_le (Nat.le_of_succ_le_succ within)
    have cut := @scanItem_cut pos c (rest.take m) (rest.drop m) pos'
    rw [halves, length] at cut
    exact cut good fits
  rw [List.take_succ_cons, scanFrom_item, same, ← List.take_succ_cons, ← List.drop_take, Scan.push,
    Scan.push, List.take_take, Nat.min_eq_left fits]

/-- The text up to the end of a token has the tokens up to it, wherever the text stands, by
induction on the text. -/
theorem scanFrom_take
    {before after : List Token} {u : Token} {pos' d : Nat}
    (good : (scanFrom pos 0 cs).errors = [])
    (tokens : (scanFrom pos 0 cs).tokens = before ++ u :: after)
    (stands : pos' + d = pos) :
    (scanFrom pos' 0 (cs.take (u.span.stop - pos))).errors = [] ∧
      (scanFrom pos' 0 (cs.take (u.span.stop - pos))).tokens.map (Token.moved d) =
        before ++ [u] := by
  induction pos, cs using scan_induction generalizing before pos' with
  | nil pos => simp [scanFrom] at tokens
  | item pos c rest ih =>
      obtain ⟨-, -, inText⟩ := tokens_within_scanFrom pos (c :: rest) u (by rw [tokens]; simp)
      rw [scanFrom_item] at good tokens
      have within := tokens_within_scanFrom (pos + (scanItem pos c rest).length)
        ((c :: rest).drop (scanItem pos c rest).length)
      obtain ⟨itemGood, later⟩ := good_push good
      have cut := fun fits => @scanFrom_item_cut pos c rest (u.span.stop - pos) pos' itemGood fits
        (by omega)
      have onward : ∀ before', (scanFrom (pos + (scanItem pos c rest).length) 0
          ((c :: rest).drop (scanItem pos c rest).length)).tokens = before' ++ u :: after →
            (scanItem pos c rest).length ≤ u.span.stop - pos ∧
              (scanFrom (pos' + (scanItem pos c rest).length) 0
                (((c :: rest).drop (scanItem pos c rest).length).take
                  (u.span.stop - pos - (scanItem pos c rest).length))).errors = [] ∧
              (scanFrom (pos' + (scanItem pos c rest).length) 0
                (((c :: rest).drop (scanItem pos c rest).length).take
                  (u.span.stop - pos - (scanItem pos c rest).length))).tokens.map (Token.moved d) =
                before' ++ [u] := by
        intro before' tokens'
        obtain ⟨starts, proper, -⟩ := within u (by rw [tokens']; simp)
        have step := ih later tokens' (show pos' + (scanItem pos c rest).length + d = _ by omega)
        rw [← Nat.sub_sub] at step
        exact ⟨by omega, step⟩
      generalize scanItem pos c rest = item at *
      obtain ⟨length, kind, errors⟩ := item
      cases kind with
      | none =>
          obtain ⟨fits, goods, same⟩ := onward before tokens
          rw [cut fits]
          exact ⟨List.append_eq_nil_iff.mpr ⟨itemGood, goods⟩, same⟩
      | some kind =>
          have here : ∀ text : String, Token.moved d ⟨kind, text, ⟨pos', pos' + length⟩⟩ =
              ⟨kind, text, ⟨pos, pos + length⟩⟩ := by
            intro text
            simp only [Token.moved, Text.Span.moved, stands, Token.mk.injEq, true_and,
              Text.Span.mk.injEq]
            omega
          cases before with
          | nil =>
              rw [Scan.push, List.nil_append, List.cons.injEq] at tokens
              obtain ⟨rfl, -⟩ := tokens
              dsimp only at cut ⊢
              rw [cut (by omega), show pos + length - pos - length = 0 by omega, List.take_zero]
              exact ⟨List.append_eq_nil_iff.mpr ⟨itemGood, rfl⟩, congrArg (· :: []) (here _)⟩
          | cons first before =>
              rw [Scan.push, List.cons_append, List.cons.injEq] at tokens
              obtain ⟨rfl, tokens⟩ := tokens
              obtain ⟨fits, goods, same⟩ := onward before tokens
              rw [cut fits]
              refine ⟨List.append_eq_nil_iff.mpr ⟨itemGood, goods⟩, ?_⟩
              rw [Scan.push, List.map_cons, here, same, List.cons_append]

end Scans

/-- The slice of a text from the start of one token to the end of another has the tokens from the
one to the other. -/
theorem scan_slice
    {source : List Char} {before inside after : List Token} {t u : Token}
    (good : (scan source).errors = [])
    (tokens : (scan source).tokens = before ++ inside ++ after)
    (isFirst : inside.head? = some t)
    (isLast : inside.getLast? = some u) :
    (scan (Text.slice source ⟨t.span.start, u.span.stop⟩)).errors = [] ∧
      (scan (Text.slice source ⟨t.span.start, u.span.stop⟩)).tokens.map (Token.moved t.span.start) =
        inside := by
  obtain ⟨following, rfl⟩ := List.head?_eq_some_iff.mp isFirst
  obtain ⟨leading, same⟩ := List.getLast?_eq_some_iff.mp isLast
  rw [List.append_assoc, List.cons_append] at tokens
  have onward := scanFrom_drop good tokens
  rw [Nat.sub_zero] at onward
  rw [← List.cons_append, same, List.append_assoc, List.singleton_append] at onward
  have slice := scanFrom_take (by rw [onward]) (congrArg Scan.tokens onward)
    (Nat.zero_add t.span.start)
  rwa [← same] at slice

end Lexer
end ExprLang
