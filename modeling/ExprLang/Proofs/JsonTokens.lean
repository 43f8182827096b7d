import ExprLang.Json.Parser
import ExprLang.Json.Printer
import ExprLang.Proofs.FloatNotation

/-!
# The scalars of JSON read back

Strings and numbers that were written as JSON are read as what they are, whatever of a JSON text
follows them.

* `takeString?_escapes`: strings, character by character.
* `takeScalar_intText`, `takeScalar_floatText`: numbers, part by part.
-/

namespace ExprLang
namespace Json

variable {rest : List Char}

/-! ### What follows -/

/-- The characters that may stand behind a document in a text. -/
def closers : List Char := [',', ']', '}', '\n']

/-- The text ends, or goes on with a character that may stand behind a document. -/
def Ends (rest : List Char) : Prop :=
  ∀ c ∈ rest.head?, c ∈ closers

theorem ends_nil : Ends [] := nofun

theorem ends_cons
    {c : Char}
    (closer : c ∈ closers) :
    Ends (c :: rest) := by
  simpa [Ends] using closer

/-- Such a character ends a run of characters if it is not of their class. -/
theorem Ends.excludes
    {p : Char → Prop}
    (ends : Ends rest)
    (excluded : ∀ c ∈ closers, p c) :
    ∀ c ∈ rest.head?, p c :=
  fun c member => excluded c (ends c member)

/-! ### Strings -/

theorem takeCodes?_letter
    {letter meant : Char}
    (isLetter : letterEscape? letter = some meant)
    (notCode : letter ≠ 'u') :
    takeCodes? ('\\' :: letter :: rest) =
      (takeCodes? rest).map fun found => (meant.toNat :: found.1, found.2) := by
  rw [takeCodes?, isLetter]
  · cases takeCodes? rest <;> rfl
  · exact fun _ _ _ _ _ h => absurd h notCode

theorem takeCodes?_plain
    {c : Char}
    (noQuote : c ≠ '"')
    (noEscape : c ≠ '\\')
    (noControl : ¬c.toNat < 32) :
    takeCodes? (c :: rest) = (takeCodes? rest).map fun found => (c.toNat :: found.1, found.2) := by
  rw [takeCodes?, if_neg (by simp [noEscape, noControl])]
  · cases takeCodes? rest <;> rfl
  · exact noQuote
  · exact fun _ _ _ _ _ h => absurd h noEscape
  · exact fun _ _ h => absurd h noEscape

theorem hexCode?_hex
    {n : Nat}
    (small : n < 16 ^ 4) :
    ∃ a b c d, Text.Quoted.hex 4 n = [a, b, c, d] ∧ hexCode? a b c d = some n := by
  have length := Text.Quoted.length_hex (by decide) small
  match shape : Text.Quoted.hex 4 n, length with
  | [a, b, c, d], _ =>
      refine ⟨a, b, c, d, rfl, ?_⟩
      rw [hexCode?, ← shape, Text.Quoted.hexValue_hex, if_pos]
      exact List.all_eq_true.mpr fun _ => Text.Quoted.isHexDigit_of_mem_hex

theorem takeCodes?_hex
    {n : Nat}
    (small : n < 16 ^ 4) :
    takeCodes? ('\\' :: 'u' :: Text.Quoted.hex 4 n ++ rest) =
      (takeCodes? rest).map fun found => (n :: found.1, found.2) := by
  obtain ⟨a, b, c, d, digits, code⟩ := hexCode?_hex small
  rw [digits]
  simp only [List.cons_append, List.nil_append]
  rw [takeCodes?, code]
  cases takeCodes? rest <;> rfl

/-- A character is read from its escape. -/
theorem takeCodes?_escape
    (c : Char)
    (rest : List Char) :
    takeCodes? (escape c ++ rest) =
      (takeCodes? rest).map fun found => (c.toNat :: found.1, found.2) := by
  unfold escape
  split_ifs with quote backslash newline carriage tab backspace feed control
  -- Two characters that are escaped as they are, and five that have a letter.
  iterate 7
    · subst c
      exact takeCodes?_letter (by decide) (by decide)
  · exact takeCodes?_hex (Nat.lt_trans control (by decide))
  · exact takeCodes?_plain quote backslash control

theorem takeCodes?_escapes
    (cs rest : List Char) :
    takeCodes? (cs.flatMap escape ++ '"' :: rest) = some (cs.map Char.toNat, rest) := by
  induction cs with
  | nil => rfl
  | cons c cs ih =>
      rw [List.flatMap_cons, List.append_assoc, takeCodes?_escape, ih]
      rfl

/-- No character is half of a pair. -/
theorem not_isHalf_toNat
    (c : Char) :
    isHighHalf c.toNat = false ∧ isLowHalf c.toNat = false := by
  have valid : c.toNat < 0xD800 ∨ (0xDFFF < c.toNat ∧ c.toNat < 0x110000) := c.valid
  constructor
  · simp only [isHighHalf, Bool.and_eq_false_iff, decide_eq_false_iff_not]
    omega
  · simp only [isLowHalf, Bool.and_eq_false_iff, decide_eq_false_iff_not]
    omega

theorem charOfCode_toNat
    (c : Char) :
    charOfCode c.toNat = c := by
  simp [charOfCode, not_isHalf_toNat]

theorem joinHalves_toNat
    (cs : List Char) :
    joinHalves (cs.map Char.toNat) = cs := by
  induction cs with
  | nil => rfl
  | cons c cs ih =>
      cases cs with
      | nil => simp [joinHalves, charOfCode_toNat]
      | cons d cs =>
          rw [List.map_cons] at ih ⊢
          rw [List.map_cons, joinHalves, (not_isHalf_toNat c).1, charOfCode_toNat, ih]
          rfl

/-- A string is read from what stands behind its first quote. -/
theorem takeString?_escapes
    (s : String)
    (rest : List Char) :
    takeString? (s.toList.flatMap escape ++ '"' :: rest) = some (s, rest) := by
  rw [takeString?, takeCodes?_escapes, Option.map_some]
  simp only [joinHalves_toNat, String.ofList_toList]

/-! ### Numbers -/

open Number

/-- The whole part of a number: digits, and no zero before others. -/
def IsWhole (whole : List Char) : Prop :=
  IsRun whole ∧ (whole.head? = some '0' → whole = ['0'])

theorem isWhole_toDigits
    (n : Nat) :
    IsWhole (Nat.toDigits 10 n) := by
  refine ⟨⟨Nat.toDigits_ne_nil, fun _ => isDigit_of_mem_toDigits⟩, fun zero => ?_⟩
  rcases Nat.eq_zero_or_pos n with rfl | positive
  · rfl
  · obtain ⟨c, more, digits, nonzero⟩ := toDigits_of_pos positive
    rw [digits] at zero
    exact absurd (Option.some.inj zero) nonzero

theorem takeWhole?_append
    {whole : List Char}
    (isWhole : IsWhole whole)
    (noDigit : ∀ c ∈ rest.head?, c.isDigit = false) :
    takeWhole? (whole ++ rest) = some (whole, rest) := by
  obtain ⟨⟨some, digits⟩, alone⟩ := isWhole
  obtain ⟨c, more, rfl⟩ := List.exists_cons_of_ne_nil some
  obtain ⟨digit, digits⟩ := List.forall_mem_cons.mp digits
  rw [List.cons_append, takeWhole?, if_pos digit]
  split
  · next zero =>
      obtain rfl : more = [] := (List.cons.inj (alone (congrArg Option.some zero))).2
      rfl
  · rw [Text.takeWhile_run digits noDigit, Text.dropWhile_run digits noDigit]

theorem takeFraction_append
    {fraction : List Char}
    (hFraction : fraction = [] ∨ IsFraction fraction)
    (noDigit : ∀ c ∈ rest.head?, c.isDigit = false)
    (noPoint : ∀ c ∈ rest.head?, c ≠ '.') :
    takeFraction (fraction ++ rest) = (fraction, rest) := by
  rcases hFraction with rfl | ⟨digits, ⟨some, digits⟩, rfl⟩
  · rw [List.nil_append, takeFraction]
    rintro c more rfl
    exact noPoint '.' rfl rfl
  · obtain ⟨c, more, rfl⟩ := List.exists_cons_of_ne_nil some
    obtain ⟨digit, digits⟩ := List.forall_mem_cons.mp digits
    rw [List.cons_append, List.cons_append, takeFraction, if_pos digit,
      Text.takeWhile_run digits noDigit, Text.dropWhile_run digits noDigit]

theorem takeExponent_append
    {exponent : List Char}
    (hExponent : exponent = [] ∨ IsExponent exponent)
    (ends : Ends rest) :
    takeExponent (exponent ++ rest) = (exponent, rest) := by
  rcases hExponent with rfl | ⟨sign, digits, isSign, ⟨some, digits⟩, rfl⟩
  · cases rest with
    | nil => rfl
    | cons c rest =>
        have noMark := ends.excludes (p := fun c => ¬(c = 'e' ∨ c = 'E')) (by decide) c rfl
        simp only [List.nil_append, takeExponent, if_neg noMark]
  · have noDigit := ends.excludes (p := fun c => c.isDigit = false) (by decide)
    have whole := Text.takeWhile_run digits noDigit
    have behind := Text.dropWhile_run digits noDigit
    rcases isSign with rfl | rfl <;> simp [takeExponent, whole, behind, some]

/-- Neither a digit nor a point begins an exponent or ends a number. -/
theorem head?_exponent
    {exponent : List Char}
    (hExponent : exponent = [] ∨ IsExponent exponent)
    (ends : Ends rest) :
    ∀ c ∈ (exponent ++ rest).head?, c.isDigit = false ∧ c ≠ '.' := by
  rcases hExponent with rfl | ⟨sign, digits, -, -, rfl⟩
  · exact ends.excludes (by decide)
  · simp

/-- Nor does a digit begin a fraction. -/
theorem head?_fraction
    {fraction exponent : List Char}
    (hFraction : fraction = [] ∨ IsFraction fraction)
    (hExponent : exponent = [] ∨ IsExponent exponent)
    (ends : Ends rest) :
    ∀ c ∈ (fraction ++ (exponent ++ rest)).head?, c.isDigit = false := by
  rcases hFraction with rfl | ⟨digits, -, rfl⟩
  · exact fun c member => (head?_exponent hExponent ends c member).1
  · simp

theorem takeNumber_toDigits
    {n : Nat}
    (short : (Nat.toDigits 10 n).length ≤ integerDigitLimit)
    (ends : Ends rest)
    (negative : Bool) :
    takeNumber negative (Nat.toDigits 10 n ++ rest) =
      .ok (.int (if negative then -(n : Int) else n), rest) := by
  have wholeRead := takeWhole?_append (isWhole_toDigits n)
    (head?_fraction (.inl rfl) (.inl rfl) ends)
  have noFraction := takeFraction_append (.inl rfl)
    (fun c member => (head?_exponent (.inl rfl) ends c member).1)
    (fun c member => (head?_exponent (.inl rfl) ends c member).2)
  have noExponent := takeExponent_append (.inl rfl) ends
  simp only [List.nil_append] at wholeRead noFraction noExponent
  simp only [takeNumber, wholeRead, noFraction, noExponent, digitsValue_toDigits]
  simp [not_lt.mpr short]

theorem takeNumber_readDecimal
    {cs : List Char}
    (shape : IsNotation cs)
    (alone : ZeroAlone cs)
    (ends : Ends rest)
    (negative : Bool) :
    takeNumber negative (cs ++ rest) =
      .ok (.float (signed negative ((readDecimal? cs).getD 0.0)), rest) := by
  obtain ⟨f, reads⟩ := Option.isSome_iff_exists.mp (isSome_readDecimal? shape)
  obtain ⟨whole, fraction, exponent, rfl, run, hFraction, hExponent, some⟩ := shape
  have isWhole : IsWhole whole := by
    refine ⟨run, fun zero => ?_⟩
    obtain ⟨more, rfl⟩ := List.head?_eq_some_iff.mp zero
    cases more with
    | nil => rfl
    | cons d more =>
        have noDigit := alone _ rfl d rfl
        rw [run.2 d (by simp)] at noDigit
        cases noDigit
  have wholeRead := takeWhole?_append isWhole (head?_fraction hFraction hExponent ends)
  have fractionRead := takeFraction_append hFraction
    (fun c member => (head?_exponent hExponent ends c member).1)
    (fun c member => (head?_exponent hExponent ends c member).2)
  have exponentRead := takeExponent_append hExponent ends
  have isFloat : (fraction.isEmpty && exponent.isEmpty) = false := by
    cases fraction <;> cases exponent <;> simp_all
  rw [takeNumber, List.append_assoc, List.append_assoc, wholeRead]
  simp only [fractionRead, exponentRead, isFloat]
  rw [List.append_assoc, reads]
  rfl

/-! ### Words and signs -/

theorem eq_digit_false
    {c : Char}
    (digit : c.isDigit = true)
    (d : Char)
    (noDigit : d.isDigit = false) :
    (d = c) = False := by
  refine eq_false fun same => ?_
  rw [same, digit] at noDigit
  cases noDigit

theorem takeWord?_digit
    {c : Char}
    (digit : c.isDigit = true) :
    takeWord? (c :: rest) = none := by
  simp [takeWord?, words, eq_digit_false digit]

theorem takeWord?_minus
    {c : Char}
    (digit : c.isDigit = true) :
    takeWord? ('-' :: c :: rest) = none := by
  simp [takeWord?, words, eq_digit_false digit]

theorem takeScalar_words
    (rest : List Char) :
    takeScalar ("null".toList ++ rest) = .ok (.null, rest) ∧
      takeScalar ("true".toList ++ rest) = .ok (.bool true, rest) ∧
      takeScalar ("false".toList ++ rest) = .ok (.bool false, rest) := by
  simp [takeScalar, takeWord?, words]

/-- A number with its sign is no word. -/
theorem takeScalar_number
    {cs : List Char}
    (begins : ∃ c more, cs = c :: more ∧ c.isDigit = true)
    (negative : Bool) :
    takeScalar (if negative then '-' :: cs else cs) = takeNumber negative cs := by
  obtain ⟨c, more, rfl, digit⟩ := begins
  cases negative with
  | true => simp only [if_true, takeScalar, takeWord?_minus digit]
  | false =>
      simp only [Bool.false_eq_true, if_false, takeScalar, takeWord?_digit digit]
      split
      · next h =>
          rw [(List.cons.inj h).1] at digit
          cases digit
      · rfl

theorem run_begins
    {digits : List Char}
    (run : IsRun digits)
    (more : List Char) :
    ∃ c rest, digits ++ more = c :: rest ∧ c.isDigit = true := by
  obtain ⟨c, others, rfl⟩ := List.exists_cons_of_ne_nil run.1
  exact ⟨c, others ++ more, rfl, run.2 c List.mem_cons_self⟩

theorem isNotation_begins
    {cs : List Char}
    (shape : IsNotation cs)
    (more : List Char) :
    ∃ c rest, cs ++ more = c :: rest ∧ c.isDigit = true := by
  obtain ⟨whole, fraction, exponent, rfl, run, -⟩ := shape
  rw [List.append_assoc]
  exact run_begins run _

/-- An integer is read from its digits. -/
theorem takeScalar_intText
    {n : Int}
    (short : (Nat.toDigits 10 n.natAbs).length ≤ integerDigitLimit)
    (ends : Ends rest) :
    takeScalar ((intText n).toList ++ rest) = .ok (.int n, rest) := by
  cases n with
  | ofNat n =>
      calc takeScalar ((intText (.ofNat n)).toList ++ rest)
          = takeScalar (Nat.toDigits 10 n ++ rest) := by simp [intText, natText]
        _ = takeNumber false (Nat.toDigits 10 n ++ rest) :=
          takeScalar_number (run_begins (isWhole_toDigits n).1 rest) false
        _ = .ok (.int (.ofNat n), rest) := takeNumber_toDigits short ends false
  | negSucc n =>
      calc takeScalar ((intText (.negSucc n)).toList ++ rest)
          = takeScalar ('-' :: (Nat.toDigits 10 (n + 1) ++ rest)) := by simp [intText, natText]
        _ = takeNumber true (Nat.toDigits 10 (n + 1) ++ rest) :=
          takeScalar_number (run_begins (isWhole_toDigits (n + 1)).1 rest) true
        _ = .ok (.int (.negSucc n), rest) := takeNumber_toDigits short ends true

theorem intText_begins
    (n : Int) :
    ∃ c more, (intText n).toList = c :: more ∧ (c = '-' ∨ c.isDigit = true) := by
  cases n with
  | ofNat n =>
      obtain ⟨c, more, digits, digit⟩ := run_begins (isWhole_toDigits n).1 []
      exact ⟨c, more, by simpa [intText, natText] using digits, .inr digit⟩
  | negSucc n => exact ⟨'-', Nat.toDigits 10 (n + 1), by simp [intText, natText], .inl rfl⟩

section Floats

variable {f : Float} {d : Number.Dyadic}

theorem floatText_of_finite
    (finite : dyadic? f = some d) :
    Json.floatText f = (Number.floatText f).toList := by
  rw [Json.floatText, isUndefined_of_dyadic finite, isInfinite_of_dyadic finite]
  rfl

/-- A finite float is read from its text, if the text is one that is read as the float. -/
theorem takeScalar_floatText
    (finite : dyadic? f = some d)
    (reads : readFloat? (Number.floatText f).toList = some f)
    (ends : Ends rest) :
    takeScalar ((Number.floatText f).toList ++ rest) = .ok (.float f, rest) := by
  obtain ⟨cs, shape, alone, text⟩ := floatText_of_dyadic finite reads
  rw [text, readFloat?_notation shape, Option.some_inj] at reads
  calc takeScalar ((Number.floatText f).toList ++ rest)
      = takeScalar (if d.negative then '-' :: (cs ++ rest) else cs ++ rest) := by
        rw [text]
        split <;> rfl
    _ = takeNumber d.negative (cs ++ rest) :=
      takeScalar_number (isNotation_begins shape rest) d.negative
    _ = .ok (.float f, rest) := by rw [takeNumber_readDecimal shape alone ends, reads]

theorem floatText_begins
    (finite : dyadic? f = some d)
    (reads : readFloat? (Number.floatText f).toList = some f) :
    ∃ c more, (Number.floatText f).toList = c :: more ∧ (c = '-' ∨ c.isDigit = true) := by
  obtain ⟨cs, shape, -, text⟩ := floatText_of_dyadic finite reads
  rw [text]
  cases d.negative with
  | true => exact ⟨'-', cs, rfl, .inl rfl⟩
  | false =>
      obtain ⟨c, more, digits, digit⟩ := isNotation_begins shape []
      exact ⟨c, more, by simpa using digits, .inr digit⟩

end Floats

end Json
end ExprLang
