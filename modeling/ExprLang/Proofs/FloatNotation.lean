import ExprLang.Proofs.Scanning

/-!
# Floats in decimal notation

What a finite float is written as: digits, a fraction and an exponent, not both of which are
missing.  Such a text is one token of the lexer, and the lexer and the reader of floats take it for
the same number.

* `isNotation_of_text`: the text of a positive decimal number has this form.
* `scanFrom_notation`: it is one token.
* `readFloat?_notation`: reading it, with a sign before it, gives the number of that token.
-/

namespace ExprLang
namespace Number

/-! ### The form of the text -/

/-- A run of at least one digit. -/
def IsRun (digits : List Char) : Prop :=
  digits ≠ [] ∧ ∀ c ∈ digits, c.isDigit = true

/-- A point and digits. -/
def IsFraction (fraction : List Char) : Prop :=
  ∃ digits, IsRun digits ∧ fraction = '.' :: digits

/-- The mark of an exponent, a sign and digits. -/
def IsExponent (exponent : List Char) : Prop :=
  ∃ sign digits, (sign = '+' ∨ sign = '-') ∧ IsRun digits ∧ exponent = 'e' :: sign :: digits

/-- Digits, a fraction and an exponent, not both of which are missing. -/
def IsNotation (cs : List Char) : Prop :=
  ∃ whole fraction exponent, cs = whole ++ (fraction ++ exponent) ∧ IsRun whole ∧
    (fraction = [] ∨ IsFraction fraction) ∧ (exponent = [] ∨ IsExponent exponent) ∧
    fraction ++ exponent ≠ []

theorem isNotation_positional
    {whole digits : List Char}
    (hWhole : IsRun whole)
    (hDigits : IsRun digits) :
    IsNotation (whole ++ '.' :: digits) :=
  ⟨whole, '.' :: digits, [], by simp, hWhole, .inr ⟨digits, hDigits, rfl⟩, .inl rfl, by simp⟩

theorem isRun_zero : IsRun ['0'] := by
  simp [IsRun]

theorem isDigit_zeros
    {count : Nat} :
    ∀ c ∈ List.replicate count '0', c.isDigit = true := by
  intro c member
  rw [List.eq_of_mem_replicate member]
  rfl

/-- A zero at the front of a number is its whole part. -/
def ZeroAlone (cs : List Char) : Prop :=
  ∀ rest, cs = '0' :: rest → ∀ c ∈ rest.head?, c.isDigit = false

theorem zeroAlone_cons
    {c : Char} {rest : List Char}
    (nonzero : c ≠ '0') :
    ZeroAlone (c :: rest) :=
  fun _ h => absurd (List.cons.inj h).1 nonzero

theorem zeroAlone_behind
    {c d : Char} {rest : List Char}
    (noDigit : d.isDigit = false) :
    ZeroAlone (c :: d :: rest) := by
  intro _ h
  rw [← (List.cons.inj h).2]
  simpa using noDigit

/-- Digits that do not start with zero have one after their point. -/
theorem isNotation_positionalText
    {c : Char} {more : List Char} {point : Int}
    (allDigits : ∀ d ∈ c :: more, d.isDigit = true)
    (nonzero : c ≠ '0') :
    IsNotation (positionalText (c :: more) point).toList ∧
      ZeroAlone (positionalText (c :: more) point).toList := by
  unfold positionalText
  split
  · next small =>
      have fraction : IsRun (List.replicate (-point).toNat '0' ++ c :: more) := by
        refine ⟨by simp, fun c member => ?_⟩
        rcases List.mem_append.mp member with member | member
        · exact isDigit_zeros c member
        · exact allDigits c member
      have shape := isNotation_positional isRun_zero fraction
      exact ⟨by simpa using shape, by simpa using zeroAlone_behind (by decide)⟩
  · next large =>
      obtain ⟨count, counts⟩ : ∃ count, point.toNat = count + 1 :=
        ⟨point.toNat - 1, by omega⟩
      have whole : IsRun ((c :: more).take point.toNat ++
          List.replicate (point.toNat - (c :: more).length) '0') := by
        refine ⟨by simp [counts], fun d member => ?_⟩
        rcases List.mem_append.mp member with member | member
        · exact allDigits d (List.mem_of_mem_take member)
        · exact isDigit_zeros d member
      dsimp only
      rw [String.toList_append, String.toList_append, String.toList_ofList]
      refine ⟨?_, by simpa [counts] using zeroAlone_cons nonzero⟩
      split
      · simpa using isNotation_positional whole isRun_zero
      · next some =>
          have fraction : IsRun ((c :: more).drop point.toNat) :=
            ⟨by simpa using some, fun c member => allDigits c (List.mem_of_mem_drop member)⟩
          simpa using isNotation_positional whole fraction

theorem isExponent_exponentText
    (e : Int) :
    IsExponent (exponentText e).toList := by
  have digits : IsRun (padded 2 e.natAbs).toList := by
    refine ⟨?_, fun c => isDigit_of_mem_padded⟩
    simp [toList_padded, Nat.toDigits_ne_nil]
  refine ⟨if e < 0 then '-' else '+', _, ?_, digits, ?_⟩
  · split <;> simp
  · unfold exponentText
    split <;> simp

theorem isNotation_scientificText
    {c : Char} {more : List Char} {e : Int}
    (allDigits : ∀ d ∈ c :: more, d.isDigit = true) :
    IsNotation (scientificText (c :: more) e).toList ∧
      ZeroAlone (scientificText (c :: more) e).toList := by
  cases more with
  | nil =>
      refine ⟨⟨[c], [], (exponentText e).toList, by simp [scientificText],
        ⟨by simp, allDigits⟩, .inl rfl, .inr (isExponent_exponentText e), ?_⟩, ?_⟩
      · simp [exponentText]
      · simpa [scientificText, exponentText] using zeroAlone_behind (by decide)
  | cons a rest =>
      refine ⟨⟨[c], '.' :: a :: rest, (exponentText e).toList, by simp [scientificText],
        ⟨by simp, fun c member => allDigits c (by simp_all)⟩,
        .inr ⟨a :: rest, ⟨by simp, fun c member => allDigits c (by simp_all)⟩, rfl⟩,
        .inr (isExponent_exponentText e), by simp⟩, ?_⟩
      simpa [scientificText] using zeroAlone_behind (by decide)

/-- The digits of a positive number do not start with zero. -/
theorem toDigits_of_pos
    {n : Nat}
    (positive : 0 < n) :
    ∃ c rest, Nat.toDigits 10 n = c :: rest ∧ c ≠ '0' := by
  induction n using Nat.strongRecOn with
  | ind n ih =>
      by_cases single : n < 10
      · have nonzero : ∀ d < 10, 0 < d → Nat.digitChar d ≠ '0' := by decide
        exact ⟨_, _, Nat.toDigits_of_lt_base single, nonzero n single positive⟩
      · obtain ⟨c, rest, digits, nonzero⟩ := ih (n / 10) (by omega) (by omega)
        refine ⟨c, rest ++ [Nat.digitChar (n % 10)], ?_, nonzero⟩
        rw [Nat.toDigits_of_base_le (by decide) (by omega), digits, List.cons_append]

theorem dropTrailingZeros_cons
    {c : Char}
    (nonzero : c ≠ '0')
    (rest : List Char) :
    ∃ more, dropTrailingZeros (c :: rest) = c :: more := by
  rw [dropTrailingZeros, List.reverse_cons, List.dropWhile_append]
  split
  · exact ⟨[], by simp [nonzero]⟩
  · exact ⟨_, by rw [List.reverse_append]; rfl⟩

/-- The text of a positive decimal number. -/
theorem isNotation_of_text
    {d : Decimal}
    (positive : 0 < d.digits) :
    IsNotation d.text.toList ∧ ZeroAlone d.text.toList := by
  obtain ⟨c, rest, all, nonzero⟩ := toDigits_of_pos positive
  obtain ⟨more, digits⟩ := dropTrailingZeros_cons nonzero rest
  have allDigits : ∀ x ∈ c :: more, x.isDigit = true := by
    intro x member
    rw [← digits, ← all, dropTrailingZeros, List.mem_reverse] at member
    have inside := (List.dropWhile_sublist _).subset member
    exact isDigit_of_mem_toDigits (List.mem_reverse.mp inside)
  unfold Decimal.text
  dsimp only
  rw [all, digits]
  split
  · exact isNotation_positionalText allDigits nonzero
  · exact isNotation_scientificText allDigits

end Number

/-! ### One token -/

namespace Lexer

open Number

theorem IsRun.takeWhile
    {digits rest : List Char}
    (run : IsRun digits)
    (boundary : ∀ c ∈ rest.head?, c.isDigit = false) :
    (digits ++ rest).takeWhile Char.isDigit = digits :=
  Text.takeWhile_run run.2 boundary

theorem fractionLength_append
    {fraction rest : List Char}
    (hFraction : fraction = [] ∨ IsFraction fraction)
    (noDigit : ∀ c ∈ rest.head?, c.isDigit = false)
    (noFraction : Literal.fractionLength rest = 0) :
    Literal.fractionLength (fraction ++ rest) = fraction.length := by
  rcases hFraction with rfl | ⟨digits, run, rfl⟩
  · exact noFraction
  · have whole := IsRun.takeWhile run noDigit
    simp [Literal.fractionLength, whole, run.1]

theorem exponentLength_append
    {exponent rest : List Char}
    (hExponent : exponent = [] ∨ IsExponent exponent)
    (ends : EndsWord rest) :
    Literal.exponentLength (exponent ++ rest) = exponent.length := by
  rcases hExponent with rfl | ⟨sign, digits, isSign, run, rfl⟩
  · refine exponentLength_eq_zero fun c member => ?_
    have outside := ends.excludes (p := fun c => c == 'e' || c == 'E') (fun c mark => by
      rcases Bool.or_eq_true_iff.mp mark with mark | mark <;>
        rw [beq_iff_eq.mp mark] <;> decide) c member
    simpa using outside
  · have whole := IsRun.takeWhile run (ends.excludes fun _ => isIdentPart_of_isDigit)
    simp [Literal.exponentLength, isSign, whole, run.1]

/-- Neither a digit nor the mark of a hexadecimal number begins an exponent. -/
theorem head?_exponent
    {exponent rest : List Char}
    (hExponent : exponent = [] ∨ IsExponent exponent)
    (ends : Ends rest) :
    ∀ c ∈ (exponent ++ rest).head?, c.isDigit = false ∧ c ≠ 'x' ∧ c ≠ 'X' := by
  intro c member
  rcases hExponent with rfl | ⟨sign, digits, -, -, rfl⟩
  · obtain ⟨noDigit, -, -, noMark⟩ := ends.endsInteger.head c member
    exact ⟨noDigit, noMark⟩
  · obtain rfl : 'e' = c := by simpa using member
    decide

/-- No exponent begins with a fraction. -/
theorem fractionLength_exponent
    {exponent rest : List Char}
    (hExponent : exponent = [] ∨ IsExponent exponent)
    (ends : Ends rest) :
    Literal.fractionLength (exponent ++ rest) = 0 := by
  rcases hExponent with rfl | ⟨sign, digits, -, -, rfl⟩
  · exact ends.noFraction
  · rfl

theorem head?_fraction
    {fraction exponent rest : List Char}
    (hFraction : fraction = [] ∨ IsFraction fraction)
    (hExponent : exponent = [] ∨ IsExponent exponent)
    (ends : Ends rest) :
    ∀ c ∈ (fraction ++ (exponent ++ rest)).head?, c.isDigit = false ∧ c ≠ 'x' ∧ c ≠ 'X' := by
  intro c member
  rcases hFraction with rfl | ⟨digits, -, rfl⟩
  · exact head?_exponent hExponent ends c member
  · obtain rfl : '.' = c := by simpa using member
    decide

/-- A number in this form is one token, which denotes what is read from it. -/
theorem scanFrom_notation
    {cs rest : List Char}
    (shape : IsNotation cs)
    (ends : Ends rest)
    (pos : Nat) :
    scanFrom pos 0 (cs ++ rest) =
      (scanFrom (pos + cs.length) 0 rest).cons (.float ((readDecimal? cs).getD 0.0)) cs pos := by
  obtain ⟨whole, fraction, exponent, text, run, hFraction, hExponent, nonempty⟩ := shape
  obtain ⟨c, more, first⟩ := List.exists_cons_of_ne_nil run.1
  have afterWhole := head?_fraction hFraction hExponent ends
  have wholeRun : (cs ++ rest).takeWhile Char.isDigit = whole := by
    rw [text, List.append_assoc, List.append_assoc]
    exact IsRun.takeWhile run fun c member => (afterWhole c member).1
  have dropWhole : (cs ++ rest).drop whole.length = fraction ++ (exponent ++ rest) := by
    simp [text]
  have dropFraction : (cs ++ rest).drop (whole.length + fraction.length) = exponent ++ rest := by
    simp [text, ← List.drop_drop]
  have fractionIs := fractionLength_append hFraction
    (fun c member => (head?_exponent hExponent ends c member).1)
    (fractionLength_exponent hExponent ends)
  have exponentIs := exponentLength_append hExponent ends.word
  have length : whole.length + fraction.length + exponent.length = cs.length := by
    simp [text, Nat.add_assoc]
  have some : 0 < fraction.length + exponent.length := by
    rw [← List.length_append]
    exact List.length_pos_iff.mpr nonempty
  have decimal : Literal.scanDecimal pos (cs ++ rest) =
      .good cs.length (.float ((readDecimal? cs).getD 0.0)) := by
    simp only [Literal.scanDecimal, wholeRun, dropWhole, fractionIs, dropFraction, exponentIs,
      length, List.take_left]
    rw [if_pos some]
  obtain ⟨tail, whole_eq⟩ : ∃ tail, cs = c :: tail := ⟨more ++ (fraction ++ exponent), by
    rw [text, first, List.cons_append]⟩
  have digit : c.isDigit = true := run.2 c (by simp [first])
  have noMark : ∀ x ∈ (tail ++ rest).head?, x ≠ 'x' ∧ x ≠ 'X' := by
    have tail_eq : tail ++ rest = more ++ (fraction ++ (exponent ++ rest)) := by
      have h : c :: tail = c :: (more ++ (fraction ++ exponent)) := by
        rw [← whole_eq, text, first, List.cons_append]
      rw [(List.cons.inj h).2, List.append_assoc, List.append_assoc]
    rw [tail_eq]
    intro x member
    cases more with
    | nil => exact (afterWhole x member).2
    | cons d more =>
        obtain rfl : d = x := by simpa using member
        have isDigit := run.2 d (by simp [first])
        constructor <;> rintro rfl <;> revert isDigit <;> decide
  subst whole_eq
  refine scanFrom_good _ ?_
  rw [scanItem_digit digit, scanNumber_eq_scanDecimal noMark]
  exact decimal

end Lexer

/-! ### The same number -/

namespace Number

/-- What numbers in this form are made of. -/
def isNotationChar (c : Char) : Bool :=
  c.isDigit || ['.', 'e', '+', '-'].contains c

theorem isNotationChar_of_mem
    {cs : List Char}
    (shape : IsNotation cs) :
    ∀ c ∈ cs, isNotationChar c = true := by
  have digits : ∀ {run : List Char}, IsRun run → ∀ c ∈ run, isNotationChar c = true := by
    intro run hRun c member
    simp [isNotationChar, hRun.2 c member]
  obtain ⟨whole, fraction, exponent, rfl, run, hFraction, hExponent, -⟩ := shape
  intro c member
  simp only [List.mem_append] at member
  rcases member with member | member | member
  · exact digits run c member
  · rcases hFraction with rfl | ⟨run, hRun, rfl⟩
    · cases member
    · rcases List.mem_cons.mp member with rfl | member
      · rfl
      · exact digits hRun c member
  · rcases hExponent with rfl | ⟨sign, run, isSign, hRun, rfl⟩
    · cases member
    · rcases List.mem_cons.mp member with rfl | member
      · rfl
      rcases List.mem_cons.mp member with rfl | member
      · rcases isSign with rfl | rfl <;> rfl
      · exact digits hRun c member

/-- Such characters are in ASCII, no blanks and no underscores. -/
theorem isNotationChar_plain
    {c : Char}
    (plain : isNotationChar c = true) :
    c.toNat < 128 ∧ isNumberBlank c = false ∧ c ≠ '_' := by
  simp only [isNotationChar, Bool.or_eq_true, Char.isDigit, Bool.and_eq_true, decide_eq_true_eq,
    List.contains_cons, List.contains_nil, Bool.or_false, beq_iff_eq] at plain
  rcases plain with ⟨low, high⟩ | rfl | rfl | rfl | rfl
  · have low : 48 ≤ c.toNat := low
    have high : c.toNat ≤ 57 := high
    refine ⟨by omega, ?_, ?_⟩
    · simp only [isNumberBlank, Bool.or_eq_false_iff, beq_eq_false_iff_ne, Bool.and_eq_false_iff,
        decide_eq_false_iff_not]
      refine ⟨?_, .inr (by omega)⟩
      rintro rfl
      exact absurd low (by decide)
    · rintro rfl
      exact absurd high (by decide)
  all_goals decide

theorem asciiDigits_of_plain
    {cs : List Char}
    (plain : ∀ c ∈ cs, isNotationChar c = true) :
    asciiDigits cs = cs := by
  refine (List.map_congr_left fun c member => ?_).trans (List.map_id cs)
  exact if_pos (isNotationChar_plain (plain c member)).1

theorem stripNumber_of_plain
    {cs : List Char}
    (plain : ∀ c ∈ cs, isNotationChar c = true) :
    stripNumber cs = cs :=
  Text.trim_eq_self fun c member => (isNotationChar_plain (plain c member)).2.1

theorem dropUnderscores?_of_plain
    {cs : List Char} {last : Char}
    (noUnderscore : last ≠ '_')
    (plain : ∀ c ∈ cs, isNotationChar c = true) :
    dropUnderscores? last cs = some cs := by
  induction cs generalizing last with
  | nil => simp [dropUnderscores?, noUnderscore]
  | cons c cs ih =>
      have inside := (isNotationChar_plain (plain c (by simp))).2.2
      have rest := ih inside fun d member => plain d (by simp [member])
      rw [dropUnderscores?]
      · simp [noUnderscore, rest]
      · exact inside

theorem isSome_readExponent?
    {exponent : List Char}
    (hExponent : exponent = [] ∨ IsExponent exponent) :
    (readExponent? exponent).isSome := by
  rcases hExponent with rfl | ⟨sign, digits, isSign, run, rfl⟩
  · rfl
  · have allDigits : digits.all Char.isDigit = true := List.all_eq_true.mpr run.2
    rcases isSign with rfl | rfl <;> simp [readExponent?, takeSign, run.1, allDigits]

/-- A number in this form is read. -/
theorem isSome_readDecimal?
    {cs : List Char}
    (shape : IsNotation cs) :
    (readDecimal? cs).isSome := by
  obtain ⟨whole, fraction, exponent, rfl, run, hFraction, hExponent, -⟩ := shape
  have noDigit : ∀ c ∈ exponent.head?, c.isDigit = false := by
    have h := Lexer.head?_exponent hExponent Lexer.ends_nil
    simp only [List.append_nil] at h
    exact fun c member => (h c member).1
  have afterWhole : ∀ c ∈ (fraction ++ exponent).head?, c.isDigit = false := by
    have h := Lexer.head?_fraction hFraction hExponent Lexer.ends_nil
    simp only [List.append_nil] at h
    exact fun c member => (h c member).1
  have exponentReads := isSome_readExponent? hExponent
  rw [readDecimal?, Text.takeWhile_run run.2 afterWhole, Text.dropWhile_run run.2 afterWhole]
  rcases hFraction with rfl | ⟨digits, fractionRun, rfl⟩
  · rcases hExponent with rfl | ⟨sign, digits, -, -, rfl⟩
    · simp [run.1, readExponent?]
    · simpa [run.1] using exponentReads
  · simp [Text.takeWhile_run fractionRun.2 noDigit, Text.dropWhile_run fractionRun.2 noDigit,
      run.1, exponentReads]

/-- What begins with no sign is taken whole. -/
theorem takeSign_unsigned
    {cs : List Char}
    (noMinus : '-' ∉ cs.head?)
    (noPlus : '+' ∉ cs.head?) :
    takeSign cs = (false, cs) := by
  cases cs with
  | nil => rfl
  | cons c rest =>
      rw [takeSign]
      · exact fun _ h => noMinus (congrArg some (List.cons.inj h).1)
      · exact fun _ h => noPlus (congrArg some (List.cons.inj h).1)

/-- Reading a number in this form, perhaps after a minus sign, gives the number that is read from
it alone, with that sign. -/
theorem readFloat?_notation
    {cs : List Char}
    (shape : IsNotation cs)
    (negative : Bool) :
    readFloat? (if negative then '-' :: cs else cs) =
      some (signed negative ((readDecimal? cs).getD 0.0)) := by
  have plain : ∀ c ∈ (if negative then '-' :: cs else cs), isNotationChar c = true := by
    intro c member
    split at member
    · rcases List.mem_cons.mp member with rfl | member
      · rfl
      · exact isNotationChar_of_mem shape c member
    · exact isNotationChar_of_mem shape c member
  have sign : takeSign (if negative then '-' :: cs else cs) = (negative, cs) := by
    cases negative with
    | true => rfl
    | false =>
        obtain ⟨whole, fraction, exponent, rfl, run, -, -, -⟩ := shape
        obtain ⟨d, digits, rfl⟩ := List.exists_cons_of_ne_nil run.1
        have digit := run.2 d (by simp)
        refine takeSign_unsigned ?_ ?_ <;>
          · rintro ⟨⟩
            cases digit
  obtain ⟨f, reads⟩ := Option.isSome_iff_exists.mp (isSome_readDecimal? shape)
  rw [readFloat?, asciiDigits_of_plain plain, stripNumber_of_plain plain,
    dropUnderscores?_of_plain (by decide) plain]
  simp [sign, reads]

/-! ### Floats -/

theorem readFloat?_zeros :
    ∀ k < 20, readFloat? (positionalText [] ((k : Nat) - 3 : Int)).toList = some 0.0 ∧
      readFloat? ("-" ++ positionalText [] ((k : Nat) - 3 : Int)).toList = some (-0.0) := by
  decide +kernel

/-- Zero is read from its text, in whatever notation it is written. -/
theorem readFloat?_zero
    {d : Decimal}
    (zero : d.digits = 0) :
    readFloat? d.text.toList = some 0.0 ∧ readFloat? ("-" ++ d.text).toList = some (-0.0) := by
  have digits : Nat.toDigits 10 0 = ['0'] := by decide
  have none : dropTrailingZeros ['0'] = [] := by decide
  unfold Decimal.text
  simp only [zero, digits, none, List.length_singleton]
  split
  · next range =>
      obtain ⟨k, small, point⟩ : ∃ k < 20, ((1 : Nat) + d.exponent : Int) = (k : Nat) - 3 :=
        ⟨(d.exponent + 4).toNat, by omega, by omega⟩
      rw [point]
      exact readFloat?_zeros k small
  · simp only [scientificText]
    decide +kernel

theorem dyadic?_zero :
    dyadic? 0.0 = some ⟨false, 0, -1074⟩ ∧ dyadic? (-0.0) = some ⟨true, 0, -1074⟩ := by
  decide +kernel

/-- The text of a float that is not zero has digits, unless it is no text that is read as the
float. -/
theorem shortest_digits_pos
    {f : Float} {d : Dyadic}
    (finite : dyadic? f = some d)
    (nonzero : d.mantissa ≠ 0)
    (reads : readFloat? (floatText f).toList = some f) :
    0 < (shortest d.mantissa d.exponent).digits := by
  by_contra zero
  obtain ⟨positive, negative⟩ := readFloat?_zero (Nat.eq_zero_of_not_pos zero)
  rw [floatText, finite] at reads
  simp only [if_neg nonzero] at reads
  -- The text is read as a zero, which has no mantissa.
  split at reads
  · obtain rfl := Option.some.inj (negative.symm.trans reads)
    rw [dyadic?_zero.2] at finite
    exact nonzero (Option.some.inj finite ▸ rfl)
  · obtain rfl := Option.some.inj (positive.symm.trans reads)
    rw [dyadic?_zero.1] at finite
    exact nonzero (Option.some.inj finite ▸ rfl)

/-- The text of a finite float is its sign and a number, unless it is no text that is read as the
float. -/
theorem floatText_of_dyadic
    {f : Float} {d : Dyadic}
    (finite : dyadic? f = some d)
    (reads : readFloat? (floatText f).toList = some f) :
    ∃ cs, IsNotation cs ∧ ZeroAlone cs ∧
      (floatText f).toList = if d.negative then '-' :: cs else cs := by
  have shape : ∃ body : String, (IsNotation body.toList ∧ ZeroAlone body.toList) ∧
      floatText f = if d.negative then "-" ++ body else body := by
    rw [floatText, finite]
    dsimp only
    by_cases zero : d.mantissa = 0
    · refine ⟨"0.0", ⟨?_, ?_⟩, by rw [if_pos zero]⟩
      · exact isNotation_positional isRun_zero isRun_zero
      · exact zeroAlone_behind (by decide)
    · refine ⟨_, isNotation_of_text (shortest_digits_pos finite zero reads), ?_⟩
      rw [if_neg zero]
  obtain ⟨body, ⟨hBody, alone⟩, text⟩ := shape
  refine ⟨body.toList, hBody, alone, ?_⟩
  rw [text]
  split <;> simp

end Number
end ExprLang
