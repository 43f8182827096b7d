import ExprLang.Proofs.Digits
import ExprLang.Token.Lexer

/-!
# Scanning from an offset on

What one item at the front of a text adds to the scan of the rest: blanks nothing, everything else
one token.  Numbers and words end where the text goes on with one of the marks that may follow a
whole expression (`Delimited`).

* `scanFrom_good`: an item is passed over and becomes a token.
* `scanFrom_punctuation`, `scanFrom_operator`, `scanFrom_word`, `scanFrom_int`, `scanFrom_uint`: the
  items.
-/

namespace ExprLang
namespace Lexer

open Literal (Item)

/-! ### One item -/

/-- A scan that begins with one more token. -/
def Scan.cons (kind : TokenKind) (text : List Char) (pos : Nat) (later : Scan) : Scan where
  tokens := ⟨kind, String.ofList text, ⟨pos, pos + text.length⟩⟩ :: later.tokens
  errors := later.errors

@[simp] theorem Scan.tokens_cons
    (kind : TokenKind)
    (text : List Char)
    (pos : Nat)
    (later : Scan) :
    (later.cons kind text pos).tokens =
      ⟨kind, String.ofList text, ⟨pos, pos + text.length⟩⟩ :: later.tokens := by
  rfl

@[simp] theorem Scan.errors_cons
    (kind : TokenKind)
    (text : List Char)
    (pos : Nat)
    (later : Scan) :
    (later.cons kind text pos).errors = later.errors := by
  rfl

/-- What is left of an item is passed over. -/
theorem scanFrom_skip
    (pos : Nat)
    (passed rest : List Char) :
    scanFrom pos passed.length (passed ++ rest) = scanFrom (pos + passed.length) 0 rest := by
  induction passed generalizing pos with
  | nil => rfl
  | cons c passed ih =>
      rw [List.length_cons, List.cons_append, scanFrom, ih]
      congr 1
      omega

/-- An item without mistakes becomes a token. -/
theorem scanFrom_good
    {pos : Nat} {c : Char} {rest : List Char} {kind : TokenKind}
    (cs : List Char)
    (item : scanItem pos c (cs ++ rest) = .good (cs.length + 1) kind) :
    scanFrom pos 0 (c :: cs ++ rest) =
      (scanFrom (pos + (c :: cs).length) 0 rest).cons kind (c :: cs) pos := by
  rw [List.cons_append, scanFrom, item]
  simp only [Item.good, Nat.add_sub_cancel, scanFrom_skip]
  simp [Scan.push, Scan.cons, Nat.add_assoc, Nat.add_comm 1]

/-- A blank is no token. -/
theorem scanFrom_space
    {c : Char}
    (space : isSpace c = true)
    (pos : Nat)
    (rest : List Char) :
    scanFrom pos 0 (c :: rest) = scanFrom (pos + 1) 0 rest := by
  rw [scanFrom, scanItem]
  simp [space, Scan.push]

/-! ### Symbols -/

/-- A character that is no letter, digit or quote opens no literal. -/
theorem opening?_eq_none
    {c : Char}
    (noQuote : Literal.isQuote c = false)
    (noRaw : Literal.isRawLetter c = false)
    (noBytes : Literal.isBytesLetter c = false)
    (rest : List Char) :
    Literal.opening? (c :: rest) = none := by
  match rest with
  | [] => simp [Literal.opening?, noQuote]
  | [a] => simp [Literal.opening?, noQuote, noRaw, noBytes]
  | a :: b :: rest => simp [Literal.opening?, noQuote, noRaw, noBytes]

theorem scanItem_punctuation
    {c : Char}
    (mark : c ∈ punctuation)
    (pos : Nat)
    (rest : List Char) :
    scanItem pos c rest = .good 1 .punctuation := by
  have noWord : ∀ c ∈ punctuation, isIdentStart c = false := by decide
  have start := noWord c mark
  simp only [punctuation, List.mem_cons, List.not_mem_nil, or_false] at mark
  rcases mark with rfl | rfl | rfl | rfl | rfl | rfl | rfl | rfl <;>
    simp [scanItem, isSpace, opening?_eq_none, Literal.isQuote, Literal.isRawLetter,
      Literal.isBytesLetter, start, scanSymbol, operators, punctuation, List.find?,
      List.isPrefixOf, Char.isDigit]

theorem scanItem_operator
    {c : Char}
    (mark : c = ':' ∨ c = '-')
    (pos : Nat)
    (rest : List Char) :
    scanItem pos c rest = .good 1 .operator := by
  have start : isIdentStart c = false := by
    rcases mark with rfl | rfl <;> decide
  rcases mark with rfl | rfl <;>
    simp [scanItem, isSpace, opening?_eq_none, Literal.isQuote, Literal.isRawLetter,
      Literal.isBytesLetter, start, scanSymbol, operators, List.find?, List.isPrefixOf,
      Char.isDigit]

/-- A punctuation mark is a token. -/
theorem scanFrom_punctuation
    {c : Char}
    (mark : c ∈ punctuation)
    (pos : Nat)
    (rest : List Char) :
    scanFrom pos 0 (c :: rest) = (scanFrom (pos + 1) 0 rest).cons .punctuation [c] pos :=
  scanFrom_good [] (scanItem_punctuation mark pos rest)

/-- A colon or a minus sign is a token. -/
theorem scanFrom_operator
    {c : Char}
    (mark : c = ':' ∨ c = '-')
    (pos : Nat)
    (rest : List Char) :
    scanFrom pos 0 (c :: rest) = (scanFrom (pos + 1) 0 rest).cons .operator [c] pos :=
  scanFrom_good [] (scanItem_operator mark pos rest)

/-! ### Where expressions end -/

/-- The marks that may follow a whole expression. -/
def delimiters : List Char := [',', ':', ')', ']', '\x7d']

/-- The text ends, or goes on with a mark that may follow a whole expression. -/
def Delimited (rest : List Char) : Prop :=
  ∀ c ∈ rest.head?, c ∈ delimiters

theorem delimited_nil : Delimited [] := by
  simp [Delimited]

theorem delimited_cons
    {c : Char}
    (mark : c ∈ delimiters)
    (rest : List Char) :
    Delimited (c :: rest) := by
  simpa [Delimited] using mark

/-- A delimiter ends a run of characters if it is not of their class. -/
theorem Delimited.boundary
    {rest : List Char} {p : Char → Bool}
    (delimited : Delimited rest)
    (excluded : ∀ c ∈ delimiters, p c = false) :
    ∀ c ∈ rest.head?, p c = false :=
  fun c member => excluded c (delimited c member)

/-- The first token after an expression is none that would go on with it. -/
theorem Delimited.isSymbol
    {rest : List Char}
    (delimited : Delimited rest)
    (text : String)
    (excluded : ∀ c ∈ delimiters, String.ofList [c] ≠ text)
    (pos : Nat) :
    ∀ t ∈ (scanFrom pos 0 rest).tokens.head?, t.isSymbol text = false := by
  cases rest with
  | nil => simp [scanFrom]
  | cons c rest =>
      have mark : c ∈ delimiters := delimited c rfl
      have differs := excluded c mark
      simp only [delimiters, List.mem_cons, List.not_mem_nil, or_false] at mark
      rcases mark with rfl | rfl | rfl | rfl | rfl
      · rw [scanFrom_punctuation (by decide)]
        simpa [Token.isSymbol] using differs
      · rw [scanFrom_operator (.inl rfl)]
        simpa [Token.isSymbol] using differs
      all_goals
        rw [scanFrom_punctuation (by decide)]
        simpa [Token.isSymbol] using differs

/-! ### Words -/

theorem isIdentPart_of_isIdentStart
    {c : Char}
    (start : isIdentStart c = true) :
    isIdentPart c = true := by
  simp only [isIdentStart, isIdentPart, Char.isAlphanum, Bool.or_eq_true] at start ⊢
  rcases start with letter | underscore
  · exact .inl (.inl letter)
  · exact .inr underscore

theorem isQuote_of_isIdentPart
    {c : Char}
    (part : isIdentPart c = true) :
    Literal.isQuote c = false := by
  rw [Literal.isQuote, Bool.or_eq_false_iff]
  constructor <;> rw [beq_eq_false_iff_ne] <;> rintro rfl <;> revert part <;> decide

theorem isIdentPart_of_isRawLetter
    {c : Char}
    (letter : Literal.isRawLetter c = true) :
    isIdentPart c = true := by
  simp only [Literal.isRawLetter, Bool.or_eq_true, beq_iff_eq] at letter
  rcases letter with rfl | rfl <;> decide

theorem isIdentPart_of_isBytesLetter
    {c : Char}
    (letter : Literal.isBytesLetter c = true) :
    isIdentPart c = true := by
  simp only [Literal.isBytesLetter, Bool.or_eq_true, beq_iff_eq] at letter
  rcases letter with rfl | rfl <;> decide

/-- What may follow a word: neither one of its characters nor a quote. -/
def EndsWord (rest : List Char) : Prop :=
  ∀ c ∈ rest.head?, (isIdentPart c || Literal.isQuote c) = false

theorem Delimited.endsWord
    {rest : List Char}
    (delimited : Delimited rest) :
    EndsWord rest :=
  delimited.boundary (by decide)

/-- A word that no quote follows opens no string. -/
theorem opening?_word
    {c : Char} {cs rest : List Char}
    (parts : ∀ d ∈ c :: cs, isIdentPart d = true)
    (ends : EndsWord rest) :
    Literal.opening? (c :: cs ++ rest) = none := by
  have noQuote : ∀ d ∈ c :: cs, Literal.isQuote d = false :=
    fun d member => isQuote_of_isIdentPart (parts d member)
  have after : ∀ d ∈ rest.head?, Literal.isQuote d = false ∧
      Literal.isRawLetter d = false ∧ Literal.isBytesLetter d = false := by
    intro d member
    obtain ⟨noPart, noQuote⟩ := Bool.or_eq_false_iff.mp (ends d member)
    refine ⟨noQuote, ?_, ?_⟩ <;> rw [← Bool.not_eq_true] <;> intro letter
    · simp [isIdentPart_of_isRawLetter letter] at noPart
    · simp [isIdentPart_of_isBytesLetter letter] at noPart
  have first := noQuote c (by simp)
  match cs, rest with
  | [], [] => simp [Literal.opening?, first]
  | [], [a] => simp [Literal.opening?, first, after a rfl]
  | [], a :: b :: rest => simp [Literal.opening?, first, after a rfl]
  | [a], [] => simp [Literal.opening?, first, noQuote a (by simp)]
  | [a], b :: rest => simp [Literal.opening?, first, noQuote a (by simp), after b rfl]
  | a :: b :: cs, rest =>
      simp [Literal.opening?, first, noQuote a (by simp), noQuote b (by simp)]

/-- Neither blanks nor digits nor the start of a comment begin a word. -/
theorem not_isSpace_of_isIdentStart
    {c : Char}
    (start : isIdentStart c = true) :
    isSpace c = false ∧ c ≠ '/' ∧ c.isDigit = false := by
  refine ⟨?_, ?_, ?_⟩
  · simp only [isSpace, Bool.or_eq_false_iff, beq_eq_false_iff_ne]
    refine ⟨⟨⟨⟨?_, ?_⟩, ?_⟩, ?_⟩, ?_⟩ <;> rintro rfl <;> revert start <;> decide
  · rintro rfl
    revert start
    decide
  · rw [← Bool.not_eq_true]
    intro digit
    have letter : (decide (c.val ≥ 'A'.val ∧ c.val ≤ 'Z'.val) ||
        (c.val ≥ 'a'.val && c.val ≤ 'z'.val) || c == '_') = true := start
    simp only [Bool.or_eq_true, Bool.and_eq_true, decide_eq_true_eq, beq_iff_eq] at letter
    simp only [Char.isDigit, Bool.and_eq_true, decide_eq_true_eq] at digit
    rcases letter with (upper | lower) | rfl
    · grind
    · grind
    · revert digit
      decide

/-- A word is a token of its kind. -/
theorem scanFrom_word
    {c : Char} {cs rest : List Char}
    (start : isIdentStart c = true)
    (parts : ∀ d ∈ cs, isIdentPart d = true)
    (ends : EndsWord rest)
    (pos : Nat) :
    scanFrom pos 0 (c :: cs ++ rest) =
      (scanFrom (pos + (c :: cs).length) 0 rest).cons (wordKind (c :: cs)) (c :: cs) pos := by
  have all : ∀ d ∈ c :: cs, isIdentPart d = true := by
    intro d member
    rcases List.mem_cons.mp member with rfl | member
    · exact isIdentPart_of_isIdentStart start
    · exact parts d member
  have word : (c :: (cs ++ rest)).takeWhile isIdentPart = c :: cs :=
    Text.takeWhile_run all fun d member => (Bool.or_eq_false_iff.mp (ends d member)).1
  have plain : Literal.opening? (c :: (cs ++ rest)) = none := opening?_word all ends
  obtain ⟨noSpace, noSlash, noDigit⟩ := not_isSpace_of_isIdentStart start
  refine scanFrom_good _ ?_
  simp [scanItem, noSpace, noSlash, noDigit, plain, start, word]

/-! ### Numbers -/

/-- A digit at the front decides for a number. -/
theorem scanItem_digit
    {c : Char}
    (digit : c.isDigit = true)
    (pos : Nat)
    (rest : List Char) :
    scanItem pos c rest = Literal.scanNumber pos (c :: rest) := by
  have noSpace : isSpace c = false := by
    simp only [isSpace, Bool.or_eq_false_iff, beq_eq_false_iff_ne]
    refine ⟨⟨⟨⟨?_, ?_⟩, ?_⟩, ?_⟩, ?_⟩ <;> rintro rfl <;> revert digit <;> decide
  have noSlash : c ≠ '/' := by
    rintro rfl
    revert digit
    decide
  simp [scanItem, noSpace, noSlash, digit]

/-- A number is decimal unless its second character is the mark of a hexadecimal one. -/
theorem scanNumber_eq_scanDecimal
    {c : Char} {rest : List Char}
    (noMark : ∀ x ∈ rest.head?, x ≠ 'x' ∧ x ≠ 'X')
    (pos : Nat) :
    Literal.scanNumber pos (c :: rest) = Literal.scanDecimal pos (c :: rest) := by
  cases rest with
  | nil => simp [Literal.scanNumber]
  | cons x rest =>
      obtain ⟨lower, upper⟩ := noMark x rfl
      by_cases zero : c = '0'
      · subst zero
        simp [Literal.scanNumber, lower, upper]
      · simp [Literal.scanNumber, zero]

theorem fractionLength_eq_zero
    {rest : List Char}
    (noPoint : ∀ c ∈ rest.head?, c ≠ '.') :
    Literal.fractionLength rest = 0 := by
  match rest with
  | [] => rfl
  | c :: rest => simp [Literal.fractionLength, noPoint c rfl]

/-- What may follow a run of digits for it to be an integer: nothing that a number goes on with. -/
structure EndsInteger (rest : List Char) : Prop where
  noMark : ∀ c ∈ rest.head?, (c.isDigit || ['e', 'E', 'x', 'X'].contains c) = false
  noFraction : Literal.fractionLength rest = 0

theorem EndsInteger.head
    {rest : List Char}
    (ends : EndsInteger rest) :
    ∀ c ∈ rest.head?, c.isDigit = false ∧ c ≠ 'e' ∧ c ≠ 'E' ∧ c ≠ 'x' ∧ c ≠ 'X' := by
  intro c member
  have h := ends.noMark c member
  simpa using h

/-- What may follow a number and a word: neither goes on, and no quote comes next. -/
structure Ends (rest : List Char) : Prop where
  word : EndsWord rest
  noFraction : Literal.fractionLength rest = 0

theorem Delimited.ends
    {rest : List Char}
    (delimited : Delimited rest) :
    Ends rest where
  word := delimited.endsWord
  noFraction := fractionLength_eq_zero fun c member => by
    simpa using delimited.boundary (p := (· == '.')) (by decide) c member

theorem ends_nil : Ends [] :=
  delimited_nil.ends

/-- What ends a word does not begin with any of its characters. -/
theorem EndsWord.excludes
    {rest : List Char} {p : Char → Bool}
    (ends : EndsWord rest)
    (parts : ∀ c, p c = true → isIdentPart c = true) :
    ∀ c ∈ rest.head?, p c = false := by
  intro c member
  have outside := (Bool.or_eq_false_iff.mp (ends c member)).1
  rw [← Bool.not_eq_true]
  intro inside
  simp [parts c inside] at outside

theorem isIdentPart_of_isDigit
    {c : Char}
    (digit : c.isDigit = true) :
    isIdentPart c = true := by
  simp [isIdentPart, Char.isAlphanum, digit]

theorem Ends.endsInteger
    {rest : List Char}
    (ends : Ends rest) :
    EndsInteger rest where
  noMark := by
    refine ends.word.excludes fun c inside => ?_
    rcases Bool.or_eq_true_iff.mp inside with digit | mark
    · exact isIdentPart_of_isDigit digit
    · simp only [List.contains_cons, List.contains_nil, Bool.or_false, Bool.or_eq_true,
        beq_iff_eq] at mark
      rcases mark with rfl | rfl | rfl | rfl <;> decide
  noFraction := ends.noFraction

theorem exponentLength_eq_zero
    {rest : List Char}
    (noMark : ∀ c ∈ rest.head?, c ≠ 'e' ∧ c ≠ 'E') :
    Literal.exponentLength rest = 0 := by
  match rest with
  | [] => rfl
  | c :: rest => simp [Literal.exponentLength, noMark c rfl]

/-- A run of digits is an integer, signed or not. -/
theorem scanDecimal_digits
    {digits rest : List Char}
    (allDigits : ∀ c ∈ digits, c.isDigit = true)
    (short : digits.length ≤ Number.integerDigitLimit)
    (ends : EndsInteger rest)
    (pos : Nat) :
    Literal.scanDecimal pos (digits ++ rest) =
      Literal.integerItem digits.length (Number.digitsValue digits) rest := by
  have run : (digits ++ rest).takeWhile Char.isDigit = digits :=
    Text.takeWhile_run allDigits fun c member => (ends.head c member).1
  have noExponent := exponentLength_eq_zero fun c member =>
    ⟨(ends.head c member).2.1, (ends.head c member).2.2.1⟩
  simp only [Literal.scanDecimal, run, List.drop_left, ends.noFraction, noExponent, Nat.add_zero,
    List.take_left]
  rw [if_neg (by decide), if_neg (by omega)]

/-- The digits of a number in the range of unsigned integers are few enough to be read. -/
theorem length_natText_le
    {n : Nat}
    (inRange : n ≤ 18446744073709551615) :
    (Nat.toDigits 10 n).length ≤ Number.integerDigitLimit := by
  have short : (Nat.toDigits 10 n).length ≤ 20 :=
    Number.length_toDigits_le (by decide) (by decide) (by omega)
  exact Nat.le_trans short (by decide)

theorem scanItem_natText
    {n : Nat} {c : Char} {cs rest : List Char}
    (text : Nat.toDigits 10 n = c :: cs)
    (inRange : n ≤ 18446744073709551615)
    (ends : EndsInteger rest)
    (pos : Nat) :
    scanItem pos c (cs ++ rest) = Literal.integerItem (cs.length + 1) n rest := by
  have allDigits : ∀ d ∈ c :: cs, d.isDigit = true :=
    fun d member => Number.isDigit_of_mem_toDigits (text ▸ member)
  have noMark : ∀ x ∈ (cs ++ rest).head?, x ≠ 'x' ∧ x ≠ 'X' := by
    intro x member
    cases cs with
    | nil => exact (ends.head x member).2.2.2
    | cons d cs =>
        obtain rfl : d = x := by simpa using member
        have digit := allDigits d (by simp)
        constructor <;> rintro rfl <;> revert digit <;> decide
  rw [scanItem_digit (allDigits c (by simp)), scanNumber_eq_scanDecimal noMark, ← List.cons_append,
    scanDecimal_digits allDigits (text ▸ length_natText_le inRange) ends, ← text,
    Number.digitsValue_toDigits, text, List.length_cons]

/-- A natural number reads as that number. -/
theorem scanFrom_int
    {n : Nat} {rest : List Char}
    (inRange : n ≤ 18446744073709551615)
    (ends : Ends rest)
    (pos : Nat) :
    scanFrom pos 0 (Nat.toDigits 10 n ++ rest) =
      (scanFrom (pos + (Nat.toDigits 10 n).length) 0 rest).cons (.int n)
        (Nat.toDigits 10 n) pos := by
  obtain ⟨c, cs, text⟩ := List.exists_cons_of_ne_nil (Nat.toDigits_ne_nil (n := n) (b := 10))
  have unmarked : Literal.hasUnsignedMark rest = false := by
    cases rest with
    | nil => rfl
    | cons c rest =>
        refine ends.word.excludes (p := fun c => c == 'u' || c == 'U') (fun c mark => ?_) c rfl
        rcases Bool.or_eq_true_iff.mp mark with mark | mark <;>
          rw [beq_iff_eq.mp mark] <;> decide
  rw [text]
  refine scanFrom_good _ ?_
  rw [scanItem_natText text inRange ends.endsInteger, Literal.integerItem, unmarked]
  rfl

/-- A natural number with the mark of unsigned integers reads as that unsigned integer. -/
theorem scanFrom_uint
    {n : Nat}
    (inRange : n ≤ 18446744073709551615)
    (rest : List Char)
    (pos : Nat) :
    scanFrom pos 0 (Nat.toDigits 10 n ++ ['u'] ++ rest) =
      (scanFrom (pos + (Nat.toDigits 10 n ++ ['u']).length) 0 rest).cons (.uint n)
        (Nat.toDigits 10 n ++ ['u']) pos := by
  obtain ⟨c, cs, text⟩ := List.exists_cons_of_ne_nil (Nat.toDigits_ne_nil (n := n) (b := 10))
  have ends : EndsInteger ('u' :: rest) := ⟨by simp, by simp [Literal.fractionLength]⟩
  rw [text]
  refine scanFrom_good (cs ++ ['u']) ?_
  rw [List.append_assoc]
  refine (scanItem_natText text inRange ends pos).trans ?_
  simp [Literal.integerItem, Literal.hasUnsignedMark]

end Lexer
end ExprLang
