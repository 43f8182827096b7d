import Mathlib.Data.List.Induction
import Mathlib.Data.Nat.Digits.Defs
import ExprLang.Proofs.Quotation

/-!
# Escapes denote what they say

A literal is a sequence of segments, each an ordinary character or an escape.  Whatever the letters
in front of it and the quotes around it, it is one token, and its value is what the segments denote,
one after another.  A raw literal denotes its text.

* `numeral_append`: the number of a sequence of digits, digit by digit.
* `Segment.Valid.standsFor`: one segment.
* `tokenize_literals`: whole literals.
-/

namespace ExprLang
namespace Literal

/-! ### Segments and what they denote -/

/-- The digits of base sixteen in the order of their values; the first eight are those of base
eight. -/
def hexDigits : List Char := "0123456789abcdef".toList

/-- The digits of base sixteen, small and capital. -/
def allHexDigits : List Char := hexDigits ++ hexDigits.map Char.toUpper

/-- The number of a sequence of digits. -/
def numeral (base : Nat) (digits : List Char) : Nat :=
  Nat.ofDigits base (digits.reverse.map fun d => hexDigits.idxOf d.toLower)

/-- The characters that stand for themselves after a backslash. -/
def selfEscapes : List Char := ['\\', '"', '\'', '\x60', '?']

/-- The letters that stand for control characters after a backslash, with their code points. -/
def controls : List (Char × Nat) :=
  [('a', 7), ('b', 8), ('f', 12), ('n', 10), ('r', 13), ('t', 9), ('v', 11)]

/-- The letters of hexadecimal escapes and the digits that they ask for. -/
def hexWidths : List (Char × Nat) := [('x', 2), ('X', 2), ('u', 4), ('U', 8)]

/-- A segment of a literal. -/
inductive Segment where
  | plain (c : Char)
  | same (c : Char)
  | control (letter : Char) (code : Nat)
  | hex (letter : Char) (digits : List Char)
  | octal (digits : List Char)

/-- Whether a character stands for itself between delimiters: it is no backslash and no quote, and
no newline between single quotes. -/
def Ordinary (delim : List Char) (c : Char) : Prop :=
  c ≠ '\\' ∧ c ∉ delim ∧ (delim.length = 1 → c ≠ '\n')

instance (delim : List Char) (c : Char) : Decidable (Ordinary delim c) :=
  inferInstanceAs (Decidable (_ ∧ _ ∧ _))

namespace Segment

/-- The text of a segment. -/
def text : Segment → List Char
  | plain c => [c]
  | same c => ['\\', c]
  | control letter _ => ['\\', letter]
  | hex letter digits => '\\' :: letter :: digits
  | octal digits => '\\' :: digits

/-- Whether a segment can stand between delimiters and denotes a character. -/
def Valid (delim : List Char) : Segment → Prop
  | plain c => Ordinary delim c
  | same c => c ∈ selfEscapes
  | control letter code => (letter, code) ∈ controls
  | hex letter digits =>
      (letter, digits.length) ∈ hexWidths ∧ (∀ d ∈ digits, d ∈ allHexDigits) ∧
        (numeral 16 digits).isValidChar
  | octal digits =>
      digits.length = 3 ∧ (∀ d ∈ digits, d ∈ hexDigits.take 8) ∧ numeral 8 digits ≤ 255

instance (delim : List Char) (s : Segment) : Decidable (s.Valid delim) :=
  match s with
  | plain c => inferInstanceAs (Decidable (Ordinary delim c))
  | same c => inferInstanceAs (Decidable (c ∈ selfEscapes))
  | control letter code => inferInstanceAs (Decidable ((letter, code) ∈ controls))
  | hex _ _ => inferInstanceAs (Decidable (_ ∧ _ ∧ _))
  | octal _ => inferInstanceAs (Decidable (_ ∧ _ ∧ _))

/-- The character that a segment denotes. -/
def char : Segment → Char
  | plain c => c
  | same c => c
  | control _ code => Char.ofNat code
  | hex _ digits => Char.ofNat (numeral 16 digits)
  | octal digits => Char.ofNat (numeral 8 digits)

/-- The octets that a segment denotes: short escapes give one octet, all else is encoded. -/
def octets : Segment → List UInt8
  | hex letter digits =>
      if digits.length = 2 then [(numeral 16 digits).toUInt8]
      else String.utf8EncodeChar (hex letter digits).char
  | octal digits => [(numeral 8 digits).toUInt8]
  | s => String.utf8EncodeChar s.char

/-- The piece that a segment is read as. -/
def piece (isBytes : Bool) : Segment → Piece
  | hex letter digits =>
      if isBytes ∧ digits.length = 2 then .octet (numeral 16 digits).toUInt8
      else .char (hex letter digits).char
  | octal digits =>
      if isBytes then .octet (numeral 8 digits).toUInt8 else .char (octal digits).char
  | s => .char s.char

end Segment

/-! ### Numbers of digits -/

theorem numeral_append
    (base : Nat)
    (digits : List Char)
    (d : Char) :
    numeral base (digits ++ [d]) = base * numeral base digits + hexDigits.idxOf d.toLower := by
  simp [numeral, Nat.ofDigits_cons, Nat.add_comm]

theorem hexValue?_of_mem :
    ∀ d ∈ allHexDigits, Number.hexValue? d = some (hexDigits.idxOf d.toLower) := by
  decide

theorem hexValue_eq_numeral
    {digits : List Char}
    (allDigits : ∀ d ∈ digits, d ∈ allHexDigits) :
    Number.hexValue digits = numeral 16 digits := by
  induction digits using List.reverseRecOn with
  | nil => rfl
  | append_singleton digits d ih =>
      rw [Number.hexValue_append_digit, numeral_append,
        ih fun e member => allDigits e (by simp [member]),
        hexValue?_of_mem d (allDigits d (by simp))]
      rfl

theorem octalValue_eq_numeral
    {digits : List Char}
    (allDigits : ∀ d ∈ digits, d ∈ hexDigits.take 8) :
    Number.octalValue digits = numeral 8 digits := by
  have value : ∀ d ∈ hexDigits.take 8, d.toNat - '0'.toNat = hexDigits.idxOf d.toLower := by decide
  induction digits using List.reverseRecOn with
  | nil => rfl
  | append_singleton digits d ih =>
      rw [numeral_append, ← ih fun e member => allDigits e (by simp [member]),
        ← value d (allDigits d (by simp))]
      simp [Number.octalValue, Nat.ofDigitChars_append, Nat.ofDigitChars_cons]

/-! ### Segments one by one -/

section Reading

variable {delim : List Char}

theorem simpleEscape?_of_mem :
    (∀ c ∈ selfEscapes, simpleEscape? c = some c) ∧
      ∀ p ∈ controls, simpleEscape? p.1 = some (Char.ofNat p.2) := by
  decide

theorem escapeWidth?_of_mem :
    ∀ p ∈ hexWidths, simpleEscape? p.1 = none ∧ escapeWidth? p.1 = some p.2 := by
  decide

theorem escapeWidth?_of_octal :
    ∀ d ∈ hexDigits.take 8,
      simpleEscape? d = none ∧ escapeWidth? d = none ∧ isOctalDigit d = true := by
  decide

/-- A hexadecimal escape is read as its number, which is one octet if it is short. -/
theorem scanEscape_hex
    {letter : Char} {digits : List Char}
    (valid : (Segment.hex letter digits).Valid delim)
    (isBytes : Bool)
    (rest : List Char) :
    scanEscape isBytes (letter :: digits ++ rest) =
      ⟨(letter :: digits).length, .ok ((Segment.hex letter digits).piece isBytes)⟩ := by
  obtain ⟨wide, allDigits, code⟩ := valid
  obtain ⟨noLetter, width⟩ := escapeWidth?_of_mem _ wide
  have isHex : ∀ d ∈ digits, Number.isHexDigit d = true := by
    intro d member
    rw [Number.isHexDigit, hexValue?_of_mem d (allDigits d member)]
    rfl
  rw [List.cons_append, scanEscape]
  simp only [noLetter, width]
  rw [hexEscape_digits isHex, hexValue_eq_numeral allDigits, isCodePoint_iff.mpr code]
  simp only [Segment.piece, Segment.char, List.length_cons, Nat.add_comm 1]
  split <;> simp

/-- An octal escape is read as its number, which is one octet. -/
theorem scanEscape_octal
    {digits : List Char}
    (valid : (Segment.octal digits).Valid delim)
    (isBytes : Bool)
    (rest : List Char) :
    scanEscape isBytes (digits ++ rest) =
      ⟨digits.length, .ok ((Segment.octal digits).piece isBytes)⟩ := by
  obtain ⟨three, allDigits, small⟩ := valid
  have taken : (digits ++ rest).take 3 = digits := List.take_left' three
  have octal : digits.all isOctalDigit = true :=
    List.all_eq_true.mpr fun d member => (escapeWidth?_of_octal d (allDigits d member)).2.2
  obtain ⟨d, more, rfl⟩ := List.exists_cons_of_ne_nil (List.ne_nil_of_length_eq_add_one three)
  obtain ⟨noLetter, noWidth, first⟩ := escapeWidth?_of_octal d (allDigits d (by simp))
  rw [List.cons_append] at taken ⊢
  rw [scanEscape]
  simp only [noLetter, noWidth, first, if_true]
  rw [octalEscape, taken, octalValue_eq_numeral allDigits, if_neg (by simp [three, octal, small]),
    three]
  cases isBytes <;> rfl

/-- A segment stands for the piece that it is to be read as. -/
theorem Segment.Valid.standsFor
    {s : Segment}
    (valid : s.Valid delim)
    (noBackslash : '\\' ∉ delim)
    (nonempty : delim ≠ [])
    (isBytes : Bool)
    (start : Nat) :
    StandsFor delim false isBytes start s.text (s.piece isBytes) := by
  cases s with
  | plain c =>
      obtain ⟨notBackslash, apart, sameLine⟩ := valid
      exact standsFor_plain apart nonempty sameLine fun backslash => absurd backslash notBackslash
  | same c =>
      exact standsFor_escape [c] noBackslash nonempty
        (scanEscape_letter (simpleEscape?_of_mem.1 c valid) isBytes)
  | control letter code =>
      exact standsFor_escape [letter] noBackslash nonempty
        (scanEscape_letter (simpleEscape?_of_mem.2 _ valid) isBytes)
  | hex letter digits =>
      exact standsFor_escape (letter :: digits) noBackslash nonempty (scanEscape_hex valid isBytes)
  | octal digits =>
      exact standsFor_escape digits noBackslash nonempty (scanEscape_octal valid isBytes)

/-- A segment does not begin with a quote. -/
theorem Segment.Valid.head?_text
    {s : Segment} {quote : Char}
    (valid : s.Valid delim)
    (noBackslash : '\\' ∉ delim)
    (encloses : quote ∈ delim) :
    s.text.head? ≠ some quote ∧ s.text ≠ [] := by
  have notBackslash : '\\' ≠ quote := by
    rintro rfl
    exact noBackslash encloses
  cases s with
  | plain c =>
      refine ⟨fun begins => ?_, by simp [text]⟩
      obtain rfl : c = quote := by simpa [text] using begins
      exact valid.2.1 encloses
  | same c => simpa [text] using notBackslash
  | control letter code => simpa [text] using notBackslash
  | hex letter digits => simpa [text] using notBackslash
  | octal digits => simpa [text] using notBackslash

/-- The pieces of segments are worth what the segments denote. -/
theorem pieceKind_segments
    (isBytes : Bool)
    (segments : List Segment) :
    pieceKind isBytes (segments.map (Segment.piece isBytes)) =
      if isBytes then .bytes (segments.flatMap Segment.octets)
      else .string (String.ofList (segments.map Segment.char)) := by
  have chars : textOf (segments.map (Segment.piece false)) = segments.map Segment.char := by
    rw [textOf, List.map_map]
    refine List.map_congr_left fun s _ => ?_
    cases s <;> simp [Segment.piece, Segment.char]
  have encoded : octetsOf (segments.map (Segment.piece true)) =
      segments.flatMap Segment.octets := by
    rw [octetsOf, List.flatMap_map]
    congr 1
    funext s
    cases s with
    | hex letter digits =>
        by_cases short : digits.length = 2 <;>
          simp [Segment.piece, Segment.octets, short, Text.Utf8.encodeChar]
    | _ => rfl
  cases isBytes
  · simp [pieceKind, chars]
  · simp [pieceKind, encoded]

end Reading

/-! ### Whole literals -/

/-- What may enclose a string: one quote or three. -/
def enclosures : List (List Char) :=
  [['\''], ['"'], ['\'', '\'', '\''], ['"', '"', '"']]

/-- The text of a literal. -/
def literal (letters delim body : List Char) : List Char :=
  letters ++ (delim ++ (body ++ delim))

/-- Whether a text is read as one token of the given kind, which spans it, and nothing else. -/
def IsOneToken (source : List Char) (kind : TokenKind) : Prop :=
  tokenize source =
    ([⟨kind, String.ofList source, ⟨0, source.length⟩⟩, .endOfInput source.length], [])

/-- What is read between delimiters. -/
structure ReadsLiterals (delim : List Char) : Prop where
  escaped : ∀ letters isBytes (segments : List Segment), (letters, isBytes, false) ∈ prefixes →
    (∀ s ∈ segments, s.Valid delim) →
    IsOneToken (literal letters delim (segments.flatMap Segment.text))
      (if isBytes then .bytes (segments.flatMap Segment.octets)
        else .string (String.ofList (segments.map Segment.char)))
  raw : ∀ letters isBytes (text : List Char), (letters, isBytes, true) ∈ prefixes →
    (∀ c ∈ text, c = '\\' ∨ Ordinary delim c) →
    IsOneToken (literal letters delim text)
      (if isBytes then .bytes (text.flatMap String.utf8EncodeChar)
        else .string (String.ofList text))

theorem exists_quote
    {delim : List Char}
    (listed : delim ∈ enclosures) :
    ∃ quote, (quote = '\'' ∨ quote = '"') ∧ (delim = [quote] ∨ delim = List.replicate 3 quote) := by
  simp only [enclosures, List.mem_cons, List.not_mem_nil, or_false] at listed
  rcases listed with rfl | rfl | rfl | rfl
  · exact ⟨'\'', .inl rfl, .inl rfl⟩
  · exact ⟨'"', .inr rfl, .inl rfl⟩
  · exact ⟨'\'', .inl rfl, .inr rfl⟩
  · exact ⟨'"', .inr rfl, .inr rfl⟩

/-- Nothing that encloses a string is empty or holds a backslash or a newline. -/
theorem enclosures_apart :
    ∀ delim ∈ enclosures, delim ≠ [] ∧ '\\' ∉ delim ∧ '\n' ∉ delim := by
  decide

/-- A literal whose body is read as its pieces is the only token of its text. -/
theorem isOneToken_literal
    {letters delim body : List Char} {isBytes raw : Bool} {pieces : List Piece}
    (listed : (letters, isBytes, raw) ∈ prefixes)
    (encloses : delim ∈ enclosures)
    (apart : ∀ quote ∈ delim, quote ∉ body.head?)
    (reads : ∀ pos, scanBody delim raw isBytes 0 pos 0 (body ++ (delim ++ [])) =
      ⟨body.length + delim.length, pieces, []⟩) :
    IsOneToken (literal letters delim body) (pieceKind isBytes pieces) := by
  obtain ⟨quote, isQuote, shape⟩ := exists_quote encloses
  have inside : quote ∈ delim := by
    rcases shape with rfl | rfl <;> simp
  have scanned := Lexer.scanFrom_literal listed isQuote shape (apart quote inside) (by simp) reads
  rw [List.append_nil] at scanned
  rw [IsOneToken, tokenize, Lexer.scan, literal, scanned]
  simp [Lexer.scanFrom]

/-- Between delimiters, escapes denote what they say, and raw text denotes itself. -/
theorem tokenize_literals
    {delim : List Char}
    (encloses : delim ∈ enclosures) :
    ReadsLiterals delim := by
  obtain ⟨nonempty, noBackslash, noNewline⟩ := enclosures_apart delim encloses
  constructor
  case escaped =>
    intro letters isBytes segments listed valid
    rw [← pieceKind_segments]
    refine isOneToken_literal listed encloses (fun quote inside => ?_) fun pos => ?_
    · exact Lexer.head?_flatMap fun s member => (valid s member).head?_text noBackslash inside
    · exact scanBody_flatMap
        (fun s member => (valid s member).standsFor noBackslash nonempty isBytes 0)
        nonempty noNewline pos []
  case raw =>
    intro letters isBytes text listed allowed
    have plain : ∀ c ∈ text, StandsFor delim true isBytes 0 [c] (.char c) := by
      intro c member
      rcases allowed c member with rfl | ⟨-, apart, sameLine⟩
      · exact standsFor_plain noBackslash nonempty (fun _ => by decide) fun _ => rfl
      · exact standsFor_plain apart nonempty sameLine fun _ => rfl
    have kind : pieceKind isBytes (text.map .char) =
        if isBytes then .bytes (text.flatMap String.utf8EncodeChar)
        else .string (String.ofList text) := by
      rw [pieceKind, textOf_map_char, octetsOf, List.flatMap_map]
      rfl
    have shown : text.flatMap (fun c => [c]) = text := List.flatMap_singleton' text
    rw [← kind]
    refine isOneToken_literal listed encloses (fun quote inside begins => ?_) fun pos => ?_
    · rcases allowed quote (List.mem_of_mem_head? begins) with rfl | ordinary
      · exact noBackslash inside
      · exact ordinary.2.1 inside
    · have reads := scanBody_flatMap plain nonempty noNewline pos []
      rwa [shown] at reads

/-- Octets between three quotes, where short escapes give one octet and the same character as a
long escape has two, and a raw string, which keeps its backslashes. -/
theorem tokenize_literals_tripleQuotes :
    tokenize "b\"\"\"\\xE9\\u00e9\\377\\n'\"\"\"".toList =
        ([⟨.bytes [233, 195, 169, 255, 10, 39], "b\"\"\"\\xE9\\u00e9\\377\\n'\"\"\"", ⟨0, 24⟩⟩,
          .endOfInput 24], []) ∧
      tokenize "r\"\"\"\\d\\\"\"\"".toList =
        ([⟨.string "\\d\\", "r\"\"\"\\d\\\"\"\"", ⟨0, 10⟩⟩, .endOfInput 10], []) := by
  have encloses : ['"', '"', '"'] ∈ enclosures := by decide
  have escaped := (tokenize_literals encloses).escaped ['b'] true
    [.hex 'x' ['E', '9'], .hex 'u' ['0', '0', 'e', '9'], .octal ['3', '7', '7'], .control 'n' 10,
      .plain '\''] (by decide) (by decide)
  have raw := (tokenize_literals encloses).raw ['r'] false ['\\', 'd', '\\'] (by decide) (by decide)
  exact ⟨escaped, raw⟩

end Literal
end ExprLang
