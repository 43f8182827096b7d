import Mathlib.Tactic.Choose
import ExprLang.Proofs.Scanning
import ExprLang.Value.Printer

/-!
# Quoted text reads back

A string or octets that the printer puts between double quotes is one token, which denotes what was
quoted.  Escapes are read back one character at a time.

* `standsFor_plain`, `standsFor_escape`: one character or one escape within a literal.
* `standsFor_quoteChar`, `standsFor_quoteOctet`: one character, one octet as the printer writes it.
* `scanFrom_literal`: a literal of any prefix and delimiter is one token.
* `scanFrom_quote`, `scanFrom_quoteOctets`: what the printer writes.
-/

namespace ExprLang
namespace Literal

open Printer (quoteChar quoteOctet letterEscape?)
open Text.Quoted (hex numericEscape length_hex hexValue_hex isHexDigit_of_mem_hex)

/-! ### The parts of a literal -/

/-- The letters in front of a string, whether they make it a string of octets, and whether they
make it raw. -/
def prefixes : List (List Char × Bool × Bool) := [
  ([], false, false), (['b'], true, false), (['B'], true, false),
  (['r'], false, true), (['R'], false, true),
  (['b', 'r'], true, true), (['b', 'R'], true, true), (['B', 'r'], true, true),
  (['B', 'R'], true, true), (['r', 'b'], true, true), (['r', 'B'], true, true),
  (['R', 'b'], true, true), (['R', 'B'], true, true)]

/-- The kind of a string or of octets with the given pieces. -/
def pieceKind (isBytes : Bool) (pieces : List Piece) : TokenKind :=
  if isBytes then .bytes (octetsOf pieces) else .string (String.ofList (textOf pieces))

/-! ### Steps through the body of a literal -/

/-- A body that begins with one more piece, for which `length` characters stand. -/
def Body.prepend (piece : Piece) (length : Nat) (later : Body) : Body :=
  ⟨later.length + length, piece :: later.pieces, later.errors⟩

/-- Whether a text in the body of a literal stands for a piece, whatever follows it. -/
def StandsFor
    (delim : List Char)
    (raw isBytes : Bool)
    (start : Nat)
    (text : List Char)
    (piece : Piece) : Prop :=
  ∀ pos rest, scanBody delim raw isBytes start pos 0 (text ++ rest) =
    (scanBody delim raw isBytes start (pos + text.length) 0 rest).prepend piece text.length

section Steps

variable {delim : List Char} {raw isBytes : Bool} {start : Nat}

/-- What is left of an escape is passed over. -/
theorem scanBody_skip
    (pos : Nat)
    (passed rest : List Char) :
    scanBody delim raw isBytes start pos passed.length (passed ++ rest) =
      { scanBody delim raw isBytes start (pos + passed.length) 0 rest with
        length := (scanBody delim raw isBytes start (pos + passed.length) 0 rest).length +
          passed.length } := by
  induction passed generalizing pos with
  | nil => rfl
  | cons c passed ih =>
      rw [List.length_cons, List.cons_append, scanBody, ih, Nat.add_right_comm, Nat.add_assoc pos]
      simp only [Body.afterChar, Nat.add_assoc]

/-- What the delimiter does not begin with does not close the literal. -/
theorem isPrefixOf_eq_false
    {c : Char}
    (apart : c ∉ delim)
    (nonempty : delim ≠ [])
    (rest : List Char) :
    delim.isPrefixOf (c :: rest) = false := by
  obtain ⟨d, ds, rfl⟩ := List.exists_cons_of_ne_nil nonempty
  have differs : d ≠ c := by
    rintro rfl
    exact apart (List.mem_cons_self ..)
  simp [List.isPrefixOf, differs]

/-- A character that needs no escape stands for itself. -/
theorem standsFor_plain
    {c : Char}
    (apart : c ∉ delim)
    (nonempty : delim ≠ [])
    (sameLine : delim.length = 1 → c ≠ '\n')
    (plain : c = '\\' → raw = true) :
    StandsFor delim raw isBytes start [c] (.char c) := by
  intro pos rest
  have goesOn : ¬ (delim.length = 1 ∧ c = '\n') := fun ⟨single, newline⟩ => sameLine single newline
  have noEscape : ¬ (c = '\\' ∧ (!raw) = true) := by
    rintro ⟨backslash, cooked⟩
    simp [plain backslash] at cooked
  rw [List.singleton_append, scanBody, if_neg goesOn,
    if_neg (by simp [isPrefixOf_eq_false apart nonempty]), if_neg noEscape]
  rfl

/-- An escape stands for what it is read as. -/
theorem standsFor_escape
    {piece : Piece}
    (escaped : List Char)
    (apart : '\\' ∉ delim)
    (nonempty : delim ≠ [])
    (reads : ∀ rest, scanEscape isBytes (escaped ++ rest) = ⟨escaped.length, .ok piece⟩) :
    StandsFor delim false isBytes start ('\\' :: escaped) piece := by
  intro pos rest
  rw [List.cons_append, scanBody, if_neg (by simp),
    if_neg (by simp [isPrefixOf_eq_false apart nonempty]), if_pos (by simp)]
  simp only [reads, scanBody_skip]
  simp [Body.prepend, Nat.add_assoc, Nat.add_comm 1]

/-- A closing delimiter ends the body. -/
theorem scanBody_close
    (nonempty : delim ≠ [])
    (sameLine : '\n' ∉ delim)
    (pos : Nat)
    (rest : List Char) :
    scanBody delim raw isBytes start pos 0 (delim ++ rest) = ⟨delim.length, [], []⟩ := by
  obtain ⟨d, ds, rfl⟩ := List.exists_cons_of_ne_nil nonempty
  have noNewline : d ≠ '\n' := by
    rintro rfl
    exact sameLine (List.mem_cons_self ..)
  have closes : (d :: ds).isPrefixOf (d :: (ds ++ rest)) = true :=
    List.isPrefixOf_iff_prefix.mpr (List.prefix_append (d :: ds) rest)
  rw [List.cons_append, scanBody, if_neg (by simp [noNewline]), if_pos closes]

/-- Texts one after another stand for their pieces. -/
theorem scanBody_flatMap
    {α : Type} {items : List α} {shown : α → List Char} {piece : α → Piece}
    (stands : ∀ x ∈ items, StandsFor delim raw isBytes start (shown x) (piece x))
    (nonempty : delim ≠ [])
    (sameLine : '\n' ∉ delim)
    (pos : Nat)
    (rest : List Char) :
    scanBody delim raw isBytes start pos 0 (items.flatMap shown ++ (delim ++ rest)) =
      ⟨(items.flatMap shown).length + delim.length, items.map piece, []⟩ := by
  induction items generalizing pos with
  | nil =>
      rw [List.flatMap_nil, List.nil_append, scanBody_close nonempty sameLine]
      simp
  | cons x items ih =>
      rw [List.flatMap_cons, List.append_assoc, stands x (by simp),
        ih fun y member => stands y (by simp [member])]
      simp only [Body.prepend, List.length_append, List.map_cons, Body.mk.injEq, and_self,
        and_true]
      omega

end Steps

/-! ### Escapes -/

/-- Every character with a letter of its own is what this letter stands for. -/
theorem simpleEscape?_of_letterEscape?
    {c : Char} {escape : List Char}
    (letter : letterEscape? c = some escape) :
    ∃ d, escape = ['\\', d] ∧ simpleEscape? d = some c := by
  unfold letterEscape? at letter
  split at letter
  · next h => exact ⟨'\\', (Option.some.inj letter).symm, by rw [h]; rfl⟩
  split at letter
  · next h => exact ⟨'"', (Option.some.inj letter).symm, by rw [h]; rfl⟩
  split at letter
  · next h => exact ⟨'n', (Option.some.inj letter).symm, by rw [h]; rfl⟩
  split at letter
  · next h => exact ⟨'r', (Option.some.inj letter).symm, by rw [h]; rfl⟩
  split at letter
  · next h => exact ⟨'t', (Option.some.inj letter).symm, by rw [h]; rfl⟩
  · cases letter

theorem scanEscape_letter
    {d c : Char}
    (simple : simpleEscape? d = some c)
    (isBytes : Bool)
    (rest : List Char) :
    scanEscape isBytes (d :: rest) = ⟨1, .ok (.char c)⟩ := by
  simp [scanEscape, simple]

/-- Enough hexadecimal digits after an escape letter are read as the number that they denote. -/
theorem hexEscape_digits
    {digits : List Char}
    (allDigits : ∀ d ∈ digits, Number.isHexDigit d = true)
    (isBytes : Bool)
    (letter : Char)
    (rest : List Char) :
    hexEscape isBytes letter digits.length (digits ++ rest) =
      if isBytes ∧ digits.length = 2 then
        ⟨1 + digits.length, .ok (.octet (Number.hexValue digits).toUInt8)⟩
      else if isCodePoint (Number.hexValue digits) then
        ⟨1 + digits.length, .ok (.char (Char.ofNat (Number.hexValue digits)))⟩
      else
        ⟨1 + digits.length, .error (.invalidCodePoint (String.ofList (letter :: digits)))⟩ := by
  have taken : (digits ++ rest).take digits.length = digits := List.take_left' rfl
  have all : digits.all Number.isHexDigit = true := List.all_eq_true.mpr allDigits
  simp [hexEscape, taken, all]

theorem hexEscape_hex
    {width n : Nat}
    (positive : 0 < width)
    (fits : n < 16 ^ width)
    (isBytes : Bool)
    (letter : Char)
    (rest : List Char) :
    hexEscape isBytes letter width (hex width n ++ rest) =
      if isBytes ∧ width = 2 then ⟨1 + width, .ok (.octet n.toUInt8)⟩
      else if isCodePoint n then ⟨1 + width, .ok (.char (Char.ofNat n))⟩
      else ⟨1 + width, .error (.invalidCodePoint (String.ofList (letter :: hex width n)))⟩ := by
  have length := length_hex positive fits
  have allDigits : ∀ d ∈ hex width n, Number.isHexDigit d = true := fun _ => isHexDigit_of_mem_hex
  have reads := hexEscape_digits allDigits isBytes letter rest
  rwa [length, hexValue_hex] at reads

/-- The code points of characters are the valid ones. -/
theorem isCodePoint_iff
    {code : Nat} :
    isCodePoint code = true ↔ code.isValidChar := by
  simp only [isCodePoint, Nat.isValidChar, Bool.or_eq_true, Bool.and_eq_true, decide_eq_true_eq]
  omega

/-- A numeric escape of a character is read as the character. -/
theorem scanEscape_numericEscape
    (c : Char) :
    ∃ escaped, numericEscape c = '\\' :: escaped ∧
      ∀ rest, scanEscape false (escaped ++ rest) = ⟨escaped.length, .ok (.char c)⟩ := by
  have valid : c.toNat.isValidChar := c.valid
  have whole := isCodePoint_iff.mpr valid
  have bound : c.toNat < 16 ^ 8 := by
    simp only [Nat.isValidChar] at valid
    omega
  have reads : ∀ (letter : Char) (width : Nat), 0 < width → c.toNat < 16 ^ width →
      simpleEscape? letter = none → escapeWidth? letter = some width →
      ∀ rest, scanEscape false (letter :: hex width c.toNat ++ rest) =
        ⟨(letter :: hex width c.toNat).length, .ok (.char c)⟩ := by
    intro letter width positive fits noLetter isWidth rest
    rw [List.cons_append, scanEscape, noLetter, isWidth]
    dsimp only
    rw [hexEscape_hex positive fits, List.length_cons, length_hex positive fits]
    simp [whole, Nat.add_comm 1]
  unfold numericEscape
  split
  · next small => exact ⟨_, rfl, reads 'x' 2 (by decide) (by omega) rfl rfl⟩
  split
  · next small => exact ⟨_, rfl, reads 'u' 4 (by decide) (by omega) rfl rfl⟩
  · exact ⟨_, rfl, reads 'U' 8 (by decide) bound rfl rfl⟩

/-! ### Strings -/

/-- A character without an escape letter of its own is neither a quote nor a backslash nor a
newline. -/
theorem standsFor_of_letterEscape?
    {c : Char}
    (plain : letterEscape? c = none)
    (isBytes : Bool)
    (start : Nat) :
    StandsFor ['"'] false isBytes start [c] (.char c) := by
  unfold letterEscape? at plain
  split at plain
  · cases plain
  split at plain
  · cases plain
  split at plain
  · cases plain
  · next noBackslash noQuote noNewline =>
      exact standsFor_plain (by simpa using noQuote) (by simp) (fun _ => noNewline)
        fun backslash => absurd backslash noBackslash

/-- A character as the printer writes it is read as the character. -/
theorem standsFor_quoteChar
    (start : Nat)
    (c : Char) :
    StandsFor ['"'] false false start (quoteChar c) (.char c) := by
  unfold quoteChar
  cases letter : letterEscape? c with
  | some escape =>
      obtain ⟨d, rfl, simple⟩ := simpleEscape?_of_letterEscape? letter
      exact standsFor_escape [d] (by decide) (by simp) (scanEscape_letter simple false)
  | none =>
      dsimp only
      split
      · exact standsFor_of_letterEscape? letter false start
      · obtain ⟨escaped, text, reads⟩ := scanEscape_numericEscape c
        rw [text]
        exact standsFor_escape escaped (by decide) (by simp) reads

theorem textOf_map_char
    (text : List Char) :
    textOf (text.map .char) = text := by
  induction text with
  | nil => rfl
  | cons c text ih => simpa [textOf] using ih

/-! ### Octets -/

theorem utf8EncodeChar_ascii :
    ∀ n < 128, String.utf8EncodeChar (Char.ofNat n) = [n.toUInt8] := by
  decide

theorem lt_of_letterEscape? :
    ∀ n < 256, letterEscape? (Char.ofNat n) ≠ none → n < 128 := by
  decide +kernel

/-- The character of an octet below 128 is encoded as that octet. -/
theorem octetsOf_char
    {octet : UInt8}
    (ascii : octet.toNat < 128) :
    octetsOf [.char (Char.ofNat octet.toNat)] = [octet] := by
  simp [octetsOf, Text.Utf8.encodeChar, utf8EncodeChar_ascii _ ascii]

theorem octetsOf_cons
    (piece : Piece)
    (pieces : List Piece) :
    octetsOf (piece :: pieces) = octetsOf [piece] ++ octetsOf pieces := by
  simp [octetsOf]

/-- An octet as the printer writes it is read as a piece that gives the octet. -/
theorem standsFor_quoteOctet
    (start : Nat)
    (octet : UInt8) :
    ∃ piece, octetsOf [piece] = [octet] ∧
      StandsFor ['"'] false true start (quoteOctet octet) piece := by
  have small : octet.toNat < 256 := octet.toNat_lt
  unfold quoteOctet
  dsimp only
  cases letter : letterEscape? (Char.ofNat octet.toNat) with
  | some escape =>
      obtain ⟨d, rfl, simple⟩ := simpleEscape?_of_letterEscape? letter
      exact ⟨.char (Char.ofNat octet.toNat),
        octetsOf_char (lt_of_letterEscape? _ small (by simp [letter])),
        standsFor_escape [d] (by decide) (by simp) (scanEscape_letter simple true)⟩
  | none =>
      dsimp only
      split
      · next printable =>
          exact ⟨.char (Char.ofNat octet.toNat), octetsOf_char (by omega),
            standsFor_of_letterEscape? letter true start⟩
      · refine ⟨.octet octet, by simp [octetsOf],
          standsFor_escape ('x' :: hex 2 octet.toNat) (by decide) (by simp) fun rest => ?_⟩
        rw [List.cons_append, scanEscape]
        have fits : octet.toNat < 16 ^ 2 := by omega
        simp [simpleEscape?, escapeWidth?, List.lookup_cons, hexEscape_hex (by decide) fits,
          length_hex (by decide) fits]

/-- Pieces that give one octet each give the octets. -/
theorem octetsOf_map
    {piece : UInt8 → Piece}
    (gives : ∀ octet, octetsOf [piece octet] = [octet])
    (octets : List UInt8) :
    octetsOf (octets.map piece) = octets := by
  induction octets with
  | nil => rfl
  | cons octet octets ih =>
      rw [List.map_cons, octetsOf_cons, gives, ih]
      rfl

end Literal

/-! ### Whole literals -/

namespace Lexer

open Literal
open Printer (quote quoteChar quoteOctet quoteOctets)

/-- No character as the printer writes it starts with the closing quote. -/
theorem head?_quoteChar
    (c : Char) :
    (quoteChar c).head? ≠ some '"' ∧ quoteChar c ≠ [] := by
  unfold quoteChar
  cases letter : Printer.letterEscape? c with
  | some escape =>
      obtain ⟨d, rfl, -⟩ := simpleEscape?_of_letterEscape? letter
      simp
  | none =>
      dsimp only
      split
      · simp only [List.head?_cons, ne_eq, Option.some.injEq, List.cons_ne_nil, not_false_eq_true,
          and_true]
        rintro rfl
        cases letter
      · obtain ⟨escaped, text, -⟩ := scanEscape_numericEscape c
        simp [text]

/-- No octet as the printer writes it starts with the closing quote. -/
theorem head?_quoteOctet
    (octet : UInt8) :
    (quoteOctet octet).head? ≠ some '"' ∧ quoteOctet octet ≠ [] := by
  unfold quoteOctet
  dsimp only
  cases letter : Printer.letterEscape? (Char.ofNat octet.toNat) with
  | some escape =>
      obtain ⟨d, rfl, -⟩ := simpleEscape?_of_letterEscape? letter
      simp
  | none =>
      dsimp only
      split
      · simp only [List.head?_cons, ne_eq, Option.some.injEq, List.cons_ne_nil, not_false_eq_true,
          and_true]
        intro h
        rw [h] at letter
        cases letter
      · simp

/-- Texts one after another do not start with a quote if none of them does. -/
theorem head?_flatMap
    {α : Type} {items : List α} {shown : α → List Char} {quote : Char}
    (opens : ∀ x ∈ items, (shown x).head? ≠ some quote ∧ shown x ≠ []) :
    quote ∉ (items.flatMap shown).head? := by
  cases items with
  | nil => simp
  | cons x items =>
      obtain ⟨noQuote, nonempty⟩ := opens x (by simp)
      obtain ⟨c, cs, text⟩ := List.exists_cons_of_ne_nil nonempty
      rw [List.flatMap_cons, text]
      simpa [text] using noQuote

/-- One quote delimits what does not begin with a quote; an empty text is not followed by a
third. -/
theorem delimiter_single
    {quote : Char} {body rest : List Char}
    (apart : quote ∉ body.head?)
    (ends : quote ∉ rest.head?) :
    delimiter quote (quote :: (body ++ quote :: rest)) = [quote] := by
  have single : (List.replicate 3 quote).isPrefixOf (quote :: (body ++ quote :: rest)) = false := by
    cases body with
    | nil =>
        cases rest with
        | nil => simp [List.replicate, List.isPrefixOf]
        | cons c rest =>
            have differs : quote ≠ c := fun same => ends (congrArg some same.symm)
            simp [List.replicate, List.isPrefixOf, differs]
    | cons c body =>
        have differs : quote ≠ c := fun same => apart (congrArg some same.symm)
        simp [List.replicate, List.isPrefixOf, differs]
  rw [delimiter, single]
  rfl

theorem delimiter_triple
    (quote : Char)
    (rest : List Char) :
    delimiter quote (List.replicate 3 quote ++ rest) = List.replicate 3 quote := by
  rw [delimiter, if_pos (List.isPrefixOf_iff_prefix.mpr (List.prefix_append _ rest))]

/-- The letters in front of a quote make a string raw or a string of octets. -/
theorem opening?_prefix
    {letters : List Char} {isBytes raw : Bool} {quote : Char}
    (listed : (letters, isBytes, raw) ∈ prefixes)
    (isQuote : quote = '\'' ∨ quote = '"')
    (rest : List Char) :
    opening? (letters ++ quote :: rest) = some ⟨letters.length, raw, isBytes, quote⟩ := by
  simp only [prefixes, List.mem_cons, List.not_mem_nil, or_false, Prod.mk.injEq] at listed
  rcases listed with ⟨rfl, rfl, rfl⟩ | ⟨rfl, rfl, rfl⟩ | ⟨rfl, rfl, rfl⟩ | ⟨rfl, rfl, rfl⟩ |
    ⟨rfl, rfl, rfl⟩ | ⟨rfl, rfl, rfl⟩ | ⟨rfl, rfl, rfl⟩ | ⟨rfl, rfl, rfl⟩ | ⟨rfl, rfl, rfl⟩ |
    ⟨rfl, rfl, rfl⟩ | ⟨rfl, rfl, rfl⟩ | ⟨rfl, rfl, rfl⟩ | ⟨rfl, rfl, rfl⟩
  all_goals
    rcases isQuote with rfl | rfl <;>
      rcases rest with _ | ⟨a, _ | ⟨b, rest⟩⟩ <;> rfl

/-- What opens a string is scanned as one. -/
theorem scanItem_opening
    {c : Char} {rest : List Char} {o : Opening}
    (opens : opening? (c :: rest) = some o)
    (pos : Nat) :
    scanItem pos c rest = scanString pos o (c :: rest) := by
  have start : isQuote c = true ∨ isRawLetter c = true ∨ isBytesLetter c = true := by
    by_contra other
    simp only [not_or, Bool.not_eq_true] at other
    rw [opening?_eq_none other.1 other.2.1 other.2.2] at opens
    cases opens
  have noSpace : isSpace c = false ∧ c ≠ '/' ∧ c.isDigit = false := by
    simp only [isQuote, isRawLetter, isBytesLetter, Bool.or_eq_true, beq_iff_eq] at start
    rcases start with (rfl | rfl) | (rfl | rfl) | (rfl | rfl) <;> decide
  obtain ⟨noSpace, noSlash, noDigit⟩ := noSpace
  simp [scanItem, noSpace, noSlash, noDigit, opens]

/-- The delimiter of a literal is the one that encloses it, if the text within starts with no quote
and none follows. -/
theorem delimiter_enclosed
    {quote : Char} {delim body rest : List Char}
    (listed : delim = [quote] ∨ delim = List.replicate 3 quote)
    (apart : quote ∉ body.head?)
    (ends : quote ∉ rest.head?) :
    delimiter quote (delim ++ (body ++ (delim ++ rest))) = delim := by
  rcases listed with rfl | rfl
  · exact delimiter_single apart ends
  · exact delimiter_triple quote _

/-- A literal is one token, if its body is read as its pieces. -/
theorem scanFrom_literal
    {letters delim body rest : List Char} {isBytes raw : Bool} {quote : Char} {pieces : List Piece}
    {pos : Nat}
    (listed : (letters, isBytes, raw) ∈ prefixes)
    (isQuote : quote = '\'' ∨ quote = '"')
    (encloses : delim = [quote] ∨ delim = List.replicate 3 quote)
    (apart : quote ∉ body.head?)
    (ends : quote ∉ rest.head?)
    (reads : ∀ pos', scanBody delim raw isBytes pos pos' 0 (body ++ (delim ++ rest)) =
      ⟨body.length + delim.length, pieces, []⟩) :
    scanFrom pos 0 (letters ++ (delim ++ (body ++ delim)) ++ rest) =
      (scanFrom (pos + (letters ++ (delim ++ (body ++ delim))).length) 0 rest).cons
        (pieceKind isBytes pieces) (letters ++ (delim ++ (body ++ delim))) pos := by
  obtain ⟨more, begins⟩ : ∃ more, delim = quote :: more := by
    rcases encloses with rfl | rfl
    · exact ⟨[], rfl⟩
    · exact ⟨[quote, quote], rfl⟩
  obtain ⟨c, cs, source⟩ : ∃ c cs, letters ++ (delim ++ (body ++ delim)) = c :: cs := by
    cases letters with
    | nil => exact ⟨_, _, by rw [begins]; rfl⟩
    | cons c letters => exact ⟨_, _, rfl⟩
  have whole : c :: (cs ++ rest) = letters ++ (delim ++ (body ++ (delim ++ rest))) := by
    rw [← List.cons_append, ← source]
    simp
  have opens : opening? (c :: (cs ++ rest)) = some ⟨letters.length, raw, isBytes, quote⟩ := by
    rw [whole, begins]
    exact opening?_prefix listed isQuote _
  have length : cs.length + 1 = letters.length + delim.length + (body.length + delim.length) := by
    have := congrArg List.length source
    simp only [List.length_append, List.length_cons] at this
    omega
  have behindLetters : (c :: (cs ++ rest)).drop letters.length =
      delim ++ (body ++ (delim ++ rest)) := by
    rw [whole, List.drop_left]
  have behindDelim : (c :: (cs ++ rest)).drop (letters.length + delim.length) =
      body ++ (delim ++ rest) := by
    rw [← List.drop_drop, behindLetters, List.drop_left]
  rw [source]
  refine scanFrom_good cs ?_
  rw [scanItem_opening opens, scanString]
  simp only [behindLetters, delimiter_enclosed encloses apart ends, behindDelim, reads, length,
    Item.good]
  rfl

theorem toList_quote
    (s : String) :
    (quote s).toList = '"' :: (s.toList.flatMap quoteChar ++ ['"']) := by
  simp [quote]

theorem toList_quoteOctets
    (octets : List UInt8) :
    (quoteOctets octets).toList = 'b' :: '"' :: (octets.flatMap quoteOctet ++ ['"']) := by
  simp [quoteOctets]

/-- A quoted string is one token, which denotes the string. -/
theorem scanFrom_quote
    {rest : List Char}
    (s : String)
    (ends : EndsWord rest)
    (pos : Nat) :
    scanFrom pos 0 ((quote s).toList ++ rest) =
      (scanFrom (pos + (quote s).toList.length) 0 rest).cons (.string s) (quote s).toList pos := by
  have stands : ∀ c ∈ s.toList, StandsFor ['"'] false false pos (quoteChar c) (.char c) :=
    fun c _ => standsFor_quoteChar pos c
  have listed : ([], false, false) ∈ prefixes := by decide
  have reads := scanFrom_literal listed (.inr rfl) (.inl rfl)
    (head?_flatMap fun c _ => head?_quoteChar c)
    (fun begins => absurd (ends '"' begins) (by decide))
    fun pos' => scanBody_flatMap stands (by simp) (by decide) pos' rest
  have kind : pieceKind false (s.toList.map .char) = .string s := by
    simp [pieceKind, textOf_map_char]
  rw [kind] at reads
  rw [toList_quote]
  exact reads

/-- Quoted octets are one token, which denotes the octets. -/
theorem scanFrom_quoteOctets
    {rest : List Char}
    (octets : List UInt8)
    (ends : EndsWord rest)
    (pos : Nat) :
    scanFrom pos 0 ((quoteOctets octets).toList ++ rest) =
      (scanFrom (pos + (quoteOctets octets).toList.length) 0 rest).cons (.bytes octets)
        (quoteOctets octets).toList pos := by
  choose piece gives stands using standsFor_quoteOctet pos
  have within : ∀ octet ∈ octets, StandsFor ['"'] false true pos (quoteOctet octet) (piece octet) :=
    fun octet _ => stands octet
  have listed : (['b'], true, false) ∈ prefixes := by decide
  have reads := scanFrom_literal listed (.inr rfl) (.inl rfl)
    (head?_flatMap fun octet _ => head?_quoteOctet octet)
    (fun begins => absurd (ends '"' begins) (by decide))
    fun pos' => scanBody_flatMap within (by simp) (by decide) pos' rest
  have kind : pieceKind true (octets.map piece) = .bytes octets := by
    rw [pieceKind, if_pos rfl, octetsOf_map gives]
  rw [kind] at reads
  rw [toList_quoteOctets]
  exact reads

end Lexer
end ExprLang
