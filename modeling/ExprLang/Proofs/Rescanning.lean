import ExprLang.Proofs.TokenSlices

/-!
# Tokens in front of blanks

The text of a token, taken from its source and put in front of a blank or at the end of a text, is
the same token there.  Each scanner looks ahead in its own way, and all of them stop at a blank.

* `BlankAhead`: the end of a text, or a blank.
* `scanItem_ahead`: a token is the same in front of a blank.
* `reappears_of_scan`: the tokens of a source without mistakes are the same wherever they stand in
  front of blanks.
-/

namespace ExprLang
namespace Lexer

open Literal (Item Body Opening)

/-- The characters that separate tokens. -/
def blanks : List Char := [' ', '\t', '\r', '\n', '\x0c']

theorem isSpace_iff
    {c : Char} :
    isSpace c = true ↔ c ∈ blanks := by
  simp only [isSpace, blanks, Bool.or_eq_true, beq_iff_eq, List.mem_cons, List.not_mem_nil,
    or_false, or_assoc]

/-- The text ends, or a blank comes next. -/
def BlankAhead (tail : List Char) : Prop :=
  ∀ c ∈ tail.head?, isSpace c = true

/-! ### Strings -/

theorem not_isSpace_of_isQuote
    {c : Char}
    (isQuote : Literal.isQuote c = true) :
    isSpace c = false := by
  simp only [Literal.isQuote, Bool.or_eq_true, beq_iff_eq] at isQuote
  rcases isQuote with rfl | rfl <;> decide

theorem isQuote_of_opening?
    {cs : List Char} {o : Opening}
    (opens : Literal.opening? cs = some o) :
    Literal.isQuote o.quote = true := by
  unfold Literal.opening? at opens
  split at opens <;> grind

theorem eq_of_mem_delimiter
    {quote c : Char} {cs : List Char}
    (member : c ∈ Literal.delimiter quote cs) :
    c = quote := by
  unfold Literal.delimiter at member
  split at member <;> simpa using member

/-- An escape without mistakes ends where it does, whatever follows. -/
theorem scanEscape_append
    {isBytes : Bool} {cs tail : List Char} {piece : Literal.Piece}
    (good : (Literal.scanEscape isBytes cs).result = .ok piece) :
    Literal.scanEscape isBytes (cs ++ tail) = Literal.scanEscape isBytes cs := by
  cases cs with
  | nil => cases good
  | cons c cs =>
      rw [List.cons_append]
      unfold Literal.scanEscape at good ⊢
      dsimp only at good ⊢
      cases simple : Literal.simpleEscape? c with
      | some plain => rfl
      | none =>
          rw [simple] at good
          cases wide : Literal.escapeWidth? c with
          | some width =>
              rw [wide] at good
              have enough : width ≤ cs.length := by
                unfold Literal.hexEscape at good
                grind
              simp only [Literal.hexEscape, List.take_append_of_le_length enough]
          | none =>
              rw [wide] at good
              dsimp only at good ⊢
              split
              · next octal =>
                  rw [if_pos octal] at good
                  have enough : 3 ≤ (c :: cs).length := by
                    unfold Literal.octalEscape at good
                    grind
                  rw [Literal.octalEscape, ← List.cons_append,
                    List.take_append_of_le_length enough, Literal.octalEscape]
              · rfl

namespace BlankAhead

variable {tail : List Char} (ahead : BlankAhead tail)

include ahead

/-- A blank ends a run of characters if it is not of their class. -/
theorem boundary
    {p : Char → Bool}
    (excluded : ∀ c ∈ blanks, p c = false) :
    ∀ c ∈ tail.head?, p c = false :=
  fun c begins => excluded c (isSpace_iff.mp (ahead c begins))

theorem takeWhile
    {p : Char → Bool}
    (excluded : ∀ c ∈ blanks, p c = false)
    (cs : List Char) :
    (cs ++ tail).takeWhile p = cs.takeWhile p := by
  have stop : tail.takeWhile p = [] := by
    have boundary := ahead.boundary excluded
    cases tail <;> simp_all
  rw [List.takeWhile_append, stop, List.append_nil]
  split
  · next whole => exact ((List.takeWhile_prefix p).eq_of_length whole).symm
  · rfl

/-- A text without blanks does not start before a blank and go on behind it. -/
theorem isPrefixOf
    {text : List Char}
    (solid : ∀ c ∈ text, isSpace c = false)
    (cs : List Char) :
    text.isPrefixOf (cs ++ tail) = text.isPrefixOf cs := by
  induction text generalizing cs with
  | nil => simp
  | cons d text ih =>
      cases cs with
      | nil =>
          cases tail with
          | nil => rfl
          | cons c tail =>
              have differs : d ≠ c := by
                rintro rfl
                have blank := ahead d rfl
                rw [solid d (by simp)] at blank
                cases blank
              simp [List.isPrefixOf, differs]
      | cons c cs =>
          rw [List.cons_append, List.isPrefixOf, List.isPrefixOf,
            ih (fun e member => solid e (by simp [member]))]

/-! ### Numbers -/

theorem fractionLength
    (cs : List Char) :
    Literal.fractionLength (cs ++ tail) = Literal.fractionLength cs := by
  cases cs with
  | nil =>
      refine fractionLength_eq_zero fun c begins => ?_
      simpa using ahead.boundary (p := (· == '.')) (by decide) c begins
  | cons c cs =>
      by_cases isPoint : c = '.'
      · subst isPoint
        simp only [List.cons_append, Literal.fractionLength, ahead.takeWhile (p := Char.isDigit)
          (by decide)]
      · simp [Literal.fractionLength, isPoint]

theorem exponentLength
    (cs : List Char) :
    Literal.exponentLength (cs ++ tail) = Literal.exponentLength cs := by
  have digits : ∀ cs : List Char,
      (cs ++ tail).takeWhile Char.isDigit = cs.takeWhile Char.isDigit :=
    ahead.takeWhile (by decide)
  match cs with
  | [] =>
      refine exponentLength_eq_zero fun c begins => ?_
      simpa using ahead.boundary (p := fun c => c == 'e' || c == 'E') (by decide) c begins
  | [c] =>
      cases tail with
      | nil => rfl
      | cons s tail =>
          have noSign : ¬ (s = '+' ∨ s = '-') := by
            simpa using ahead.boundary (p := fun c => c == '+' || c == '-') (by decide) s rfl
          have none := digits []
          simp only [List.nil_append, List.takeWhile_nil] at none
          simp [Literal.exponentLength, noSign, none]
  | c :: s :: cs =>
      have signed := digits (s :: cs)
      rw [List.cons_append] at signed
      simp only [List.cons_append, Literal.exponentLength, signed, digits cs]

theorem hasUnsignedMark
    (cs : List Char) :
    Literal.hasUnsignedMark (cs ++ tail) = Literal.hasUnsignedMark cs := by
  cases cs with
  | nil =>
      cases tail with
      | nil => rfl
      | cons c tail =>
          exact ahead.boundary (p := fun c => c == 'u' || c == 'U') (by decide) c rfl
  | cons c cs => rfl

theorem integerItem
    (length value : Nat)
    (cs : List Char) :
    Literal.integerItem length value (cs ++ tail) = Literal.integerItem length value cs := by
  rw [Literal.integerItem, ahead.hasUnsignedMark, Literal.integerItem]

theorem scanHex
    (pos : Nat)
    (digits : List Char) :
    Literal.scanHex pos (digits ++ tail) = Literal.scanHex pos digits := by
  have fits := length_takeWhile_le Number.isHexDigit digits
  unfold Literal.scanHex
  dsimp only
  rw [ahead.takeWhile (by decide), List.drop_append_of_le_length fits, ahead.integerItem]

theorem scanDecimal
    (pos : Nat)
    (cs : List Char) :
    Literal.scanDecimal pos (cs ++ tail) = Literal.scanDecimal pos cs := by
  have enough : ∀ n ≤ cs.length, (cs ++ tail).drop n = cs.drop n ++ tail :=
    fun n le => List.drop_append_of_le_length le
  have fits := length_takeWhile_le Char.isDigit cs
  unfold Literal.scanDecimal
  dsimp only
  rw [ahead.takeWhile (by decide)]
  -- the parts of the number end before the blank, one after the other
  generalize (cs.takeWhile Char.isDigit).length = whole at *
  have afterWhole := fractionLength_le (cs.drop whole)
  rw [enough whole fits, ahead.fractionLength]
  generalize Literal.fractionLength (cs.drop whole) = fraction at *
  have afterFraction := exponentLength_le (cs.drop (whole + fraction))
  rw [List.length_drop] at afterWhole afterFraction
  rw [enough (whole + fraction) (by omega), ahead.exponentLength]
  generalize Literal.exponentLength (cs.drop (whole + fraction)) = exponent at *
  rw [enough (whole + fraction + exponent) (by omega), List.take_append_of_le_length (by omega),
    ahead.hasUnsignedMark, ahead.integerItem]

theorem scanNumber
    (pos : Nat)
    (c : Char)
    (cs : List Char) :
    Literal.scanNumber pos (c :: (cs ++ tail)) = Literal.scanNumber pos (c :: cs) := by
  cases cs with
  | nil =>
      have noMark : ∀ x ∈ tail.head?, x ≠ 'x' ∧ x ≠ 'X' := by
        intro x begins
        simpa using ahead.boundary (p := fun c => c == 'x' || c == 'X') (by decide) x begins
      rw [List.nil_append, scanNumber_eq_scanDecimal noMark, scanNumber_eq_scanDecimal (by simp)]
      exact ahead.scanDecimal pos [c]
  | cons x digits =>
      by_cases isHex : c = '0' ∧ (x = 'x' ∨ x = 'X')
      · obtain ⟨rfl, isMark⟩ := isHex
        rw [List.cons_append, scanNumber_of_hex pos isMark, scanNumber_of_hex pos isMark,
          ahead.scanHex]
      · have other : ∀ more y digits, c :: x :: more = '0' :: y :: digits →
            ¬ (y = 'x' ∨ y = 'X') := by
          rintro more y digits ⟨rfl, rfl, rfl⟩ isMark
          exact isHex ⟨rfl, isMark⟩
        rw [List.cons_append, scanNumber_of_not_hex pos (other _),
          scanNumber_of_not_hex pos (other _)]
        exact ahead.scanDecimal pos (c :: x :: digits)

/-! ### Strings -/

/-- A body without mistakes is closed in front of a blank, by induction on the text: no delimiter
goes on behind a blank. -/
theorem scanBody
    {delim : List Char} {raw isBytes : Bool} {start pos skip : Nat} {cs : List Char}
    (solid : ∀ c ∈ delim, isSpace c = false)
    (good : (Literal.scanBody delim raw isBytes start pos skip cs).errors = []) :
    Literal.scanBody delim raw isBytes start pos skip (cs ++ tail) =
      Literal.scanBody delim raw isBytes start pos skip cs := by
  induction cs generalizing pos skip with
  | nil => cases good
  | cons c cs ih =>
      cases skip with
      | succ skip =>
          rw [Literal.scanBody] at good
          rw [List.cons_append, Literal.scanBody, Literal.scanBody, ih good]
      | zero =>
          rw [Literal.scanBody] at good
          rw [List.cons_append, Literal.scanBody, Literal.scanBody, ← List.cons_append,
            ahead.isPrefixOf solid]
          split
          · rfl
          next noNewline =>
          rw [if_neg noNewline] at good
          split
          · rfl
          next goesOn =>
          rw [if_neg goesOn] at good
          split
          · next escaped =>
              rw [if_pos escaped] at good
              dsimp only at good ⊢
              cases result : (Literal.scanEscape isBytes cs).result with
              | error cause =>
                  rw [result] at good
                  cases good
              | ok piece =>
                  rw [result] at good
                  rw [scanEscape_append result, result, ih good]
          · next plain =>
              rw [if_neg plain] at good
              rw [ih good]

theorem opening?
    (c : Char)
    (cs : List Char) :
    Literal.opening? (c :: (cs ++ tail)) = Literal.opening? (c :: cs) := by
  have noQuote : ∀ b ∈ tail.head?, Literal.isQuote b = false := ahead.boundary (by decide)
  have noRaw : ∀ b ∈ tail.head?, Literal.isRawLetter b = false := ahead.boundary (by decide)
  have noBytes : ∀ b ∈ tail.head?, Literal.isBytesLetter b = false := ahead.boundary (by decide)
  match cs, tail with
  | [], [] => rfl
  | [], [b] => simp [Literal.opening?, noQuote b rfl]
  | [], b :: q :: rest =>
      simp [Literal.opening?, noQuote b rfl, noRaw b rfl, noBytes b rfl]
  | [b], [] => rfl
  | [b], q :: rest => simp [Literal.opening?, noQuote q rfl]
  | a :: b :: cs, _ => rfl

theorem delimiter
    {quote : Char}
    (isQuote : Literal.isQuote quote = true)
    (cs : List Char) :
    Literal.delimiter quote (cs ++ tail) = Literal.delimiter quote cs := by
  have solid : ∀ c ∈ List.replicate 3 quote, isSpace c = false := by
    intro c member
    rw [List.eq_of_mem_replicate member]
    exact not_isSpace_of_isQuote isQuote
  rw [Literal.delimiter, ahead.isPrefixOf solid, Literal.delimiter]

theorem scanString
    {pos : Nat} {o : Opening} {cs : List Char}
    (opens : Literal.opening? cs = some o)
    (good : (Literal.scanString pos o cs).errors = []) :
    Literal.scanString pos o (cs ++ tail) = Literal.scanString pos o cs := by
  have isQuote := isQuote_of_opening? opens
  have letters := letters_lt_of_opening? opens
  have delimited := (delimiter_fits o.quote (cs.drop o.letters) (by
    rw [List.length_drop]
    omega)).2
  rw [List.length_drop] at delimited
  have solid : ∀ c ∈ Literal.delimiter o.quote (cs.drop o.letters), isSpace c = false := by
    intro c member
    rw [eq_of_mem_delimiter member]
    exact not_isSpace_of_isQuote isQuote
  unfold Literal.scanString at good ⊢
  dsimp only at good ⊢
  rw [List.drop_append_of_le_length (by omega), ahead.delimiter isQuote]
  generalize Literal.delimiter o.quote (cs.drop o.letters) = delim at *
  rw [List.drop_append_of_le_length (by omega), ahead.scanBody solid good]

/-! ### Items -/

theorem find?
    {texts : List (List Char)}
    (solid : ∀ text ∈ texts, ∀ c ∈ text, isSpace c = false)
    (cs : List Char) :
    texts.find? (·.isPrefixOf (cs ++ tail)) = texts.find? (·.isPrefixOf cs) := by
  induction texts with
  | nil => rfl
  | cons text texts ih =>
      rw [List.find?_cons, List.find?_cons, ahead.isPrefixOf (solid text (by simp)),
        ih fun other member => solid other (by simp [member])]

theorem scanSymbol
    (pos : Nat)
    (c : Char)
    (cs : List Char) :
    Lexer.scanSymbol pos c (cs ++ tail) = Lexer.scanSymbol pos c cs := by
  have solid : ∀ op ∈ operators, ∀ c ∈ op, isSpace c = false := by decide
  rw [Lexer.scanSymbol, ahead.find? solid, Lexer.scanSymbol]

end BlankAhead

/-- A token without mistakes is the same in front of a blank. -/
theorem scanItem_ahead
    {pos : Nat} {c : Char} {rest tail : List Char}
    (ahead : BlankAhead tail)
    (isToken : (scanItem pos c rest).kind ≠ none)
    (good : (scanItem pos c rest).errors = []) :
    scanItem pos c (rest ++ tail) = scanItem pos c rest := by
  unfold scanItem at isToken good ⊢
  dsimp only at isToken good ⊢
  split
  · rfl
  next noSpace =>
  rw [if_neg noSpace] at isToken good
  have noComment : ¬ (c = '/' ∧ rest.head? = some '/') := by
    intro comment
    rw [if_pos comment] at isToken
    exact isToken rfl
  have noSlashes : ¬ (c = '/' ∧ (rest ++ tail).head? = some '/') := by
    cases rest with
    | cons d rest => exact noComment
    | nil =>
        rintro ⟨-, second⟩
        cases ahead '/' second
  rw [if_neg noComment] at good
  rw [if_neg noComment, if_neg noSlashes]
  split
  · exact ahead.scanNumber pos c rest
  next noDigit =>
  rw [if_neg noDigit] at good
  rw [ahead.opening?]
  cases opens : Literal.opening? (c :: rest) with
  | some o =>
      rw [opens] at good
      exact ahead.scanString opens good
  | none =>
      dsimp only
      rw [← List.cons_append, ahead.takeWhile (by decide), ahead.scanSymbol]

/-! ### The tokens of a source -/

/-- Whether a text is a token of a kind wherever it stands in front of a blank or at the end. -/
def Reappears (kind : TokenKind) (text : List Char) : Prop :=
  ∀ pos tail, BlankAhead tail → scanFrom pos 0 (text ++ tail) =
    (scanFrom (pos + text.length) 0 tail).cons kind text pos

/-- An item that is a token without mistakes reappears. -/
theorem reappears_of_item
    {pos : Nat} {c : Char} {rest : List Char} {kind : TokenKind}
    (isToken : (scanItem pos c rest).kind = some kind)
    (good : (scanItem pos c rest).errors = []) :
    Reappears kind ((c :: rest).take (scanItem pos c rest).length) := by
  have found := found_scanItem pos c rest
  have positive := found.positive
  have fits := found.fits
  obtain ⟨n, length⟩ := Nat.exists_eq_add_one.mpr positive
  rw [length, List.length_cons] at fits
  have taken : (rest.take n).length = n := by
    rw [List.length_take]
    omega
  have alone : ∀ pos', scanItem pos' c (rest.take n) = .good (n + 1) kind := by
    intro pos'
    have whole : rest.take n ++ rest.drop n = rest := List.take_append_drop n rest
    calc scanItem pos' c (rest.take n)
        = scanItem pos c (rest.take n ++ rest.drop n) :=
          scanItem_cut pos' (by rw [whole, good]) (by rw [whole, length, taken])
      _ = scanItem pos c rest := by rw [whole]
      _ = .good (n + 1) kind := by rw [Item.good, ← length, ← isToken, ← good]
  intro pos' tail ahead
  rw [length, List.take_succ_cons]
  refine scanFrom_good _ ?_
  rw [scanItem_ahead ahead (by rw [alone]; exact Option.some_ne_none kind) (by rw [alone]; rfl),
    alone, taken]

/-- The tokens of a source without mistakes reappear. -/
theorem reappears_of_scan
    (pos : Nat)
    (cs : List Char)
    (good : (scanFrom pos 0 cs).errors = []) :
    ∀ t ∈ (scanFrom pos 0 cs).tokens, Reappears t.kind t.text.toList := by
  induction pos, cs using scan_induction with
  | nil pos => exact nofun
  | item pos c rest ih =>
      rw [scanFrom_item] at good ⊢
      obtain ⟨itemGood, laterGood⟩ := List.append_eq_nil_iff.mp good
      intro t member
      cases kind : (scanItem pos c rest).kind with
      | none =>
          simp only [Scan.push, kind] at member
          exact ih laterGood t member
      | some k =>
          simp only [Scan.push, kind, List.mem_cons] at member
          rcases member with rfl | later
          · rw [String.toList_ofList]
            exact reappears_of_item kind itemGood
          · exact ih laterGood t later

end Lexer
end ExprLang
