import Mathlib.Tactic.SplitIfs
import ExprLang.Text.Utf8
import ExprLang.Proofs.Digits
import ExprLang.Proofs.StandardCalls

/-!
# Conversions between values and their texts

The functions that convert to and from strings undo each other: an integer comes back from its digits,
a string from its octets, and octets from the string that they are read as if they are valid UTF-8.
Any other text is converted to an integer exactly if it denotes one that is in range.

* `Text.Utf8.scan_encodeChar`: the octets of one character, by its number.
* `Text.Utf8.decode_encode`: a text is read back from its octets.
* `Text.Utf8.encode_decode_iff`: octets come back if and only if they are valid.
* `DenotesInteger`: the integer that a text denotes.
* `readIntegerText_of_isInteger`, `readIntegerText_of_not_isInteger`: what is read of a text.
* `denotesInteger_intText`: the digits of an integer.
* `answers_ok_iff`, `answers_of_not_denotes`: the functions that read integers.
* `conversions_invert_printing`: all conversions.
-/

namespace ExprLang

/-! ### Octets that are read as text -/

namespace Text
namespace Utf8

variable {octet : UInt8} {rest : List UInt8} {bits low high wanted : Nat}

/-! #### One octet of a sequence -/

/-- An octet that opens a sequence. -/
theorem scan_opened
    {p : Pending}
    (opens : opened? octet.toNat = some p) :
    scan none (octet :: rest) = scan (some p) rest := by
  have notPlain : ¬octet.toNat < 0x80 := by
    intro plain
    unfold opened? at opens
    split_ifs at opens <;> omega
  simp [scan, step, start, notPlain, opens]

/-- An octet in the middle of a sequence. -/
theorem scan_middle
    (inside : low ≤ octet.toNat ∧ octet.toNat ≤ high) :
    scan (some ⟨wanted + 2, bits, low, high⟩) (octet :: rest) =
      scan (some ⟨wanted + 1, bits * 64 + (octet.toNat - 0x80), 0x80, 0xBF⟩) rest := by
  simp [scan, step, inside]

/-- The last octet of a sequence. -/
theorem scan_last
    (inside : low ≤ octet.toNat ∧ octet.toNat ≤ high) :
    scan (some ⟨1, bits, low, high⟩) (octet :: rest) =
      some (Char.ofNat (bits * 64 + (octet.toNat - 0x80))) :: scan none rest := by
  simp [scan, step, inside]

/-! #### The sequence of a character -/

/-- The sequences of two octets; those that open with less would be overlong. -/
theorem opened?_two :
    ∀ k < 32, 2 ≤ k → opened? (k + 0xC0) = some ⟨1, k, 0x80, 0xBF⟩ := by
  decide

/-- The sequences of three octets; the bounds leave out overlong ones and surrogates. -/
theorem opened?_three :
    ∀ k < 16, opened? (k + 0xE0) =
      some ⟨2, k, if k = 0 then 0xA0 else 0x80, if k = 13 then 0x9F else 0xBF⟩ := by
  decide

/-- The sequences of four octets; the bounds leave out overlong ones and what is no character. -/
theorem opened?_four :
    ∀ k < 5, opened? (k + 0xF0) =
      some ⟨3, k, if k = 0 then 0x90 else 0x80, if k = 4 then 0x8F else 0xBF⟩ := by
  decide

theorem toNat_octet
    {n : Nat}
    (small : n < 256) :
    (UInt8.ofNat n).toNat = n :=
  UInt8.toNat_ofNat_of_lt' small

/-- A character is that of its number, joined from the lowest six bits and those above. -/
theorem ofNat_joined
    {c : Char} {above below : Nat}
    (joined : above * 64 + (below - 0x80) = c.toNat) :
    Char.ofNat (above * 64 + (below - 0x80)) = c := by
  rw [joined, Char.ofNat_toNat]

/-- The octets of a character are read as the character. -/
theorem scan_encodeChar
    (c : Char)
    (rest : List UInt8) :
    scan none (encodeChar c ++ rest) = some c :: scan none rest := by
  have valid : c.toNat < 0xD800 ∨ 0xDFFF < c.toNat ∧ c.toNat < 0x110000 := c.valid
  have number : c.val.toNat = c.toNat := rfl
  have continues (n : Nat) : (UInt8.ofNat (n % 64 + 0x80)).toNat = n % 64 + 0x80 :=
    toNat_octet (by omega)
  simp only [encodeChar, String.utf8EncodeChar, number]
  by_cases one : c.toNat ≤ 0x7F
  · have plain : (UInt8.ofNat c.toNat).toNat = c.toNat := toNat_octet (by omega)
    rw [if_pos one]
    simp [scan, step, start, plain, Nat.lt_succ_of_le one]
  rw [if_neg one]
  by_cases two : c.toNat ≤ 0x7FF
  · have first : (UInt8.ofNat (c.toNat / 64 % 32 + 0xC0)).toNat = c.toNat / 64 % 32 + 0xC0 :=
      toNat_octet (by omega)
    have opens := opened?_two (c.toNat / 64 % 32) (by omega) (by omega)
    rw [if_pos two, List.cons_append, List.singleton_append, scan_opened (by rw [first, opens]),
      scan_last (by rw [continues]; omega), continues, ofNat_joined (c := c) (by omega)]
  rw [if_neg two]
  by_cases three : c.toNat ≤ 0xFFFF
  · have first : (UInt8.ofNat (c.toNat / 4096 % 16 + 0xE0)).toNat = c.toNat / 4096 % 16 + 0xE0 :=
      toNat_octet (by omega)
    have opens := opened?_three (c.toNat / 4096 % 16) (by omega)
    rw [if_pos three, List.cons_append, List.cons_append, List.singleton_append,
      scan_opened (by rw [first, opens]), scan_middle (by rw [continues]; split_ifs <;> omega),
      scan_last (by rw [continues]; omega), continues, continues, ofNat_joined (c := c) (by omega)]
  · have first : (UInt8.ofNat (c.toNat / 262144 % 8 + 0xF0)).toNat = c.toNat / 262144 % 8 + 0xF0 :=
      toNat_octet (by omega)
    have opens := opened?_four (c.toNat / 262144 % 8) (by omega)
    rw [if_neg three, List.cons_append, List.cons_append, List.cons_append, List.singleton_append,
      scan_opened (by rw [first, opens]), scan_middle (by rw [continues]; split_ifs <;> omega),
      scan_middle (by rw [continues]; omega), scan_last (by rw [continues]; omega), continues,
      continues, continues, ofNat_joined (c := c) (by omega)]

/-! #### Whole texts -/

theorem scan_encode
    (cs : List Char) :
    scan none (encode cs) = cs.map some := by
  induction cs with
  | nil => rfl
  | cons c cs ih => rw [encode, List.flatMap_cons, scan_encodeChar, ← encode, ih, List.map_cons]

/-- A text is read back from its octets. -/
theorem decode_encode
    (cs : List Char) :
    decode (encode cs) = cs := by
  simp [decode, scan_encode, Function.comp_def]

/-- Octets are valid if and only if they are those of a text. -/
theorem isValidUTF8_iff
    (octets : List UInt8) :
    ByteArray.IsValidUTF8 ⟨octets.toArray⟩ ↔ ∃ cs, encode cs = octets := by
  constructor
  · rintro ⟨cs, same⟩
    have sameOctets := congrArg (fun b : ByteArray => b.data.toList) same
    rw [List.utf8Encode, List.data_toByteArray] at sameOctets
    exact ⟨cs, sameOctets.symm⟩
  · rintro ⟨cs, rfl⟩
    refine ⟨cs, ByteArray.ext ?_⟩
    rw [List.utf8Encode, List.data_toByteArray]
    rfl

/-- Octets come back from the text that they are read as if and only if they are valid. -/
theorem encode_decode_iff
    (octets : List UInt8) :
    encode (decode octets) = octets ↔ ByteArray.IsValidUTF8 ⟨octets.toArray⟩ := by
  rw [isValidUTF8_iff]
  constructor
  · exact fun back => ⟨_, back⟩
  · rintro ⟨cs, rfl⟩
    rw [decode_encode]

end Utf8
end Text

open Eval Number Stdlib Time

/-! ### Texts of integers -/

namespace Stdlib

/-- The integer that a text denotes: at least one ASCII digit, perhaps behind a sign. -/
inductive DenotesInteger : List Char → Int → Prop
  | unsigned
      {digits : List Char}
      (nonempty : digits ≠ [])
      (decimal : ∀ c ∈ digits, c.isDigit = true) :
      DenotesInteger digits (digitsValue digits)
  | positive
      {digits : List Char}
      (nonempty : digits ≠ [])
      (decimal : ∀ c ∈ digits, c.isDigit = true) :
      DenotesInteger ('+' :: digits) (digitsValue digits)
  | negative
      {digits : List Char}
      (nonempty : digits ≠ [])
      (decimal : ∀ c ∈ digits, c.isDigit = true) :
      DenotesInteger ('-' :: digits) (-(digitsValue digits : Int))

variable {cs digits : List Char} {n : Int}

/-- No sign is taken from digits. -/
theorem takeSign_digits
    (decimal : ∀ c ∈ digits, c.isDigit = true) :
    takeSign digits = (false, digits) := by
  unfold takeSign
  split
  · exact absurd (decimal '-' List.mem_cons_self) (by decide)
  · exact absurd (decimal '+' List.mem_cons_self) (by decide)
  · rfl

/-- Whether a text is written as an integer: at least one digit, perhaps behind a sign. -/
def IsInteger (cs : List Char) : Prop :=
  (takeSign cs).2 ≠ [] ∧ ∀ c ∈ (takeSign cs).2, c.isDigit = true

/-- The integer that the digits of a text make with its sign. -/
def signedValue (cs : List Char) : Int :=
  if (takeSign cs).1 then -(digitsValue (takeSign cs).2 : Int) else digitsValue (takeSign cs).2

/-- A text denotes what its digits make with its sign. -/
theorem denotesInteger_iff_isInteger :
    DenotesInteger cs n ↔ IsInteger cs ∧ signedValue cs = n := by
  constructor
  · intro denotes
    cases denotes with
    | unsigned nonempty decimal =>
        rw [IsInteger, signedValue, takeSign_digits decimal]
        exact ⟨⟨nonempty, decimal⟩, rfl⟩
    | positive nonempty decimal => exact ⟨⟨nonempty, decimal⟩, rfl⟩
    | negative nonempty decimal => exact ⟨⟨nonempty, decimal⟩, rfl⟩
  · rintro ⟨⟨nonempty, decimal⟩, rfl⟩
    unfold signedValue
    fun_cases takeSign cs with
    | case1 => exact .negative nonempty decimal
    | case2 => exact .positive nonempty decimal
    | case3 _ noMinus noPlus =>
        rw [takeSign.eq_3 cs noMinus noPlus] at nonempty decimal
        exact .unsigned nonempty decimal

/-- The digits behind the sign are among those of the text. -/
theorem length_takeSign_le
    (isInteger : IsInteger cs) :
    (takeSign cs).2.length ≤ cs.countP Char.isDigit := by
  have isPart : (takeSign cs).2.Sublist cs := by
    unfold takeSign
    split
    · exact List.sublist_cons_self _ _
    · exact List.sublist_cons_self _ _
    · exact .refl _
  rw [← List.countP_eq_length.mpr isInteger.2]
  exact isPart.countP_le

theorem readIntegerText_of_isInteger
    (few : cs.countP Char.isDigit ≤ integerDigitLimit)
    (isInteger : IsInteger cs) :
    readIntegerText cs = .number (signedValue cs) := by
  have short := Nat.not_lt.mpr (Nat.le_trans (length_takeSign_le isInteger) few)
  obtain ⟨nonempty, decimal⟩ := isInteger
  have wellFormed : ¬((takeSign cs).2.isEmpty || !(takeSign cs).2.all Char.isDigit) = true := by
    simpa [nonempty] using decimal
  exact (if_neg wellFormed).trans (if_neg short)

theorem readIntegerText_of_not_isInteger
    (noInteger : ¬IsInteger cs) :
    readIntegerText cs = .malformed := by
  refine if_pos (c := ((takeSign cs).2.isEmpty || !(takeSign cs).2.all Char.isDigit) = true) ?_
  by_contra other
  simp only [Bool.or_eq_true, List.isEmpty_iff, Bool.not_eq_true', not_or, Bool.not_eq_false,
    List.all_eq_true] at other
  exact noInteger other

/-- The digits of a number denote it. -/
theorem denotesInteger_natText
    (n : Nat) :
    DenotesInteger (natText n).toList n := by
  have denotes : DenotesInteger (Nat.toDigits 10 n) (digitsValue (Nat.toDigits 10 n)) :=
    .unsigned Nat.toDigits_ne_nil fun c member => isDigit_of_mem_toDigits member
  rwa [digitsValue_toDigits, ← String.toList_ofList (l := Nat.toDigits 10 n)] at denotes

theorem denotesInteger_intText
    (n : Int) :
    DenotesInteger (intText n).toList n := by
  cases n with
  | ofNat n => exact denotesInteger_natText n
  | negSucc n =>
      have denotes : DenotesInteger ('-' :: Nat.toDigits 10 (n + 1))
          (-(digitsValue (Nat.toDigits 10 (n + 1)) : Int)) :=
        .negative Nat.toDigits_ne_nil fun c member => isDigit_of_mem_toDigits member
      rw [digitsValue_toDigits] at denotes
      simp only [intText, natText, String.toList_append, String.toList_ofList]
      exact denotes

/-- The integers of a machine word have few digits. -/
theorem countP_intText
    (small : n.natAbs < 10 ^ 20) :
    (intText n).toList.countP Char.isDigit ≤ integerDigitLimit := by
  have short {m : Nat} (fits : m < 10 ^ 20) : (natText m).toList.length ≤ 20 := by
    rw [natText, String.toList_ofList]
    exact length_toDigits_le (by decide) (by decide) fits
  have length : (intText n).toList.length ≤ 21 := by
    cases n with
    | ofNat n => exact Nat.le_succ_of_le (short (by simpa using small))
    | negSucc n =>
        rw [intText, String.toList_append, List.length_append]
        exact Nat.add_le_add_left (short (by simpa using small)) 1
  calc (intText n).toList.countP Char.isDigit
      ≤ (intText n).toList.length := List.countP_le_length
    _ ≤ 21 := length
    _ ≤ integerDigitLimit := by decide

end Stdlib

/-! ### Calls -/

variable {now : Timestamp}

/-- The text of a value is what the function `string` makes of it. -/
theorem answers_string
    {v : Value} {text : String}
    (written : textOf v = some text) :
    Answers now "string" [v] (.ok (.string text)) := by
  intro debug depth site
  have member : ("string", textEntry) ∈ entries now := by simp [entries]
  exact yields_string (overloads?_standard member) written depth

/-- The octets of a string are what the function `bytes` makes of it. -/
theorem answers_bytes
    (s : String) :
    Answers now "bytes" [.string s] (.ok (.bytes (octetsOf s))) := by
  intro debug depth site
  have member : ("bytes", bytesEntry) ∈ entries now := by simp [entries]
  exact yields_entry [.value (.string s)] (.octets (octetsOf s)) (overloads?_standard member) rfl rfl
    rfl depth

/-- The functions that read integers: their names, the least and the greatest integer that they give,
and the values that integers become. -/
inductive ReadsInteger : String → Int → Int → (Int → Value) → Prop
  | int : ReadsInteger "int" minInt maxInt .int
  | uint : ReadsInteger "uint" 0 maxUInt fun n => .uint n.toNat

section Integers

variable {name : String} {low high n : Int} {wrap : Int → Value} {s : String} {outcome : Outcome Value}

/-- A function that reads integers comes to the outcome that the conversion ends with. -/
theorem answers_of_toWhole
    (reads : ReadsInteger name low high wrap)
    (ends : ∀ site, toWhole ⟨name, site⟩ low high wrap (.string s) = .ofOutcome outcome) :
    Answers now name [.string s] outcome := by
  cases reads with
  | int =>
      have member : ("int", intEntry) ∈ entries now := by simp [entries]
      have bound : (intEntry.function "int").bind [.string s] = .ok [.value (.string s)] := rfl
      exact answers_of_outcome member bound ends
  | uint =>
      have member : ("uint", uintEntry) ∈ entries now := by simp [entries]
      have bound : (uintEntry.function "uint").bind [.string s] = .ok [.value (.string s)] := rfl
      exact answers_of_outcome member bound ends

/-- The integer that a text denotes is what is read of it, if it is in range. -/
theorem answers_of_denotes
    (reads : ReadsInteger name low high wrap)
    (few : s.toList.countP Char.isDigit ≤ integerDigitLimit)
    (denotes : DenotesInteger s.toList n)
    (fits : low ≤ n ∧ n ≤ high) :
    Answers now name [.string s] (.ok (wrap n)) := by
  obtain ⟨isInteger, rfl⟩ := denotesInteger_iff_isInteger.mp denotes
  refine answers_of_toWhole reads fun site => ?_
  rw [toWhole, readIntegerText_of_isInteger few isInteger]
  exact if_pos fits

/-- A text that denotes no integer in range is an error of the function. -/
theorem answers_of_not_denotes
    (reads : ReadsInteger name low high wrap)
    (few : s.toList.countP Char.isDigit ≤ integerDigitLimit)
    (denotesNone : ¬∃ n, DenotesInteger s.toList n ∧ low ≤ n ∧ n ≤ high) :
    ∃ detail, Answers now name [.string s] (.error (.functionError name detail)) := by
  by_cases isInteger : IsInteger s.toList
  · have outside : ¬(low ≤ signedValue s.toList ∧ signedValue s.toList ≤ high) := fun fits =>
      denotesNone ⟨_, denotesInteger_iff_isInteger.mpr ⟨isInteger, rfl⟩, fits⟩
    refine ⟨"integer overflow", answers_of_toWhole reads fun site => ?_⟩
    rw [toWhole, readIntegerText_of_isInteger few isInteger]
    exact if_neg outside
  · refine ⟨"string parse error: invalid integer literal " ++ Text.Quoted.text s,
      answers_of_toWhole reads fun site => ?_⟩
    rw [toWhole, readIntegerText_of_not_isInteger isInteger]
    rfl

/-- A function that reads integers gives a value if and only if the text denotes an integer that is
in range, and the value is that integer. -/
theorem answers_ok_iff
    (reads : ReadsInteger name low high wrap)
    (few : s.toList.countP Char.isDigit ≤ integerDigitLimit)
    (v : Value) :
    Answers now name [.string s] (.ok v) ↔
      ∃ n, DenotesInteger s.toList n ∧ (low ≤ n ∧ n ≤ high) ∧ v = wrap n := by
  constructor
  · intro given
    by_cases denotesSome : ∃ n, DenotesInteger s.toList n ∧ low ≤ n ∧ n ≤ high
    · obtain ⟨n, denotes, fits⟩ := denotesSome
      refine ⟨n, denotes, fits, ?_⟩
      simpa using (given false 0 none).unique (answers_of_denotes reads few denotes fits false 0 none)
    · have fails : ∃ detail, Answers now name [.string s] (.error (.functionError name detail)) :=
        answers_of_not_denotes reads few denotesSome
      obtain ⟨detail, failed⟩ := fails
      simpa using (given false 0 none).unique (failed false 0 none)
  · rintro ⟨n, denotes, fits, rfl⟩
    exact answers_of_denotes reads few denotes fits

end Integers

/-! ### Conversions there and back -/

/-- The digits of an integer come back as the integer. -/
theorem answers_intText
    {name : String} {low high n : Int} {wrap : Int → Value}
    (reads : ReadsInteger name low high wrap)
    (fits : low ≤ n ∧ n ≤ high) :
    Answers now name [.string (intText n)] (.ok (wrap n)) := by
  refine answers_of_denotes reads (countP_intText ?_) (denotesInteger_intText n) fits
  cases reads <;> simp only [minInt, maxInt, maxUInt] at fits <;> omega

/-- The functions that convert to and from texts undo each other.  Integers come back from their
digits and a string from its octets.  Octets always have a text, and come back from it if and only if
they are valid.  A text gives an integer if and only if it denotes one that is in range. -/
theorem conversions_invert_printing
    (now : Timestamp) :
    (∀ n, InIntRange n →
      ∃ text, Answers now "string" [.int n] (.ok (.string text)) ∧
        Answers now "int" [.string text] (.ok (.int n))) ∧
    (∀ n ≤ maxUInt,
      ∃ text, Answers now "string" [.uint n] (.ok (.string text)) ∧
        Answers now "uint" [.string text] (.ok (.uint n))) ∧
    (∀ s, ∃ octets, Answers now "bytes" [.string s] (.ok (.bytes octets)) ∧
      Answers now "string" [.bytes octets] (.ok (.string s))) ∧
    (∀ octets, ∃ text, Answers now "string" [.bytes octets] (.ok (.string text)) ∧
      (Answers now "bytes" [.string text] (.ok (.bytes octets)) ↔
        ByteArray.IsValidUTF8 ⟨octets.toArray⟩)) ∧
    (∀ name low high wrap, ReadsInteger name low high wrap →
      ∀ s : String, s.toList.countP Char.isDigit ≤ integerDigitLimit →
        (∀ v, Answers now name [.string s] (.ok v) ↔
          ∃ n, DenotesInteger s.toList n ∧ (low ≤ n ∧ n ≤ high) ∧ v = wrap n) ∧
        ((¬∃ n, DenotesInteger s.toList n ∧ low ≤ n ∧ n ≤ high) →
          ∃ detail, Answers now name [.string s] (.error (.functionError name detail)))) := by
  refine ⟨fun n fits => ?_, fun n fits => ?_, fun s => ?_, fun octets => ?_, ?_⟩
  · exact ⟨intText n, answers_string rfl, answers_intText .int fits⟩
  · have back : Answers now "uint" [.string (natText n)] (.ok (.uint n)) :=
      answers_intText (n := n) .uint (by omega)
    exact ⟨natText n, answers_string rfl, back⟩
  · have back : textOf (.bytes (octetsOf s)) = some s := by
      rw [textOf, octetsOf, Text.Utf8.decode_encode, String.ofList_toList]
    exact ⟨octetsOf s, answers_bytes s, answers_string back⟩
  · refine ⟨String.ofList (Text.Utf8.decode octets), answers_string rfl, ?_⟩
    have given : Answers now "bytes" [.string (String.ofList (Text.Utf8.decode octets))] _ :=
      answers_bytes _
    rw [← Text.Utf8.encode_decode_iff, octetsOf, String.toList_ofList] at *
    constructor
    · intro same
      simpa using (given false 0 none).unique (same false 0 none)
    · intro same
      rwa [same] at given
  · intro name low high wrap reads s few
    exact ⟨answers_ok_iff reads few, answers_of_not_denotes reads few⟩

/-- The least and the greatest integer, characters of several octets, octets that are too many for the
character that they write, and texts with a sign. -/
theorem conversions_invert_printing_odd :
    (∃ text, Answers .epoch "string" [.int minInt] (.ok (.string text)) ∧
      Answers .epoch "int" [.string text] (.ok (.int minInt))) ∧
    (∃ text, Answers .epoch "string" [.uint maxUInt] (.ok (.string text)) ∧
      Answers .epoch "uint" [.string text] (.ok (.uint maxUInt))) ∧
    (∃ octets, Answers .epoch "bytes" [.string "é😀"] (.ok (.bytes octets)) ∧
      Answers .epoch "string" [.bytes octets] (.ok (.string "é😀"))) ∧
    (∃ text, Answers .epoch "string" [.bytes [0xC0, 0x80]] (.ok (.string text)) ∧
      ¬Answers .epoch "bytes" [.string text] (.ok (.bytes [0xC0, 0x80]))) ∧
    Answers .epoch "int" [.string "-007"] (.ok (.int (-7))) ∧
    ∃ detail, Answers .epoch "uint" [.string "-7"] (.error (.functionError "uint" detail)) := by
  obtain ⟨ints, uints, strings, octets, texts⟩ := conversions_invert_printing .epoch
  refine ⟨ints minInt (by decide), uints maxUInt (by decide), strings "é😀", ?_, ?_, ?_⟩
  · obtain ⟨text, written, back⟩ := octets [0xC0, 0x80]
    refine ⟨text, written, fun same => ?_⟩
    have other : Text.Utf8.encode (Text.Utf8.decode [0xC0, 0x80]) ≠ [0xC0, 0x80] := by decide
    exact other ((Text.Utf8.encode_decode_iff _).mpr (back.mp same))
  · have denotes : DenotesInteger "-007".toList (-7) :=
      @DenotesInteger.negative ['0', '0', '7'] (by decide) (by decide)
    exact ((texts "int" _ _ _ .int "-007" (by decide)).1 (.int (-7))).mpr
      ⟨-7, denotes, by decide, rfl⟩
  · refine (texts "uint" _ _ _ .uint "-7" (by decide)).2 ?_
    rintro ⟨n, denotes, nonnegative, -⟩
    obtain ⟨-, rfl⟩ := denotesInteger_iff_isInteger.mp denotes
    exact absurd nonnegative (by decide)

end ExprLang
