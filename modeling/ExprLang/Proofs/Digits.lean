import Mathlib.Algebra.Ring.Nat
import ExprLang.Number.Decimal
import ExprLang.Text.Quoted

/-!
# Digits that read back

Runs of digits, decimal or hexadecimal, padded with zeros or not, denote the number that they were
written for.

* `digitsValue_padded`: a number padded to a width.
* `hexValue_hex`: the digits of a numeric escape.
-/

namespace ExprLang

/-! ### Runs of characters of one class -/

namespace Text

/-- A property of the characters of a list is decided on the list, never on all characters. -/
instance (priority := high) decidableForallMem (p : Char → Prop) [DecidablePred p]
    (cs : List Char) :
    Decidable (∀ c ∈ cs, p c) :=
  List.decidableBAll p cs

variable {p : Char → Bool} {body rest : List Char}

/-- A run ends where a character of another class, or the end of the text, follows. -/
theorem takeWhile_run
    (inside : ∀ c ∈ body, p c = true)
    (boundary : ∀ c ∈ rest.head?, p c = false) :
    (body ++ rest).takeWhile p = body := by
  have stop : rest.takeWhile p = [] := by
    cases rest <;> simp_all
  rw [List.takeWhile_append_of_pos inside, stop, List.append_nil]

theorem dropWhile_run
    (inside : ∀ c ∈ body, p c = true)
    (boundary : ∀ c ∈ rest.head?, p c = false) :
    (body ++ rest).dropWhile p = rest := by
  have stop : rest.dropWhile p = rest := by
    cases rest <;> simp_all
  rw [List.dropWhile_append_of_pos inside, stop]

/-- Nothing is dropped at the ends of a text that has no character of the class. -/
theorem trim_eq_self
    (outside : ∀ c ∈ body, p c = false) :
    ((body.dropWhile p).reverse.dropWhile p).reverse = body := by
  have keep : ∀ {cs : List Char}, (∀ c ∈ cs, p c = false) → cs.dropWhile p = cs := by
    intro cs outside
    cases cs <;> simp_all
  rw [keep outside, keep fun c member => outside c (List.mem_reverse.mp member),
    List.reverse_reverse]

end Text

namespace Number

/-! ### Decimal digits -/

/-- A number below ten to the given power has at most that many digits. -/
theorem length_toDigits_le
    {b n width : Nat}
    (base : 1 < b)
    (positive : 0 < width)
    (fits : n < b ^ width) :
    (Nat.toDigits b n).length ≤ width :=
  (Nat.length_toDigits_le_iff base positive).mpr fits

theorem toList_padded
    (width n : Nat) :
    (padded width n).toList =
      List.replicate (width - (Nat.toDigits 10 n).length) '0' ++ Nat.toDigits 10 n := by
  simp [padded]

theorem length_padded
    {width n : Nat}
    (positive : 0 < width)
    (fits : n < 10 ^ width) :
    (padded width n).toList.length = width := by
  have short := length_toDigits_le (by decide) positive fits
  simp only [toList_padded, List.length_append, List.length_replicate]
  omega

theorem isDigit_of_mem_toDigits
    {n : Nat} {c : Char}
    (member : c ∈ Nat.toDigits 10 n) :
    c.isDigit = true :=
  Nat.isDigit_of_mem_toDigits (by decide) (by decide) member

theorem isDigit_of_mem_padded
    {width n : Nat} {c : Char}
    (member : c ∈ (padded width n).toList) :
    c.isDigit = true := by
  rw [toList_padded, List.mem_append] at member
  rcases member with zero | digit
  · rw [List.eq_of_mem_replicate zero]
    rfl
  · exact isDigit_of_mem_toDigits digit

/-- A padded number denotes the number. -/
theorem digitsValue_padded
    (width n : Nat) :
    digitsValue (padded width n).toList = n := by
  rw [digitsValue, toList_padded, Nat.ofDigitChars_append, Nat.ofDigitChars_replicate_zero,
    Nat.mul_zero]
  exact digitsValue_toDigits n

/-! ### Hexadecimal digits -/

theorem hexValue?_digitChar :
    ∀ d < 16, hexValue? (Nat.digitChar d) = some d := by
  decide

theorem hexValue_append_digit
    (digits : List Char)
    (c : Char) :
    hexValue (digits ++ [c]) = 16 * hexValue digits + (hexValue? c).getD 0 := by
  simp [hexValue]

theorem hexValue_toDigits
    (n : Nat) :
    hexValue (Nat.toDigits 16 n) = n := by
  induction n using Nat.strongRecOn with
  | ind n ih =>
      by_cases single : n < 16
      · rw [Nat.toDigits_of_lt_base single]
        simp [hexValue, hexValue?_digitChar n single]
      · rw [Nat.toDigits_of_base_le (by decide) (by omega), hexValue_append_digit,
          ih (n / 16) (by omega), hexValue?_digitChar _ (Nat.mod_lt _ (by decide))]
        simp only [Option.getD_some]
        omega

theorem isHexDigit_of_mem_toDigits
    {n : Nat} {c : Char}
    (member : c ∈ Nat.toDigits 16 n) :
    isHexDigit c = true := by
  induction n using Nat.strongRecOn with
  | ind n ih =>
      by_cases single : n < 16
      · rw [Nat.toDigits_of_lt_base single, List.mem_singleton] at member
        rw [member, isHexDigit, hexValue?_digitChar n single]
        rfl
      · rw [Nat.toDigits_of_base_le (by decide) (by omega), List.mem_append,
          List.mem_singleton] at member
        rcases member with front | rfl
        · exact ih (n / 16) (by omega) front
        · rw [isHexDigit, hexValue?_digitChar _ (Nat.mod_lt _ (by decide))]
          rfl

theorem hexValue_zeros
    (count : Nat)
    (digits : List Char) :
    hexValue (List.replicate count '0' ++ digits) = hexValue digits := by
  induction count with
  | zero => rfl
  | succ count ih => rwa [List.replicate_succ, List.cons_append, hexValue, List.foldl_cons]

end Number

/-! ### Digits of numeric escapes -/

namespace Text
namespace Quoted

open Number

theorem hexValue_hex
    (width n : Nat) :
    hexValue (hex width n) = n := by
  rw [hex, hexValue_zeros, hexValue_toDigits]

theorem length_hex
    {width n : Nat}
    (positive : 0 < width)
    (fits : n < 16 ^ width) :
    (hex width n).length = width := by
  have short := length_toDigits_le (by decide) positive fits
  simp only [hex, List.length_append, List.length_replicate]
  omega

theorem isHexDigit_of_mem_hex
    {width n : Nat} {c : Char}
    (member : c ∈ hex width n) :
    isHexDigit c = true := by
  rw [hex, List.mem_append] at member
  rcases member with zero | digit
  · rw [List.eq_of_mem_replicate zero]
    rfl
  · exact isHexDigit_of_mem_toDigits digit

end Quoted
end Text
end ExprLang
