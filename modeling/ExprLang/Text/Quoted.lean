import ExprLang.Text.Printable
import ExprLang.Text.Utf8

/-!
# Text quoted inside messages

Messages show text and octets as quoted literals.  The quote is the apostrophe unless the text
holds an apostrophe and no double quote.  Backslash, the quote in use and what is not printable
are escaped.
-/

namespace ExprLang
namespace Text
namespace Quoted

/-- The lower-case hexadecimal digits of a number, padded with zeros to a width. -/
def hex (width n : Nat) : List Char :=
  let digits := Nat.toDigits 16 n
  List.replicate (width - digits.length) '0' ++ digits

/-- The numeric escape of a character: two, four or eight digits, as few as hold its code point. -/
def numericEscape (c : Char) : List Char :=
  if c.toNat < 0x100 then '\\' :: 'x' :: hex 2 c.toNat
  else if c.toNat < 0x10000 then '\\' :: 'u' :: hex 4 c.toNat
  else '\\' :: 'U' :: hex 8 c.toNat

/-- The quote that a text is shown in. -/
def quoteFor (cs : List Char) : Char :=
  if cs.contains '\'' && !cs.contains '"' then '"' else '\''

/-- How one character is shown between the given quotes; `plain` tells which characters stand for
themselves. -/
def escape (plain : Char → Bool) (quote c : Char) : List Char :=
  if c = '\\' ∨ c = quote then ['\\', c]
  else if c = '\n' then ['\\', 'n']
  else if c = '\r' then ['\\', 'r']
  else if c = '\t' then ['\\', 't']
  else if plain c then [c]
  else numericEscape c

/-- Characters between quotes. -/
def enclose (plain : Char → Bool) (cs : List Char) : List Char :=
  let quote := quoteFor cs
  quote :: cs.flatMap (escape plain quote) ++ [quote]

/-- A text as a quoted literal. -/
def text (s : String) : String :=
  String.ofList (enclose isPrintable s.toList)

/-- Octets as a quoted literal: printable ASCII stands for itself. -/
def octets (data : List UInt8) : String :=
  String.ofList ('b' :: enclose (fun c => 32 ≤ c.toNat && c.toNat < 127)
    (data.map fun octet => Char.ofNat octet.toNat))

end Quoted
end Text
end ExprLang
