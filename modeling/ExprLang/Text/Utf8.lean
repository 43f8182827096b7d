/-!
# UTF-8

`encode` writes text as octets, `decode` reads octets as text and puts one replacement character
for each maximal ill-formed part: the longest run of octets that starts a well-formed sequence,
or a single octet where none does.

The reader is a machine that takes one octet at a time.  Between two octets it knows whether a
sequence is open, how many octets that sequence still wants, and in which range the next has to
lie.
-/

namespace ExprLang
namespace Text
namespace Utf8

/-- What is written for octets that are not well-formed. -/
def replacement : Char := '\uFFFD'

/-- The octets of one character. -/
def encodeChar (c : Char) : List UInt8 :=
  String.utf8EncodeChar c

/-- The octets of a text. -/
def encode (cs : List Char) : List UInt8 :=
  cs.flatMap encodeChar

/-- An open sequence: the octets it still wants, the bits read so far, and the closed range in
which the next octet has to lie. -/
structure Pending where
  wanted : Nat
  bits : Nat
  low : Nat
  high : Nat
deriving DecidableEq

/-- The sequence that an octet of value 128 or more opens, if any does. -/
def opened? (octet : Nat) : Option Pending :=
  if 0xC2 ≤ octet ∧ octet ≤ 0xDF then some ⟨1, octet - 0xC0, 0x80, 0xBF⟩
  else if octet = 0xE0 then some ⟨2, 0, 0xA0, 0xBF⟩
  else if octet = 0xED then some ⟨2, 0xD, 0x80, 0x9F⟩
  else if 0xE1 ≤ octet ∧ octet ≤ 0xEF then some ⟨2, octet - 0xE0, 0x80, 0xBF⟩
  else if octet = 0xF0 then some ⟨3, 0, 0x90, 0xBF⟩
  else if 0xF1 ≤ octet ∧ octet ≤ 0xF3 then some ⟨3, octet - 0xF0, 0x80, 0xBF⟩
  else if octet = 0xF4 then some ⟨3, 4, 0x80, 0x8F⟩
  else none

/-- An octet where no sequence is open: what it completes, and what it opens. -/
def start (octet : Nat) : List (Option Char) × Option Pending :=
  if octet < 0x80 then
    ([some (Char.ofNat octet)], none)
  else
    match opened? octet with
    | some pending => ([], some pending)
    | none => ([none], none)

/-- One octet.  An octet that the open sequence cannot take ends it as ill-formed and is then
read on its own. -/
def step : Option Pending → Nat → List (Option Char) × Option Pending
  | none, octet => start octet
  | some p, octet =>
      if p.low ≤ octet ∧ octet ≤ p.high then
        if p.wanted ≤ 1 then
          ([some (Char.ofNat (p.bits * 64 + (octet - 0x80)))], none)
        else
          ([], some ⟨p.wanted - 1, p.bits * 64 + (octet - 0x80), 0x80, 0xBF⟩)
      else
        (none :: (start octet).1, (start octet).2)

/-- The characters of a sequence of octets; `none` marks each maximal ill-formed part. -/
def scan : Option Pending → List UInt8 → List (Option Char)
  | none, [] => []
  | some _, [] => [none]
  | pending, octet :: rest =>
      (step pending octet.toNat).1 ++ scan (step pending octet.toNat).2 rest

/-- Reads octets as text, with a replacement character for each maximal ill-formed part. -/
def decode (octets : List UInt8) : List Char :=
  (scan none octets).map fun c => c.getD replacement

end Utf8
end Text
end ExprLang
