/-!
# Ranges of code points

A character class of the Unicode standard is kept as an ascending list of closed ranges of code
points.  `InRanges` is the membership test that every class module of this folder uses.
-/

namespace ExprLang
namespace Text

/-- Whether the code point of `c` lies in one of the closed ranges. -/
def InRanges (ranges : List (Nat × Nat)) (c : Char) : Bool :=
  ranges.any fun (low, high) => low ≤ c.toNat && c.toNat ≤ high

end Text
end ExprLang
