import Shortcode.Text.Basic

/-!
# Ranges of characters

Properties of characters are tables of ranges of code points, bounds included.
-/

namespace Shortcode

/-- A table of ranges of code points. -/
abbrev CharRanges :=
  List (Nat × Nat)

/-- Whether a character lies in one of the ranges. -/
def CharRanges.has (ranges : CharRanges) (c : Char) : Bool :=
  ranges.any fun (first, last) => first ≤ c.toNat && c.toNat ≤ last

end Shortcode
