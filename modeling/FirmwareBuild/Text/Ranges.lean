import FirmwareBuild.Text.CodePoint

/-! Sets of code points, given by ascending ranges of code points.

`inRanges` stops at the first range that ends past the code point, so a short prefix of
the table answers for the ASCII characters. -/
namespace FirmwareBuild.Text

/-- Whether a code point lies in one of the ranges, which are disjoint and ascending. -/
def coveredBy : List (Nat × Nat) → Nat → Bool
  | [], _ => false
  | (lo, hi) :: rest, n => if n < lo then false else if n ≤ hi then true else coveredBy rest n

/-- Whether a code point lies in one of the ranges. -/
def inRanges (ranges : List (Nat × Nat)) (c : CodePoint) : Bool := coveredBy ranges c.toNat

end FirmwareBuild.Text
