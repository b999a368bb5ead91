/-! Blanks: the characters of Unicode's `White_Space` property, and trimming by them.

Every field of the library that is "trimmed" is trimmed by this one class. -/
namespace Aggregation.Text

/-- The property's code points, as inclusive ranges in ascending order. -/
def blankRanges : List (Nat × Nat) :=
  [(0x9, 0xD), (0x20, 0x20), (0x85, 0x85), (0xA0, 0xA0), (0x1680, 0x1680), (0x2000, 0x200A),
   (0x2028, 0x2029), (0x202F, 0x202F), (0x205F, 0x205F), (0x3000, 0x3000)]

/-- Whether a code point lies in one of the ranges. They ascend, so none is looked at behind one
that starts above it. -/
def inRanges : (ranges : List (Nat × Nat)) → (n : Nat) → Bool
  | [], _ => false
  | (lo, hi) :: rest, n => Nat.ble lo n && (Nat.ble n hi || inRanges rest n)

/-- A blank character. -/
def isBlank (c : Char) : Bool :=
  inRanges blankRanges c.toNat

def trimStart (cs : List Char) : List Char :=
  cs.dropWhile isBlank

def trimEnd (cs : List Char) : List Char :=
  (cs.reverse.dropWhile isBlank).reverse

/-- The text without the blanks at its two ends. -/
def trim (cs : List Char) : List Char :=
  trimEnd (trimStart cs)

end Aggregation.Text
