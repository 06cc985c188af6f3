import SupplyGauge.Text.Ranges
/-! # White space

`isBlank` is the white space of settings texts and attribute values: the
characters with the Unicode property White_Space and the four information
separators U+001C to U+001F. Numerals may be padded with the former only.
-/

namespace SupplyGauge.Text

/-- Boundaries of white space, with the information separators. -/
def blankBounds : List Nat := [
  9, 14, 28, 33, 133, 134, 160, 161, 5760, 5761, 8192, 8203, 8232, 8234, 8239, 8240, 8287, 8288,
  12288, 12289]

def isBlank (c : Char) : Bool := inBounds blankBounds c

/-- White space that may stand around a numeral: all but the information separators. -/
def isPadding (c : Char) : Bool := isBlank c && !(28 ≤ c.toNat && c.toNat ≤ 31)

/-- The text without the characters of a class at its two ends. -/
def trim (blank : Char → Bool) (text : List Char) : List Char :=
  ((text.dropWhile blank).reverse.dropWhile blank).reverse

end SupplyGauge.Text
