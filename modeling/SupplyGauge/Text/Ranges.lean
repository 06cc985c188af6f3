/-! # Sets of characters as boundary lists

A set of code points is given by the increasing list of the code points at
which membership changes, beginning outside the set.
-/

namespace SupplyGauge.Text

/-- Whether `code` lies in the set with these boundaries, given membership so far. -/
def insideBounds (code : Nat) : List Nat → Bool → Bool
  | [], inside => inside
  | b :: rest, inside => if b ≤ code then insideBounds code rest (!inside) else inside

/-- Membership of a character in the set with these boundaries. -/
def inBounds (bounds : List Nat) (c : Char) : Bool := insideBounds c.toNat bounds false

end SupplyGauge.Text
