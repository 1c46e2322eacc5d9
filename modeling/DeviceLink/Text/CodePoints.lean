/-!
Sets of characters given by the code points at which membership changes. A text table of a Unicode
property is one such list, and membership is read off the number of changes passed.
-/

set_option autoImplicit false
set_option relaxedAutoImplicit false

namespace DeviceLink.Text

/-- A set of code points, as the increasing list of the points where membership flips, starting
outside the set. -/
structure CodePoints where
  toggles : List Nat

/-- Membership after `inside` was reached and the flips up to the code point are still to come. -/
def CodePoints.holdsFrom (n : Nat) : Bool → List Nat → Bool
  | inside, [] => inside
  | inside, t :: rest => if n < t then inside else CodePoints.holdsFrom n (!inside) rest

/-- A character belongs to the set when an odd number of flips lie at or below it. -/
def CodePoints.contains (set : CodePoints) (c : Char) : Bool :=
  CodePoints.holdsFrom c.toNat false set.toggles

end DeviceLink.Text
