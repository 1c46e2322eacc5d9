/-!
Powers of two and of ten as natural numbers: the bounds of machine words and the steps of decimal
places.
-/

set_option autoImplicit false
set_option relaxedAutoImplicit false

namespace DeviceLink.Number

def twoTo (n : Nat) : Nat :=
  Nat.pow 2 n

def tenTo (n : Nat) : Nat :=
  Nat.pow 10 n

end DeviceLink.Number
