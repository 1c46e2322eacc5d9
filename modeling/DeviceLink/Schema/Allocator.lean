import DeviceLink.Tree.Entity

/-!
The source of endpoint addresses: they are given out in increasing order from one on, until all are
used up.
-/

set_option autoImplicit false
set_option relaxedAutoImplicit false

namespace DeviceLink

/-- The next address to give out; address 0 is taken from the start. -/
structure Allocator where
  next : Nat := 1
deriving DecidableEq

namespace Allocator

def capacity : Nat := Number.twoTo 16

def taken (a : Allocator) : Nat :=
  a.next

/-- The next address, if there is one left, and the allocator after it. -/
def take (a : Allocator) : Option EndpointId × Allocator :=
  if a.next < capacity then (some (UInt16.ofNat a.next), ⟨a.next + 1⟩) else (none, a)

/-- The answer to the last of `n` requests, where `last` is the answer before them. -/
def takeMany (a : Allocator) (last : Option EndpointId) : Nat → Option EndpointId × Allocator
  | 0 => (last, a)
  | n + 1 => takeMany a.take.2 a.take.1 n

end Allocator

end DeviceLink
