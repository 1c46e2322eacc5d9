import DeviceLink.Number.Format

/-!
Binary64 numbers with exact arithmetic: every operation is defined on the exact values of its
operands and rounds once. There is one way to be not a number, and two zeros.
-/

set_option autoImplicit false
set_option relaxedAutoImplicit false

namespace DeviceLink.Number

/-- A binary64 number, held as its bit pattern. -/
structure Binary64 where
  bits : UInt64
deriving DecidableEq, Inhabited

namespace Binary64

def ofCode (negative : Bool) (code : Nat) : Binary64 :=
  ⟨UInt64.ofNat (if negative then twoTo 63 + code else code)⟩

def isNegative (x : Binary64) : Bool :=
  twoTo 63 ≤ x.bits.toNat

def code (x : Binary64) : Nat :=
  x.bits.toNat % twoTo 63

def nan : Binary64 := ⟨0x7FF8000000000000⟩

def infinite (negative : Bool) : Binary64 :=
  ofCode negative Format.binary64.infinity

def isNaN (x : Binary64) : Bool :=
  Format.binary64.infinity < x.code

def isInfinite (x : Binary64) : Bool :=
  x.code == Format.binary64.infinity

def isFinite (x : Binary64) : Bool :=
  x.code < Format.binary64.infinity

def isZero (x : Binary64) : Bool :=
  x.code == 0

/-- The exact magnitude of a finite number, in multiples of two to the power -1074. -/
def units (x : Binary64) : Nat :=
  Format.binary64.units x.code

def unitsOfOne : Nat :=
  twoTo Format.binary64.scale

def ofRatio (negative : Bool) (n d : Nat) : Binary64 :=
  ofCode negative (Format.binary64.nearest (n * unitsOfOne) d)

def ofNat (n : Nat) : Binary64 :=
  ofRatio false n 1

def ofInt (n : Int) : Binary64 :=
  ofRatio (n < 0) n.natAbs 1

def neg (x : Binary64) : Binary64 :=
  ofCode (!x.isNegative) x.code

def mul (x y : Binary64) : Binary64 :=
  let negative := x.isNegative != y.isNegative
  if x.isNaN || y.isNaN then nan
  else if x.isInfinite then if y.isZero then nan else infinite negative
  else if y.isInfinite then if x.isZero then nan else infinite negative
  else ofCode negative (Format.binary64.nearest (x.units * y.units) unitsOfOne)

def div (x y : Binary64) : Binary64 :=
  let negative := x.isNegative != y.isNegative
  if x.isNaN || y.isNaN then nan
  else if x.isInfinite then if y.isInfinite then nan else infinite negative
  else if y.isInfinite then ofCode negative 0
  else if y.isZero then if x.isZero then nan else infinite negative
  else ofCode negative (Format.binary64.nearest (x.units * unitsOfOne) y.units)

instance : Mul Binary64 := ⟨mul⟩
instance : Div Binary64 := ⟨div⟩
instance : Neg Binary64 := ⟨neg⟩

/-- Equality of values: the two zeros are equal, and what is no number equals nothing. -/
def same (x y : Binary64) : Bool :=
  !x.isNaN && !y.isNaN && (x == y || (x.isZero && y.isZero))

/-- The integer that a finite number without fractional part denotes. -/
def whole? (x : Binary64) : Option Int :=
  if x.isFinite && x.units % unitsOfOne == 0 then
    let n : Int := Int.ofNat (x.units / unitsOfOne)
    some (if x.isNegative then -n else n)
  else none

def one : Binary64 := ofNat 1

/-- The running product and the running square of a power by repeated squaring. -/
def powFrom (product square : Binary64) (n : Nat) : Binary64 :=
  let product := if n % 2 = 1 then product * square else product
  if h : n < 2 then product
  else powFrom product (square * square) (n / 2)
termination_by n

/-- A power with an integer exponent, by repeated squaring; a negative exponent takes the inverse
at the end. -/
def pow (x : Binary64) (n : Int) : Binary64 :=
  let p := powFrom one x n.natAbs
  if n < 0 then one / p else p

def toBinary32 (x : Binary64) : UInt32 :=
  let sign := if x.isNegative then twoTo 31 else 0
  if x.isNaN then 0x7FC00000
  else if x.isInfinite then UInt32.ofNat (sign + Format.binary32.infinity)
  else
    let gap := Format.binary64.scale - Format.binary32.scale
    UInt32.ofNat (sign + Format.binary32.nearest x.units (twoTo gap))

def isFinite32 (bits : UInt32) : Bool :=
  bits.toNat % twoTo 31 < Format.binary32.infinity

/-- The number that a binary32 bit pattern denotes, which binary64 holds exactly. -/
def ofBinary32 (bits : UInt32) : Binary64 :=
  let negative := decide (twoTo 31 ≤ bits.toNat)
  let code := bits.toNat % twoTo 31
  if Format.binary32.infinity < code then nan
  else if code = Format.binary32.infinity then infinite negative
  else
    let gap := Format.binary64.scale - Format.binary32.scale
    ofCode negative (Format.binary64.nearest (Format.binary32.units code * twoTo gap) 1)

end Binary64

end DeviceLink.Number
