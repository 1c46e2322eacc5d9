import DeviceLink.Number.Power

/-!
Binary floating-point formats as grids of exact values. A magnitude code is the bit pattern of a
number without its sign; the codes below `infinity` count the representable values upwards from
zero, and `units` gives each of them exactly, in multiples of the least positive value. Rounding is
the search for the nearest code, a half going to the even one.
-/

set_option autoImplicit false
set_option relaxedAutoImplicit false

namespace DeviceLink.Number

/-- The widths of a binary interchange format: bits of the fraction and of the exponent field. -/
structure Format where
  fraction : Nat
  exponent : Nat
deriving DecidableEq

def Format.binary64 : Format := ⟨52, 11⟩

def Format.binary32 : Format := ⟨23, 8⟩

namespace Format

def hidden (f : Format) : Nat :=
  twoTo f.fraction

/-- The magnitude code of infinity; larger codes stand for no number. -/
def infinity (f : Format) : Nat :=
  (twoTo f.exponent - 1) * f.hidden

def scale (f : Format) : Nat :=
  twoTo (f.exponent - 1) + f.fraction - 2

/-- The exact value of a magnitude code, in multiples of the least positive value. -/
def units (f : Format) (code : Nat) : Nat :=
  if code < f.hidden then code
  else (f.hidden + code % f.hidden) * twoTo (code / f.hidden - 1)

end Format

/-- The whole number nearest to `n / d`, a half going to the even neighbour. -/
def roundHalfEven (n d : Nat) : Nat :=
  if 2 * (n % d) < d then n / d
  else if d < 2 * (n % d) then n / d + 1
  else n / d + n / d % 2

/-- The magnitude code nearest to `n / d` least positive values; from halfway beyond the largest
finite value on it is infinity. -/
def Format.nearest (f : Format) (n d : Nat) : Nat :=
  let place := Nat.log2 (n / d) - f.fraction
  min (place * f.hidden + roundHalfEven n (d * twoTo place)) f.infinity

end DeviceLink.Number
