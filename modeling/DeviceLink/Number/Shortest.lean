import DeviceLink.Number.Binary64

/-!
The shortest decimal that reads back as a given number. Decimals with one digit, two digits and so
on form ever finer grids; the first grid with a point in the interval of values that round to the
number wins, and of two such points beside the number the nearer one.
-/

set_option autoImplicit false
set_option relaxedAutoImplicit false

namespace DeviceLink.Number

/-- The decimal `digits` times ten to the power `exponent`. -/
structure Decimal where
  digits : Nat
  exponent : Int
deriving DecidableEq

/-- Which of two decimals is taken when the number lies halfway between them. -/
inductive Tie where
  | up
  | toEven
deriving DecidableEq

/-- An interval around a value, with the information whether its ends belong to it. -/
structure Span where
  low : Nat
  mid : Nat
  high : Nat
  closed : Bool

namespace Span

def holds (s : Span) (n : Nat) : Bool :=
  if s.closed then s.low ≤ n && n ≤ s.high else s.low < n && n < s.high

def scaleBy (s : Span) (m : Nat) : Span :=
  ⟨s.low * m, s.mid * m, s.high * m, s.closed⟩

/-- The multiple of `step` in the interval that lies nearest to its middle value, if one of the two
multiples beside that value is in the interval. -/
def multiple? (s : Span) (tie : Tie) (step : Nat) : Option Nat :=
  let below := s.mid / step
  let rest := s.mid % step
  if s.holds (below * step) then
    if s.holds ((below + 1) * step) then
      if 2 * rest < step then some below
      else if step < 2 * rest then some (below + 1)
      else match tie with
        | .up => some (below + 1)
        | .toEven => some (below + below % 2)
    else some below
  else if s.holds ((below + 1) * step) then some (below + 1)
  else none

end Span

namespace Binary64

/-- The values that round to a finite number, in multiples of two to the power -1075. -/
def span (x : Binary64) : Span where
  low := Format.binary64.units (x.code - 1) + x.units
  mid := 2 * x.units
  high := x.units + Format.binary64.units (x.code + 1)
  closed := x.code % 2 == 0

/-- The exponent of the leading decimal digit of a number that is not zero. -/
def leadingExponent (x : Binary64) : Int :=
  let digits := Nat.toDigits 10 (x.units * tenTo 400 / unitsOfOne)
  (digits.length : Int) - 401

/-- The point of the decimal grid with step ten to the power `k` that reads back as the number. -/
def onGrid? (x : Binary64) (tie : Tie) (k : Int) : Option Decimal :=
  ((x.span.scaleBy (tenTo (-k).toNat)).multiple? tie (2 * unitsOfOne * tenTo k.toNat)).map
    fun d => ⟨d, k⟩

/-- The shortest decimal that reads back as a finite number; seventeen digits always suffice. -/
def shortest (x : Binary64) (tie : Tie) : Decimal :=
  if x.isZero then ⟨0, 0⟩
  else
    let top := x.leadingExponent
    ((List.range 17).findSome? fun (n : Nat) => x.onGrid? tie (top - n)).getD ⟨0, 0⟩

end Binary64

end DeviceLink.Number
