import DeviceLink.Json.Basic

/-!
The numbers of JSON text. An integer that fits 64 bits is exact. Any other numeral is taken as a
64-bit significand, digits beyond it being dropped, times a power of ten; the power is applied with
rounded multiplications or divisions, so the result may differ from the nearest number in its last
place.
-/

set_option autoImplicit false
set_option relaxedAutoImplicit false

namespace DeviceLink.Json

/-- The parts of a numeral after its sign. -/
structure Numeral where
  whole : List Char
  /-- The digits after the point, if there is a point. -/
  fraction : Option (List Char)
  /-- The sign and the digits of the exponent, if there is one. -/
  exponent : Option (Bool × List Char)

/-- Appends digits to a significand as long as it fits 64 bits; gives the digits left over too. -/
def accumulate (m : Nat) : List Char → Nat × List Char
  | [] => (m, [])
  | c :: rest =>
    let next := 10 * m + Number.digitValue c
    if next < Number.twoTo 64 then accumulate next rest else (m, c :: rest)

def largestPower : Nat := 308

def powerOfTen (n : Nat) : Number.Binary64 :=
  Number.Binary64.ofRatio false (Number.tenTo n) 1

/-- A number divided by a power of ten, in steps of the largest one. -/
def divideByPower (x : Number.Binary64) (n : Nat) : Number.Binary64 :=
  if _h : n ≤ largestPower then x / powerOfTen n
  else if x.isZero then x
  else divideByPower (x / powerOfTen largestPower) (n - largestPower)
termination_by n
decreasing_by
  simp only [largestPower] at *
  omega

def scaled? (m : Nat) (exponent : Int) : Option Number.Binary64 :=
  let x := Number.Binary64.ofNat m
  if exponent < 0 then some (divideByPower x exponent.natAbs)
  else if exponent.natAbs ≤ largestPower then
    let y := x * powerOfTen exponent.natAbs
    if y.isInfinite then none else some y
  else if x.isZero then some x
  else none

def signed (negative : Bool) (x : Number.Binary64) : Number.Binary64 :=
  if negative then -x else x

def largestExponent : Nat := Number.twoTo 31 - 1

/-- The value of a numeral with a point, an exponent or too many digits. -/
def realOf? (negative : Bool) (m : Nat) (shift : Int) :
    Option (Bool × List Char) → Option Number.Binary64
  | none => (scaled? m shift).map (signed negative)
  | some (minus, digits) =>
    let e := Number.digitsValue 0 digits
    if largestExponent < e then
      if m ≠ 0 && !minus then none else some (signed negative (.ofNat 0))
    else
      (scaled? m (if minus then shift - e else shift + e)).map (signed negative)

def Numeral.value? (n : Numeral) (negative : Bool) : Option Json :=
  let whole := accumulate 0 n.whole
  match n.fraction, n.exponent with
  | none, none =>
    if !whole.2.isEmpty then (realOf? negative whole.1 whole.2.length none).map real
    else if !negative then some (integer whole.1)
    else if whole.1 = 0 || Number.twoTo 63 < whole.1 then some (real (-(.ofNat whole.1)))
    else some (integer (-whole.1))
  | some fraction, exponent =>
    let all := accumulate whole.1 fraction
    let shift : Int := whole.2.length - (fraction.length - all.2.length : Nat)
    (realOf? negative all.1 shift exponent).map real
  | none, some exponent => (realOf? negative whole.1 whole.2.length (some exponent)).map real

def digitsPart (cs : List Char) : Option (List Char × List Char) :=
  let digits := cs.takeWhile Char.isDigit
  if digits.isEmpty then none else some (digits, cs.dropWhile Char.isDigit)

/-- The exponent part at the front of a text, which may be missing, and the rest. -/
def exponentPart (cs : List Char) : Option (Option (Bool × List Char) × List Char) :=
  match cs with
  | c :: rest =>
    if c == 'e' || c == 'E' then
      match rest with
      | '-' :: rest => (digitsPart rest).map fun p => (some (true, p.1), p.2)
      | '+' :: rest => (digitsPart rest).map fun p => (some (false, p.1), p.2)
      | _ => (digitsPart rest).map fun p => (some (false, p.1), p.2)
    else some (none, cs)
  | [] => some (none, [])

/-- The numeral at the front of a text that starts after the sign, and the rest. A zero at the front
stands alone before the point. -/
def Numeral.read (cs : List Char) : Option (Numeral × List Char) := do
  let (whole, rest) ← digitsPart cs
  if 1 < whole.length && whole.head? == some '0' then none
  match rest with
  | '.' :: rest =>
    let (fraction, rest) ← digitsPart rest
    let (exponent, rest) ← exponentPart rest
    some (⟨whole, some fraction, exponent⟩, rest)
  | _ =>
    let (exponent, rest) ← exponentPart rest
    some (⟨whole, none, exponent⟩, rest)

def readNumber (cs : List Char) : Option (Json × List Char) :=
  match cs with
  | '-' :: cs => do
    let (n, rest) ← Numeral.read cs
    (n.value? true).map (·, rest)
  | _ => do
    let (n, rest) ← Numeral.read cs
    (n.value? false).map (·, rest)

end DeviceLink.Json
