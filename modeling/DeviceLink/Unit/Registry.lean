import DeviceLink.Unit.Basic

/-!
The names of units. A word names a unit by its full name, by a symbol, by a decimal scale before
either of them, or as a plural; `Registry.standard` holds the units known from the start.
-/

set_option autoImplicit false
set_option relaxedAutoImplicit false

namespace DeviceLink

open Number (Binary64)

/-- A decimal scale: its full name, its symbol and its value. -/
structure DecimalScale where
  name : String
  symbol : String
  value : Binary64

def tenTo (n : Int) : Binary64 :=
  .ofDecimal false ⟨1, n⟩

def decimalScales : List DecimalScale := [
  ⟨"giga", "G", tenTo 9⟩,
  ⟨"mega", "M", tenTo 6⟩,
  ⟨"kilo", "k", tenTo 3⟩,
  ⟨"centi", "c", tenTo (-2)⟩,
  ⟨"milli", "m", tenTo (-3)⟩,
  ⟨"micro", "u", tenTo (-6)⟩,
  ⟨"micro", "µ", tenTo (-6)⟩,
  ⟨"nano", "n", tenTo (-9)⟩,
  ⟨"pico", "p", tenTo (-12)⟩,
  ⟨"deci", "d", tenTo (-1)⟩]

/-- Units by full name and full names by symbol, the latest definition first. -/
structure Registry where
  units : List (String × Measure)
  symbols : List (String × String)

namespace Registry

def empty : Registry := ⟨[], []⟩

/-- A registry with one more unit; earlier meanings of its name and its symbols are hidden. -/
def define (r : Registry) (name : String) (symbols : List String) (factor : Binary64)
    (dimension : Dimension) : Registry :=
  ⟨(name, ⟨factor, dimension⟩) :: r.units,
    symbols.foldl (fun kept symbol => (symbol, name) :: kept) r.symbols⟩

def named? (r : Registry) (name : String) : Option Measure :=
  (r.units.find? (·.1 == name)).map (·.2)

def nameOf? (r : Registry) (symbol : String) : Option String :=
  (r.symbols.find? (·.1 == symbol)).map (·.2)

def symbol? (r : Registry) (symbol : String) : Option Measure :=
  (r.nameOf? symbol).bind r.named?

def afterFront? (front word : String) : Option String :=
  (front.toList.isPrefixOf? word.toList).map String.ofList

def scaledName? (r : Registry) (word : String) : Option Measure :=
  decimalScales.findSome? fun scale =>
    ((afterFront? scale.name word).bind r.named?).map (·.scaled scale.value)

def scaledSymbol? (r : Registry) (word : String) : Option Measure :=
  decimalScales.findSome? fun scale =>
    ((afterFront? scale.symbol word).bind r.symbol?).map (·.scaled scale.value)

/-- A full name with the letter s after it; words of at most three bytes are no plurals. -/
def plural? (r : Registry) (word : String) : Option Measure :=
  if 3 < word.utf8ByteSize && word.toList.getLast? = some 's' then
    r.named? (String.ofList word.toList.dropLast)
  else none

def lookup? (r : Registry) (word : String) : Option Measure :=
  match r.named? word with
  | some m => some m
  | none =>
    if (r.nameOf? word).isSome then r.symbol? word
    else (r.scaledName? word).or ((r.scaledSymbol? word).or (r.plural? word))

def pi : Binary64 := ⟨0x400921FB54442D18⟩

def turn : Binary64 := .ofNat 2 * pi

/-- The parts of a full turn that the angle encoders of devices count. -/
def ticksPerTurn : Binary64 := .ofNat 8192

def force : Dimension :=
  .base .mass * .base .length / (.base .time * .base .time)

def energy : Dimension := force * .base .length

def power : Dimension := energy / .base .time

def voltage : Dimension := power / .base .current

def charge : Dimension := .base .current * .base .time

def withBaseUnits (r : Registry) : Registry :=
  r
    |>.define "meter" ["m", "metre"] .one (.base .length)
    |>.define "gram" ["g"] (tenTo (-3)) (.base .mass)
    |>.define "second" ["s", "sec"] .one (.base .time)
    |>.define "ampere" ["A", "amp"] .one (.base .current)
    |>.define "kelvin" ["K"] .one (.base .temperature)
    |>.define "mole" ["mol"] .one (.base .substance)
    |>.define "candela" ["cd"] .one (.base .luminosity)
    |>.define "radian" ["rad"] .one (.base .angle)

def withDerivedUnits (r : Registry) : Registry :=
  let area := Dimension.base .length * .base .length
  r
    |>.define "hertz" ["Hz"] .one (.none / .base .time)
    |>.define "newton" ["N"] .one force
    |>.define "joule" ["J"] .one energy
    |>.define "watt" ["W"] .one power
    |>.define "volt" ["V"] .one voltage
    |>.define "ohm" ["Ω"] .one (voltage / .base .current)
    |>.define "siemens" ["S"] .one (.base .current / voltage)
    |>.define "coulomb" ["C"] .one charge
    |>.define "farad" ["F"] .one (charge / voltage)
    |>.define "henry" ["H"] .one (voltage * .base .time / .base .current)
    |>.define "weber" ["Wb"] .one (voltage * .base .time)
    |>.define "tesla" ["T"] .one (voltage * .base .time / area)
    |>.define "pascal" ["Pa"] .one (force / area)

def withCommonUnits (r : Registry) : Registry :=
  r
    |>.define "minute" ["min"] (.ofNat 60) (.base .time)
    |>.define "hour" ["h", "hr"] (.ofNat 3600) (.base .time)
    |>.define "degree" ["deg"] (pi / .ofNat 180) (.base .angle)
    |>.define "turn" ["revolution", "rev", "cycle"] turn (.base .angle)
    |>.define "rpm" [] (turn / .ofNat 60) (.base .angle / .base .time)
    |>.define "inch" ["in"] (.ofDecimal false ⟨254, -4⟩) (.base .length)
    |>.define "percent" ["%"] (tenTo (-2)) .none
    |>.define "dimensionless" ["count"] .one .none
    |>.define "tick" ["ticks"] (turn / ticksPerTurn) (.base .angle)

def standard : Registry :=
  empty.withBaseUnits.withDerivedUnits.withCommonUnits

end Registry

end DeviceLink
