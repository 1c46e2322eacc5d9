/-!
Physical dimensions: integer exponents of eight base quantities. Products add exponents, quotients
subtract them and powers multiply them (`exponent_mul`, `exponent_div`, `exponent_pow`).
-/

set_option autoImplicit false
set_option relaxedAutoImplicit false

namespace DeviceLink

/-- The base quantities. Angle is one of its own, so that a rate of turning is no frequency. -/
inductive Base where
  | length
  | mass
  | time
  | current
  | temperature
  | substance
  | luminosity
  | angle
deriving DecidableEq, Repr

namespace Base

def all : List Base :=
  [length, mass, time, current, temperature, substance, luminosity, angle]

def name : Base → String
  | length => "length"
  | mass => "mass"
  | time => "time"
  | current => "current"
  | temperature => "temperature"
  | substance => "substance"
  | luminosity => "luminosity"
  | angle => "angle"

def ofName? (name : String) : Option Base :=
  all.find? (·.name == name)

end Base

/-- The exponents of the base quantities. -/
structure Dimension where
  length : Int := 0
  mass : Int := 0
  time : Int := 0
  current : Int := 0
  temperature : Int := 0
  substance : Int := 0
  luminosity : Int := 0
  angle : Int := 0
deriving DecidableEq, Repr

namespace Dimension

def none : Dimension := {}

def exponent (d : Dimension) : Base → Int
  | .length => d.length
  | .mass => d.mass
  | .time => d.time
  | .current => d.current
  | .temperature => d.temperature
  | .substance => d.substance
  | .luminosity => d.luminosity
  | .angle => d.angle

def ofExponents (f : Base → Int) : Dimension :=
  ⟨f .length, f .mass, f .time, f .current, f .temperature, f .substance, f .luminosity, f .angle⟩

def base (b : Base) : Dimension :=
  ofExponents fun other => if other = b then 1 else 0

def mul (d e : Dimension) : Dimension :=
  ofExponents fun b => d.exponent b + e.exponent b

def div (d e : Dimension) : Dimension :=
  ofExponents fun b => d.exponent b - e.exponent b

def pow (d : Dimension) (n : Int) : Dimension :=
  ofExponents fun b => d.exponent b * n

instance : Mul Dimension := ⟨mul⟩
instance : Div Dimension := ⟨div⟩

/-- How one base quantity appears in the text of a dimension; without an exponent it does not. -/
def part (d : Dimension) (b : Base) : Option String :=
  if d.exponent b = 0 then Option.none
  else if d.exponent b = 1 then some ("[" ++ b.name ++ "]")
  else some ("[" ++ b.name ++ "]^" ++ toString (d.exponent b))

def text (d : Dimension) : String :=
  if d = none then "dimensionless"
  else " * ".intercalate (Base.all.filterMap d.part)

@[simp] theorem exponent_ofExponents (f : Base → Int) (b : Base) :
    (ofExponents f).exponent b = f b := by
  cases b <;> rfl

@[simp] theorem exponent_mul (d e : Dimension) (b : Base) :
    (d * e).exponent b = d.exponent b + e.exponent b :=
  exponent_ofExponents _ b

@[simp] theorem exponent_div (d e : Dimension) (b : Base) :
    (d / e).exponent b = d.exponent b - e.exponent b :=
  exponent_ofExponents _ b

@[simp] theorem exponent_pow (d : Dimension) (n : Int) (b : Base) :
    (d.pow n).exponent b = d.exponent b * n :=
  exponent_ofExponents _ b

end Dimension

end DeviceLink
