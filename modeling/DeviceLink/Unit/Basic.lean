import DeviceLink.Unit.Dimension
import DeviceLink.Number.Numeral

/-!
Units and quantities. A unit is a factor relative to the coherent unit of its dimension, with the
expression it was written as; quantities are magnitudes in a unit.
-/

set_option autoImplicit false
set_option relaxedAutoImplicit false

namespace DeviceLink

open Number (Binary64)

/-- What a unit means: its dimension and its factor relative to the coherent unit of it. -/
structure Measure where
  factor : Binary64
  dimension : Dimension
deriving DecidableEq

namespace Measure

def ofNumber (x : Binary64) : Measure := ⟨x, .none⟩

def times (a b : Measure) : Measure :=
  ⟨a.factor * b.factor, a.dimension * b.dimension⟩

def per (a b : Measure) : Measure :=
  ⟨a.factor / b.factor, a.dimension / b.dimension⟩

def pow (a : Measure) (n : Int) : Measure :=
  ⟨a.factor.pow n, a.dimension.pow n⟩

def scaled (a : Measure) (scale : Binary64) : Measure :=
  ⟨a.factor * scale, a.dimension⟩

end Measure

structure MeasureUnit where
  name : String
  measure : Measure
deriving DecidableEq

/-- Two quantities do not share a dimension. -/
structure ConversionError where
  source : String
  sourceDimension : Dimension
  target : String
  targetDimension : Dimension
deriving DecidableEq

def ConversionError.message (e : ConversionError) : String :=
  "cannot convert from '" ++ e.source ++ "' (" ++ e.sourceDimension.text ++ ") to '" ++
    e.target ++ "' (" ++ e.targetDimension.text ++ ")"

namespace MeasureUnit

def factor (u : MeasureUnit) : Binary64 := u.measure.factor

def dimension (u : MeasureUnit) : Dimension := u.measure.dimension

def dimensionless : MeasureUnit := ⟨"dimensionless", .ofNumber .one⟩

def isPlain (u : MeasureUnit) : Bool :=
  u.dimension = .none && u.factor.same .one

def same (u v : MeasureUnit) : Bool :=
  u.dimension = v.dimension && u.factor.same v.factor

/-- The factor from magnitudes in one unit to magnitudes in another. -/
def conversionFactor (u v : MeasureUnit) : Except ConversionError Binary64 :=
  if u.dimension ≠ v.dimension then .error ⟨u.name, u.dimension, v.name, v.dimension⟩
  else if u.factor.same v.factor then .ok .one
  else .ok (u.factor / v.factor)

end MeasureUnit

structure Quantity where
  magnitude : Binary64
  unit : MeasureUnit
deriving DecidableEq

namespace Quantity

def convert (q : Quantity) (u : MeasureUnit) : Except ConversionError Quantity :=
  (q.unit.conversionFactor u).map fun factor => ⟨q.magnitude * factor, u⟩

def magnitudeIn (q : Quantity) (u : MeasureUnit) : Except ConversionError Binary64 :=
  (q.convert u).map (·.magnitude)

/-- The text of a quantity; a unit that leaves magnitudes as they are is not written. -/
def text (q : Quantity) : String :=
  if q.unit.isPlain then q.magnitude.text else q.magnitude.text ++ " " ++ q.unit.name

end Quantity

end DeviceLink
