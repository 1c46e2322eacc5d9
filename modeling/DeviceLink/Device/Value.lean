import DeviceLink.Options
import DeviceLink.Scalar
import DeviceLink.Unit.Basic

/-!
Values as a host sees them: scalars, quantities, options and sets of flags.
-/

set_option autoImplicit false
set_option relaxedAutoImplicit false

namespace DeviceLink

open Number (Binary64)

/-- A value of an endpoint, an argument or a result. -/
inductive Value where
  /-- The result of a call that has none. -/
  | void
  | scalar (value : Scalar)
  | quantity (value : Quantity)
  | option (value : OptionValue)
  /-- The names of the flags that are set. -/
  | flags (names : List String)
deriving DecidableEq

namespace Value

def number? : Value → Option Binary64
  | scalar value => value.number?
  | quantity value => some value.magnitude
  | option value => some (.ofNat value.index.toNat)
  | void | flags _ => none

def text : Value → String
  | void => "void"
  | scalar value => value.toText
  | quantity value => value.text
  | option value => value.name
  | flags [] => "(no flags)"
  | flags names => " ".intercalate names

def toJson : Value → Json
  | void => .null
  | scalar value => value.toJson
  | quantity value => .string value.text
  | option value => .string value.name
  | flags names => .array (names.map .string)

/-- A decoded scalar with the unit of its endpoint; truth values and texts have no unit. -/
def ofScalar (value : Scalar) (unit : Option MeasureUnit) : Value :=
  match unit, value, value.number? with
  | some _, .bool b, _ => scalar (.bool b)
  | some unit, _, some magnitude => quantity ⟨magnitude, unit⟩
  | _, value, _ => scalar value

/-- The scalar that is sent for a value, where quantities are converted to a unit. Nothing is sent
for a set of flags or for no result. -/
def toScalar? (value : Value) (unit : Option MeasureUnit) :
    Except ConversionError (Option Scalar) :=
  match value with
  | scalar value => .ok (some value)
  | quantity value =>
    (value.magnitudeIn (unit.getD .dimensionless)).map fun magnitude => some (.real magnitude)
  | option value => .ok (some (.unsigned value.index.toUInt64))
  | void | flags _ => .ok none

end Value

end DeviceLink
