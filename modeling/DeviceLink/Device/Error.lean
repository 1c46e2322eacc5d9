import DeviceLink.Device.Transport
import DeviceLink.Fingerprint
import DeviceLink.Unit.Expression

/-!
What can go wrong when a device is used through its tree.
-/

set_option autoImplicit false
set_option relaxedAutoImplicit false

namespace DeviceLink

/-- Why the use of a device failed. -/
inductive DeviceError where
  | missing (node name : String)
  | wrongKind (path : String) (kind : Kind) (expected : String)
  | notReadable (path : String)
  | notWritable (path : String)
  | argumentCount (path : String) (expected given : Nat)
  | invalidValue (path value : String)
  | hashMismatch (schema device : UInt32)
  | transport (error : TransportError)
  | codec (error : Wire.Error)
  | conversion (error : ConversionError)
  | option (error : OptionError)
  | quantity (error : QuantityError)
  | scalar (error : ScalarError)
deriving DecidableEq

namespace DeviceError

def message : DeviceError → String
  | missing node name => "'" ++ node ++ "' has no attribute '" ++ name ++ "'"
  | wrongKind path kind expected =>
    "'" ++ path ++ "' is a " ++ kind.name ++ ", not a " ++ expected
  | notReadable path => "'" ++ path ++ "' has no getter"
  | notWritable path => "'" ++ path ++ "' has no setter"
  | argumentCount path expected given =>
    "'" ++ path ++ "' takes " ++ toString expected ++ " argument(s), " ++ toString given ++ " given"
  | invalidValue path value => "'" ++ path ++ "' cannot accept " ++ value
  | hashMismatch schema device =>
    "device hash " ++ hexLiteral device ++ " does not match schema hash " ++ hexLiteral schema
  | transport error => error.message
  | codec error => error.message
  | conversion error => error.message
  | option error => error.message
  | quantity error => error.message
  | scalar error => error.message

def isTimeout : DeviceError → Bool
  | transport (.timeout _ _) => true
  | _ => false

end DeviceError

end DeviceLink
