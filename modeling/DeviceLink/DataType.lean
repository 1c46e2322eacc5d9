/-!
The catalog of data types that travel between host and device: their names in schemas and in C,
their sizes, and the classes that other rules depend on.
-/

set_option autoImplicit false
set_option relaxedAutoImplicit false

namespace DeviceLink

inductive DataType where
  | void
  | bool
  | uint8
  | int8
  | uint16
  | int16
  | uint32
  | int32
  | uint64
  | int64
  | float
  | double
  | string
deriving DecidableEq, Repr

namespace DataType

def all : List DataType :=
  [void, bool, uint8, int8, uint16, int16, uint32, int32, uint64, int64, float, double, string]

def name : DataType → String
  | void => "void"
  | bool => "bool"
  | uint8 => "uint8"
  | int8 => "int8"
  | uint16 => "uint16"
  | int16 => "int16"
  | uint32 => "uint32"
  | int32 => "int32"
  | uint64 => "uint64"
  | int64 => "int64"
  | float => "float"
  | double => "double"
  | string => "string"

def cName : DataType → String
  | void => "void"
  | bool => "bool"
  | uint8 => "uint8_t"
  | int8 => "int8_t"
  | uint16 => "uint16_t"
  | int16 => "int16_t"
  | uint32 => "uint32_t"
  | int32 => "int32_t"
  | uint64 => "uint64_t"
  | int64 => "int64_t"
  | float => "float"
  | double => "double"
  | string => "char[]"

def ofName? (name : String) : Option DataType :=
  all.find? (·.name == name)

def size? : DataType → Option Nat
  | void => some 0
  | bool | uint8 | int8 => some 1
  | uint16 | int16 => some 2
  | uint32 | int32 | float => some 4
  | uint64 | int64 | double => some 8
  | string => none

def isVoid : DataType → Bool
  | void => true
  | _ => false

def isString : DataType → Bool
  | string => true
  | _ => false

/-- Types whose values always take the same number of bytes, which is not zero. -/
def isFixedWidth (t : DataType) : Bool :=
  !t.isVoid && !t.isString

def isFloat : DataType → Bool
  | float | double => true
  | _ => false

def isSigned : DataType → Bool
  | int8 | int16 | int32 | int64 => true
  | _ => false

def index (t : DataType) : Nat :=
  all.idxOf t

theorem ofName?_name (t : DataType) : ofName? t.name = some t := by
  cases t <;> decide

end DataType

end DeviceLink
