import DeviceLink.DataType
import DeviceLink.Json.Basic
import DeviceLink.Text.Blank
import DeviceLink.Text.Quoted

/-!
Scalar values: what one endpoint holds before a unit is attached. They are read from text by data
type and from JSON by its form, and written as plain text, as diagnostic text and as JSON.
-/

set_option autoImplicit false
set_option relaxedAutoImplicit false

namespace DeviceLink

inductive Scalar where
  | bool (value : Bool)
  | unsigned (value : UInt64)
  | signed (value : Int64)
  | real (value : Number.Binary64)
  | text (value : String)
deriving DecidableEq

namespace Scalar

def number? : Scalar → Option Number.Binary64
  | bool b => some (.ofNat (if b then 1 else 0))
  | unsigned n => some (.ofNat n.toNat)
  | signed n => some (.ofInt n.toInt)
  | real x => some x
  | text _ => none

def toText : Scalar → String
  | bool b => if b then "true" else "false"
  | unsigned n => toString n.toNat
  | signed n => toString n.toInt
  | real x => x.text
  | text s => s

def diagnostic : Scalar → String
  | bool b => "Bool(" ++ (if b then "true" else "false") ++ ")"
  | unsigned n => "UInt(" ++ toString n.toNat ++ ")"
  | signed n => "Int(" ++ toString n.toInt ++ ")"
  | real x => "Float(" ++ Number.Layout.diagnostic.write x ++ ")"
  | text s => "Str(" ++ Text.quoted s ++ ")"

/-- The JSON form of a value; numbers that are not finite have the form of nothing. -/
def toJson : Scalar → Json
  | bool b => .bool b
  | unsigned n => .integer n.toNat
  | signed n => .integer n.toInt
  | real x => .ofReal x
  | text s => .string s

/-- The scalar that a JSON value denotes; containers and nothing denote none. -/
def ofJson? : Json → Option Scalar
  | .bool b => some (bool b)
  | .integer n =>
    if 0 ≤ n then some (unsigned (UInt64.ofNat n.toNat)) else some (signed (Int64.ofInt n))
  | .real x => some (real x)
  | .string s => some (text s)
  | .null | .array _ | .object _ => none

end Scalar

/-- A text does not denote a value of a data type. -/
structure ScalarError where
  value : String
  dataType : DataType
deriving DecidableEq

def ScalarError.message (e : ScalarError) : String :=
  "cannot parse '" ++ e.value ++ "' as " ++ e.dataType.name

def readBool? (s : String) : Option Bool :=
  if s = "true" || s = "True" || s = "1" then some true
  else if s = "false" || s = "False" || s = "0" then some false
  else none

def readUnsigned? (cs : List Char) : Option UInt64 :=
  match Number.readNat cs with
  | some n => if n < Number.twoTo 64 then some (UInt64.ofNat n) else none
  | none => none

def readSigned? (cs : List Char) : Option Int64 :=
  match Number.readInt cs with
  | some n => if -(Number.twoTo 63 : Int) ≤ n && n < Number.twoTo 63 then some (Int64.ofInt n) else none
  | none => none

/-- The scalar that a text denotes for a data type, where blanks at the ends do not count. Void has
no values. Integers are read with 64 bits whatever the width of the type is. -/
def DataType.readScalar (t : DataType) (source : String) : Except ScalarError (Option Scalar) :=
  let s := Text.trimmed source
  let found (value : Option Scalar) : Except ScalarError (Option Scalar) :=
    match value with
    | some value => .ok (some value)
    | none => .error ⟨s, t⟩
  match t with
  | .void => .ok none
  | .bool => found ((readBool? s).map .bool)
  | .uint8 | .uint16 | .uint32 | .uint64 => found ((readUnsigned? s.toList).map .unsigned)
  | .int8 | .int16 | .int32 | .int64 => found ((readSigned? s.toList).map .signed)
  | .float | .double => found ((Number.Binary64.ofString? s).map .real)
  | .string => .ok (some (.text s))

end DeviceLink
