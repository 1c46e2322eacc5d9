import DeviceLink.Scalar

/-!
The payload codec. Values of fixed width travel as their little-endian bytes, strings as UTF-8
without a length; what follows a zero byte in a string payload does not count.
-/

set_option autoImplicit false
set_option relaxedAutoImplicit false

namespace DeviceLink.Wire

abbrev Payload := List UInt8

/-- Why a value cannot be encoded or a payload decoded. -/
inductive Error where
  | length (dataType : DataType) (expected actual : Nat)
  | outOfRange (value : String) (dataType : DataType)
  | mismatch (value : Scalar) (dataType : DataType)
  | invalidText
  | void
deriving DecidableEq

def Error.message : Error → String
  | length t expected actual =>
    t.name ++ " payload must be " ++ toString expected ++ " bytes, got " ++ toString actual
  | outOfRange value t => "value " ++ value ++ " does not fit in " ++ t.name
  | mismatch value t => "cannot encode " ++ value.diagnostic ++ " as " ++ t.name
  | invalidText => "string payload is not valid UTF-8"
  | void => "void carries no payload"

def littleEndian : Nat → Nat → Payload
  | 0, _ => []
  | width + 1, n => UInt8.ofNat (n % 256) :: littleEndian width (n / 256)

def ofLittleEndian : Payload → Nat
  | [] => 0
  | b :: rest => b.toNat + 256 * ofLittleEndian rest

/-- An integer as bytes, where a negative one is counted from two to the number of bits. -/
def integerBytes (width : Nat) (n : Int) : Payload :=
  littleEndian width (n % Number.twoTo (8 * width)).toNat

/-- The integer that bytes denote when the highest bit counts negatively. -/
def signedOf (bytes : Payload) : Int :=
  let n := ofLittleEndian bytes
  if n < Number.twoTo (8 * bytes.length - 1) then n else n - Number.twoTo (8 * bytes.length)

def width (t : DataType) : Nat :=
  t.size?.getD 0

def least (t : DataType) : Int :=
  if t.isSigned then -(Number.twoTo (8 * width t - 1) : Int) else 0

def greatest (t : DataType) : Int :=
  if t.isSigned then (Number.twoTo (8 * width t - 1) : Int) - 1
  else (Number.twoTo (8 * width t) : Int) - 1

def clampWide (n : Int) : Int :=
  let bound : Int := Number.twoTo 127
  if n < -bound then -bound else if bound - 1 < n then bound - 1 else n

/-- The whole number that a value denotes, for a data type that takes whole numbers. -/
def integerOf (t : DataType) (value : Scalar) : Except Error Int :=
  match value with
  | .bool b => .ok (if b then 1 else 0)
  | .unsigned n => .ok n.toNat
  | .signed n => .ok n.toInt
  | .real x =>
    match x.whole? with
    | some n => .ok (clampWide n)
    | none => .error (.outOfRange x.text t)
  | .text _ => .error (.mismatch value t)

def encodeInteger (t : DataType) (value : Scalar) : Except Error Payload := do
  let n ← integerOf t value
  if least t ≤ n && n ≤ greatest t then .ok (integerBytes (width t) n)
  else .error (.outOfRange (toString n) t)

/-- The numeric view of a value, for a data type that takes numbers. -/
def numberOf (t : DataType) (value : Scalar) : Except Error Number.Binary64 :=
  match value.number? with
  | some x => .ok x
  | none => .error (.mismatch value t)

/-- The bytes of a number in single precision; a finite number must stay finite. -/
def encodeSingle (t : DataType) (x : Number.Binary64) : Except Error Payload :=
  let bits := x.toBinary32
  if x.isFinite && !Number.Binary64.isFinite32 bits then .error (.outOfRange x.text t)
  else .ok (littleEndian 4 bits.toNat)

def encode (t : DataType) (value : Scalar) : Except Error Payload :=
  match t with
  | .void => .error .void
  | .string =>
    match value with
    | .text s => .ok s.toUTF8.toList
    | _ => .error (.mismatch value t)
  | .bool =>
    match value with
    | .bool b => .ok [if b then 1 else 0]
    | _ => (integerOf t value).map fun n => [if n = 0 then 0 else 1]
  | .float => do encodeSingle t (← numberOf t value)
  | .double => (numberOf t value).map fun x => littleEndian 8 x.bits.toNat
  | .uint8 | .int8 | .uint16 | .int16 | .uint32 | .int32 | .uint64 | .int64 =>
    encodeInteger t value

def encodeAll : List (DataType × Scalar) → Except Error Payload
  | [] => .ok []
  | (t, value) :: rest => do
    let first ← encode t value
    let others ← encodeAll rest
    .ok (first ++ others)

def decodeText (bytes : Payload) : Except Error Scalar :=
  match String.fromUTF8? ⟨(bytes.takeWhile (· != 0)).toArray⟩ with
  | some s => .ok (.text s)
  | none => .error .invalidText

def decodeFixed (t : DataType) (bytes : Payload) : Scalar :=
  match t with
  | .bool => .bool (ofLittleEndian bytes != 0)
  | .int8 | .int16 | .int32 | .int64 => .signed (Int64.ofInt (signedOf bytes))
  | .float => .real (.ofBinary32 (UInt32.ofNat (ofLittleEndian bytes)))
  | .double => .real ⟨UInt64.ofNat (ofLittleEndian bytes)⟩
  | _ => .unsigned (UInt64.ofNat (ofLittleEndian bytes))

def decode (t : DataType) (bytes : Payload) : Except Error Scalar :=
  match t.size? with
  | none => decodeText bytes
  | some expected =>
    if t.isVoid then .error .void
    else if bytes.length = expected then .ok (decodeFixed t bytes)
    else .error (.length t expected bytes.length)

end DeviceLink.Wire
