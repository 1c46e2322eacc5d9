import DeviceLink.Device.Action
import DeviceLink.Device.Value
import DeviceLink.Text.Blank

/-!
Reading, writing and calling one endpoint. The path given to these is the name of the endpoint in
messages. Whatever can be refused without the device is refused before anything is sent.
-/

set_option autoImplicit false
set_option relaxedAutoImplicit false

namespace DeviceLink.Endpoint

open Wire (Payload)

def wrongKind (path : String) (e : Entity) (expected : String) : DeviceError :=
  .wrongKind path e.kind expected

def lift {ε α : Type} (wrap : ε → DeviceError) (result : Except ε α) : Except DeviceError α :=
  result.mapError wrap

def decoded (t : DataType) (payload : Payload) : Except DeviceError Scalar :=
  lift .codec (Wire.decode t payload)

def decodedByte (payload : Payload) : Except DeviceError UInt64 :=
  (decoded optionType payload).map fun
    | .unsigned n => n
    | _ => 0

def decodeValue (path : String) (e : Entity) (payload : Payload) : Except DeviceError Value :=
  match e.body with
  | .register r => (decoded r.dataType payload).map (Value.ofScalar · r.unit)
  | .selector s => do
    let n ← decodedByte payload
    let v ← lift .option (s.options.decode n)
    .ok (.option v)
  | .bitmask b => (decodedByte payload).map fun n => .flags (b.flags.decode n)
  | .node _ | .function _ => .error (wrongKind path e "value")

def readAddress (path : String) (e : Entity) : Except DeviceError EndpointId :=
  match e.body with
  | .node _ | .function _ => .error (wrongKind path e "value")
  | .register ⟨_, _, access, endpoint⟩ | .selector ⟨_, access, endpoint⟩
  | .bitmask ⟨_, access, endpoint⟩ =>
    if access.getter.isSome then .ok endpoint else .error (.notReadable path)

def read (path : String) (e : Entity) : Action Value := do
  let endpoint ← Action.ofExcept (readAddress path e)
  let payload ← Action.exchange endpoint []
  Action.ofExcept (decodeValue path e payload)

def scalarOf (path : String) (value : Value) (unit : Option MeasureUnit) :
    Except DeviceError Scalar := do
  match ← lift .conversion (value.toScalar? unit) with
  | some scalar => .ok scalar
  | none => .error (.invalidValue path value.text)

def greatestChoice : Nat := Number.twoTo 63 - 1

def choiceOf? : Value → Option Choice
  | .option v => some (.value v)
  | .scalar (.text name) => some (.name name)
  | .scalar (.signed n) => some (.index n.toInt)
  | .scalar (.unsigned n) => some (.index (min n.toNat greatestChoice : Nat))
  | _ => none

def bitsOf? (flags : Flags) : Value → Option UInt64
  | .flags names => some (flags.encode names)
  | .scalar (.text s) => some (flags.encode (Text.words s))
  | .scalar (.unsigned n) => some n
  | _ => none

def writtenScalar (path : String) (e : Entity) (value : Value) :
    Except DeviceError (DataType × Scalar) :=
  match e.body with
  | .register r => do
    let scalar ← scalarOf path value r.unit
    .ok (r.dataType, scalar)
  | .selector s =>
    match choiceOf? value with
    | none => .error (.invalidValue path value.text)
    | some choice => do
      let index ← lift .option (s.options.encode choice)
      .ok (optionType, .unsigned index.toUInt64)
  | .bitmask b =>
    match bitsOf? b.flags value with
    | none => .error (.invalidValue path value.text)
    | some bits => .ok (optionType, .unsigned bits)
  | .node _ | .function _ => .error (wrongKind path e "value")

def writeAddress (path : String) (e : Entity) : Except DeviceError EndpointId :=
  match e.body with
  | .node _ | .function _ => .error (wrongKind path e "value")
  | .register ⟨_, _, access, endpoint⟩ | .selector ⟨_, access, endpoint⟩
  | .bitmask ⟨_, access, endpoint⟩ =>
    if access.setter.isSome then .ok endpoint else .error (.notWritable path)

def writeMessage (path : String) (e : Entity) (value : Value) :
    Except DeviceError (EndpointId × Payload) := do
  let endpoint ← writeAddress path e
  let (t, scalar) ← writtenScalar path e value
  let payload ← lift .codec (Wire.encode t scalar)
  .ok (endpoint, payload)

def write (path : String) (e : Entity) (value : Value) : Action Unit := do
  let (endpoint, payload) ← Action.ofExcept (writeMessage path e value)
  Action.tell endpoint payload

def argumentScalars (path : String) : List Argument → List Value →
    Except DeviceError (List (DataType × Scalar))
  | a :: arguments, value :: values => do
    let scalar ← scalarOf (path ++ "(" ++ a.name ++ ")") value a.unit
    let rest ← argumentScalars path arguments values
    .ok ((a.dataType, scalar) :: rest)
  | _, _ => .ok []

def callPayload (path : String) (f : Function) (values : List Value) :
    Except DeviceError Payload := do
  if values.length ≠ f.arguments.length then
    .error (.argumentCount path f.arguments.length values.length)
  else
    let scalars ← argumentScalars path f.arguments values
    lift .codec (Wire.encodeAll scalars)

/-- Calls a callable endpoint; one without a result does not answer. -/
def callFunction (path : String) (f : Function) (values : List Value) : Action Value := do
  let payload ← Action.ofExcept (callPayload path f values)
  if f.result.isVoid then
    Action.tell f.endpoint payload
    return .void
  else
    let answer ← Action.exchange f.endpoint payload
    let scalar ← Action.ofExcept (decoded f.result answer)
    return .ofScalar scalar f.unit

def call (path : String) (e : Entity) (values : List Value) : Action Value :=
  match e.body with
  | .function f => callFunction path f values
  | .node _ | .register _ | .selector _ | .bitmask _ => Action.fail (wrongKind path e "function")

/-- The value that a text denotes for an entity: a quantity where there is a unit, the name of an
option, or the names of flags. Blanks at the ends do not count. -/
def valueOfText (path : String) (e : Entity) (source : String) : Except DeviceError Value :=
  let s := Text.trimmed source
  match e.body with
  | .register r =>
    if r.dataType.isString then .ok (.scalar (.text s))
    else if r.unit.isSome then do
      let q ← lift .quantity (Registry.standard.parseQuantity s)
      .ok (if q.unit.isPlain then .scalar (.real q.magnitude) else .quantity q)
    else do
      match ← lift .scalar (r.dataType.readScalar s) with
      | some scalar => .ok (.scalar scalar)
      | none => .error (.invalidValue path s)
  | .selector _ => .ok (.scalar (.text s))
  | .bitmask _ => .ok (.flags (Text.words s))
  | .node _ | .function _ => .error (wrongKind path e "value")

def valueOfJson (path : String) (e : Entity) (data : Json) : Except DeviceError Value :=
  let invalid : DeviceError := .invalidValue path data.text
  match data with
  | .string s => valueOfText path e s
  | .array items =>
    match items.mapM Json.string? with
    | some names => .ok (.flags names)
    | none => .error invalid
  | data =>
    match Scalar.ofJson? data with
    | some scalar => .ok (.scalar scalar)
    | none => .error invalid

end DeviceLink.Endpoint
