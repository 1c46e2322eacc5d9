import DeviceLink.Dispatch.Statement
import DeviceLink.Text.Blank
import DeviceLink.Tree.Names

/-!
The dispatchers of a device tree: one for the fingerprint and one for each endpoint.
-/

set_option autoImplicit false
set_option relaxedAutoImplicit false

namespace DeviceLink.Dispatch

/-- Why there is no code for a tree. -/
inductive DispatchError where
  | noPayload
  | stringResult (function : String)
  | argumentType (argument function : String)
  | notAnEndpoint (entity : String)
deriving DecidableEq

def DispatchError.message : DispatchError → String
  | noPayload => "max_payload must be at least 1"
  | stringResult function => "function '" ++ function ++ "' cannot return a string"
  | argumentType argument function =>
    "argument '" ++ argument ++ "' of '" ++ function ++ "' must have a fixed-width type"
  | notAnEndpoint entity => "'" ++ entity ++ "' is not an endpoint"

def stringGetter : String := "_avlos_getter_string"

def stringSetter : String := "_avlos_setter_string"

def fingerprintFunction : String := "_avlos_get_proto_hash"

/-- The branches of an endpoint for the device functions that it has. -/
def accessBranches (access : Access) (onRead onWrite : String → List Statement) : List Branch :=
  (match access.getter with
    | some getter => [⟨.read, onRead getter⟩]
    | none => []) ++
  (match access.setter with
    | some setter => [⟨.write, onWrite setter⟩]
    | none => [])

def answerWith (name : String) : List Statement :=
  [.setLength name, .store name, .answer .read]

def valueBranches (t : DataType) (access : Access) : List Branch :=
  accessBranches access
    (fun getter => [.declare t.cName valueName, .fetch valueName getter] ++ answerWith valueName)
    fun setter =>
      [.declare t.cName valueName, .load valueName, .call setter [valueName], .answer .write]

def stringBranches (access : Access) : List Branch :=
  accessBranches access (fun getter => [.delegate stringGetter getter])
    fun setter => [.delegate stringSetter setter]

/-- The declaration of an argument, whose type must have a fixed width. -/
def declareArgument (function : String) (a : Argument) : Except DispatchError Statement :=
  if a.dataType.isFixedWidth then .ok (.declare a.dataType.cName a.name)
  else .error (.argumentType a.name function)

def unpackArguments : List Argument → List Statement
  | [] => []
  | arguments =>
    .declareOffset :: arguments.flatMap fun a => [.unpack a.name, .advance a.name]

/-- The statements that call a device function and answer with its result, if it has one. -/
def callStatements (f : Function) : List Statement :=
  let names := f.arguments.map (·.name)
  if f.result.isVoid then [.call f.caller names, .clearLength, .answer .noAction]
  else
    [.declareResult f.result.cName resultName f.caller names, .store resultName,
      .setLength resultName, .answer .read]

def functionStatements (f : Function) (name : String) : Except DispatchError (List Statement) :=
  if f.result.isString then .error (.stringResult name)
  else do
    let declarations ← f.arguments.mapM (declareArgument name)
    .ok (.ignoreCommand :: declarations ++ unpackArguments f.arguments ++ callStatements f)

def ofEntity (function name : String) (e : Entity) : Except DispatchError Dispatcher :=
  let access (branches : List Branch) : Except DispatchError Dispatcher :=
    .ok ⟨e.info.qualifier, function, branches, [.answer .noAction]⟩
  match e.body with
  | .register r =>
    match r.strategy with
    | .byValue => access (valueBranches r.dataType r.access)
    | .string => access (stringBranches r.access)
  | .selector s => access (valueBranches optionType s.access)
  | .bitmask b => access (valueBranches optionType b.access)
  | .function f => (functionStatements f name).map (⟨e.info.qualifier, function, [], ·⟩)
  | .node _ => .error (.notAnEndpoint name)

def ofPlace (t : Tree) (id : Nat) : Except DispatchError Dispatcher :=
  match t.get? id with
  | some e => ofEntity (t.functionName id) (t.fullName id) e
  | none => .error (.notAnEndpoint (t.fullName id))

def ofFingerprint : Dispatcher where
  name := hashFunction
  statements :=
    [.ignoreCommand, .declareResult "const uint32_t" valueName fingerprintFunction []] ++
      answerWith valueName

/-- The dispatchers of a tree: first the one for the fingerprint and then those of the endpoints. -/
def dispatchers (t : Tree) : Except DispatchError (List Dispatcher) :=
  (t.endpoints.mapM (ofPlace t)).map (ofFingerprint :: ·)

end DeviceLink.Dispatch
