import DeviceLink.Tree.Names
import DeviceLink.Validation.Identifier

/-!
What can be wrong with a device tree from which code is to be generated.
-/

set_option autoImplicit false
set_option relaxedAutoImplicit false

namespace DeviceLink

/-- The roles of names that must be identifiers. -/
inductive NameRole where
  | entity
  | argument
  | option
  | flag
deriving DecidableEq

def NameRole.text : NameRole → String
  | entity => "node name"
  | argument => "argument name"
  | option => "option name"
  | flag => "flag name"

/-- The roles of device functions. -/
inductive Designator where
  | getter
  | setter
  | caller
deriving DecidableEq

def Designator.text : Designator → String
  | getter => "getter"
  | setter => "setter"
  | caller => "caller"

/-- A name with its role and its path in the document. -/
structure Naming where
  name : String
  role : NameRole
  path : String
deriving DecidableEq

def Naming.context (n : Naming) : String :=
  n.role.text ++ " at " ++ n.path

/-- The rules that a tree can break within one endpoint. -/
inductive Defect where
  | unreachable (kind : Kind)
  | voidRegister
  | missingCaller
  | stringResult
  | argumentType (name : String) (dataType : DataType)
  | noOptions
  | noFlags
deriving DecidableEq

def Defect.message : Defect → String
  | unreachable kind => kind.name ++ " requires a getter or a setter"
  | voidRegister => "attribute cannot have type void"
  | missingCaller => "function requires a caller"
  | stringResult => "function cannot return a string"
  | argumentType name t =>
    "argument '" ++ name ++ "' must have a fixed-width data type, got '" ++ t.name ++ "'"
  | noOptions => "enum requires at least one option"
  | noFlags => "bitmask requires at least one flag"

/-- A broken rule and where it is broken. -/
inductive Violation where
  | identifier (naming : Naming) (fault : Identifier.Fault)
  | duplicateArgument (name function path : String)
  | shadowing (name path : String)
  | reservedEndpoint (endpoint : EndpointId) (entity : String)
  | duplicateEndpoint (endpoint : EndpointId) (entity first : String)
  | designator (role : Designator) (name entity : String) (fault : Identifier.Fault)
  | functionCollision (function entity first : String)
  | enumeratorCollision (enumerator entity first : String)
  | incomplete (entity : String) (defect : Defect)
deriving DecidableEq

namespace Violation

def layer : Violation → String
  | identifier _ _ | duplicateArgument _ _ _ | shadowing _ _ => "name"
  | reservedEndpoint _ _ | duplicateEndpoint _ _ _ => "endpoint"
  | designator _ _ _ _ | functionCollision _ _ _ => "function"
  | enumeratorCollision _ _ _ => "enumerator"
  | incomplete _ _ => "designator"

def context : Violation → String
  | identifier naming _ => naming.path
  | duplicateArgument _ _ path | shadowing _ path => path
  | reservedEndpoint _ entity | duplicateEndpoint _ entity _ => entity
  | designator _ _ entity _ | functionCollision _ entity _ => entity
  | enumeratorCollision _ entity _ | incomplete entity _ => entity

def message : Violation → String
  | identifier naming fault => fault.message naming.name naming.context
  | duplicateArgument name function _ =>
    "Duplicate argument name '" ++ name ++ "' at " ++ function
  | shadowing name path =>
    "Argument name '" ++ name ++ "' (" ++ NameRole.argument.text ++ " at " ++ path ++
      ") shadows an identifier used by the generated dispatcher."
  | reservedEndpoint endpoint entity =>
    "Endpoint ID " ++ toString endpoint.toNat ++ " is reserved for the hash accessor: '" ++
      entity ++ "'"
  | duplicateEndpoint endpoint entity first =>
    "Duplicate endpoint ID " ++ toString endpoint.toNat ++ ": '" ++ entity ++ "' and '" ++ first ++
      "'"
  | designator role name entity fault => fault.message name (role.text ++ " for " ++ entity)
  | functionCollision function entity first =>
    "Endpoint function name collision: '" ++ function ++ "' generated from both '" ++ entity ++
      "' and '" ++ first ++ "'"
  | enumeratorCollision enumerator entity first =>
    "Enumerator collision: '" ++ enumerator ++ "' generated from both '" ++ entity ++ "' and '" ++
      first ++ "'"
  | incomplete _ defect => defect.message

def text (v : Violation) : String :=
  "[" ++ v.layer ++ ":" ++ v.context ++ "] " ++ v.message

end Violation

end DeviceLink
