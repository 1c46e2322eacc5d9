import DeviceLink.Flags
import DeviceLink.Options
import DeviceLink.Scalar
import DeviceLink.Unit.Basic

/-!
What a device tree is made of: container nodes, and endpoints that hold a value, one of several
options or a set of flags, or that can be called.
-/

set_option autoImplicit false
set_option relaxedAutoImplicit false

namespace DeviceLink

abbrev EndpointId := UInt16

def hashEndpoint : EndpointId := 0

/-- What every entity has. Entities refer to each other by their places in the tree; the root has
place 0. -/
structure Info where
  name : String
  summary : Option String := none
  parent : Option Nat := none
  /-- Whether the value takes part in export and import. -/
  exported : Bool := false
  /-- Further metadata, which no rule looks at. -/
  extra : Json.Members := []
  /-- The compiler attribute in front of the generated function. -/
  qualifier : Option String := none
  /-- The label in the reference. -/
  anchor : Option String := none

/-- The device functions behind an endpoint that holds something. -/
structure Access where
  getter : Option String := none
  setter : Option String := none
deriving DecidableEq

/-- An argument of a callable endpoint. -/
structure Argument where
  name : String
  summary : Option String := none
  dataType : DataType
  unit : Option MeasureUnit := none
deriving DecidableEq

def Argument.text (a : Argument) : String :=
  a.dataType.name ++ " " ++ a.name

/-- An endpoint that holds a scalar or a string. -/
structure Register where
  dataType : DataType
  unit : Option MeasureUnit := none
  access : Access := {}
  endpoint : EndpointId
deriving DecidableEq

/-- An endpoint that can be called. -/
structure Function where
  caller : String
  arguments : List Argument := []
  /-- The type of the result, void if there is none. -/
  result : DataType := .void
  unit : Option MeasureUnit := none
  endpoint : EndpointId
deriving DecidableEq

/-- An endpoint that holds one of several options. -/
structure Selector where
  options : Options
  access : Access := {}
  endpoint : EndpointId
deriving DecidableEq

/-- An endpoint that holds a set of flags. -/
structure Bitmask where
  flags : Flags
  access : Access := {}
  endpoint : EndpointId
deriving DecidableEq

def optionType : DataType := .uint8

/-- The content of an entity; the children of a node stand in declaration order. -/
inductive Body where
  | node (children : List Nat)
  | register (r : Register)
  | function (f : Function)
  | selector (s : Selector)
  | bitmask (b : Bitmask)

structure Entity where
  info : Info
  body : Body

inductive Kind where
  | node
  | register
  | function
  | selector
  | bitmask
deriving DecidableEq

def Kind.name : Kind → String
  | node => "node"
  | register => "attribute"
  | function => "function"
  | selector => "enum"
  | bitmask => "bitmask"

/-- How generated code moves a value. -/
inductive Strategy where
  | byValue
  | string
deriving DecidableEq

def Register.strategy (r : Register) : Strategy :=
  if r.dataType.isString then .string else .byValue

namespace Entity

def name (e : Entity) : String := e.info.name

def kind (e : Entity) : Kind :=
  match e.body with
  | .node _ => .node
  | .register _ => .register
  | .function _ => .function
  | .selector _ => .selector
  | .bitmask _ => .bitmask

def isNode (e : Entity) : Bool :=
  e.kind = .node

def isEndpoint (e : Entity) : Bool :=
  !e.isNode

def endpoint? (e : Entity) : Option EndpointId :=
  match e.body with
  | .node _ => none
  | .register r => some r.endpoint
  | .function f => some f.endpoint
  | .selector s => some s.endpoint
  | .bitmask b => some b.endpoint

/-- The type on the wire, which is the type of the result for a callable endpoint. -/
def wireType? (e : Entity) : Option DataType :=
  match e.body with
  | .node _ => none
  | .register r => some r.dataType
  | .function f => some f.result
  | .selector _ | .bitmask _ => some optionType

def unit? (e : Entity) : Option MeasureUnit :=
  match e.body with
  | .register r => r.unit
  | .function f => f.unit
  | .node _ | .selector _ | .bitmask _ => none

def access (e : Entity) : Access :=
  match e.body with
  | .register r => r.access
  | .selector s => s.access
  | .bitmask b => b.access
  | .node _ | .function _ => {}

def caller? (e : Entity) : Option String :=
  match e.body with
  | .function f => some f.caller
  | .node _ | .register _ | .selector _ | .bitmask _ => none

def children (e : Entity) : List Nat :=
  match e.body with
  | .node children => children
  | .register _ | .function _ | .selector _ | .bitmask _ => []

/-- A node without children under a parent; an endpoint just gets the parent. -/
def detached (e : Entity) (parent : Nat) : Entity :=
  { info := { e.info with parent := some parent }
    body := match e.body with
      | .node _ => .node []
      | body => body }

def withChild (e : Entity) (child : Nat) : Entity :=
  match e.body with
  | .node children => { e with body := .node (children ++ [child]) }
  | .register _ | .function _ | .selector _ | .bitmask _ => e

end Entity

end DeviceLink
