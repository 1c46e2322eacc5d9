import DeviceLink.Dispatch.Dispatcher
import DeviceLink.Dispatch.Include
import DeviceLink.Dispatch.Settings

/-!
The three units of generated code: the enumerations, the header and the implementation. All follow
the order of the endpoints in the walk of the tree.
-/

set_option autoImplicit false
set_option relaxedAutoImplicit false

namespace DeviceLink.Dispatch

structure Enumeration where
  name : String
  enumerators : List Enumerator
deriving DecidableEq

/-- The announcement of a dispatcher, with what its comment says. -/
structure Prototype where
  name : String
  summary : Option String := none
  endpoint : EndpointId
  arguments : List String := []
deriving DecidableEq

/-- The unit that announces the dispatchers. -/
structure Header where
  includes : List String
  maxPayload : UInt8
  enumerations : List Enumeration
  hash : UInt32
  tableLength : Nat
  prototypes : List Prototype
deriving DecidableEq

/-- The unit that defines the dispatchers and the table of them. -/
structure Implementation where
  includes : List String
  /-- Whether the helpers for strings are needed. -/
  withStrings : Bool
  table : List String
  dispatchers : List Dispatcher
deriving DecidableEq

def enumerationAt? (t : Tree) (id : Nat) : Option Enumeration :=
  match t.get? id with
  | some ⟨_, .selector _⟩ => some ⟨t.optionsTypeName id, t.enumerators id⟩
  | some ⟨_, .bitmask _⟩ => some ⟨t.flagsTypeName id, t.enumerators id⟩
  | _ => none

def enumerations (t : Tree) : List Enumeration :=
  t.endpoints.filterMap (enumerationAt? t)

def numbered (name : String) (names : List String) : Enumeration :=
  ⟨name, names.mapIdx fun i name => ⟨name, .number i⟩⟩

def protocolEnumerations : List Enumeration :=
  [numbered statusType (Status.all.map (·.name)), numbered commandType (Command.all.map (·.name))]

def hashPrototype : Prototype where
  name := hashFunction
  summary := some "Retrieve the protocol hash."
  endpoint := hashEndpoint

def prototypeOf (function : String) (e : Entity) : Prototype where
  name := function
  summary := e.info.summary
  endpoint := e.endpoint?.getD 0
  arguments := match e.body with
    | .function f => f.arguments.map (·.text)
    | _ => []

def prototypeAt? (t : Tree) (id : Nat) : Option Prototype :=
  (t.get? id).map (prototypeOf (t.functionName id))

def systemIncludes : List String :=
  ["stdint.h", "stdbool.h", "string.h"]

def header (s : Settings) (t : Tree) : Header where
  includes := systemIncludes.map asInclude ++
    besideInclude s.paths.enumerations :: s.headerIncludes.map asInclude
  maxPayload := s.maxPayload
  enumerations := protocolEnumerations
  hash := s.hashOverride.getD t.hash
  tableLength := t.endpoints.length + 1
  prototypes := hashPrototype :: t.endpoints.filterMap (prototypeAt? t)

def holdsString (t : Tree) (id : Nat) : Bool :=
  match t.get? id with
  | some ⟨_, .register r⟩ => r.dataType.isString
  | _ => false

/-- The table of dispatchers, in which each one stands at the address of its endpoint when addresses
are given out in the order of the walk. -/
def table (t : Tree) : List String :=
  hashFunction :: t.endpoints.map t.functionName

def implementation (s : Settings) (t : Tree) : Except DispatchError Implementation :=
  (dispatchers t).map fun dispatchers =>
    { includes := besideInclude s.paths.header :: s.implementationIncludes.map asInclude
      withStrings := t.endpoints.any (holdsString t)
      table := table t
      dispatchers }

end DeviceLink.Dispatch
