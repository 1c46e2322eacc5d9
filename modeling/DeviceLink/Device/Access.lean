import DeviceLink.Device.Endpoint
import DeviceLink.Tree.Basic

/-!
Access to a device through its tree. Entities are found by dotted paths from the root or by names
below a node; finding them takes no messages.
-/

set_option autoImplicit false
set_option relaxedAutoImplicit false

namespace DeviceLink

open Wire (Payload)

/-- What a name below a node stands for; a value is read from the device. -/
inductive Member where
  | node (id : Nat)
  | function (id : Nat)
  | value (v : Value)

namespace Tree

def missing (t : Tree) (id : Nat) (name : String) : DeviceError :=
  .missing (t.displayPath id) name

def childNamed (t : Tree) (id : Nat) (name : String) : Except DeviceError Nat :=
  match t.child? id name with
  | some child => .ok child
  | none => .error (t.missing id name)

def follow (t : Tree) (id : Nat) : List String → Except DeviceError Nat
  | [] => .ok id
  | name :: rest =>
    match t.childNamed id name with
    | .ok child => t.follow child rest
    | .error e => .error e

/-- The entity at a dotted path from the root; empty parts of the path do not count. -/
def locate (t : Tree) (path : String) : Except DeviceError Nat :=
  t.follow rootId (Text.segments '.' path)

def expectKind (t : Tree) (kind : Kind) (id : Nat) : Except DeviceError Nat :=
  match t.get? id with
  | some e =>
    if e.kind = kind then .ok id else .error (Endpoint.wrongKind (t.displayPath id) e kind.name)
  | none => .error (t.missing id "")

def nodeAt (t : Tree) (path : String) : Except DeviceError Nat := do
  t.expectKind .node (← t.locate path)

def functionAt (t : Tree) (path : String) : Except DeviceError Nat := do
  t.expectKind .function (← t.locate path)

def nodeNamed (t : Tree) (id : Nat) (name : String) : Except DeviceError Nat := do
  t.expectKind .node (← t.childNamed id name)

def functionNamed (t : Tree) (id : Nat) (name : String) : Except DeviceError Nat := do
  t.expectKind .function (← t.childNamed id name)

def optionsNamed (t : Tree) (id : Nat) (name : String) : Except DeviceError (List OptionValue) := do
  let child ← t.childNamed id name
  match t.get? child with
  | some ⟨_, .selector s⟩ => .ok s.options.values
  | some e => .error (Endpoint.wrongKind (t.displayPath child) e Kind.selector.name)
  | none => .error (t.missing child "")

def withEntity {α : Type} (t : Tree) (id : Nat) (f : String → Entity → Action α) : Action α :=
  match t.get? id with
  | some e => f (t.displayPath id) e
  | none => Action.fail (t.missing id "")

def read (t : Tree) (id : Nat) : Action Value :=
  t.withEntity id Endpoint.read

def write (t : Tree) (id : Nat) (value : Value) : Action Unit :=
  t.withEntity id fun path e => Endpoint.write path e value

def writeText (t : Tree) (id : Nat) (text : String) : Action Unit :=
  t.withEntity id fun path e => do
    let value ← Action.ofExcept (Endpoint.valueOfText path e text)
    Endpoint.write path e value

def call (t : Tree) (id : Nat) (values : List Value) : Action Value :=
  t.withEntity id fun path e => Endpoint.call path e values

def member (t : Tree) (id : Nat) : Action Member :=
  t.withEntity id fun path e =>
    match e.kind with
    | .node => return .node id
    | .function => return .function id
    | .register | .selector | .bitmask => return .value (← Endpoint.read path e)

/-- The path before the last dot and the name after it; without a dot all is the name. -/
def splitPath (path : String) : String × String :=
  (Text.splitLast? '.' path).getD ("", path)

/-- The child that a path leads to, by way of the node before the last dot. -/
def childAt (t : Tree) (path : String) : Except DeviceError Nat := do
  let (before, name) := splitPath path
  t.childNamed (← t.nodeAt before) name

def get (t : Tree) (path : String) : Action Member := do
  t.member (← Action.ofExcept (t.childAt path))

def set (t : Tree) (path : String) (value : Value) : Action Unit := do
  t.write (← Action.ofExcept (t.childAt path)) value

def callAt (t : Tree) (path : String) (values : List Value) : Action Value := do
  t.call (← Action.ofExcept (t.functionAt path)) values

def getNamed (t : Tree) (id : Nat) (name : String) : Action Member := do
  t.member (← Action.ofExcept (t.childNamed id name))

def readNamed (t : Tree) (id : Nat) (name : String) : Action Value := do
  t.read (← Action.ofExcept (t.childNamed id name))

def setNamed (t : Tree) (id : Nat) (name : String) (value : Value) : Action Unit := do
  t.write (← Action.ofExcept (t.childNamed id name)) value

/-- Writes the value that a text denotes to the endpoint with a name below a node. -/
def setTextNamed (t : Tree) (id : Nat) (name text : String) : Action Unit := do
  t.writeText (← Action.ofExcept (t.childNamed id name)) text

def hashOf (payload : Payload) : Except DeviceError UInt32 := do
  match ← Endpoint.decoded .uint32 payload with
  | .unsigned n => .ok n.toUInt32
  | other => .error (.invalidValue "hash" other.toText)

def deviceHash : Action UInt32 := do
  let payload ← Action.exchange hashEndpoint []
  Action.ofExcept (hashOf payload)

def checkHash (t : Tree) : Action Unit := do
  let hash ← deviceHash
  if hash = t.hash then return () else Action.fail (.hashMismatch t.hash hash)

end Tree

end DeviceLink
