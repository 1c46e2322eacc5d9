import DeviceLink.Tree.Entity
import DeviceLink.Text.Segments

/-!
Device trees. A tree is an arena that only grows: every entity has a place, and its parent has an
earlier one, so that climbing to the root and walking down both come to an end.
-/

set_option autoImplicit false
set_option relaxedAutoImplicit false

namespace DeviceLink

structure Tree where
  entities : Array Entity
  /-- The fingerprint of the schema that the tree was built from. -/
  hash : UInt32 := 0
  /-- Whether full names start with the name of the root. -/
  withRootName : Bool := false

/-- Why an entity cannot be added. -/
inductive AddError where
  | duplicateName (parent name : String)
  | notAContainer (path : String)
  | unknownEntity (id : Nat)
deriving DecidableEq

def AddError.message : AddError → String
  | duplicateName parent name => "duplicate name '" ++ name ++ "' under '" ++ parent ++ "'"
  | notAContainer path => "'" ++ path ++ "' is not a container"
  | unknownEntity id => "unknown entity id " ++ toString id

namespace Tree

def rootId : Nat := 0

def ofRoot (info : Info) (withRootName : Bool) : Tree where
  entities := #[⟨{ info with parent := none }, .node []⟩]
  withRootName := withRootName

def get? (t : Tree) (id : Nat) : Option Entity :=
  t.entities[id]?

def nameOf (t : Tree) (id : Nat) : String :=
  match t.get? id with
  | some e => e.name
  | none => ""

def rootName (t : Tree) : String :=
  t.nameOf rootId

def size (t : Tree) : Nat :=
  t.entities.size

def isEmpty (t : Tree) : Bool :=
  t.size ≤ 1

def parent? (t : Tree) (id : Nat) : Option Nat :=
  (t.get? id).bind (·.info.parent)

def children (t : Tree) (id : Nat) : List Nat :=
  match t.get? id with
  | some e => e.children
  | none => []

def childNames (t : Tree) (id : Nat) : List String :=
  (t.children id).map t.nameOf

def child? (t : Tree) (id : Nat) (name : String) : Option Nat :=
  (t.children id).find? fun c => t.nameOf c == name

/-- The entity at a dotted path from the root; empty parts of the path do not count. -/
def resolve? (t : Tree) (path : String) : Option Nat :=
  (Text.segments '.' path).foldlM t.child? rootId

/-- The names from the root down to a place. The name of the root is left out unless the tree says
otherwise. -/
def pathNames (t : Tree) (id : Nat) : List String :=
  match t.get? id with
  | none => []
  | some e =>
    match e.info.parent with
    | none => if t.withRootName then [e.name] else []
    | some p => if p < id then pathNames t p ++ [e.name] else [e.name]
termination_by id

def fullName (t : Tree) (id : Nat) : String :=
  ".".intercalate (t.pathNames id)

/-- The full name, or the name of the root where the full name is empty. -/
def displayPath (t : Tree) (id : Nat) : String :=
  if (t.fullName id).isEmpty then t.rootName else t.fullName id

/-- Why an entity cannot become a child of a parent: the parent must be a node of the tree, and
siblings have different names. -/
def refusal? (t : Tree) (parent : Nat) (name : String) : Option AddError :=
  match t.get? parent with
  | none => some (.unknownEntity parent)
  | some p =>
    if !p.isNode then some (.notAContainer (t.displayPath parent))
    else if (t.child? parent name).isSome then some (.duplicateName (t.displayPath parent) name)
    else none

/-- The tree with one more entity, which is the last child of its parent. -/
def attach (t : Tree) (parent : Nat) (e : Entity) : Tree :=
  match t with
  | ⟨entities, hash, withRootName⟩ =>
    let id := entities.size
    ⟨(entities.modify parent (·.withChild id)).push (e.detached parent), hash, withRootName⟩

/-- The place of a new entity and the tree that holds it, unless the tree refuses it. -/
def add (t : Tree) (parent : Nat) (e : Entity) : Except AddError (Nat × Tree) :=
  match t.refusal? parent e.name with
  | some error => .error error
  | none => .ok (t.size, t.attach parent e)

/-- An entity and everything below it: a node comes before its children, and the children come in
declaration order. -/
def subtree (t : Tree) (id : Nat) : List Nat :=
  id :: (t.children id).flatMap fun c =>
    if id < c ∧ c < t.size then subtree t c else []
termination_by t.size - id
decreasing_by omega

def walk (t : Tree) : List Nat :=
  t.subtree rootId

def endpoints (t : Tree) : List Nat :=
  t.walk.filter fun id =>
    match t.get? id with
    | some e => e.isEndpoint
    | none => false

end Tree

end DeviceLink
