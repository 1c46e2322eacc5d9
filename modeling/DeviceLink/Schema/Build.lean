import DeviceLink.Schema.Draft
import DeviceLink.Schema.Allocator
import DeviceLink.Tree.Basic
import DeviceLink.Fingerprint

/-!
From a schema document to a device tree. The objects of the document are visited in document order;
endpoints get their addresses on that way. Children of an object that could not be added are still
checked, but not added.
-/

set_option autoImplicit false
set_option relaxedAutoImplicit false

namespace DeviceLink.Schema

open Json (Members)

structure Progress where
  tree : Tree
  allocator : Allocator := {}
  issues : Array Issue := #[]

namespace Progress

def report (p : Progress) (issues : List Issue) : Progress :=
  { p with issues := p.issues ++ issues.toArray }

def problemOf (name : String) : AddError → Problem
  | .duplicateName _ _ => .duplicateName name
  | .notAContainer _ => .invalidField "remote_attributes" "declared on a container"
  | .unknownEntity _ => .invalidField "remote_attributes" "attached to a known parent"

/-- Progress with one more entity, and its place, unless the tree refuses it. -/
def add (p : Progress) (parent : Nat) (e : Entity) (path : String) : Option Nat × Progress :=
  match p.tree.refusal? parent e.name with
  | some error => (none, p.report [⟨path, problemOf e.name error⟩])
  | none =>
    match p with
    | ⟨tree, allocator, issues⟩ => (some tree.size, ⟨tree.attach parent e, allocator, issues⟩)

/-- Progress with one more endpoint. A draft takes an address even if the endpoint cannot be added;
when no address is left, the endpoint is dropped. -/
def addDraft (p : Progress) (parent : Option Nat) (named : Bool) (info : Info) (draft : Draft)
    (path : String) : Progress :=
  match p.allocator.take with
  | (none, allocator) =>
    { p with allocator := allocator }.report [⟨path, .tooManyEndpoints⟩]
  | (some endpoint, allocator) =>
    let p := { p with allocator := allocator }
    match parent, named with
    | some parent, true => (p.add parent ⟨info, draft endpoint⟩ path).2
    | _, _ => p

end Progress

theorem sizeOf_get_lt {members : Members} {key : String} {value : Json}
    (h : Members.get? members key = some value) : sizeOf value < sizeOf (Json.object members) := by
  simp only [Members.get?, Option.map_eq_some_iff] at h
  obtain ⟨⟨k, v⟩, found, rfl⟩ := h
  have inside := List.sizeOf_lt_of_mem (List.mem_of_find?_eq_some found)
  simp only [Prod.mk.sizeOf_spec, Json.object.sizeOf_spec] at *
  omega

mutual

/-- Builds the object of a container or an endpoint. Without a parent it is only checked. -/
def buildItem (p : Progress) (parent : Option Nat) (parentPath : String) (index : Nat)
    (item : Json) : Progress :=
  match item with
  | .object members =>
    let fallback := itemPath parentPath index
    let name := readName members fallback
    let path := match name.value with
      | some n => joinPath parentPath n
      | none => fallback
    let info := readInfo members (name.value.getD "") path
    let p := p.report (name.issues ++ info.issues)
    match _h : Members.get? members "remote_attributes" with
    | some children =>
      match parent, name.value with
      | some parent, some _ =>
        let added := p.add parent ⟨info.value, .node []⟩ path
        buildChildren added.2 added.1 path children
      | _, _ => buildChildren p none path children
    | none =>
      let draft := readDraft members path
      let p := p.report draft.issues
      match draft.value with
      | some draft => p.addDraft parent name.value.isSome info.value draft path
      | none => p
  | _ =>
    p.report [⟨itemPath parentPath index, .invalidField "remote_attributes" "a list of mappings"⟩]
termination_by sizeOf item
decreasing_by all_goals exact sizeOf_get_lt _h

def buildChildren (p : Progress) (parent : Option Nat) (path : String) (children : Json) :
    Progress :=
  match children with
  | .array items => buildItems p parent path 0 items
  | _ => p.report [⟨path, .invalidField "remote_attributes" "a list"⟩]
termination_by sizeOf children

/-- Builds the items of a list of children, the first of which has the given number. -/
def buildItems (p : Progress) (parent : Option Nat) (path : String) (index : Nat)
    (items : List Json) : Progress :=
  match items with
  | [] => p
  | item :: rest =>
    buildItems (buildItem p parent path index item) parent path (index + 1) rest
termination_by sizeOf items

end

def buildRoot (members : Members) (withRootName : Bool) : Progress :=
  let name := readName members ""
  let path := name.value.getD ""
  let info := readInfo members path path
  let p : Progress :=
    { tree := .ofRoot info.value withRootName
      issues := (name.issues ++ info.issues).toArray }
  match Members.get? members "remote_attributes" with
  | some children => buildChildren p (some Tree.rootId) path children
  | none => p.report [⟨path, .rootNotContainer⟩]

/-- The device tree that a schema document describes, or all that is wrong with the document. -/
def build (document : Json) (withRootName : Bool) : Except SchemaError Tree :=
  match document with
  | .object members =>
    let p := buildRoot members withRootName
    if p.issues.isEmpty then .ok { p.tree with hash := fingerprint document }
    else .error ⟨p.issues.toList⟩
  | _ => .error ⟨[⟨"", .invalidField "document" "a mapping"⟩]⟩

end DeviceLink.Schema
