import DeviceLink.Device.Access
import DeviceLink.Json.Printer

/-!
Snapshots: the values of the exported endpoints below a node as one JSON value, in which a node is an
object of its children. An import writes such values back. Children without anything to export are
left out of an export, and members that are no exported endpoints are left alone by an import.
-/

set_option autoImplicit false
set_option relaxedAutoImplicit false

namespace DeviceLink

namespace Tree

def snapshotObject (members : List (Option (String × Json))) : Option Json :=
  match members.filterMap id with
  | [] => none
  | members => some (.ofMembers members)

def exportEndpoint (path : String) (e : Entity) : Action (Option Json) :=
  if e.info.exported && e.kind ≠ .function then do
    return some (← Endpoint.read path e).toJson
  else return none

def exportEntity (t : Tree) (id : Nat) : Action (Option Json) :=
  t.withEntity id fun path e =>
    if e.isNode then do
      let members ← Action.forEach
        (fun child =>
          if id < child ∧ child < t.size then do
            let value ← exportEntity t child
            return value.map (t.nameOf child, ·)
          else return none)
        e.children
      return snapshotObject members
    else exportEndpoint path e
termination_by t.size - id
decreasing_by omega

def exportValues (t : Tree) (id : Nat) : Action Json := do
  return (← t.exportEntity id).getD (.object [])

def importEndpoint (path : String) (e : Entity) (data : Json) : Action Unit :=
  if e.info.exported && e.kind ≠ .function then do
    let value ← Action.ofExcept (Endpoint.valueOfJson path e data)
    Endpoint.write path e value
  else return ()

/-- Writes the values of a snapshot to what is exported at a place and below. -/
def importEntity (t : Tree) (id : Nat) (data : Json) : Action Unit :=
  t.withEntity id fun path e =>
    if e.isNode then
      match data with
      | .object members => do
        let _ ← Action.forEach
          (fun child =>
            if id < child ∧ child < t.size then
              match Json.Members.get? members (t.nameOf child) with
              | some value => importEntity t child value
              | none => return ()
            else return ())
          e.children
        return ()
      | data => Action.fail (.invalidValue path data.text)
    else importEndpoint path e data
termination_by t.size - id
decreasing_by omega

/-- Options sorted by name with one more, which replaces the option of the same name. -/
def insertOption (v : OptionValue) : List OptionValue → List OptionValue
  | [] => [v]
  | other :: rest =>
    if v.name < other.name then v :: other :: rest
    else if v.name = other.name then v :: rest
    else other :: insertOption v rest

def exportedOptionsAt (t : Tree) (id : Nat) : List OptionValue :=
  match t.get? id with
  | some ⟨info, .selector s⟩ => if info.exported then s.options.values else []
  | _ => []

/-- The options of all exported endpoints, sorted by name; of several with one name the last one
counts. -/
def exportedOptions (t : Tree) : List OptionValue :=
  (t.endpoints.flatMap t.exportedOptionsAt).foldl (fun kept v => insertOption v kept) []

end Tree

end DeviceLink
