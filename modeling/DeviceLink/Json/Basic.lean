import DeviceLink.Number.Numeral

/-!
JSON values. An object is a list of members; `insert` keeps such a list sorted by key with one
member per key, and `sorted` puts every object of a value into that form.
-/

set_option autoImplicit false
set_option relaxedAutoImplicit false

namespace DeviceLink

/-- A JSON value. Integers and other numbers are kept apart as they are in the text. -/
inductive Json where
  | null
  | bool (value : Bool)
  | integer (value : Int)
  | real (value : Number.Binary64)
  | string (value : String)
  | array (items : List Json)
  | object (members : List (String × Json))
deriving Inhabited

namespace Json

abbrev Members := List (String × Json)

def Members.get? (members : Members) (key : String) : Option Json :=
  (members.find? (·.1 == key)).map (·.2)

def Members.has (members : Members) (key : String) : Bool :=
  members.any (·.1 == key)

/-- Members sorted by key with one more, which replaces the member of the same key. -/
def Members.insert (key : String) (value : Json) : Members → Members
  | [] => [(key, value)]
  | member :: rest =>
    if key < member.1 then (key, value) :: member :: rest
    else if key = member.1 then (key, value) :: rest
    else member :: Members.insert key value rest

def members? : Json → Option Members
  | object members => some members
  | _ => none

def items? : Json → Option (List Json)
  | array items => some items
  | _ => none

def string? : Json → Option String
  | string value => some value
  | _ => none

def bool? : Json → Option Bool
  | bool value => some value
  | _ => none

/-- An object from members in any order; of several with one key the last counts. -/
def ofMembers (members : Members) : Json :=
  object (members.foldl (fun kept member => Members.insert member.1 member.2 kept) [])

/-- A number that is an integer or finite; other numbers have no JSON form. -/
def ofReal (x : Number.Binary64) : Json :=
  if x.isFinite then real x else null

mutual

def sorted : Json → Json
  | array items => array (sortedItems items)
  | object members => ofMembers (sortedMembers members)
  | value => value

def sortedItems : List Json → List Json
  | [] => []
  | item :: rest => sorted item :: sortedItems rest

def sortedMembers : Members → Members
  | [] => []
  | (key, value) :: rest => (key, sorted value) :: sortedMembers rest

end

end Json

end DeviceLink
