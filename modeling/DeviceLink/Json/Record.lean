import DeviceLink.Json.Reader

/-!
Records in JSON: an object with known members, or an array with the values of the fields in order.
-/

set_option autoImplicit false
set_option relaxedAutoImplicit false

namespace DeviceLink.Json

def Members.distinct (members : Members) : Bool :=
  (members.map (·.1)).Nodup

/-- The fields of a record. Unknown members do not count, a known member must not be repeated, and
an array must not be longer than the list of fields. -/
def record? (fields : List String) : Json → Option Members
  | object members =>
    let known := members.filter fun member => fields.contains member.1
    if Members.distinct known then some known else none
  | array items => if items.length ≤ fields.length then some (fields.zip items) else none
  | _ => none

/-- The fields of the record in a JSON text, where unknown members need only be well formed. -/
def recordOfText? (fields : List String) (s : String) : Option Members :=
  (parsePart? fields s).bind (record? fields)

def strings? : Json → Option (List String)
  | array items => items.mapM string?
  | _ => none

def optionalString? : Option Json → Option (Option String)
  | none | some null => some none
  | some (string s) => some (some s)
  | some _ => none

def natBelow? (bound : Nat) : Json → Option Nat
  | integer n => if 0 ≤ n && n < bound then some n.toNat else none
  | _ => none

end DeviceLink.Json
