import DeviceLink.Device.Access

/-!
Listings: the children of a node as text, one on each line, with the values that the device has. A
value that cannot be read is replaced by the failure.
-/

set_option autoImplicit false
set_option relaxedAutoImplicit false

namespace DeviceLink

def Function.text (f : Function) (name : String) : String :=
  name ++ "(" ++ ", ".intercalate (f.arguments.map (·.text)) ++ ") -> " ++ f.result.name

namespace Tree

def readingText (path : String) (e : Entity) : Action String :=
  (Endpoint.read path e).attempt.andThen fun
    | .ok value => return value.text
    | .error error => return "<" ++ error.message ++ ">"

def endpointLine (indent path : String) (e : Entity) : Action String :=
  match e.body with
  | .function f => return indent ++ f.text e.name
  | .register r => do
    return indent ++ e.name ++ " [" ++ r.dataType.name ++ "]: " ++ (← readingText path e)
  | .selector _ | .bitmask _ | .node _ => do
    return indent ++ e.name ++ ": " ++ (← readingText path e)

/-- The children of a node, so many levels deep, each line with an indentation. -/
def listing (t : Tree) (indent : String) : Nat → Nat → Action String
  | 0, _ => return "..."
  | depth + 1, id => do
    let lines ← Action.forEach
      (fun child => t.withEntity child fun path e =>
        if e.isNode then do
          let below ← t.listing (indent ++ "  ") depth child
          return indent ++ e.name ++ (if depth = 0 then ": " else ":\n") ++ below
        else endpointLine indent path e)
      (t.children id)
    return "\n".intercalate lines

def textDepth : Nat := 2

def nodeText (t : Tree) (id : Nat) : Action String :=
  t.listing "" textDepth id

end Tree

end DeviceLink
