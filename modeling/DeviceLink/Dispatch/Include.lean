import DeviceLink.Files.Path

/-!
Targets of include lines: headers of the system stand in angle brackets, files beside the generated
ones in quotes.
-/

set_option autoImplicit false
set_option relaxedAutoImplicit false

namespace DeviceLink.Dispatch

def isQuoted (target : String) : Bool :=
  let cs := target.toList
  cs.head? == some '"' && cs.getLast? == some '"' && 1 < cs.length

def isBracketed (target : String) : Bool :=
  let cs := target.toList
  cs.head? == some '<' && cs.getLast? == some '>'

/-- A target as it stands in an include line: in angle brackets unless it is marked already. -/
def asInclude (target : String) : String :=
  if isQuoted target || isBracketed target then target else "<" ++ target ++ ">"

/-- The include target of a generated file that lies in the same directory. -/
def besideInclude (path : String) : String :=
  "\"" ++ (Path.fileName? path).getD path ++ "\""

end DeviceLink.Dispatch
