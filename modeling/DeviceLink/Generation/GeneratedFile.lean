/-!
Generated files: a path, a text, and the notice at the top of every one of them.
-/

set_option autoImplicit false
set_option relaxedAutoImplicit false

namespace DeviceLink

/-- A generated file that is still to be written. -/
structure GeneratedFile where
  path : String
  content : String
deriving DecidableEq

def notice : List String := [
  "This file was automatically generated using Avlos.",
  "Any changes to this file will be overwritten when",
  "content is regenerated."]

end DeviceLink
