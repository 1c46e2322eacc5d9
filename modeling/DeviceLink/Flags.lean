import DeviceLink.Json.Record

/-!
Flag sets: flag number `i` of a list of names stands for bit `i` of a number.
-/

set_option autoImplicit false
set_option relaxedAutoImplicit false

namespace DeviceLink

/-- The flags of a bit mask, and the name to report when none is set. -/
structure Flags where
  names : List String
  defaultName : Option String := none
deriving DecidableEq

namespace Flags

def namesOf : List String → Nat → List String
  | [], _ => []
  | name :: rest, n => if n % 2 = 1 then name :: namesOf rest (n / 2) else namesOf rest (n / 2)

/-- The number whose bits say which of the flags occur in a list of names. -/
def bitsOf (given : List String) : List String → Nat
  | [] => 0
  | name :: rest => (if given.contains name then 1 else 0) + 2 * bitsOf given rest

/-- The names of the flags set in a value, or the default name alone when there are none. -/
def decode (flags : Flags) (value : UInt64) : List String :=
  match namesOf flags.names value.toNat, flags.defaultName with
  | [], some name => [name]
  | names, _ => names

/-- The value with the bits of the given flags; names that are no flags do not count, nor do flags
beyond the 64th. -/
def encode (flags : Flags) (given : List String) : UInt64 :=
  UInt64.ofNat (bitsOf given (flags.names.take 64))

def toJson (flags : Flags) : Json :=
  .object (("flags", .array (flags.names.map .string)) ::
    match flags.defaultName with
    | some name => [("default_name", .string name)]
    | none => [])

def ofText? (text : String) : Option Flags := do
  let fields ← Json.recordOfText? ["flags", "default_name"] text
  let names ← (← Json.Members.get? fields "flags").strings?
  let defaultName ← Json.optionalString? (Json.Members.get? fields "default_name")
  some ⟨names, defaultName⟩

end Flags

end DeviceLink
