import DeviceLink.Files.Path
import DeviceLink.Json.Record

/-!
The settings of the code generator, and their form in configuration files.
-/

set_option autoImplicit false
set_option relaxedAutoImplicit false

namespace DeviceLink.Dispatch

/-- Where the three generated files go. -/
structure OutputPaths where
  enumerations : String
  header : String
  implementation : String
deriving DecidableEq

/-- The settings of the code generator. -/
structure Settings where
  paths : OutputPaths
  /-- Further include lines of the header. -/
  headerIncludes : List String := []
  /-- Further include lines of the implementation. -/
  implementationIncludes : List String := []
  /-- The most bytes of a string in one message. -/
  maxPayload : UInt8 := 8
  /-- The fingerprint to use in place of the one of the tree. -/
  hashOverride : Option UInt32 := none
deriving DecidableEq

namespace OutputPaths

def resolved (base : String) (p : OutputPaths) : OutputPaths :=
  ⟨Path.join base p.enumerations, Path.join base p.header, Path.join base p.implementation⟩

def toJson (p : OutputPaths) : Json :=
  .object [("output_enums", .string p.enumerations), ("output_header", .string p.header),
    ("output_impl", .string p.implementation)]

def ofJson? (value : Json) : Option OutputPaths := do
  let fields ← value.record? ["output_enums", "output_header", "output_impl"]
  let path (key : String) : Option String := do (← Json.Members.get? fields key).string?
  some ⟨← path "output_enums", ← path "output_header", ← path "output_impl"⟩

end OutputPaths

namespace Settings

def resolved (base : String) (s : Settings) : Settings :=
  { s with paths := s.paths.resolved base }

def toMembers (s : Settings) : Json.Members :=
  [("paths", s.paths.toJson), ("header_includes", .array (s.headerIncludes.map .string)),
    ("impl_includes", .array (s.implementationIncludes.map .string)),
    ("max_payload", .integer s.maxPayload.toNat)] ++
  match s.hashOverride with
  | some hash => [("hash_override", .integer hash.toNat)]
  | none => []

def stringsOr? (value : Option Json) : Option (List String) :=
  match value with
  | none => some []
  | some value => value.strings?

def ofJson? (value : Json) : Option Settings := do
  let fields ← value.record?
    ["paths", "header_includes", "impl_includes", "max_payload", "hash_override"]
  let get := Json.Members.get? fields
  let paths ← OutputPaths.ofJson? (← get "paths")
  let headerIncludes ← stringsOr? (get "header_includes")
  let implementationIncludes ← stringsOr? (get "impl_includes")
  let maxPayload ← match get "max_payload" with
    | none => some 8
    | some value => value.natBelow? (Number.twoTo 8)
  let hashOverride ← match get "hash_override" with
    | none | some .null => some none
    | some value => (value.natBelow? (Number.twoTo 32)).map fun n => some (UInt32.ofNat n)
  some { paths, headerIncludes, implementationIncludes, maxPayload := UInt8.ofNat maxPayload,
         hashOverride }

end Settings

end DeviceLink.Dispatch
