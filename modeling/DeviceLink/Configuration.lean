import DeviceLink.Generation.Generator

/-!
The configuration of a generation: which generators there are, whether they are enabled, and their
settings. Paths in a configuration file are taken from the directory of that file.
-/

set_option autoImplicit false
set_option relaxedAutoImplicit false

namespace DeviceLink

/-- The settings of a generator, which may be switched off. -/
structure GeneratorSection (α : Type) where
  enabled : Bool := true
  settings : α

structure Configuration where
  dispatch : Option (GeneratorSection Dispatch.Settings) := none
  /-- The section of the reference, with the path of its file. -/
  reference : Option (GeneratorSection String) := none

namespace GeneratorSection

def map {α β : Type} (f : α → β) (s : GeneratorSection α) : GeneratorSection β :=
  ⟨s.enabled, f s.settings⟩

def generator? {α : Type} (make : α → Generator) (s : Option (GeneratorSection α)) :
    Option Generator :=
  match s with
  | some s => if s.enabled then some (make s.settings) else none
  | none => none

/-- Whether a section is enabled, which it is unless it says otherwise. -/
def enabledOr? (value : Option Json) : Option Bool :=
  match value with
  | none => some true
  | some value => value.bool?

def ofDispatchJson? (value : Json) : Option (GeneratorSection Dispatch.Settings) := do
  let fields ← value.record? ["enabled"]
  let enabled ← enabledOr? (Json.Members.get? fields "enabled")
  let settings ← Dispatch.Settings.ofJson? value
  some ⟨enabled, settings⟩

def referencePath? (value : Json) : Option String := do
  let fields ← value.record? ["output_file"]
  (← Json.Members.get? fields "output_file").string?

def ofReferenceJson? (value : Json) : Option (GeneratorSection String) := do
  let fields ← value.record? ["enabled", "paths"]
  let enabled ← enabledOr? (Json.Members.get? fields "enabled")
  let path ← referencePath? (← Json.Members.get? fields "paths")
  some ⟨enabled, path⟩

def dispatchJson (s : GeneratorSection Dispatch.Settings) : Json :=
  .object (("enabled", .bool s.enabled) :: s.settings.toMembers)

def referenceJson (s : GeneratorSection String) : Json :=
  .object [("enabled", .bool s.enabled),
    ("paths", .object [("output_file", .string s.settings)])]

end GeneratorSection

namespace Configuration

def optional? {α : Type} (read : Json → Option α) (value : Option Json) : Option (Option α) :=
  match value with
  | none | some .null => some none
  | some value => (read value).map some

def ofJson? (value : Json) : Option Configuration := do
  let fields ← value.record? ["generators"]
  match Json.Members.get? fields "generators" with
  | none => some {}
  | some generators =>
    let sections ← generators.record? ["generator_c", "generator_rst"]
    let dispatch ← optional? GeneratorSection.ofDispatchJson?
      (Json.Members.get? sections "generator_c")
    let reference ← optional? GeneratorSection.ofReferenceJson?
      (Json.Members.get? sections "generator_rst")
    some ⟨dispatch, reference⟩

def memberOf {α : Type} (key : String) (write : α → Json) : Option α → Json.Members
  | some value => [(key, write value)]
  | none => []

def toJson (c : Configuration) : Json :=
  .object [("generators", .object
    (memberOf "generator_c" GeneratorSection.dispatchJson c.dispatch ++
      memberOf "generator_rst" GeneratorSection.referenceJson c.reference))]

def resolved (base : String) (c : Configuration) : Configuration where
  dispatch := c.dispatch.map (·.map (·.resolved base))
  reference := c.reference.map (·.map (Path.join base))

def generators (c : Configuration) : List Generator :=
  (GeneratorSection.generator? Dispatch.generator c.dispatch).toList ++
    (GeneratorSection.generator? Reference.generator c.reference).toList

end Configuration

end DeviceLink
