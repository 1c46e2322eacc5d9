import DeviceLink.Schema.Issue
import DeviceLink.Tree.Entity

/-!
The fields of one object of a schema document: names, metadata, and the draft of an endpoint, which
is an endpoint that still lacks its address. Every field is looked at even when an earlier one is
faulty, so that all issues of the object are found.
-/

set_option autoImplicit false
set_option relaxedAutoImplicit false

namespace DeviceLink.Schema

open Json (Members)

def joinPath (parent name : String) : String :=
  if parent.isEmpty then name else parent ++ "." ++ name

def itemPath (parent : String) (index : Nat) : String :=
  parent ++ "[" ++ toString index ++ "]"

def readName (members : Members) (path : String) : Checked (Option String) :=
  match Members.get? members "name" with
  | some (.string s) => ⟨some s, []⟩
  | some _ => ⟨none, [⟨path, .invalidField "name" "a string"⟩]⟩
  | none => ⟨none, [⟨path, .missingName⟩]⟩

def readText (members : Members) (field path : String) : Checked (Option String) :=
  match Members.get? members field with
  | none | some .null => ⟨none, []⟩
  | some (.string s) => ⟨some s, []⟩
  | some _ => ⟨none, [⟨path, .invalidField field "a string"⟩]⟩

/-- The name of a device function; where there is none under its key, an older key is looked at. -/
def readDesignator (members : Members) (key older path : String) : Checked (Option String) := do
  match ← readText members key path with
  | some s => pure (some s)
  | none => readText members older path

/-- The export mark and the further metadata of an object. -/
structure Metadata where
  exported : Bool := false
  extra : Members := []

def readMetadataField (members : Members) (path : String) : Checked Metadata :=
  match Members.get? members "meta" with
  | none | some .null => ⟨{}, []⟩
  | some (.object inner) =>
    let exported := ((Members.get? inner "export").bind Json.bool?).getD false
    ⟨⟨exported, inner.filter fun member => member.1 != "export"⟩, []⟩
  | some _ => ⟨{}, [⟨path, .invalidField "meta" "a mapping"⟩]⟩

def readExportField (members : Members) (path : String) : Checked (Option Bool) :=
  match Members.get? members "export" with
  | none | some .null => ⟨none, []⟩
  | some (.bool b) => ⟨some b, []⟩
  | some _ => ⟨none, [⟨path, .invalidField "export" "a boolean"⟩]⟩

/-- The metadata of an object; the export mark outside it overrides the one inside. -/
def readMetadata (members : Members) (path : String) : Checked Metadata := do
  let metadata ← readMetadataField members path
  let exported ← readExportField members path
  pure { metadata with exported := exported.getD metadata.exported }

def readInfo (members : Members) (name path : String) : Checked Info := do
  let summary ← readText members "summary" path
  let metadata ← readMetadata members path
  let qualifier ← readText members "func_attr" path
  let anchor ← readText members "rst_target" path
  pure {
    name := name
    summary := summary
    exported := metadata.exported
    extra := metadata.extra
    qualifier := qualifier
    anchor := anchor }

/-- An issue for every name that occurs in the list `earlier` or earlier in the list itself. -/
def duplicateIssues (path : String) (earlier : List String) : List String → List Issue
  | [] => []
  | name :: rest =>
    let further := duplicateIssues path (earlier ++ [name]) rest
    if earlier.contains name then ⟨joinPath path name, .duplicateName name⟩ :: further
    else further

/-- A list of different names. A list that is there but faulty counts as an empty one. -/
def readNames (members : Members) (field path : String) : Checked (Option (List String)) :=
  match Members.get? members field with
  | none => ⟨none, []⟩
  | some value =>
    match value.strings? with
    | some names => ⟨some names, duplicateIssues path [] names⟩
    | none => ⟨some [], [⟨path, .invalidField field "a list of names"⟩]⟩

def readUnit (members : Members) (path : String) : Checked (Option MeasureUnit) := do
  match ← readText members "unit" path with
  | none => pure none
  | some expression =>
    match Registry.standard.parse expression with
    | .ok u => pure (some u)
    | .error e => ⟨none, [⟨path, .unit e⟩]⟩

/-- One argument of a callable endpoint, where `earlier` are the arguments accepted before it. -/
def readArgument (path : String) (earlier : List Argument) (index : Nat) (item : Json) :
    Checked (Option Argument) :=
  match item.members? with
  | none => ⟨none, [⟨path, .invalidField "arguments" "a list of mappings"⟩]⟩
  | some members =>
    match (Members.get? members "name").bind Json.string? with
    | none => ⟨none, [⟨path, .argumentMissingName index⟩]⟩
    | some name =>
      let argumentPath := joinPath path name
      if earlier.any (·.name == name) then ⟨none, [⟨argumentPath, .duplicateName name⟩]⟩
      else do
        let typeName := ((Members.get? members "dtype").bind Json.string?).getD ""
        let unit ← readUnit members argumentPath
        match (DataType.ofName? typeName).filter (·.isFixedWidth) with
        | none => ⟨none, [⟨argumentPath, .invalidArgumentType name typeName⟩]⟩
        | some dataType =>
          let summary ← readText members "summary" argumentPath
          pure (some ⟨name, summary, dataType, unit⟩)

/-- The arguments in a list after those accepted before; nothing if one of them is faulty. -/
def readArgumentItems (path : String) (earlier : List Argument) (sound : Bool) (index : Nat) :
    List Json → Checked (Option (List Argument))
  | [] => ⟨if sound then some earlier else none, []⟩
  | item :: rest => do
    match ← readArgument path earlier index item with
    | some argument => readArgumentItems path (earlier ++ [argument]) sound (index + 1) rest
    | none => readArgumentItems path earlier false (index + 1) rest

def readArguments (members : Members) (path : String) : Checked (Option (List Argument)) :=
  match Members.get? members "arguments" with
  | none => ⟨some [], []⟩
  | some (.array items) => readArgumentItems path [] true 0 items
  | some _ => ⟨none, [⟨path, .invalidField "arguments" "a list"⟩]⟩

/-- The fields that decide the kind of an endpoint. -/
structure Fields where
  getter : Option String
  setter : Option String
  caller : Option String
  typeName : Option String
  flags : Option (List String)
  options : Option (List String)
  unit : Option MeasureUnit

def readFields (members : Members) (path : String) : Checked Fields := do
  let getter ← readDesignator members "getter_name" "c_getter" path
  let setter ← readDesignator members "setter_name" "c_setter" path
  let caller ← readDesignator members "caller_name" "c_caller" path
  let typeName ← readText members "dtype" path
  let flags ← readNames members "flags" path
  let options ← readNames members "options" path
  let unit ← readUnit members path
  pure ⟨getter, setter, caller, typeName, flags, options, unit⟩

abbrev Draft := EndpointId → Body

def functionDraft (members : Members) (path caller : String) (f : Fields)
    (dataType : Option DataType) : Checked (Option Draft) := do
  if f.flags.isSome || f.options.isSome then Checked.report path .functionWithOptions
  match ← readArguments members path with
  | none => pure none
  | some arguments =>
    pure (some fun endpoint =>
      .function ⟨caller, arguments, dataType.getD .void, f.unit, endpoint⟩)

def mostOptions : Nat := Options.capacity

def holderDraft (path : String) (f : Fields) (dataType : Option DataType) :
    Checked (Option Draft) :=
  let access : Access := ⟨f.getter, f.setter⟩
  match dataType, f.flags, f.options with
  | none, none, none => ⟨none, [⟨path, .missingType⟩]⟩
  | some .void, none, none => ⟨none, [⟨path, .voidRegister⟩]⟩
  | some dataType, none, none =>
    ⟨some fun endpoint => .register ⟨dataType, f.unit, access, endpoint⟩, []⟩
  | none, some [], none => ⟨none, [⟨path, .emptyFlags⟩]⟩
  | none, some flags, none => ⟨some fun endpoint => .bitmask ⟨⟨flags, none⟩, access, endpoint⟩, []⟩
  | none, none, some [] => ⟨none, [⟨path, .emptyOptions⟩]⟩
  | none, none, some options =>
    if mostOptions < options.length then
      ⟨none, [⟨path, .tooManyOptions options.length mostOptions⟩]⟩
    else ⟨some fun endpoint => .selector ⟨⟨options⟩, access, endpoint⟩, []⟩
  | _, _, _ => ⟨none, [⟨path, .ambiguousType⟩]⟩

def typedDraft (members : Members) (path : String) (f : Fields) (dataType : Option DataType) :
    Checked (Option Draft) :=
  match f.caller with
  | some caller => functionDraft members path caller f dataType
  | none => holderDraft path f dataType

def roleDraft (members : Members) (path : String) (f : Fields) : Checked (Option Draft) := do
  if f.caller.isNone && Members.has members "arguments" then
    Checked.report path .argumentsWithoutCaller
  match f.typeName with
  | none => typedDraft members path f none
  | some name =>
    match DataType.ofName? name with
    | some dataType => typedDraft members path f (some dataType)
    | none => ⟨none, [⟨path, .unknownType name⟩]⟩

def readDraft (members : Members) (path : String) : Checked (Option Draft) := do
  let f ← readFields members path
  let holds := f.getter.isSome || f.setter.isSome
  if f.caller.isNone && !holds then ⟨none, [⟨path, .noRole⟩]⟩
  else if f.caller.isSome && holds then ⟨none, [⟨path, .conflictingRoles⟩]⟩
  else roleDraft members path f

end DeviceLink.Schema
