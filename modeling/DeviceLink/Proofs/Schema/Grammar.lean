import DeviceLink.Schema.Build

/-!
The grammar of schema documents, said of JSON values and not of their reader: which texts, lists and
units an object holds, which objects are well formed, and which documents are schemas. The objects
of a document are numbered in document order, and each knows the number of the object around it.
-/

set_option autoImplicit false
set_option relaxedAutoImplicit false

namespace DeviceLink.Schema

open Json (Members)

def text? (members : Members) (key : String) : Option String :=
  (Members.get? members key).bind Json.string?

/-- The device function that a key names; without a text under it the older key counts. -/
def designator? (members : Members) (key older : String) : Option String :=
  (text? members key).or (text? members older)

def texts? (members : Members) (key : String) : Option (List String) :=
  (Members.get? members key).bind Json.strings?

def dataType? (members : Members) : Option DataType :=
  (text? members "dtype").bind DataType.ofName?

def measureUnit? (members : Members) : Option MeasureUnit :=
  (text? members "unit").bind fun s => (Registry.standard.parse s).toOption

def metadata (members : Members) : Members :=
  ((Members.get? members "meta").bind Json.members?).getD []

/-- The export mark of an object: the truth value under `export`, else the one in the metadata. -/
def isExported (members : Members) : Bool :=
  (((Members.get? members "export").bind Json.bool?).or
    ((Members.get? (metadata members) "export").bind Json.bool?)).getD false

def nameOf? (item : Json) : Option String :=
  item.members?.bind (text? · "name")

def isContainer (members : Members) : Bool :=
  (Members.get? members "remote_attributes").isSome

/-- What is under a key is left out, null or a text. -/
def OptionalText (members : Members) (key : String) : Prop :=
  ∀ value, Members.get? members key = some value → value = .null ∨ ∃ s, value = .string s

/-- A key is left out, null or a text, and so is the older key where the first has no text. -/
def OptionalDesignator (members : Members) (key older : String) : Prop :=
  OptionalText members key ∧ (text? members key = none → OptionalText members older)

/-- What is under a key, if anything, is a list of different texts; null is none. -/
def DistinctTexts (members : Members) (key : String) : Prop :=
  ∀ value, Members.get? members key = some value →
    ∃ names : List String, value = .array (names.map .string) ∧ names.Nodup

/-- The type of an object is left out, null or the name of a type. -/
def OptionalType (members : Members) : Prop :=
  OptionalText members "dtype" ∧
    ∀ s, text? members "dtype" = some s → ∃ t, DataType.ofName? s = some t

/-- The unit of an object is left out, null or a text that denotes a unit. -/
def OptionalUnit (members : Members) : Prop :=
  OptionalText members "unit" ∧
    ∀ s, text? members "unit" = some s → ∃ u, Registry.standard.parse s = .ok u

/-- What every object must satisfy, be it a container or an endpoint. -/
structure Header (members : Members) : Prop where
  name : ∃ s, Members.get? members "name" = some (.string s)
  summary : OptionalText members "summary"
  qualifier : OptionalText members "func_attr"
  anchor : OptionalText members "rst_target"
  metadata : ∀ value, Members.get? members "meta" = some value →
    value = .null ∨ ∃ inner, value = .object inner
  exported : ∀ value, Members.get? members "export" = some value →
    value = .null ∨ ∃ b, value = .bool b

/-- An argument has a name and a type of fixed width. -/
structure WellFormedArgument (members : Members) : Prop where
  name : ∃ s, Members.get? members "name" = some (.string s)
  dataType : ∃ t, dataType? members = some t ∧ t.isFixedWidth = true
  unit : OptionalUnit members
  summary : OptionalText members "summary"

/-- The arguments of a callable endpoint are left out or a list of well-formed arguments with
different names. -/
def WellFormedArguments (members : Members) : Prop :=
  ∀ value, Members.get? members "arguments" = some value →
    ∃ items : List Members, value = .array (items.map .object) ∧
      (∀ item ∈ items, WellFormedArgument item) ∧ (items.map (text? · "name")).Nodup

/-- A callable endpoint holds nothing that could be read or written. -/
structure Callable (members : Members) : Prop where
  caller : (designator? members "caller_name" "c_caller").isSome
  noGetter : designator? members "getter_name" "c_getter" = none
  noSetter : designator? members "setter_name" "c_setter" = none
  noFlags : Members.get? members "flags" = none
  noOptions : Members.get? members "options" = none
  arguments : WellFormedArguments members

/-- An endpoint that holds something says in exactly one way what it holds: by a type other than
void, by some flags or by options that fit into a byte. -/
inductive Content (members : Members) : Prop
  | typed (t : DataType) : dataType? members = some t → t ≠ .void →
      Members.get? members "flags" = none → Members.get? members "options" = none →
      Content members
  | flagged (names : List String) : text? members "dtype" = none →
      texts? members "flags" = some names → names ≠ [] →
      Members.get? members "options" = none → Content members
  | chosen (names : List String) : text? members "dtype" = none →
      Members.get? members "flags" = none → texts? members "options" = some names → names ≠ [] →
      names.length ≤ 256 → Content members

/-- An endpoint that holds something can be read or written, and takes no arguments. -/
structure Holder (members : Members) : Prop where
  noCaller : designator? members "caller_name" "c_caller" = none
  access : (designator? members "getter_name" "c_getter").isSome ∨
    (designator? members "setter_name" "c_setter").isSome
  noArguments : Members.get? members "arguments" = none
  content : Content members

/-- The fields of a well-formed endpoint. -/
structure WellFormedFields (members : Members) : Prop where
  getter : OptionalDesignator members "getter_name" "c_getter"
  setter : OptionalDesignator members "setter_name" "c_setter"
  caller : OptionalDesignator members "caller_name" "c_caller"
  dataType : OptionalType members
  flags : DistinctTexts members "flags"
  options : DistinctTexts members "options"
  unit : OptionalUnit members
  role : Callable members ∨ Holder members

/-- A well-formed object. A container lists well-formed objects with different names and is not
looked at any further; all other objects are endpoints. -/
inductive WellFormed : Json → Prop
  | container {members : Members} {items : List Json} (header : Header members)
      (children : Members.get? members "remote_attributes" = some (.array items))
      (each : ∀ item ∈ items, WellFormed item) (distinct : (items.map nameOf?).Nodup) :
      WellFormed (.object members)
  | endpoint {members : Members} (header : Header members)
      (leaf : Members.get? members "remote_attributes" = none)
      (fields : WellFormedFields members) : WellFormed (.object members)

/-- An object of a document, with the number of the object around it; the root has none. -/
structure Occurrence where
  members : Members
  around : Option Nat

mutual

/-- The objects of an item in document order, where `count` objects come before it. -/
def occurrences (around : Option Nat) (count : Nat) (item : Json) : List Occurrence :=
  match item with
  | .object members =>
    ⟨members, around⟩ ::
      match _h : Members.get? members "remote_attributes" with
      | some children => childOccurrences count (count + 1) children
      | none => []
  | _ => []
termination_by sizeOf item
decreasing_by exact sizeOf_get_lt _h

def childOccurrences (parent count : Nat) (children : Json) : List Occurrence :=
  match children with
  | .array items => itemOccurrences parent count items
  | _ => []
termination_by sizeOf children

def itemOccurrences (parent count : Nat) (items : List Json) : List Occurrence :=
  match items with
  | [] => []
  | item :: rest =>
    let first := occurrences (some parent) count item
    first ++ itemOccurrences parent (count + first.length) rest
termination_by sizeOf items

end

def objects (document : Json) : List Occurrence :=
  occurrences none 0 document

def endpointCount (found : List Occurrence) : Nat :=
  found.countP fun o => !isContainer o.members

/-- A schema document: a well-formed container whose endpoints all get an address. -/
structure IsSchema (document : Json) : Prop where
  wellFormed : WellFormed document
  container : ∃ members, document = .object members ∧ isContainer members = true
  addresses : endpointCount (objects document) ≤ 65535

theorem document_induction {motive : Json → Prop}
    (object : ∀ members, (∀ items, Members.get? members "remote_attributes" = some (.array items) →
      ∀ item ∈ items, motive item) → motive (.object members))
    (other : ∀ item, item.members? = none → motive item) (item : Json) : motive item := by
  induction left : sizeOf item using Nat.strongRecOn generalizing item with
  | _ left ih =>
    cases item with
    | object members =>
      refine object members fun items found item inside => ih (sizeOf item) ?_ item rfl
      have outer := sizeOf_get_lt found
      have inner := List.sizeOf_lt_of_mem inside
      simp only [Json.array.sizeOf_spec] at outer
      omega
    | null | bool | integer | real | string | array => exact other _ rfl

end DeviceLink.Schema
