import DeviceLink.Proofs.Schema.Grammar
import DeviceLink.Proofs.Tree.Arena
import Mathlib.Data.List.Forall2

/-!
When an entity says what an object of a document says: `Depicts` compares them field by field, for
the fields that entities of its kind have.
-/

set_option autoImplicit false
set_option relaxedAutoImplicit false

namespace DeviceLink.Schema

open Json (Members)

/-- The kind of an object: children decide before a caller, a caller before a type, a type before
flags, and flags before options. -/
def kindOf (members : Members) : Kind :=
  if isContainer members then .node
  else if (designator? members "caller_name" "c_caller").isSome then .function
  else if (text? members "dtype").isSome then .register
  else if (Members.get? members "flags").isSome then .bitmask
  else .selector

/-- The device functions that an object names for reading and writing. -/
def accessOf (members : Members) : Access where
  getter := designator? members "getter_name" "c_getter"
  setter := designator? members "setter_name" "c_setter"

/-- The objects of the arguments of an object, in declaration order. -/
def argumentsOf (members : Members) : List Members :=
  (((Members.get? members "arguments").bind Json.items?).getD []).filterMap Json.members?

/-- An argument says what its object says. -/
structure DepictsArgument (members : Members) (a : Argument) : Prop where
  name : text? members "name" = some a.name
  summary : a.summary = text? members "summary"
  dataType : dataType? members = some a.dataType
  unit : a.unit = measureUnit? members

/-- The content of an entity says what the fields of its object say. -/
def DepictsBody (members : Members) : Body → Prop
  | .node _ => True
  | .register r =>
    dataType? members = some r.dataType ∧ r.unit = measureUnit? members ∧
      r.access = accessOf members
  | .function f =>
    designator? members "caller_name" "c_caller" = some f.caller ∧
      f.result = (dataType? members).getD .void ∧ f.unit = measureUnit? members ∧
        List.Forall₂ DepictsArgument (argumentsOf members) f.arguments
  | .selector s => texts? members "options" = some s.options.names ∧ s.access = accessOf members
  | .bitmask b =>
    texts? members "flags" = some b.flags.names ∧ b.flags.defaultName = none ∧
      b.access = accessOf members

/-- An entity says what its object says. -/
structure Depicts (members : Members) (e : Entity) : Prop where
  name : text? members "name" = some e.name
  kind : e.kind = kindOf members
  summary : e.info.summary = text? members "summary"
  qualifier : e.info.qualifier = text? members "func_attr"
  anchor : e.info.anchor = text? members "rst_target"
  exported : e.info.exported = isExported members
  extra : e.info.extra = (metadata members).filter fun member => member.1 != "export"
  body : DepictsBody members e.body

theorem Depicts.of_bare {members : Members} {e : Entity} (h : Depicts members e.bare) :
    Depicts members e := by
  obtain ⟨info, body⟩ := e
  cases body with
  | node children =>
    exact ⟨h.name, h.kind, h.summary, h.qualifier, h.anchor, h.exported, h.extra, h.body⟩
  | register | function | selector | bitmask => exact h

theorem Depicts.detached {members : Members} {e : Entity} (h : Depicts members e) (parent : Nat) :
    Depicts members (e.detached parent) := by
  obtain ⟨info, body⟩ := e
  cases body with
  | node children =>
    exact ⟨h.name, h.kind, h.summary, h.qualifier, h.anchor, h.exported, h.extra, h.body⟩
  | register | function | selector | bitmask =>
    exact ⟨h.name, h.kind, h.summary, h.qualifier, h.anchor, h.exported, h.extra, h.body⟩

end DeviceLink.Schema
