import DeviceLink.Json.Record

/-!
Option sets: the choices of an endpoint that holds one of several named values. Option number `i` of
the list is sent as the byte `i`, so options from number 256 on have no byte and cannot be chosen.
-/

set_option autoImplicit false
set_option relaxedAutoImplicit false

namespace DeviceLink

structure OptionValue where
  index : UInt8
  name : String
deriving DecidableEq

inductive Choice where
  | index (n : Int)
  | value (v : OptionValue)
  | name (s : String)

/-- Why a choice has no byte or a number no option. -/
inductive OptionError where
  | outOfRange (value : Int) (count : Nat)
  | unknownName (name : String)
  | foreign (name : String)
deriving DecidableEq

def OptionError.message : OptionError → String
  | outOfRange value count =>
    "value " ++ toString value ++ " is out of range for " ++ toString count ++ " options"
  | unknownName name => "'" ++ name ++ "' is not an option of this enum"
  | foreign name => "option '" ++ name ++ "' does not belong to this enum"

namespace OptionValue

def toJson (v : OptionValue) : Json :=
  .object [("index", .integer v.index.toNat), ("name", .string v.name)]

def ofText? (text : String) : Option OptionValue := do
  let fields ← Json.recordOfText? ["index", "name"] text
  let index ← (← Json.Members.get? fields "index").natBelow? 256
  let name ← (← Json.Members.get? fields "name").string?
  some ⟨UInt8.ofNat index, name⟩

end OptionValue

/-- The options of an endpoint, in declaration order. -/
structure Options where
  names : List String
deriving DecidableEq

namespace Options

def capacity : Nat := 256

def values (options : Options) : List OptionValue :=
  (options.names.take capacity).mapIdx fun i name => ⟨UInt8.ofNat i, name⟩

def byName? (options : Options) (name : String) : Option OptionValue :=
  match options.names.findIdx? (· == name) with
  | some i => if i < capacity then some ⟨UInt8.ofNat i, name⟩ else none
  | none => none

/-- The option that a number stands for. In the message of a refusal the number is at most the
greatest signed one of 64 bits. -/
def decode (options : Options) (value : UInt64) : Except OptionError OptionValue :=
  let n := value.toNat
  match (options.names.take capacity)[n]? with
  | some name => .ok ⟨UInt8.ofNat n, name⟩
  | none => .error (.outOfRange (min n (Number.twoTo 63 - 1) : Nat) options.names.length)

def encode (options : Options) : Choice → Except OptionError UInt8
  | .index n =>
    if 0 ≤ n && n < capacity && n < options.names.length then .ok (UInt8.ofNat n.toNat)
    else .error (.outOfRange n options.names.length)
  | .value v =>
    if options.names[v.index.toNat]? = some v.name then .ok v.index else .error (.foreign v.name)
  | .name s =>
    match options.byName? s with
    | some v => .ok v.index
    | none => .error (.unknownName s)

def toJson (options : Options) : Json :=
  .object [("options", .array (options.names.map .string))]

def ofText? (text : String) : Option Options := do
  let fields ← Json.recordOfText? ["options"] text
  let names ← (← Json.Members.get? fields "options").strings?
  some ⟨names⟩

theorem map_name_values (options : Options) :
    options.values.map (·.name) = options.names.take capacity := by
  refine List.ext_getElem? fun i => ?_
  rw [values, List.getElem?_map, List.getElem?_mapIdx, Option.map_map]
  exact Option.map_id'

end Options

end DeviceLink
