import DeviceLink.Tree.Basic
import DeviceLink.Text.UpperCase

/-!
The C names that a tree gives rise to: the function of every endpoint, the enumerators of options
and flags, and the types that hold them.
-/

set_option autoImplicit false
set_option relaxedAutoImplicit false

namespace DeviceLink

def functionMark : String := "avlos_"

def hashFunction : String := "avlos_get_hash"

def noFlagName : String := "NONE"

/-- What an enumerator stands for. -/
inductive EnumeratorValue where
  | number (n : Nat)
  | bit (place : Nat)
deriving DecidableEq

namespace EnumeratorValue

def toNat : EnumeratorValue → Nat
  | number n => n
  | bit place => Number.twoTo place

def text : EnumeratorValue → String
  | number n => toString n
  | bit place => "(1 << " ++ toString place ++ ")"

end EnumeratorValue

/-- A named number of generated code. -/
structure Enumerator where
  name : String
  value : EnumeratorValue
deriving DecidableEq

namespace Tree

def underscoredName (t : Tree) (id : Nat) : String :=
  Text.replaceChar '.' '_' (t.fullName id)

def functionName (t : Tree) (id : Nat) : String :=
  functionMark ++ t.underscoredName id

def enumeratorStem (t : Tree) (id : Nat) : String :=
  String.ofList (Text.upper (t.underscoredName id).toList)

def enumeratorName (stem member : String) : String :=
  stem ++ "_" ++ member

def optionEnumerators (stem : String) (options : Options) : List Enumerator :=
  options.values.map fun v => ⟨enumeratorName stem v.name, .number v.index.toNat⟩

/-- The enumerators of flags: one for no flag at all, and one for each flag with its bit. -/
def flagEnumerators (stem : String) (flags : Flags) : List Enumerator :=
  ⟨enumeratorName stem noFlagName, .number 0⟩ ::
    flags.names.mapIdx fun i flag => ⟨enumeratorName stem flag, .bit i⟩

/-- The enumerators of an endpoint with options or flags, in declaration order; other entities have
none. -/
def enumerators (t : Tree) (id : Nat) : List Enumerator :=
  match t.get? id with
  | none => []
  | some e =>
    match e.body with
    | .selector s => optionEnumerators (t.enumeratorStem id) s.options
    | .bitmask b => flagEnumerators (t.enumeratorStem id) b.flags
    | .node _ | .register _ | .function _ => []

def optionsTypeName (t : Tree) (id : Nat) : String :=
  t.underscoredName id ++ "_options"

def flagsTypeName (t : Tree) (id : Nat) : String :=
  t.underscoredName id ++ "_flags"

end Tree

end DeviceLink
