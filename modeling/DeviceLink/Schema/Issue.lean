import DeviceLink.Unit.Expression

/-!
Problems of schema documents. All problems of a document are collected, each with the dotted path of
the object that it is about.
-/

set_option autoImplicit false
set_option relaxedAutoImplicit false

namespace DeviceLink

/-- What is wrong with one object of a schema document. -/
inductive Problem where
  | missingName
  | invalidField (field expected : String)
  | noRole
  | conflictingRoles
  | missingType
  | ambiguousType
  | functionWithOptions
  | emptyFlags
  | emptyOptions
  | tooManyOptions (count most : Nat)
  | unknownType (name : String)
  | voidRegister
  | argumentsWithoutCaller
  | argumentMissingName (index : Nat)
  | invalidArgumentType (name dataType : String)
  | duplicateName (name : String)
  | rootNotContainer
  | tooManyEndpoints
  | unit (error : UnitError)
deriving DecidableEq

def Problem.message : Problem → String
  | missingName => "Name is required."
  | invalidField field expected => "field '" ++ field ++ "' must be " ++ expected
  | noRole => "Either a getter, setter, caller or remote attributes list is required"
  | conflictingRoles => "A getter, setter, and caller cannot coexist in a single endpoint"
  | missingType => "Data type or flags field is required"
  | ambiguousType => "only one of dtype, flags or options may be given"
  | functionWithOptions => "a function cannot declare flags or options"
  | emptyFlags => "Empty flags list."
  | emptyOptions => "Empty options list."
  | tooManyOptions count most =>
    toString count ++ " options declared, at most " ++ toString most ++ " fit the uint8 wire value"
  | unknownType name => "unknown data type '" ++ name ++ "'"
  | voidRegister => "an attribute cannot have type void"
  | argumentsWithoutCaller => "arguments are only allowed on functions"
  | argumentMissingName index => "argument " ++ toString index ++ " requires a name"
  | invalidArgumentType name dataType =>
    "argument '" ++ name ++ "' must have a fixed-width data type, got '" ++ dataType ++ "'"
  | duplicateName name => "duplicate name '" ++ name ++ "'"
  | rootNotContainer => "the root node requires a remote attributes list"
  | tooManyEndpoints => "too many endpoints"
  | unit error => error.message

def Problem.isUnit : Problem → Bool
  | unit _ => true
  | _ => false

/-- A problem with the path of the object that it is about. -/
structure Issue where
  path : String
  problem : Problem
deriving DecidableEq

def Issue.message (issue : Issue) : String :=
  if issue.path.isEmpty then issue.problem.message
  else issue.path ++ ": " ++ issue.problem.message

/-- The issues of a document that is no schema. -/
structure SchemaError where
  issues : List Issue
deriving DecidableEq

def SchemaError.hasUnitError (e : SchemaError) : Bool :=
  e.issues.any (·.problem.isUnit)

def SchemaError.message (e : SchemaError) : String :=
  "schema has " ++ toString e.issues.length ++ " error(s)" ++
    String.join (e.issues.map fun issue => "\n  - " ++ issue.message)

/-- A value found in spite of some issues. -/
structure Checked (α : Type) where
  value : α
  issues : List Issue := []

namespace Checked

instance : Monad Checked where
  pure value := ⟨value, []⟩
  bind found next :=
    let more := next found.value
    ⟨more.value, found.issues ++ more.issues⟩

def report (path : String) (problem : Problem) : Checked PUnit :=
  ⟨⟨⟩, [⟨path, problem⟩]⟩

end Checked

end DeviceLink
