import DeviceLink.Validation.Violation

/-!
The validation of a device tree. Five groups of rules are checked, all of them always: names are
identifiers, endpoint addresses are unique, device functions are identifiers and generated functions
do not collide, enumerators do not collide, and every endpoint is complete.
-/

set_option autoImplicit false
set_option relaxedAutoImplicit false

namespace DeviceLink

namespace Tree

/-- The path of an entity in the document, which always starts with the name of the root. -/
def documentPath (t : Tree) (id : Nat) : String :=
  let full := t.fullName id
  if t.withRootName || id = rootId then
    if full.isEmpty then t.rootName else full
  else t.rootName ++ "." ++ full

/-- The names inside an entity, each with the path of the entity before it. -/
def memberNamings (path : String) (role : NameRole) (names : List String) : List Naming :=
  names.map fun name => ⟨name, role, path ++ "." ++ name⟩

def bodyNamings (path : String) : Body → List Naming
  | .function f => memberNamings path .argument (f.arguments.map (·.name))
  | .selector s => memberNamings path .option s.options.names
  | .bitmask b => memberNamings path .flag b.flags.names
  | .node _ | .register _ => []

def entityNamings (t : Tree) (id : Nat) : List Naming :=
  match t.get? id with
  | none => []
  | some e =>
    let path := t.documentPath id
    ⟨e.name, .entity, path⟩ :: bodyNamings path e.body

def namings (t : Tree) : List Naming :=
  t.walk.flatMap t.entityNamings

/-- The identifiers that a generated function declares or calls itself. -/
def dispatcherNames : List String :=
  ["buffer", "buffer_len", "cmd", "_offset", "ret_val", "memcpy"]

/-- The violations of the arguments of a function at a path, where `earlier` are the names of the
arguments before them. -/
def argumentViolations (path caller : String) (earlier : List String) :
    List String → List Violation
  | [] => []
  | name :: rest =>
    let argumentPath := path ++ "." ++ name
    (if earlier.contains name then [.duplicateArgument name path argumentPath] else []) ++
      (if dispatcherNames.contains name || name == caller then [.shadowing name argumentPath]
        else []) ++
      argumentViolations path caller (earlier ++ [name]) rest

def entityArgumentViolations (t : Tree) (id : Nat) : List Violation :=
  match t.get? id with
  | some ⟨_, .function f⟩ =>
    argumentViolations (t.documentPath id) f.caller [] (f.arguments.map (·.name))
  | _ => []

/-- Names that are no identifiers, and then arguments that hide something. -/
def nameViolations (t : Tree) : List Violation :=
  (t.namings.filterMap fun n => (Identifier.fault? n.name).map (.identifier n)) ++
    t.walk.flatMap t.entityArgumentViolations

/-- The violations of the addresses of endpoints, where `seen` are the addresses before them with
the names of the endpoints that have them. -/
def addressViolations (t : Tree) (seen : List (EndpointId × String)) :
    List Nat → List Violation
  | [] => []
  | id :: rest =>
    match (t.get? id).bind Entity.endpoint? with
    | none => addressViolations t seen rest
    | some endpoint =>
      let name := t.fullName id
      if endpoint = hashEndpoint then
        .reservedEndpoint endpoint name :: addressViolations t seen rest
      else match seen.find? (·.1 == endpoint) with
        | some first => .duplicateEndpoint endpoint name first.2 :: addressViolations t seen rest
        | none => addressViolations t ((endpoint, name) :: seen) rest

def endpointViolations (t : Tree) : List Violation :=
  t.addressViolations [] t.endpoints

def designators (e : Entity) : List (Designator × String) :=
  (e.access.getter.map (Designator.getter, ·)).toList ++
    (e.access.setter.map (Designator.setter, ·)).toList ++
    (e.caller?.map (Designator.caller, ·)).toList

def designatorViolations (t : Tree) (id : Nat) : List Violation :=
  match t.get? id with
  | none => []
  | some e =>
    (designators e).filterMap fun d =>
      (Identifier.fault? d.2).map (.designator d.1 d.2 (t.fullName id))

/-- The collisions of names, where `seen` are the names before them with their owners. -/
def collisions (report : String → String → String → Violation)
    (seen : List (String × String)) : List (String × String) → List Violation
  | [] => []
  | (name, owner) :: rest =>
    match seen.find? (·.1 == name) with
    | some first => report name owner first.2 :: collisions report seen rest
    | none => collisions report ((name, owner) :: seen) rest

/-- The generated functions of the endpoints, each with its endpoint. -/
def generatedFunctions (t : Tree) : List (String × String) :=
  t.endpoints.map fun id => (t.functionName id, t.fullName id)

/-- Device functions that are no identifiers, and then generated functions that collide with each
other or with the one for the fingerprint. -/
def functionViolations (t : Tree) : List Violation :=
  t.endpoints.flatMap t.designatorViolations ++
    collisions .functionCollision [(hashFunction, "the hash accessor")] t.generatedFunctions

def allEnumerators (t : Tree) : List (String × String) :=
  t.endpoints.flatMap fun id => (t.enumerators id).map fun e => (e.name, t.fullName id)

def enumeratorViolations (t : Tree) : List Violation :=
  collisions .enumeratorCollision [] t.allEnumerators

def accessDefects (kind : Kind) (access : Access) : List Defect :=
  if access.getter.isNone && access.setter.isNone then [.unreachable kind] else []

def bodyDefects : Body → List Defect
  | .register r =>
    accessDefects .register r.access ++ (if r.dataType.isVoid then [.voidRegister] else [])
  | .function f =>
    (if f.caller.isEmpty then [.missingCaller] else []) ++
      (if f.result.isString then [.stringResult] else []) ++
      f.arguments.filterMap fun a =>
        if a.dataType.isFixedWidth then none else some (.argumentType a.name a.dataType)
  | .selector s =>
    accessDefects .selector s.access ++ (if s.options.names.isEmpty then [.noOptions] else [])
  | .bitmask b =>
    accessDefects .bitmask b.access ++ (if b.flags.names.isEmpty then [.noFlags] else [])
  | .node _ => []

def endpointDefects (t : Tree) (id : Nat) : List Violation :=
  match t.get? id with
  | none => []
  | some e => (bodyDefects e.body).map (.incomplete (t.fullName id))

def defectViolations (t : Tree) : List Violation :=
  t.endpoints.flatMap t.endpointDefects

def violations (t : Tree) : List Violation :=
  t.nameViolations ++ t.endpointViolations ++ t.functionViolations ++ t.enumeratorViolations ++
    t.defectViolations

def flagBits : Nat := (optionType.size?.getD 1) * 8

def flagWarning? (t : Tree) (id : Nat) : Option String :=
  match t.get? id with
  | some ⟨_, .bitmask b⟩ =>
    let count := b.flags.names.length
    if flagBits < count then
      some ("Bitmask '" ++ t.fullName id ++ "' declares " ++ toString count ++ " flags but the " ++
        optionType.name ++ " wire value holds " ++ toString flagBits ++ "; flags past bit " ++
        toString (flagBits - 1) ++ " cannot be transferred.")
    else none
  | _ => none

def flagWarnings (t : Tree) : List String :=
  t.endpoints.filterMap t.flagWarning?

def nameWarnings (t : Tree) : List String :=
  t.namings.filterMap fun n => Identifier.lengthWarning? n.name n.context

def functionWarnings (t : Tree) : List String :=
  t.endpoints.filterMap fun id =>
    Identifier.lengthWarning? (t.functionName id) ("dispatcher for " ++ t.fullName id)

def warnings (t : Tree) : List String :=
  t.nameWarnings ++ t.flagWarnings ++ t.functionWarnings

def isValid (t : Tree) : Bool :=
  t.violations.isEmpty

end Tree

end DeviceLink
