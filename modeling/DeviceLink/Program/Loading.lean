import DeviceLink.Services

/-!
Loading schema documents and configurations from files. Documents are JSON where their path says so
and YAML otherwise; configurations are YAML.
-/

set_option autoImplicit false
set_option relaxedAutoImplicit false

namespace DeviceLink

/-- The notations of schema documents. -/
inductive DocumentNotation where
  | json
  | yaml
deriving DecidableEq

inductive LoadError where
  | unreadableDocument (path : String) (cause : FileError)
  | malformedDocument (kind : DocumentNotation) (path : String)
  | unreadableConfiguration (path : String) (cause : FileError)
  | malformedConfiguration (path : String)
deriving DecidableEq

namespace LoadError

def message : LoadError → String
  | unreadableDocument path _ => "reading schema " ++ path
  | malformedDocument .json path => "parsing JSON " ++ path
  | malformedDocument .yaml path => "parsing YAML " ++ path
  | unreadableConfiguration path _ => "reading config " ++ path
  | malformedConfiguration path => "parsing config " ++ path

def cause? : LoadError → Option String
  | unreadableDocument _ cause | unreadableConfiguration _ cause => some cause.message
  | malformedDocument _ _ | malformedConfiguration _ => none

end LoadError

/-- The notation of the document at a path, by its extension in any case. -/
def DocumentNotation.ofPath (path : String) : DocumentNotation :=
  match Path.extension? path with
  | some extension => if extension.toList.map Char.toLower = "json".toList then .json else .yaml
  | none => .yaml

def DocumentNotation.read? (yaml : YamlReader) : DocumentNotation → String → Option Json
  | .json => Json.parse?
  | .yaml => yaml.document?

section

variable {m : Type → Type} [Monad m]

def loadDocument (system : Services m) (path : String) : m (Except LoadError Json) := do
  match ← system.read path with
  | .error cause => return .error (.unreadableDocument path cause)
  | .ok text =>
    let kind := DocumentNotation.ofPath path
    match kind.read? system.yaml text with
    | some document => return .ok document
    | none => return .error (.malformedDocument kind path)

def loadConfiguration (system : Services m) (path : String) :
    m (Except LoadError Configuration) := do
  match ← system.read path with
  | .error cause => return .error (.unreadableConfiguration path cause)
  | .ok text =>
    match system.yaml.configuration? text with
    | some c => return .ok (c.resolved ((Path.parent? path).getD ""))
    | none => return .error (.malformedConfiguration path)

end

end DeviceLink
