import DeviceLink.Generation.Delivery

/-!
The arguments of the command line: the path of a schema document, two options that take a value, and
two flags. Each of them is given at most once.
-/

set_option autoImplicit false
set_option relaxedAutoImplicit false

namespace DeviceLink

structure Arguments where
  document : String
  configuration : String := "./avlos_config.yaml"
  withRootName : Bool := false
  format : FormatOptions := {}
deriving DecidableEq

namespace Arguments

/-- The options that take a value. -/
inductive Setting where
  | configuration
  | style
deriving DecidableEq

inductive Switch where
  | withRootName
  | withoutFormat
deriving DecidableEq

inductive Word where
  | plain (text : String)
  | setting (name : Setting) (value : Option String)
  | switch (name : Switch)
  | unknown
deriving DecidableEq

def Setting.ofName? (name : String) : Option Setting :=
  if name = "config" then some .configuration
  else if name = "style" then some .style
  else none

def Switch.ofName? (name : String) : Option Switch :=
  if name = "include-root-name" then some .withRootName
  else if name = "no-format" then some .withoutFormat
  else none

/-- A word after two dashes: a name, and a value after an equals sign. -/
def Word.ofLong (cs : List Char) : Word :=
  let text := String.ofList (cs.takeWhile (· != '='))
  match Setting.ofName? text, Switch.ofName? text, cs.dropWhile (· != '=') with
  | some name, _, [] => .setting name none
  | some name, _, _ :: value => .setting name (some (String.ofList value))
  | none, some name, [] => .switch name
  | none, _, _ => .unknown

/-- A word after one dash: a letter, and a value right after it or after an equals sign. -/
def Word.ofShort : List Char → Word
  | ['c'] => .setting .configuration none
  | 'c' :: '=' :: value => .setting .configuration (some (String.ofList value))
  | 'c' :: value => .setting .configuration (some (String.ofList value))
  | _ => .unknown

def Word.ofText (text : String) : Word :=
  match text.toList with
  | '-' :: '-' :: rest => ofLong rest
  | ['-'] => plain text
  | '-' :: rest => ofShort rest
  | _ => plain text

/-- What the words read so far have given. -/
structure Given where
  document : Option String := none
  configuration : Option String := none
  style : Option String := none
  withRootName : Bool := false
  withoutFormat : Bool := false
deriving DecidableEq

namespace Given

def once (earlier : Option String) (value : String) : Option (Option String) :=
  if earlier.isSome then none else some (some value)

def oncePath (earlier : Option String) (path : String) : Option (Option String) :=
  if path.isEmpty then none else once earlier path

def addDocument (g : Given) (path : String) : Option Given :=
  (oncePath g.document path).map fun document => { g with document := document }

def addSetting (g : Given) (value : String) : Setting → Option Given
  | .configuration =>
    (oncePath g.configuration value).map fun path => { g with configuration := path }
  | .style => (once g.style value).map fun style => { g with style := style }

def addSwitch (g : Given) : Switch → Option Given
  | .withRootName => if g.withRootName then none else some { g with withRootName := true }
  | .withoutFormat => if g.withoutFormat then none else some { g with withoutFormat := true }

def addWords (g : Given) : List String → Option Given
  | [] => some g
  | [text] =>
    if text = "--" then some g
    else match Word.ofText text with
      | .plain path => g.addDocument path
      | .setting name (some value) => g.addSetting value name
      | .setting _ none => none
      | .switch name => g.addSwitch name
      | .unknown => none
  | text :: next :: rest =>
    if text = "--" then (next :: rest).foldlM addDocument g
    else match Word.ofText text with
      | .plain path => (g.addDocument path).bind (addWords · (next :: rest))
      | .setting name (some value) => (g.addSetting value name).bind (addWords · (next :: rest))
      | .setting name none =>
        match Word.ofText next with
        | .plain value => (g.addSetting value name).bind (addWords · rest)
        | _ => none
      | .switch name => (g.addSwitch name).bind (addWords · (next :: rest))
      | .unknown => none

end Given

def ofWords? (words : List String) : Option Arguments := do
  let given ← ({} : Given).addWords words
  let document ← given.document
  let defaults : Arguments := { document }
  some {
    document
    configuration := given.configuration.getD defaults.configuration
    withRootName := given.withRootName
    format := ⟨!given.withoutFormat, given.style.getD defaults.format.style⟩ }

end Arguments

end DeviceLink
