import DeviceLink.Configuration
import DeviceLink.Json.Reader

/-!
What the program asks of the system that it runs on: files, a source formatter and readers of YAML.
In a system whose whole state is a value the formatter is one of four stand-ins, and YAML is read as
far as it is JSON.
-/

set_option autoImplicit false
set_option relaxedAutoImplicit false

namespace DeviceLink

/-- What became of a file that was to be formatted. -/
inductive FormatOutcome where
  | formatted
  | unavailable
  | failed
deriving DecidableEq

/-- The readers of YAML. They belong to a library, and nothing is known about them: one gives the
value of a document, the other one the configuration that a text denotes. -/
structure YamlReader where
  document? : String → Option Json
  configuration? : String → Option Configuration

def YamlReader.ofJson : YamlReader where
  document? := Json.parse?
  configuration? text := (Json.parseAsWritten? text).bind Configuration.ofJson?

/-- The services of a system: its files, the source formatter and the readers of YAML. -/
structure Services (m : Type → Type) where
  read (path : String) : m (Except FileError String)
  makeDirectories (path : String) : m (Except FileError Unit)
  write (path text : String) : m (Except FileError Unit)
  /-- Formats one file in place. -/
  format (style path : String) : m FormatOutcome
  yaml : YamlReader

/-- The ways a source formatter can behave: it is not there, it always fails, it cannot be started,
or it works and leaves a trace in the file. -/
inductive Formatter where
  | missing
  | failing
  | broken
  | working
deriving DecidableEq

namespace Formatter

def isAvailable : Formatter → Bool
  | working => true
  | missing | failing | broken => false

def outcome : Formatter → FormatOutcome
  | missing => .unavailable
  | failing | broken => .failed
  | working => .formatted

def trace (style : String) : String :=
  "/* -i --style=" ++ style ++ " */\n"

end Formatter

namespace Store

/-- A change of the state that may be refused; a refused change is none. -/
def change (f : Store → Except FileError Store) : StateM Store (Except FileError Unit) := fun s =>
  match f s with
  | .ok s => (.ok (), s)
  | .error e => (.error e, s)

/-- Formats a file with a stand-in. A formatter that works says so even where it finds no file. No
program can be started with a zero byte in its arguments. -/
def formatWith (formatter : Formatter) (style path : String) : StateM Store FormatOutcome := fun s =>
  if (style ++ path).toList.contains (Char.ofNat 0) then (.failed, s)
  else
    match formatter, s.append path (Formatter.trace style) with
    | .working, .ok s => (formatter.outcome, s)
    | _, _ => (formatter.outcome, s)

/-- The system whose files are a store, with any readers of YAML and any formatter. -/
def beside (yaml : YamlReader) (format : String → String → StateM Store FormatOutcome) :
    Services (StateM Store) where
  read path := fun s => (s.read path, s)
  makeDirectories path := fun s => s.makeDirectories path
  write path text := change fun s => s.write path text
  format
  yaml

/-- The system whose files are a store, with stand-ins for all that is no part of the program. -/
def fileSystem (formatter : Formatter) : Services (StateM Store) :=
  beside .ofJson (formatWith formatter)

end Store

end DeviceLink
