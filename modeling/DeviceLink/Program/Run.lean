import DeviceLink.Program.Arguments
import DeviceLink.Program.Loading
import DeviceLink.Schema.Build

/-!
The whole program: it loads a schema document, builds the tree, loads the configuration, and has the
enabled generators write their files.
-/

set_option autoImplicit false
set_option relaxedAutoImplicit false

namespace DeviceLink

inductive RunError where
  | load (error : LoadError)
  | build (path : String) (error : SchemaError)
  | generate (error : GenerateError)

namespace RunError

def message : RunError → String
  | load error => error.message
  | build path _ => "building " ++ path
  | generate error => error.message

/-- What lies behind a failure, as far as the message does not say it. -/
def cause? : RunError → Option String
  | load error => error.cause?
  | build _ error => some error.message
  | generate (.io _ cause) => some cause.message
  | generate _ => none

end RunError

section

variable {m : Type → Type} [Monad m]

/-- Runs the program and gives the paths of the files that it wrote. Without an enabled generator the
tree is built, but not validated. -/
def run (system : Services m) (a : Arguments) : m (Except RunError (List String)) := do
  match ← loadDocument system a.document with
  | .error e => return .error (.load e)
  | .ok document =>
    match Schema.build document a.withRootName with
    | .error e => return .error (.build a.document e)
    | .ok tree =>
      match ← loadConfiguration system a.configuration with
      | .error e => return .error (.load e)
      | .ok configuration =>
        if configuration.generators.isEmpty then return .ok []
        match ← generate system tree configuration.generators a.format with
        | .error e => return .error (.generate e)
        | .ok written => return .ok written

inductive Outcome where
  | done (written : List String)
  | failed (error : RunError)
  | badUsage

def Outcome.exitCode : Outcome → UInt32
  | done _ => 0
  | failed _ => 1
  | badUsage => 2

def runWords (system : Services m) (words : List String) : m Outcome := do
  match Arguments.ofWords? words with
  | none => return .badUsage
  | some a =>
    match ← run system a with
    | .ok written => return .done written
    | .error e => return .failed e

end

end DeviceLink
