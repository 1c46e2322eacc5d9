import DeviceLink.Program.Run

/-!
The command line: it runs the program on the files of the system, reports a failure on the standard
error stream, and ends with the exit code of the outcome. No source formatter is started from here,
and of YAML the part is read that is JSON.
-/

set_option autoImplicit false
set_option relaxedAutoImplicit false

namespace DeviceLink

def FileError.ofIO : IO.Error → FileError
  | .noFileOrDirectory _ _ _ | .resourceVanished _ _ => .notFound
  | .alreadyExists _ _ _ => .alreadyExists
  | .inappropriateType _ code text =>
    if code = 20 then .notADirectory else if code = 21 then .isADirectory else .other text
  | .invalidArgument _ code text => if code = 36 then .nameTooLong else .other text
  | error => .other error.toString

def guarded {α : Type} (action : IO α) : IO (Except FileError α) :=
  try return .ok (← action) catch error => return .error (.ofIO error)

def systemServices : Services IO where
  read path := guarded (IO.FS.readFile path)
  makeDirectories path := guarded (IO.FS.createDirAll path)
  write path text := guarded (IO.FS.writeFile path text)
  format _ _ := return .unavailable
  yaml := .ofJson

def usage : String :=
  "usage: avlos <spec_path> [--config <path>] [--include-root-name] [--no-format] " ++
    "[--style <style>]"

def Outcome.report : Outcome → List String
  | done _ => []
  | failed error =>
    ("Error: " ++ error.message) ::
      match error.cause? with
      | some cause => ["", "Caused by:", "    " ++ cause]
      | none => []
  | badUsage => [usage]

end DeviceLink

def main (words : List String) : IO UInt32 := do
  let outcome ← DeviceLink.runWords DeviceLink.systemServices words
  for text in outcome.report do
    IO.eprintln text
  return outcome.exitCode
