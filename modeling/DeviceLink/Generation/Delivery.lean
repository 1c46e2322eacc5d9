import DeviceLink.Services
import DeviceLink.Generation.Generator

/-!
From a plan to files: nothing is written before the whole plan stands, files are written in the
order of the plan until one cannot be written, and code is formatted at the end.
-/

set_option autoImplicit false
set_option relaxedAutoImplicit false

namespace DeviceLink

/-- How code is to be formatted, if at all. -/
structure FormatOptions where
  enabled : Bool := true
  style : String := "LLVM"
deriving DecidableEq

def isCode (path : String) : Bool :=
  match Path.extension? path with
  | some extension => extension = "c" || extension = "h"
  | none => false

section

variable {m : Type → Type} [Monad m]

def formatFiles (system : Services m) (style : String) (paths : List String) :
    m (List (String × FormatOutcome)) :=
  (paths.filter isCode).mapM fun path => do return (path, ← system.format style path)

def deliver (system : Services m) (file : GeneratedFile) : m (Except FileError Unit) := do
  let made ← match Path.parent? file.path with
    | some directory =>
      if directory.isEmpty then pure (.ok ()) else system.makeDirectories directory
    | none => pure (.ok ())
  match made with
  | .error e => return .error e
  | .ok _ => system.write file.path file.content

def deliverAll (system : Services m) : List GeneratedFile → m (Except GenerateError Unit)
  | [] => return .ok ()
  | file :: rest => do
    match ← deliver system file with
    | .error cause => return .error (.io file.path cause)
    | .ok _ => deliverAll system rest

/-- Writes the files that generators make of a tree, and gives their paths. -/
def generate (system : Services m) (t : Tree) (generators : List Generator)
    (options : FormatOptions) : m (Except GenerateError (List String)) := do
  match plan t generators with
  | .error e => return .error e
  | .ok files =>
    match ← deliverAll system files with
    | .error e => return .error e
    | .ok _ =>
      let paths := files.map (·.path)
      if options.enabled then discard (formatFiles system options.style paths)
      return .ok paths

end

end DeviceLink
