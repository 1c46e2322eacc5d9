import DeviceLink.Dispatch.Printer
import DeviceLink.Files.Store
import DeviceLink.Reference
import DeviceLink.Validation.Report

/-!
Generators and the plan of a generation: the files that all generators make of a valid tree. There
is no plan when the tree breaks a rule or some generator refuses it.
-/

set_option autoImplicit false
set_option relaxedAutoImplicit false

namespace DeviceLink

/-- What makes files of a tree; a refusal is a text. -/
structure Generator where
  language : String
  generate : Tree → Except String (List GeneratedFile)

def Dispatch.generator (s : Dispatch.Settings) : Generator where
  language := "c"
  generate t := (Dispatch.generate s t).mapError (·.message)

def Reference.generator (path : String) : Generator where
  language := "rst"
  generate t := .ok [Reference.generate path t]

def GeneratedFile.find? (files : List GeneratedFile) (path : String) : Option GeneratedFile :=
  files.find? (·.path == path)

inductive GenerateError where
  | validation (violations : List Violation)
  | generator (language cause : String)
  | io (path : String) (cause : FileError)

def GenerateError.message : GenerateError → String
  | validation violations =>
    "validation failed with " ++ toString violations.length ++ " error(s):\n" ++
      "\n".intercalate (violations.map ("  - " ++ ·.text))
  | generator language cause => language ++ " generator failed: " ++ cause
  | io path cause => "failed to write " ++ path ++ ": " ++ cause.message

def plannedFiles (t : Tree) : List Generator → Except GenerateError (List GeneratedFile)
  | [] => .ok []
  | g :: rest =>
    match g.generate t with
    | .error cause => .error (.generator g.language cause)
    | .ok files => (plannedFiles t rest).map (files ++ ·)

def plan (t : Tree) (generators : List Generator) : Except GenerateError (List GeneratedFile) :=
  if t.isValid then plannedFiles t generators else .error (.validation t.violations)

end DeviceLink
