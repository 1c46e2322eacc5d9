import DeviceLink.Fingerprint
import DeviceLink.Generation.GeneratedFile
import DeviceLink.Text.Blank
import DeviceLink.Tree.Basic

/-!
The reference of a device tree in reStructuredText: a title, the fingerprint, and one section for
each endpoint.
-/

set_option autoImplicit false
set_option relaxedAutoImplicit false

namespace DeviceLink.Reference

/-- A title with a line of marks below it, as many as it has characters. -/
def underlined (mark : Char) (title : String) : List String :=
  [title, String.ofList (List.replicate title.length mark)]

/-- A text with blanks behind it, so that it has at least a number of characters. -/
def padded (width : Nat) (text : String) : String :=
  text ++ String.ofList (List.replicate (width - text.length) ' ')

/-- The widths of the columns of argument tables: name, type and unit. -/
def columnWidths : List Nat := [16, 10, 16]

def border (mark : Char) : String :=
  "  +" ++ String.join (columnWidths.map fun width =>
    String.ofList (List.replicate (width + 2) mark) ++ "+")

def row (cells : List String) : String :=
  "  |" ++ String.join ((columnWidths.zip cells).map fun (width, cell) =>
    " " ++ padded width cell ++ " |")

def unitText : Option MeasureUnit → String
  | some u => u.name
  | none => "Not defined"

def argumentRow (a : Argument) : String :=
  row [a.name, a.dataType.name, unitText a.unit]

def argumentTable (arguments : List Argument) : List String :=
  [border '-', row ["Name", "Type", "Unit"], border '='] ++
    arguments.flatMap fun a => [argumentRow a, border '-']

def bodyLines : Body → List String
  | .node _ => ["- Data Type: " ++ DataType.void.name, "- Unit: " ++ unitText none]
  | .register r => ["- Data Type: " ++ r.dataType.name, "- Unit: " ++ unitText r.unit]
  | .function f =>
    ["- Return Type: " ++ f.result.name, "- Unit: " ++ unitText f.unit] ++
      if f.arguments.isEmpty then ["- Arguments: None"]
      else ["- Arguments:", ""] ++ argumentTable f.arguments
  | .selector s =>
    ["- Data Type: " ++ optionType.name, "- Options: " ++ ", ".intercalate s.options.names]
  | .bitmask b =>
    ["- Data Type: " ++ optionType.name, "- Flags: " ++ ", ".intercalate b.flags.names]

def summaryLines : Option String → List String
  | some summary => ["", Text.trimmed summary]
  | none => []

/-- The title of the section of an entity, which always starts with the name of the root. -/
def heading (t : Tree) (id : Nat) : String :=
  if t.withRootName then t.fullName id else t.rootName ++ "." ++ t.fullName id

def sectionOf (heading : String) (e : Entity) : List String :=
  "" :: (match e.info.anchor with
    | some anchor => [".. _" ++ anchor ++ ":", ""]
    | none => []) ++
  underlined '-' heading ++
  ["", "- Endpoint ID: " ++ toString (e.endpoint?.getD 0).toNat] ++ bodyLines e.body ++
  summaryLines e.info.summary

def sectionAt (t : Tree) (id : Nat) : List String :=
  match t.get? id with
  | some e => sectionOf (heading t id) e
  | none => []

def opening (t : Tree) : List String :=
  notice.map (".. " ++ ·) ++ "" :: underlined '=' (t.rootName ++ " API Reference") ++
    summaryLines ((t.get? Tree.rootId).bind (·.info.summary)) ++
    ["", "Protocol hash: ``" ++ hexLiteral t.hash ++ "``"]

def lines (t : Tree) : List String :=
  opening t ++ t.endpoints.flatMap (sectionAt t)

def text (t : Tree) : String :=
  String.join ((lines t).map (· ++ "\n"))

def generate (path : String) (t : Tree) : GeneratedFile :=
  ⟨path, text t⟩

end DeviceLink.Reference
