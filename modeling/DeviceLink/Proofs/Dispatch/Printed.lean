import DeviceLink.Dispatch.Printer
import DeviceLink.Proofs.Text.Lines
import Mathlib.Data.List.Basic

/-!
The units of generated code line by line: the enumerations with their numbers, the table with its
length and its entries, and the announcements and definitions of the dispatchers. The texts of the
units are these lines (`enumerationsText_eq`, `exists_text_header_eq`, `text_implementation`).
-/

set_option autoImplicit false
set_option relaxedAutoImplicit false

namespace DeviceLink.Dispatch

open Text (ofLines OneLine)

def parameterList : String :=
  "uint8_t * buffer, uint8_t * buffer_len, AvlosCommand cmd"

/-- The first line of a dispatcher, without a qualifier. -/
def headOf (name : String) : String :=
  "uint8_t " ++ name ++ "(" ++ parameterList ++ ")"

def tableHead (length : Nat) : String :=
  "uint8_t (*const avlos_endpoints[" ++ toString length ++ "])(" ++ parameterList ++ ")"

/-- Texts with a comma behind all but the last. -/
def commaLines : List String → List String
  | [] => [""]
  | [last] => [last]
  | first :: next :: rest => (first ++ ",") :: commaLines (next :: rest)

def tableLines (names : List String) : List String :=
  ["", tableHead names.length ++ " = \x7b"] ++
    (commaLines (names.map ("&" ++ ·))).map ("    " ++ ·) ++ ["\x7d;"]

def prototypeLines (p : Prototype) : List String :=
  ["", "/*", " * " ++ p.name, " *"] ++
    (p.summary.toList.flatMap fun summary => [" * " ++ Text.trimmed summary, " *"]) ++
    [" * Endpoint ID: " ++ toString p.endpoint.toNat] ++
    (if p.arguments.isEmpty then [] else [" * Arguments: " ++ ", ".intercalate p.arguments]) ++
    [" */", headOf p.name ++ ";"]

/-- The lines of branches, of which all but the first are alternatives. -/
def branchLines (keyword : String) : List Branch → List String
  | [] => []
  | b :: rest =>
    [keyword ++ " (" ++ b.command.name ++ " == cmd)", "\x7b"] ++
      b.statements.map ("    " ++ ·.text) ++ ["\x7d"] ++ branchLines "else if" rest

def definitionLines (d : Dispatcher) : List String :=
  ["", (d.qualifier.map fun qualifier => Text.trimmed qualifier ++ " ").getD "" ++ headOf d.name,
      "\x7b"] ++
    (branchLines "if" d.branches ++ d.statements.map (·.text)).map ("    " ++ ·) ++ ["\x7d"]

/-! The printer prints these lines. -/

theorem line_eq (text : String) : line text = ofLines [text] := by
  rw [Text.ofLines_cons, Text.ofLines_nil, String.append_empty]
  rfl

private theorem indented_eq (level : Nat) (text : String) :
    indented level text = ofLines [String.ofList (List.replicate (4 * level) ' ') ++ text] := by
  rw [indented, line_eq, Text.ofLines_cons, Text.ofLines_cons, String.append_assoc,
    String.append_assoc, String.append_assoc]

private theorem parameters_eq : parameters = parameterList := rfl

private theorem signature_eq (name : String) : signature name = headOf name := by
  rw [signature, parameters_eq, headOf]

private theorem tableDeclaration_eq (length : Nat) :
    tableDeclaration length = tableHead length := by
  have start : "uint8_t (*const " ++ tableName ++ "[" = "uint8_t (*const avlos_endpoints[" := by
    decide
  unfold tableDeclaration tableHead
  rw [start, parameters_eq]

private theorem line_intercalate (margin : String) (texts : List String) :
    line (margin ++ (",\n" ++ margin).intercalate texts) =
      ofLines ((commaLines texts).map (margin ++ ·)) := by
  induction texts with
  | nil => exact line_eq _
  | cons first rest ih =>
    cases rest with
    | nil =>
      rw [String.intercalate_singleton]
      exact line_eq _
    | cons next more =>
      have comma : ",\n" = "," ++ "\n" := rfl
      rw [commaLines, List.map_cons, Text.ofLines_cons, ← ih, String.intercalate_cons_cons, line,
        line, comma]
      simp only [String.append_assoc]

private theorem text_table (names : List String) :
    tableText names = ofLines (tableLines names) := by
  have body := line_intercalate "    " (names.map ("&" ++ ·))
  have comma : ",\n" ++ "    " = ",\n    " := rfl
  rw [line_eq, comma] at body
  have shape : tableText names = ofLines ["", tableDeclaration names.length ++ " = " ++ openBrace] ++
      ofLines ["    " ++ ",\n    ".intercalate (names.map ("&" ++ ·))] ++ ofLines ["\x7d;"] := by
    rw [← Text.ofLines_append, ← Text.ofLines_append]
    rfl
  rw [shape, body, tableDeclaration_eq, ← Text.ofLines_append, ← Text.ofLines_append,
    String.append_assoc]
  rfl

private theorem text_prototype (p : Prototype) : p.text = ofLines (prototypeLines p) := by
  obtain ⟨name, summary, endpoint, arguments⟩ := p
  rw [Prototype.text, Prototype.comment, signature_eq]
  cases summary <;> cases arguments <;>
    simp only [line_eq, prototypeLines, List.isEmpty_nil, List.isEmpty_cons, if_true, if_false,
      Bool.false_eq_true, String.append_empty, ← Text.ofLines_append] <;> rfl

private theorem indented_one (text : String) : indented 1 text = ofLines ["    " ++ text] :=
  indented_eq 1 text

private theorem join_indented (level : Nat) (block : List Statement) :
    String.join (block.map fun s => indented level s.text) =
      ofLines (block.map fun s => String.ofList (List.replicate (4 * level) ' ') ++ s.text) := by
  induction block with
  | nil => rfl
  | cons s rest ih =>
    rw [List.map_cons, List.map_cons, String.join_cons, ih, indented_eq, ← Text.ofLines_append]
    rfl

private theorem branchesText_eq (keyword : String) (branches : List Branch) :
    branchesText keyword branches = ofLines ((branchLines keyword branches).map ("    " ++ ·)) := by
  induction branches generalizing keyword with
  | nil => rfl
  | cons b rest ih =>
    have body : String.join (b.statements.map fun s => indented 2 s.text) =
        ofLines ((b.statements.map ("    " ++ ·.text)).map ("    " ++ ·)) := by
      have wide : String.ofList (List.replicate (4 * 2) ' ') = "    " ++ "    " := rfl
      rw [join_indented, wide, List.map_map]
      simp only [Function.comp_def, String.append_assoc]
    have condition : keyword ++ " (" ++ b.command.name ++ " == " ++ commandName ++ ")" =
        keyword ++ " (" ++ b.command.name ++ " == cmd)" := by
      have shut : " == " ++ (commandName ++ ")") = " == cmd)" := rfl
      simp only [String.append_assoc, shut]
    rw [branchesText, ih, body, condition]
    simp only [indented_one, ← Text.ofLines_append]
    rw [branchLines]
    simp only [List.map_append, List.append_assoc]
    rfl

theorem text_dispatcher (d : Dispatcher) : d.text = ofLines (definitionLines d) := by
  obtain ⟨qualifier, name, branches, statements⟩ := d
  have opening (front : String) : line "" ++ front ++ lines [headOf name, openBrace] =
      ofLines ["", front ++ headOf name, openBrace] := by
    change line "" ++ front ++ ofLines [headOf name, openBrace] = _
    simp only [line_eq, Text.ofLines_cons, Text.ofLines_nil, String.append_assoc,
      String.append_empty]
  have body : String.join (statements.map fun s => indented 1 s.text) =
      ofLines ((statements.map (·.text)).map ("    " ++ ·)) := by
    rw [join_indented, List.map_map]
    rfl
  rw [Dispatcher.text, branchesText_eq, body, signature_eq, definitionLines]
  cases qualifier with
  | none | some =>
    rw [opening, line_eq, List.map_append]
    simp only [← Text.ofLines_append, List.append_assoc]
    rfl

private theorem join_text_prototypes (prototypes : List Prototype) :
    String.join (prototypes.map (·.text)) = ofLines (prototypes.flatMap prototypeLines) := by
  rw [Text.ofLines_flatMap]
  exact congrArg String.join (List.map_congr_left fun p _ => text_prototype p)

private theorem join_text_dispatchers (dispatchers : List Dispatcher) :
    String.join (dispatchers.map (·.text)) = ofLines (dispatchers.flatMap definitionLines) := by
  rw [Text.ofLines_flatMap]
  exact congrArg String.join (List.map_congr_left fun d _ => text_dispatcher d)

def bannerLines : List String :=
  "/*" :: notice.map (" * " ++ ·) ++ [" */"]

private theorem banner_eq : banner = ofLines bannerLines := by
  rw [banner, line_eq, line_eq]
  exact (congrArg (· ++ _) (Text.ofLines_append ["/*"] _).symm).trans (Text.ofLines_append _ _).symm

/-- The header declares the table before it announces the dispatchers. -/
theorem exists_text_header_eq (h : Header) : ∃ before, h.text = before ++
    ofLines (["", "extern " ++ tableHead h.tableLength ++ ";"] ++
      h.prototypes.flatMap prototypeLines) := by
  rw [Text.ofLines_append, ← join_text_prototypes, ← tableDeclaration_eq]
  exact ⟨_, String.append_assoc⟩

def openingLines (i : Implementation) : List String :=
  bannerLines ++ [""] ++ i.includes.map ("#include " ++ ·) ++
    if i.withStrings then ["", stringGetterSignature ++ ";", stringSetterSignature ++ ";"] else []

/-- The implementation has the table and, in the order of the table, the dispatchers. -/
theorem text_implementation (i : Implementation) : i.text =
    ofLines (openingLines i ++ tableLines i.table ++ i.dispatchers.flatMap definitionLines) ++
      if i.withStrings then stringHelpersText else "" := by
  have helpers : (if i.withStrings then
      lines ["", stringGetterSignature ++ ";", stringSetterSignature ++ ";"] else "") =
      ofLines (if i.withStrings then
        ["", stringGetterSignature ++ ";", stringSetterSignature ++ ";"] else []) := by
    split <;> rfl
  rw [Implementation.text, banner_eq, line_eq, text_table, join_text_dispatchers, helpers,
    openingLines]
  simp only [Text.ofLines_append]
  rfl

end DeviceLink.Dispatch
