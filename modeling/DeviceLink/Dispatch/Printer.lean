import DeviceLink.Dispatch.Unit
import DeviceLink.Fingerprint
import DeviceLink.Generation.GeneratedFile

/-!
The C text of the three units, and the files they go into.
-/

set_option autoImplicit false
set_option relaxedAutoImplicit false

namespace DeviceLink.Dispatch

def line (text : String) : String :=
  text ++ "\n"

def lines (texts : List String) : String :=
  String.join (texts.map line)

/-- A line between an indentation of four spaces for each level and the end of the line. -/
def indented (level : Nat) (text : String) : String :=
  String.ofList (List.replicate (4 * level) ' ') ++ line text

def banner : String :=
  line "/*" ++ lines (notice.map (" * " ++ ·)) ++ line " */"

def includeLines (targets : List String) : String :=
  lines (targets.map ("#include " ++ ·))

def openBrace : String := "\x7b"

def closeBrace : String := "\x7d"

def enumeratorText (e : Enumerator) : String :=
  "    " ++ e.name ++ " = " ++ e.value.text

def Enumeration.text (e : Enumeration) : String :=
  line "" ++ line "typedef enum" ++ line openBrace ++
    line (",\n".intercalate (e.enumerators.map enumeratorText)) ++
    line (closeBrace ++ " " ++ e.name ++ ";")

def signature (name : String) : String :=
  "uint8_t " ++ name ++ "(" ++ parameters ++ ")"

def tableName : String := "avlos_endpoints"

def tableDeclaration (length : Nat) : String :=
  "uint8_t (*const " ++ tableName ++ "[" ++ toString length ++ "])(" ++ parameters ++ ")"

def Prototype.comment (p : Prototype) : String :=
  line "" ++ line "/*" ++ line (" * " ++ p.name) ++ line " *" ++
    (match p.summary with
      | some summary => line (" * " ++ Text.trimmed summary) ++ line " *"
      | none => "") ++
    line (" * Endpoint ID: " ++ toString p.endpoint.toNat) ++
    (if p.arguments.isEmpty then ""
      else line (" * Arguments: " ++ ", ".intercalate p.arguments)) ++
    line " */"

def Prototype.text (p : Prototype) : String :=
  p.comment ++ line (signature p.name ++ ";")

def enumerationsText (enumerations : List Enumeration) : String :=
  banner ++ line "" ++ line "#pragma once" ++ String.join (enumerations.map (·.text))

def maxPayloadName : String := "AVLOS_MAX_PAYLOAD"

/-- The C text of the function that gives the fingerprint, after an empty line. -/
def fingerprintText (hash : UInt32) : String :=
  lines ["", "static inline uint32_t " ++ fingerprintFunction ++ "(void)", openBrace,
    "    return " ++ hexLiteral hash ++ "u;", closeBrace]

def Header.text (h : Header) : String :=
  banner ++ lines ["", "#pragma once", ""] ++ includeLines h.includes ++
    lines ["", "#define " ++ maxPayloadName ++ " (" ++ toString h.maxPayload.toNat ++ ")"] ++
    String.join (h.enumerations.map (·.text)) ++ fingerprintText h.hash ++
    lines ["", "extern " ++ tableDeclaration h.tableLength ++ ";"] ++
    String.join (h.prototypes.map (·.text))

/-- The C text of the branches of a dispatcher, of which all but the first are alternatives. -/
def branchesText (keyword : String) : List Branch → String
  | [] => ""
  | b :: rest =>
    indented 1 (keyword ++ " (" ++ b.command.name ++ " == " ++ commandName ++ ")") ++
      indented 1 openBrace ++ String.join (b.statements.map fun s => indented 2 s.text) ++
      indented 1 closeBrace ++ branchesText "else if" rest

def Dispatcher.text (d : Dispatcher) : String :=
  line "" ++
    (match d.qualifier with
      | some qualifier => Text.trimmed qualifier ++ " "
      | none => "") ++
    lines [signature d.name, openBrace] ++ branchesText "if" d.branches ++
    String.join (d.statements.map fun s => indented 1 s.text) ++ line closeBrace

def stringGetterSignature : String :=
  "static uint8_t " ++ stringGetter ++
    "(uint8_t * buffer, uint8_t * buffer_len, uint8_t (*getter)(char *))"

def stringSetterSignature : String :=
  "static uint8_t " ++ stringSetter ++
    "(uint8_t * buffer, uint8_t * buffer_len, void (*setter)(const char *))"

def roomText : String :=
  "    char _buf[" ++ maxPayloadName ++ " + 1] = \x7b0\x7d;"

/-- The statements of a helper that shorten a string to the greatest length. -/
def clampLines : List String :=
  ["    if (len > " ++ maxPayloadName ++ ")", "    \x7b", "        len = " ++ maxPayloadName ++ ";",
    "    \x7d"]

def stringHelpersText : String :=
  lines (["", stringGetterSignature, openBrace, roomText, "    uint8_t len = getter(_buf);"] ++
    clampLines ++
    ["    memcpy(buffer, _buf, len);", "    *buffer_len = len;", "    return AVLOS_RET_READ;",
      closeBrace]) ++
  lines (["", stringSetterSignature, openBrace, roomText, "    uint8_t len = *buffer_len;"] ++
    clampLines ++
    ["    memcpy(_buf, buffer, len);", "    _buf[len] = '\\0';", "    setter(_buf);",
      "    return AVLOS_RET_WRITE;", closeBrace])

def tableText (table : List String) : String :=
  lines ["", tableDeclaration table.length ++ " = " ++ openBrace,
    "    " ++ ",\n    ".intercalate (table.map ("&" ++ ·)), closeBrace ++ ";"]

def Implementation.text (i : Implementation) : String :=
  banner ++ line "" ++ includeLines i.includes ++
    (if i.withStrings then
      lines ["", stringGetterSignature ++ ";", stringSetterSignature ++ ";"] else "") ++
    tableText i.table ++ String.join (i.dispatchers.map (·.text)) ++
    (if i.withStrings then stringHelpersText else "")

def generate (s : Settings) (t : Tree) : Except DispatchError (List GeneratedFile) :=
  if s.maxPayload = 0 then .error .noPayload
  else do
    let implementation ← implementation s t
    .ok [⟨s.paths.enumerations, enumerationsText (enumerations t)⟩,
      ⟨s.paths.header, (header s t).text⟩, ⟨s.paths.implementation, implementation.text⟩]

end DeviceLink.Dispatch
