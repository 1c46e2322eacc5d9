/-!
C identifiers: the words that generated code may use as names, and the lengths up to which all
compilers tell them apart.
-/

set_option autoImplicit false
set_option relaxedAutoImplicit false

namespace DeviceLink.Identifier

def reservedWords : List String := [
  "auto", "break", "case", "char", "const", "continue", "default", "do", "double", "else", "enum",
  "extern", "float", "for", "goto", "if", "inline", "int", "long", "register", "restrict", "return",
  "short", "signed", "sizeof", "static", "struct", "switch", "typedef", "union", "unsigned", "void",
  "volatile", "while", "_Alignas", "_Alignof", "_Atomic", "_Bool", "_Complex", "_Generic",
  "_Imaginary", "_Noreturn", "_Static_assert", "_Thread_local"]

def isStart (c : Char) : Bool :=
  c.isAlpha || c == '_'

def isPart (c : Char) : Bool :=
  c.isAlphanum || c == '_'

def wellFormed (name : String) : Bool :=
  match name.toList with
  | [] => false
  | c :: rest => isStart c && rest.all isPart

inductive Fault where
  | malformed
  | reserved
deriving DecidableEq

def fault? (name : String) : Option Fault :=
  if !wellFormed name then some .malformed
  else if reservedWords.contains name then some .reserved
  else none

def Fault.message (fault : Fault) (name context : String) : String :=
  let place := if context.isEmpty then "" else " (" ++ context ++ ")"
  let opening := "Invalid C identifier '" ++ name ++ "'" ++ place ++ ". "
  match fault with
  | malformed =>
    opening ++ "Must start with letter or underscore, contain only alphanumeric and underscore."
  | reserved => opening ++ "'" ++ name ++ "' is a C reserved word."

def significantBytes : Nat := 63

def lengthWarning? (name context : String) : Option String :=
  let length := name.utf8ByteSize
  if significantBytes < length then
    some ("Identifier '" ++ name ++ "' (" ++ context ++ ") is very long (" ++ toString length ++
      " chars). Some compilers may truncate after " ++ toString significantBytes ++ " characters.")
  else none

end DeviceLink.Identifier
