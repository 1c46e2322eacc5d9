/-!
The fragment of C that dispatchers are made of. A dispatcher gets a buffer with a payload, the
length of it and a command; it answers with a status. Arguments of a call are taken out of the
buffer one after the other, at an offset that a byte keeps.
-/

set_option autoImplicit false
set_option relaxedAutoImplicit false

namespace DeviceLink.Dispatch

/-- The commands that a dispatcher gets. -/
inductive Command where
  | write
  | read
deriving DecidableEq

namespace Command

def all : List Command := [write, read]

def name : Command → String
  | write => "AVLOS_CMD_WRITE"
  | read => "AVLOS_CMD_READ"

end Command

/-- What a dispatcher says it has done. -/
inductive Status where
  | noAction
  | read
  | write
deriving DecidableEq

namespace Status

def all : List Status := [noAction, read, write]

def name : Status → String
  | noAction => "AVLOS_RET_NOACTION"
  | read => "AVLOS_RET_READ"
  | write => "AVLOS_RET_WRITE"

end Status

def bufferName : String := "buffer"

def lengthName : String := "buffer_len"

def commandName : String := "cmd"

def offsetName : String := "_offset"

def resultName : String := "ret_val"

def valueName : String := "v"

def copyFunction : String := "memcpy"

def commandType : String := "AvlosCommand"

def statusType : String := "AvlosStatus"

def parameters : String :=
  "uint8_t * " ++ bufferName ++ ", uint8_t * " ++ lengthName ++ ", " ++ commandType ++ " " ++
    commandName

def callText (function : String) (arguments : List String) : String :=
  function ++ "(" ++ ", ".intercalate arguments ++ ")"

def sizeText (name : String) : String :=
  callText "sizeof" [name]

inductive Statement where
  /-- Says that the command is not looked at. -/
  | ignoreCommand
  /-- Declares a variable. -/
  | declare (type name : String)
  /-- Declares a variable with the result of a call. -/
  | declareResult (type name function : String) (arguments : List String)
  /-- Sets a variable to the result of a call without arguments. -/
  | fetch (name function : String)
  /-- Calls a function for its effect. -/
  | call (function : String) (arguments : List String)
  /-- Declares the offset, which starts at zero. -/
  | declareOffset
  /-- Copies a variable from the buffer at the offset. -/
  | unpack (name : String)
  /-- Moves the offset behind a variable. -/
  | advance (name : String)
  /-- Copies a variable from the start of the buffer. -/
  | load (name : String)
  /-- Copies a variable to the start of the buffer. -/
  | store (name : String)
  /-- Says that the answer is as long as a variable. -/
  | setLength (name : String)
  /-- Says that there is no answer. -/
  | clearLength
  /-- Ends with a status. -/
  | answer (status : Status)
  /-- Ends with what a helper answers that gets a device function. -/
  | delegate (helper function : String)
deriving DecidableEq

def Statement.text : Statement → String
  | ignoreCommand => "(void)" ++ commandName ++ ";"
  | declare type name => type ++ " " ++ name ++ ";"
  | declareResult type name function arguments =>
    type ++ " " ++ name ++ " = " ++ callText function arguments ++ ";"
  | fetch name function => name ++ " = " ++ callText function [] ++ ";"
  | call function arguments => callText function arguments ++ ";"
  | declareOffset => "uint8_t " ++ offsetName ++ " = 0;"
  | unpack name =>
    callText copyFunction ["&" ++ name, bufferName ++ " + " ++ offsetName, sizeText name] ++ ";"
  | advance name => offsetName ++ " += " ++ sizeText name ++ ";"
  | load name => callText copyFunction ["&" ++ name, bufferName, sizeText name] ++ ";"
  | store name => callText copyFunction [bufferName, "&" ++ name, sizeText name] ++ ";"
  | setLength name => "*" ++ lengthName ++ " = " ++ sizeText name ++ ";"
  | clearLength => "*" ++ lengthName ++ " = 0;"
  | answer status => "return " ++ status.name ++ ";"
  | delegate helper function =>
    "return " ++ callText helper [bufferName, lengthName, function] ++ ";"

/-- What a dispatcher does on one command. -/
structure Branch where
  command : Command
  statements : List Statement
deriving DecidableEq

/-- The function that answers the messages to one endpoint: first the branch of the command, then
the further statements. -/
structure Dispatcher where
  qualifier : Option String := none
  name : String
  branches : List Branch := []
  statements : List Statement
deriving DecidableEq

end DeviceLink.Dispatch
