import DeviceLink.Json.Extent

/-!
Reading JSON text strictly: one value between blanks, no comments, no trailing commas, and at most
127 containers inside each other. The members of an object are read as they stand in the text;
`parse?` sorts them by key and keeps the last of several with one key. Where
only some members of an object are of interest (`parsePart?`), the others need only be well formed.
-/

set_option autoImplicit false
set_option relaxedAutoImplicit false

namespace DeviceLink.Json

mutual

/-- The value at the front of a text, and the rest. The first number bounds the steps, the second
one the containers that may still be opened. -/
def readValue (steps depth : Nat) (cs : List Char) : Option (Json × List Char) :=
  match steps with
  | 0 => none
  | steps + 1 =>
    match skipBlanks cs with
    | '"' :: rest => (readStringFrom [] rest).map fun p => (string p.1, p.2)
    | '[' :: rest =>
      if depth = 0 then none
      else match skipBlanks rest with
        | ']' :: rest => some (array [], rest)
        | rest => readItems steps (depth - 1) [] rest
    | '\x7b' :: rest =>
      if depth = 0 then none
      else match skipBlanks rest with
        | '\x7d' :: rest => some (object [], rest)
        | rest => readMembers (fun _ => true) steps (depth - 1) [] rest
    | 'n' :: rest => readWord "null" null ('n' :: rest)
    | 't' :: rest => readWord "true" (bool true) ('t' :: rest)
    | 'f' :: rest => readWord "false" (bool false) ('f' :: rest)
    | rest => readNumber rest

/-- The items of an array up to its closing bracket, the items read so far last one first. -/
def readItems (steps depth : Nat) (done : List Json) (cs : List Char) :
    Option (Json × List Char) :=
  match steps with
  | 0 => none
  | steps + 1 =>
    match readValue steps depth cs with
    | none => none
    | some (item, rest) =>
      match skipBlanks rest with
      | ',' :: rest => readItems steps depth (item :: done) rest
      | ']' :: rest => some (array (item :: done).reverse, rest)
      | _ => none

/-- The members of an object up to its closing brace, the members read so far last one first. The
values of members whose key is not wanted are passed over. -/
def readMembers (wanted : String → Bool) (steps depth : Nat) (done : Members) (cs : List Char) :
    Option (Json × List Char) :=
  match steps with
  | 0 => none
  | steps + 1 =>
    match skipBlanks cs with
    | '"' :: rest =>
      match readStringFrom [] rest with
      | none => none
      | some (key, rest) =>
        match skipBlanks rest with
        | ':' :: rest =>
          let member : Option (Members × List Char) :=
            if wanted key then (readValue steps depth rest).map fun p => ((key, p.1) :: done, p.2)
            else (afterValue? rest).map (done, ·)
          match member with
          | none => none
          | some (done, rest) =>
            match skipBlanks rest with
            | ',' :: rest => readMembers wanted steps depth done rest
            | '\x7d' :: rest => some (object done.reverse, rest)
            | _ => none
        | _ => none
    | _ => none

end

def deepest : Nat := 127

def atEnd? : Option (Json × List Char) → Option Json
  | some (value, rest) => if (skipBlanks rest).isEmpty then some value else none
  | none => none

/-- The value of a JSON text, members as they stand. A value takes at most two steps for each of its
characters. -/
def parseAsWritten? (s : String) : Option Json :=
  let cs := s.toList
  atEnd? (readValue (2 * cs.length + 2) deepest cs)

/-- The value of a JSON text, members sorted by key and the last of several with one key kept. -/
def parse? (s : String) : Option Json :=
  (parseAsWritten? s).map sorted

/-- The value of a JSON text as `parseAsWritten?` gives it, but of an object only the members with
one of some keys. -/
def parsePart? (keys : List String) (s : String) : Option Json :=
  let cs := s.toList
  match skipBlanks cs with
  | '\x7b' :: rest =>
    match skipBlanks rest with
    | '\x7d' :: rest => atEnd? (some (object [], rest))
    | rest => atEnd? (readMembers keys.contains (2 * cs.length + 2) (deepest - 1) [] rest)
  | _ => parseAsWritten? s

end DeviceLink.Json
