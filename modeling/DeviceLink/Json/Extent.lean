import DeviceLink.Json.Lexeme

/-!
Where a JSON value ends in a text. A value that nobody asks for only has to be well formed: its
numbers may be of any size, its escapes need not make up characters, and it may be nested at will.
-/

set_option autoImplicit false
set_option relaxedAutoImplicit false

namespace DeviceLink.Json

def afterString? : List Char → Option (List Char)
  | '"' :: rest => some rest
  | '\\' :: 'u' :: a :: b :: c :: d :: rest =>
    if (unit? a b c d).isSome then afterString? rest else none
  | '\\' :: c :: rest => if (escape? c).isSome then afterString? rest else none
  | c :: rest => if c.toNat < 32 then none else afterString? rest
  | [] => none

def afterNumber? (cs : List Char) : Option (List Char) :=
  match cs with
  | '-' :: cs => (Numeral.read cs).map (·.2)
  | _ => (Numeral.read cs).map (·.2)

mutual

def afterValueWithin? (steps : Nat) (cs : List Char) : Option (List Char) :=
  match steps with
  | 0 => none
  | steps + 1 =>
    match skipBlanks cs with
    | '"' :: rest => afterString? rest
    | '[' :: rest =>
      match skipBlanks rest with
      | ']' :: rest => some rest
      | rest => afterItems? steps rest
    | '\x7b' :: rest =>
      match skipBlanks rest with
      | '\x7d' :: rest => some rest
      | rest => afterMembers? steps rest
    | 'n' :: rest => afterWord? "null" ('n' :: rest)
    | 't' :: rest => afterWord? "true" ('t' :: rest)
    | 'f' :: rest => afterWord? "false" ('f' :: rest)
    | rest => afterNumber? rest

def afterItems? (steps : Nat) (cs : List Char) : Option (List Char) :=
  match steps with
  | 0 => none
  | steps + 1 =>
    match (afterValueWithin? steps cs).map skipBlanks with
    | some (',' :: rest) => afterItems? steps rest
    | some (']' :: rest) => some rest
    | _ => none

def afterMembers? (steps : Nat) (cs : List Char) : Option (List Char) :=
  match steps with
  | 0 => none
  | steps + 1 =>
    match skipBlanks cs with
    | '"' :: rest =>
      match (afterString? rest).map skipBlanks with
      | some (':' :: rest) =>
        match (afterValueWithin? steps rest).map skipBlanks with
        | some (',' :: rest) => afterMembers? steps rest
        | some ('\x7d' :: rest) => some rest
        | _ => none
      | _ => none
    | _ => none

end

/-- The text after the value at the front of a text. A value takes at most two steps for each of
its characters. -/
def afterValue? (cs : List Char) : Option (List Char) :=
  afterValueWithin? (2 * cs.length + 2) cs

end DeviceLink.Json
