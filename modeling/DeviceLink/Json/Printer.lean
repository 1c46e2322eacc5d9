import DeviceLink.Json.Basic
import DeviceLink.Text.Quoted

/-!
Compact JSON text. Strings escape the quote, the backslash and the characters below the space;
numbers that are not integers are written with the fewest digits that read back.
-/

set_option autoImplicit false
set_option relaxedAutoImplicit false

namespace DeviceLink.Json

def escapedChar (c : Char) : List Char :=
  if c == '"' then ['\\', '"']
  else if c == '\\' then ['\\', '\\']
  else if c.toNat == 8 then ['\\', 'b']
  else if c.toNat == 9 then ['\\', 't']
  else if c.toNat == 10 then ['\\', 'n']
  else if c.toNat == 12 then ['\\', 'f']
  else if c.toNat == 13 then ['\\', 'r']
  else if c.toNat < 16 then ['\\', 'u', '0', '0', '0'] ++ Text.hexDigits c.toNat
  else if c.toNat < 32 then ['\\', 'u', '0', '0'] ++ Text.hexDigits c.toNat
  else [c]

def stringChars (s : String) : List Char :=
  '"' :: s.toList.flatMap escapedChar ++ ['"']

def integerChars (n : Int) : List Char :=
  if n < 0 then '-' :: Nat.toDigits 10 n.natAbs else Nat.toDigits 10 n.natAbs

mutual

def chars : Json → List Char
  | null => ['n', 'u', 'l', 'l']
  | bool true => ['t', 'r', 'u', 'e']
  | bool false => ['f', 'a', 'l', 's', 'e']
  | integer n => integerChars n
  | real x => if x.isFinite then Number.Layout.json.chars x else ['n', 'u', 'l', 'l']
  | string s => stringChars s
  | array [] => ['[', ']']
  | array (item :: rest) => '[' :: chars item ++ itemsChars rest
  | object [] => ['\x7b', '\x7d']
  | object ((key, value) :: rest) =>
    '\x7b' :: stringChars key ++ ':' :: chars value ++ membersChars rest

/-- The further items of an array, each after a comma, and the closing bracket. -/
def itemsChars : List Json → List Char
  | [] => [']']
  | item :: rest => ',' :: chars item ++ itemsChars rest

/-- The further members of an object, each after a comma, and the closing brace. -/
def membersChars : Members → List Char
  | [] => ['\x7d']
  | (key, value) :: rest => ',' :: stringChars key ++ ':' :: chars value ++ membersChars rest

end

def text (value : Json) : String :=
  String.ofList value.chars

/-- The text of a value with the members of every object sorted by key. -/
def canonicalText (value : Json) : String :=
  value.sorted.text

end DeviceLink.Json
