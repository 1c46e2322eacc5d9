import DeviceLink.Json.Numeral

/-!
The parts of JSON text below values: blanks, strings and words. Strings hold no control characters
and no unpaired surrogates.
-/

set_option autoImplicit false
set_option relaxedAutoImplicit false

namespace DeviceLink.Json

/-- The text after the blanks at its front; JSON knows four of them. -/
def skipBlanks (cs : List Char) : List Char :=
  cs.dropWhile fun c => c == ' ' || c == '\n' || c == '\t' || c == '\r'

def hexValue? (c : Char) : Option Nat :=
  if '0' ≤ c && c ≤ '9' then some (c.toNat - '0'.toNat)
  else if 'a' ≤ c && c ≤ 'f' then some (c.toNat - 'a'.toNat + 10)
  else if 'A' ≤ c && c ≤ 'F' then some (c.toNat - 'A'.toNat + 10)
  else none

def unit? (a b c d : Char) : Option Nat := do
  let a ← hexValue? a
  let b ← hexValue? b
  let c ← hexValue? c
  let d ← hexValue? d
  some (((a * 16 + b) * 16 + c) * 16 + d)

def escape? (c : Char) : Option Char :=
  if c == '"' || c == '\\' || c == '/' then some c
  else if c == 'b' then some (Char.ofNat 8)
  else if c == 'f' then some (Char.ofNat 12)
  else if c == 'n' then some '\n'
  else if c == 'r' then some '\r'
  else if c == 't' then some '\t'
  else none

def pairChar? (high low : Nat) : Option Char :=
  if 0xDC00 ≤ low && low < 0xE000 then
    some (Char.ofNat (0x10000 + (high - 0xD800) * 0x400 + (low - 0xDC00)))
  else none

/-- The rest of a string after its opening quote, with the characters read so far last one first,
and the text after the closing quote. -/
def readStringFrom (done : List Char) : List Char → Option (String × List Char)
  | '"' :: rest => some (String.ofList done.reverse, rest)
  | '\\' :: 'u' :: a :: b :: c :: d :: '\\' :: 'u' :: e :: f :: g :: h :: rest =>
    match unit? a b c d with
    | none => none
    | some n =>
      if 0xD800 ≤ n && n < 0xDC00 then
        match (unit? e f g h).bind (pairChar? n) with
        | none => none
        | some character => readStringFrom (character :: done) rest
      else if 0xDC00 ≤ n && n < 0xE000 then none
      else readStringFrom (Char.ofNat n :: done) ('\\' :: 'u' :: e :: f :: g :: h :: rest)
  | '\\' :: 'u' :: a :: b :: c :: d :: rest =>
    match unit? a b c d with
    | none => none
    | some n =>
      if 0xD800 ≤ n && n < 0xE000 then none
      else readStringFrom (Char.ofNat n :: done) rest
  | '\\' :: c :: rest =>
    match escape? c with
    | none => none
    | some character => readStringFrom (character :: done) rest
  | c :: rest => if c.toNat < 32 then none else readStringFrom (c :: done) rest
  | [] => none

def afterWord? (word : String) (cs : List Char) : Option (List Char) :=
  if word.toList.isPrefixOf cs then some (cs.drop word.length) else none

def readWord (word : String) (value : Json) (cs : List Char) : Option (Json × List Char) :=
  (afterWord? word cs).map (value, ·)

end DeviceLink.Json
