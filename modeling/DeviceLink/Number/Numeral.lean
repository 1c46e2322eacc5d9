import DeviceLink.Number.Shortest

/-!
Decimal numerals: how numbers are written and read. A `Layout` fixes where positional notation ends
and what it looks like; three layouts serve readable text, diagnostic text and JSON. Reading accepts
digits with an optional sign, point and exponent, and the names of infinity and of no number, and
rounds once.
-/

set_option autoImplicit false
set_option relaxedAutoImplicit false

namespace DeviceLink.Number

/-- The decisions of a numeral format. -/
structure Layout where
  /-- The exponents of the leading digit that are written positionally, from the first one up to
  but not including the second; without bounds all are. -/
  positional : Option (Int × Int)
  /-- Whether a whole number in positional notation ends in a point and a zero. -/
  wholePoint : Bool
  /-- Whether a positive exponent carries its sign. -/
  plus : Bool
  tie : Tie

namespace Layout

/-- Readable text is always positional, and whole numbers have no point. -/
def readable : Layout := ⟨none, false, false, .up⟩

/-- Diagnostic text has an exponent below one ten-thousandth and from ten to the sixteenth on. -/
def diagnostic : Layout := ⟨some (-4, 16), true, false, .up⟩

/-- JSON text has an exponent below ten to the power -5 and from ten to the sixteenth on. -/
def json : Layout := ⟨some (-5, 16), true, true, .toEven⟩

def positionalText (wholePoint : Bool) (ds : List Char) (point : Int) : List Char :=
  if point ≤ 0 then
    '0' :: '.' :: List.replicate (-point).toNat '0' ++ ds
  else if ds.length ≤ point.toNat then
    ds ++ List.replicate (point.toNat - ds.length) '0' ++ (if wholePoint then ['.', '0'] else [])
  else ds.take point.toNat ++ '.' :: ds.drop point.toNat

/-- Digits with a point after the first one, and the exponent of the first digit. -/
def exponentText (plus : Bool) (ds : List Char) (exponent : Int) : List Char :=
  let sign := if exponent < 0 then ['-'] else if plus then ['+'] else []
  let fraction := match ds.drop 1 with
    | [] => []
    | rest => '.' :: rest
  ds.take 1 ++ fraction ++ 'e' :: sign ++ Nat.toDigits 10 exponent.natAbs

def significantDigits (n : Nat) : List Char :=
  ((Nat.toDigits 10 n).reverse.dropWhile (· == '0')).reverse

def decimalText (l : Layout) (d : Decimal) : List Char :=
  let ds := significantDigits d.digits
  let point := (Nat.toDigits 10 d.digits).length + d.exponent
  match l.positional with
  | none => positionalText l.wholePoint ds point
  | some (least, bound) =>
    if least ≤ point - 1 && point - 1 < bound then positionalText l.wholePoint ds point
    else exponentText l.plus ds (point - 1)

def chars (l : Layout) (x : Binary64) : List Char :=
  let sign := if x.isNegative then ['-'] else []
  if x.isNaN then "NaN".toList
  else if x.isInfinite then sign ++ "inf".toList
  else if x.isZero then sign ++ '0' :: (if l.wholePoint then ['.', '0'] else [])
  else sign ++ l.decimalText (x.shortest l.tie)

def write (l : Layout) (x : Binary64) : String :=
  String.ofList (l.chars x)

end Layout

def digitValue (c : Char) : Nat :=
  c.toNat - '0'.toNat

def digitsValue (n : Nat) (cs : List Char) : Nat :=
  cs.foldl (fun n c => 10 * n + digitValue c) n

def readDigits (cs : List Char) : Option Nat :=
  if cs.isEmpty || !cs.all Char.isDigit then none else some (digitsValue 0 cs)

def readNat (cs : List Char) : Option Nat :=
  match cs with
  | '+' :: rest => readDigits rest
  | _ => readDigits cs

def readInt (cs : List Char) : Option Int :=
  match cs with
  | '+' :: rest => (readDigits rest).map Int.ofNat
  | '-' :: rest => (readDigits rest).map fun n => -Int.ofNat n
  | _ => (readDigits cs).map Int.ofNat

namespace Binary64

/-- The number nearest to a decimal with a sign. Decimals far outside the range are not expanded:
they are beyond every finite number or below half the least positive one. -/
def ofDecimal (negative : Bool) (d : Decimal) : Binary64 :=
  let top := (Nat.toDigits 10 d.digits).length + d.exponent
  if d.digits = 0 then ofCode negative 0
  else if 400 < top then infinite negative
  else if top < -400 then ofCode negative 0
  else ofRatio negative (d.digits * tenTo d.exponent.toNat) (tenTo (-d.exponent).toNat)

/-- The decimal of the digits before and after a point and an exponent. -/
def decimalOf (whole fraction : List Char) (exponent : Int) : Decimal :=
  ⟨digitsValue 0 (whole ++ fraction), exponent - fraction.length⟩

def readExponent (cs : List Char) : Option Int :=
  match cs with
  | [] => some 0
  | c :: rest => if c == 'e' || c == 'E' then readInt rest else none

/-- An unsigned numeral: digits before or after a point, and an exponent part. -/
def readMagnitude (cs : List Char) : Option Decimal :=
  let whole := cs.takeWhile Char.isDigit
  match cs.dropWhile Char.isDigit with
  | '.' :: rest =>
    let fraction := rest.takeWhile Char.isDigit
    if whole.isEmpty && fraction.isEmpty then none
    else (readExponent (rest.dropWhile Char.isDigit)).map (decimalOf whole fraction)
  | rest =>
    if whole.isEmpty then none
    else (readExponent rest).map (decimalOf whole [])

def readUnsigned (negative : Bool) (cs : List Char) : Option Binary64 :=
  let name := String.ofList (cs.map Char.toLower)
  if name = "inf" || name = "infinity" then some (infinite negative)
  else if name = "nan" then some nan
  else (readMagnitude cs).map (ofDecimal negative)

def read (cs : List Char) : Option Binary64 :=
  match cs with
  | '-' :: rest => readUnsigned true rest
  | '+' :: rest => readUnsigned false rest
  | _ => readUnsigned false cs

def ofString? (s : String) : Option Binary64 :=
  read s.toList

end Binary64

def Binary64.text (x : Binary64) : String :=
  Layout.readable.write x

end DeviceLink.Number
