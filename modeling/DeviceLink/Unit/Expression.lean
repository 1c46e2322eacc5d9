import DeviceLink.Unit.Registry
import DeviceLink.Text.Alphabetic
import DeviceLink.Text.Blank

/-!
Unit expressions: terms joined by a star, by a slash or by nothing at all, each a word or a number
with an optional exponent after two stars or a caret. An expression is first cut into tokens and
then evaluated from left to right; the first fault met on that way is the one reported.
-/

set_option autoImplicit false
set_option relaxedAutoImplicit false

namespace DeviceLink

open Number (Binary64)

/-- What is wrong with the form of a unit expression. -/
inductive UnitFault where
  | empty
  | badNumber (text : String)
  | unexpected (character : Char)
  | trailing
  | badExponent
  | missingUnit
deriving DecidableEq

def UnitFault.message : UnitFault → String
  | empty => "empty expression"
  | badNumber text => "invalid number '" ++ text ++ "'"
  | unexpected character => "unexpected character '" ++ String.singleton character ++ "'"
  | trailing => "unexpected trailing input"
  | badExponent => "exponent must be a small integer"
  | missingUnit => "expected a unit name"

/-- Why a unit expression has no meaning. -/
inductive UnitError where
  | undefined (name expression : String)
  | malformed (expression : String) (fault : UnitFault)
deriving DecidableEq

def UnitError.message : UnitError → String
  | undefined name expression => "undefined unit '" ++ name ++ "' in '" ++ expression ++ "'"
  | malformed expression fault =>
    "invalid unit expression '" ++ expression ++ "': " ++ fault.message

inductive UnitToken where
  | word (name : String)
  | number (value : Binary64)
  | star
  | slash
  | power
deriving DecidableEq

namespace UnitToken

def isWordChar (c : Char) : Bool :=
  Text.isAlphabetic c || c == '_' || c == '%'

def isNumberChar (c : Char) : Bool :=
  c.isDigit || c == '.'

private theorem length_dropWhile_le_length (p : Char → Bool) (cs : List Char) :
    (cs.dropWhile p).length ≤ cs.length :=
  (List.dropWhile_sublist p).length_le

def scan : List Char → Except UnitFault (List UnitToken)
  | [] => .ok []
  | '*' :: '*' :: rest => (scan rest).map (power :: ·)
  | c :: rest =>
    if Text.isBlank c then scan rest
    else if c == '*' then (scan rest).map (star :: ·)
    else if c == '^' then (scan rest).map (power :: ·)
    else if c == '/' then (scan rest).map (slash :: ·)
    else if c.isDigit || c == '-' then
      let text := c :: rest.takeWhile isNumberChar
      match Binary64.read text with
      | some value => (scan (rest.dropWhile isNumberChar)).map (number value :: ·)
      | none => .error (.badNumber (String.ofList text))
    else if isWordChar c then
      let name := String.ofList (c :: rest.takeWhile isWordChar)
      (scan (rest.dropWhile isWordChar)).map (word name :: ·)
    else .error (.unexpected c)
termination_by cs => cs.length
decreasing_by
  all_goals simp only [List.length_cons]
  all_goals first
    | omega
    | exact Nat.lt_succ_of_le (length_dropWhile_le_length _ _)

end UnitToken

inductive QuantityError where
  | missingMagnitude (text : String)
  | unit (error : UnitError)
deriving DecidableEq

def QuantityError.message : QuantityError → String
  | missingMagnitude text => "no numeric magnitude in '" ++ text ++ "'"
  | unit error => error.message

namespace Registry

def greatestExponent : Nat := 16

/-- The exponent that a number stands for: a whole number that is small enough. -/
def exponentOf? (x : Binary64) : Option Int :=
  match x.whole? with
  | some n => if n.natAbs ≤ greatestExponent then some n else none
  | none => none

def measureOf (r : Registry) (expression : String) : UnitToken → Except UnitError Measure
  | .word name =>
    match r.lookup? name with
    | some m => .ok m
    | none => .error (.undefined name expression)
  | .number x => .ok (.ofNumber x)
  | .star | .slash | .power => .error (.malformed expression .missingUnit)

/-- A measure with the exponent that the tokens start with, if they do, and the further tokens. -/
def powered (expression : String) (m : Measure) :
    List UnitToken → Except UnitError (Measure × List UnitToken)
  | .power :: .number x :: rest =>
    match exponentOf? x with
    | some n => .ok (m.pow n, rest)
    | none => .error (.malformed expression .badExponent)
  | .power :: _ => .error (.malformed expression .badExponent)
  | rest => .ok (m, rest)

private theorem powered_length {expression : String} {m m' : Measure} {tokens rest : List UnitToken}
    (h : powered expression m tokens = .ok (m', rest)) : rest.length ≤ tokens.length := by
  unfold powered at h
  split at h
  · split at h
    · cases h
      exact Nat.le_add_right _ 2
    · cases h
  · cases h
  · cases h
    exact Nat.le_refl _

/-- The measure of the terms in a list of tokens, where `join` puts the first of them behind what
was read before. -/
def evaluate (r : Registry) (expression : String) (join : Measure → Measure) :
    List UnitToken → Except UnitError Measure
  | [] => .error (.malformed expression .missingUnit)
  | token :: tokens =>
    match r.measureOf expression token with
    | .error e => .error e
    | .ok m =>
      match _h : powered expression m tokens with
      | .error e => .error e
      | .ok (m, []) => .ok (join m)
      | .ok (m, .star :: rest) => evaluate r expression (join m).times rest
      | .ok (m, .slash :: rest) => evaluate r expression (join m).per rest
      | .ok (_, .power :: _) => .error (.malformed expression .trailing)
      | .ok (m, .word name :: rest) => evaluate r expression (join m).times (.word name :: rest)
      | .ok (m, .number x :: rest) => evaluate r expression (join m).times (.number x :: rest)
termination_by tokens => tokens.length
decreasing_by
  all_goals
    have := powered_length _h
    simp only [List.length_cons] at *
    omega

/-- The unit that an expression denotes, written as the expression without blanks at its ends. -/
def parse (r : Registry) (source : String) : Except UnitError MeasureUnit :=
  let cs := Text.trim source.toList
  let expression := String.ofList cs
  if cs.isEmpty then .error (.malformed source .empty)
  else
    match UnitToken.scan cs with
    | .error fault => .error (.malformed expression fault)
    | .ok tokens => (r.evaluate expression id tokens).map (⟨expression, ·⟩)

/-- The finite number that the first `length` characters of a text denote. -/
def numericFront? (cs : List Char) (length : Nat) : Option Binary64 :=
  (Binary64.read (Text.trim (cs.take length))).filter (·.isFinite)

/-- The finite number at the front of a text that takes the most characters, and the trimmed rest. -/
def splitMagnitude? (cs : List Char) : Option (Binary64 × List Char) :=
  (List.range cs.length).reverse.findSome? fun before =>
    (numericFront? cs (before + 1)).map (·, Text.trim (cs.drop (before + 1)))

/-- The quantity that a text denotes; a number alone has no dimension. -/
def parseQuantity (r : Registry) (source : String) : Except QuantityError Quantity :=
  let cs := Text.trim source.toList
  match splitMagnitude? cs with
  | none => .error (.missingMagnitude (String.ofList cs))
  | some (magnitude, []) => .ok ⟨magnitude, .dimensionless⟩
  | some (magnitude, rest) =>
    match r.parse (String.ofList rest) with
    | .ok u => .ok ⟨magnitude, u⟩
    | .error e => .error (.unit e)

end Registry

end DeviceLink
