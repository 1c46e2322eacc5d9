import DeviceLink.Wire
import DeviceLink.Tree.Entity

/-!
Transports: links that carry payloads to the endpoints of a device and bring answers back, with the
causes of failure that they know.
-/

set_option autoImplicit false
set_option relaxedAutoImplicit false

namespace DeviceLink

open Wire (Payload)

structure Duration where
  nanoseconds : Nat
deriving DecidableEq

namespace Duration

/-- A whole part, and a fraction with a number of places after a point; zeros at the end of the
fraction are left out. -/
def decimalText (whole fraction places : Nat) : String :=
  let digits := Nat.toDigits 10 fraction
  let all := List.replicate (places - digits.length) '0' ++ digits
  let kept := (all.reverse.dropWhile (· == '0')).reverse
  toString whole ++ (if kept.isEmpty then "" else "." ++ String.ofList kept)

/-- The text of a span in the greatest of four units that is not longer than the span. -/
def text (d : Duration) : String :=
  let n := d.nanoseconds
  let split (places : Nat) : String :=
    decimalText (n / Number.tenTo places) (n % Number.tenTo places) places
  if Number.tenTo 9 ≤ n then split 9 ++ "s"
  else if Number.tenTo 6 ≤ n then split 6 ++ "ms"
  else if Number.tenTo 3 ≤ n then split 3 ++ "µs"
  else toString n ++ "ns"

/-- How long a transport waits for an answer unless it says otherwise. -/
def standardTimeout : Duration := ⟨100 * Number.tenTo 6⟩

end Duration

inductive TransportError where
  | timeout (endpoint : EndpointId) (span : Duration)
  | outOfRange (endpoint greatest : EndpointId)
  | io (text : String)
deriving DecidableEq

def TransportError.message : TransportError → String
  | timeout endpoint span =>
    "timed out after " ++ span.text ++ " waiting for endpoint " ++ toString endpoint.toNat
  | outOfRange endpoint greatest =>
    "endpoint " ++ toString endpoint.toNat ++ " is out of range for this transport (max " ++
      toString greatest.toNat ++ ")"
  | io text => "transport error: " ++ text

/-- A transport whose states are values. An empty payload asks for the value of an endpoint. -/
structure Transport (σ : Type) where
  send : EndpointId → Payload → σ → Except TransportError Unit × σ
  receive : EndpointId → Duration → σ → Except TransportError Payload × σ
  timeout : Duration := .standardTimeout

end DeviceLink
