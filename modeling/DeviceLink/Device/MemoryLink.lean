import DeviceLink.Device.Transport

/-!
A link to a device that exists in memory only: every endpoint answers with what was last written to
it. Endpoints can be made to give other answers, to be silent, or to fail.
-/

set_option autoImplicit false
set_option relaxedAutoImplicit false

namespace DeviceLink

open Wire (Payload)

/-- The state of a link. In its tables the first entry of an endpoint counts. -/
structure MemoryLink where
  /-- What was last written to an endpoint. -/
  stored : List (EndpointId × Payload) := []
  /-- What an endpoint answers whatever was written to it. -/
  answers : List (EndpointId × Payload) := []
  /-- The endpoints that do not answer. -/
  silent : List EndpointId := []
  sendFaults : List (EndpointId × String) := []
  receiveFaults : List (EndpointId × String) := []
  /-- The greatest address that the link can reach. -/
  greatest : EndpointId := 65535
  /-- All that was sent, the latest first. -/
  sent : List (EndpointId × Payload) := []

namespace MemoryLink

def lookup? {α : Type} (table : List (EndpointId × α)) (endpoint : EndpointId) : Option α :=
  (table.find? (·.1 == endpoint)).map (·.2)

def store (link : MemoryLink) (endpoint : EndpointId) (payload : Payload) : MemoryLink :=
  { link with stored := (endpoint, payload) :: link.stored }

/-- Sends a payload, which is kept as the value of the endpoint unless it is empty. -/
def send (endpoint : EndpointId) (payload : Payload) (link : MemoryLink) :
    Except TransportError Unit × MemoryLink :=
  if link.greatest < endpoint then (.error (.outOfRange endpoint link.greatest), link)
  else match lookup? link.sendFaults endpoint with
    | some text => (.error (.io text), link)
    | none =>
      let link := { link with sent := (endpoint, payload) :: link.sent }
      (.ok (), if payload.isEmpty then link else link.store endpoint payload)

def answer? (link : MemoryLink) (endpoint : EndpointId) : Option Payload :=
  if link.silent.contains endpoint then none
  else (lookup? link.answers endpoint).or (lookup? link.stored endpoint)

def receive (endpoint : EndpointId) (span : Duration) (link : MemoryLink) :
    Except TransportError Payload × MemoryLink :=
  match lookup? link.receiveFaults endpoint with
  | some text => (.error (.io text), link)
  | none =>
    match link.answer? endpoint with
    | some payload => (.ok payload, link)
    | none => (.error (.timeout endpoint span), link)

def transport (timeout : Duration) : Transport MemoryLink where
  send := send
  receive := receive
  timeout := timeout

end MemoryLink

end DeviceLink
