import DeviceLink.Device.Error

/-!
Actions: what a host does with a device, as a tree of messages. Each message waits for its answer,
and what comes next depends on all answers before. An action says nothing about the transport that
carries it out, so that all it can ever send is visible in it.
-/

set_option autoImplicit false
set_option relaxedAutoImplicit false

namespace DeviceLink

open Wire (Payload)

/-- An action that comes to a result. -/
inductive Action (α : Type) where
  | finish (result : Except DeviceError α)
  | send (endpoint : EndpointId) (payload : Payload)
      (next : Except TransportError Unit → Action α)
  | receive (endpoint : EndpointId) (next : Except TransportError Payload → Action α)

namespace Action

def done {α : Type} (value : α) : Action α :=
  finish (.ok value)

def fail {α : Type} (error : DeviceError) : Action α :=
  finish (.error error)

/-- One action after another, which gets the value of the first; a failure ends both. -/
def andThen {α β : Type} : Action α → (α → Action β) → Action β
  | finish (.ok value), f => f value
  | finish (.error error), _ => fail error
  | send endpoint payload next, f => send endpoint payload fun answer => (next answer).andThen f
  | receive endpoint next, f => receive endpoint fun answer => (next answer).andThen f

instance : Monad Action where
  pure := done
  bind := andThen

def attempt {α : Type} : Action α → Action (Except DeviceError α)
  | finish result => done result
  | send endpoint payload next => send endpoint payload fun answer => (next answer).attempt
  | receive endpoint next => receive endpoint fun answer => (next answer).attempt

/-- An action for each member of a list, in order; a failure ends them all. -/
def forEach {α β : Type} (f : α → Action β) : List α → Action (List β)
  | [] => done []
  | a :: rest => (f a).andThen fun b => (forEach f rest).andThen fun bs => done (b :: bs)

def ofExcept {α : Type} (result : Except DeviceError α) : Action α :=
  finish result

def tell (endpoint : EndpointId) (payload : Payload) : Action Unit :=
  send endpoint payload fun
    | .ok _ => done ()
    | .error error => fail (.transport error)

def hear (endpoint : EndpointId) : Action Payload :=
  receive endpoint fun
    | .ok payload => done payload
    | .error error => fail (.transport error)

def exchange (endpoint : EndpointId) (payload : Payload) : Action Payload :=
  (tell endpoint payload).andThen fun _ => hear endpoint

def run {α σ : Type} (t : Transport σ) : Action α → σ → Except DeviceError α × σ
  | finish result, s => (result, s)
  | send endpoint payload next, s =>
    let answer := t.send endpoint payload s
    (next answer.1).run t answer.2
  | receive endpoint next, s =>
    let answer := t.receive endpoint t.timeout s
    (next answer.1).run t answer.2

end Action

end DeviceLink
