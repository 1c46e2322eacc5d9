import DeviceLink.Device.Access
import DeviceLink.Proofs.Tree.Endpoints

/-!
Where the messages of an action go. Reading, writing and calling an entity either fails without a
message or starts with a message to the address of the entity, and keeps to that address whatever
the answers are (`Tree.reaches_read` and its siblings).
-/

set_option autoImplicit false
set_option relaxedAutoImplicit false

namespace DeviceLink

namespace Action

variable {α β : Type} {endpoint : EndpointId}

/-- All messages of an action, in both directions, go to one endpoint. -/
inductive KeepsTo (endpoint : EndpointId) : Action α → Prop
  | finish (result : Except DeviceError α) : KeepsTo endpoint (.finish result)
  | send (payload : Wire.Payload) (next : Except TransportError Unit → Action α) :
      (∀ answer, KeepsTo endpoint (next answer)) → KeepsTo endpoint (.send endpoint payload next)
  | receive (next : Except TransportError Wire.Payload → Action α) :
      (∀ answer, KeepsTo endpoint (next answer)) → KeepsTo endpoint (.receive endpoint next)

/-- An action fails without a message, or it starts with a message to an endpoint and keeps to that
endpoint. -/
inductive Reaches (endpoint : EndpointId) : Action α → Prop
  | refused (error : DeviceError) : Reaches endpoint (.fail error)
  | sent (payload : Wire.Payload) (next : Except TransportError Unit → Action α) :
      (∀ answer, KeepsTo endpoint (next answer)) → Reaches endpoint (.send endpoint payload next)

theorem KeepsTo.bind {a : Action α} {f : α → Action β} (h : KeepsTo endpoint a)
    (later : ∀ value, KeepsTo endpoint (f value)) : KeepsTo endpoint (a >>= f) := by
  induction h with
  | finish result =>
    cases result with
    | ok value => exact later value
    | error error => exact .finish _
  | send payload next _ ih => exact .send payload _ ih
  | receive next _ ih => exact .receive _ ih

theorem Reaches.bind {a : Action α} {f : α → Action β} (h : Reaches endpoint a)
    (later : ∀ value, KeepsTo endpoint (f value)) : Reaches endpoint (a >>= f) := by
  cases h with
  | refused error => exact .refused error
  | sent payload next kept => exact .sent payload _ fun answer => (kept answer).bind later

private theorem reaches_ofExcept_bind {result : Except DeviceError α} {f : α → Action β}
    (h : ∀ value, result = .ok value → Reaches endpoint (f value)) :
    Reaches endpoint (ofExcept result >>= f) := by
  cases result with
  | ok value => exact h value rfl
  | error error => exact .refused error

private theorem reaches_tell (payload : Wire.Payload) :
    Reaches endpoint (tell endpoint payload) := by
  refine .sent payload _ fun answer => ?_
  cases answer <;> exact .finish _

private theorem reaches_exchange (payload : Wire.Payload) :
    Reaches endpoint (exchange endpoint payload) := by
  refine (reaches_tell payload).bind fun _ => .receive _ fun answer => ?_
  cases answer <;> exact .finish _

end Action

namespace Endpoint

open DeviceLink.Action (Reaches)

variable {e : Entity} {address : EndpointId}

theorem endpoint?_of_readAddress {path : String} (h : readAddress path e = .ok address) :
    e.endpoint? = some address := by
  obtain ⟨info, body⟩ := e
  cases body with
  | node | function => simp [readAddress] at h
  | register | selector | bitmask =>
    simp only [readAddress] at h
    split at h
    · exact congrArg some (Except.ok.inj h)
    · cases h

private theorem endpoint?_of_writeAddress {path : String} (h : writeAddress path e = .ok address) :
    e.endpoint? = some address := by
  obtain ⟨info, body⟩ := e
  cases body with
  | node | function => simp [writeAddress] at h
  | register | selector | bitmask =>
    simp only [writeAddress] at h
    split at h
    · exact congrArg some (Except.ok.inj h)
    · cases h

theorem endpoint?_of_writeMessage {path : String} {value : Value} {payload : Wire.Payload}
    (h : writeMessage path e value = .ok (address, payload)) : e.endpoint? = some address := by
  rw [writeMessage] at h
  cases found : writeAddress path e with
  | error error => simp [found, bind, Except.bind] at h
  | ok endpoint =>
    have same : endpoint = address := by
      simp only [found, bind, Except.bind] at h
      split at h
      · cases h
      · split at h
        · cases h
        · exact congrArg Prod.fst (Except.ok.inj h)
    exact endpoint?_of_writeAddress (same ▸ found)

theorem reaches_read (path : String) (h : e.endpoint? = some address) :
    Reaches address (read path e) := by
  refine Action.reaches_ofExcept_bind fun endpoint found => ?_
  obtain rfl := Option.some.inj ((endpoint?_of_readAddress found).symm.trans h)
  exact (Action.reaches_exchange []).bind fun payload => .finish _

private theorem reaches_write (path : String) (value : Value) (h : e.endpoint? = some address) :
    Reaches address (write path e value) := by
  refine Action.reaches_ofExcept_bind fun (endpoint, payload) found => ?_
  obtain rfl := Option.some.inj ((endpoint?_of_writeMessage found).symm.trans h)
  exact Action.reaches_tell payload

private theorem reaches_callFunction (path : String) (f : Function) (values : List Value) :
    Reaches f.endpoint (callFunction path f values) := by
  refine Action.reaches_ofExcept_bind fun payload found => ?_
  split
  · exact (Action.reaches_tell payload).bind fun _ => .finish _
  · refine (Action.reaches_exchange payload).bind fun answer => ?_
    cases decoded f.result answer <;> exact .finish _

private theorem reaches_call (path : String) (values : List Value)
    (h : e.endpoint? = some address) : Reaches address (call path e values) := by
  obtain ⟨info, body⟩ := e
  cases body with
  | function f =>
    obtain rfl := Option.some.inj h
    exact reaches_callFunction path f values
  | node | register | selector | bitmask => exact .refused _

end Endpoint

namespace Tree

open DeviceLink.Action (Reaches)

variable {t : Tree} {id : Nat} {address : EndpointId}

private theorem read_eq_send {e : Entity} (found : t.get? id = some e)
    (same : e.endpoint? = some address) (readable : e.access.getter.isSome = true) :
    ∃ next, t.read id = .send address [] next := by
  rw [read, withEntity, found]
  obtain ⟨info, body⟩ := e
  cases body with
  | node | function => simp [Entity.access] at readable
  | register | selector | bitmask =>
    obtain rfl := Option.some.inj same
    simp only [Entity.access] at readable
    simp only [Endpoint.read, Endpoint.readAddress, readable, if_true]
    exact ⟨_, rfl⟩

private theorem reaches_withEntity {α : Type} {f : String → Entity → Action α}
    (h : t.address? id = some address)
    (each : ∀ path e, e.endpoint? = some address → Reaches address (f path e)) :
    Reaches address (t.withEntity id f) := by
  obtain ⟨e, found, same⟩ := Option.bind_eq_some_iff.mp h
  rw [withEntity, found]
  exact each _ e same

theorem reaches_read (h : t.address? id = some address) : Reaches address (t.read id) :=
  reaches_withEntity h fun path _ same => Endpoint.reaches_read path same

private theorem reaches_write (h : t.address? id = some address) (value : Value) :
    Reaches address (t.write id value) :=
  reaches_withEntity h fun path _ same => Endpoint.reaches_write path value same

private theorem reaches_writeText (h : t.address? id = some address) (text : String) :
    Reaches address (t.writeText id text) :=
  reaches_withEntity h fun path _ same =>
    Action.reaches_ofExcept_bind fun value _ => Endpoint.reaches_write path value same

private theorem reaches_call (h : t.address? id = some address) (values : List Value) :
    Reaches address (t.call id values) :=
  reaches_withEntity h fun path _ same => Endpoint.reaches_call path values same

/-- Whatever the host does with the entity at a place goes to one address, and if there is something
to read there, it is asked for. -/
structure SpeaksTo (t : Tree) (id : Nat) (address : EndpointId) : Prop where
  read : Reaches address (t.read id)
  write : ∀ value, Reaches address (t.write id value)
  writeText : ∀ text, Reaches address (t.writeText id text)
  call : ∀ values, Reaches address (t.call id values)
  asks : ∀ e, t.get? id = some e → e.access.getter.isSome = true →
    ∃ next, t.read id = .send address [] next

theorem speaksTo_of_address? (h : t.address? id = some address) : t.SpeaksTo id address where
  read := reaches_read h
  write := reaches_write h
  writeText := reaches_writeText h
  call := reaches_call h
  asks e found readable := by
    rw [address?, found] at h
    exact read_eq_send found h readable

end Tree

end DeviceLink
