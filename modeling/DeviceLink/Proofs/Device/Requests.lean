import DeviceLink.Proofs.Device.Addressing
import DeviceLink.Proofs.Device.Restoring
import DeviceLink.Proofs.Device.Storage
import DeviceLink.Proofs.Device.Traces
import DeviceLink.Proofs.Results

/-!
The discipline of single requests. A read, a write, a call and the question for the fingerprint send
at most once and wait at most once, in this order and at one endpoint, and nothing is tried again.
All that can be refused without the device is refused before a message, so that a failure after one
comes from the transport or from the decoding of the answer (`Tree.disciplined`).
-/

set_option autoImplicit false
set_option relaxedAutoImplicit false

namespace DeviceLink

open Wire (Payload)

/-- The failures to decode an answer: its bytes are no value of the expected type, or its number
stands for no option. -/
inductive Undecodable (answer : Payload) : DeviceError → Prop
  | codec {t : DataType} {error : Wire.Error} :
      Wire.decode t answer = .error error → Undecodable answer (.codec error)
  | option {options : Options} {n : UInt64} {error : OptionError} :
      Wire.decode optionType answer = .ok (.unsigned n) → options.decode n = .error error →
      Undecodable answer (.option error)

/-- The ways in which a request to an endpoint goes, by the result, the state of the transport
afterwards, and the trace. Only a request that hears waits for an answer. -/
inductive Requested {α σ : Type} (link : Transport σ) (s : σ) (target : Option EndpointId)
    (hears : Bool) : Except DeviceError α → σ → List Message → Prop
  /-- The host refuses, and the transport is untouched. -/
  | refused (error : DeviceError) : Requested link s target hears (.error error) s []
  /-- The transport does not take the payload. -/
  | unsent {endpoint : EndpointId} (payload : Payload) (error : TransportError) (s' : σ) :
      target = some endpoint →
      Requested link s target hears (.error (.transport error)) s'
        [.sent endpoint payload (.error error)]
  /-- The payload is sent, and no answer is expected. -/
  | told {endpoint : EndpointId} (payload : Payload) (value : α) (s' : σ) :
      target = some endpoint → hears = false →
      Requested link s target hears (.ok value) s' [.sent endpoint payload (.ok ())]
  /-- The answer does not come. -/
  | unanswered {endpoint : EndpointId} (payload : Payload) (error : TransportError) (s' : σ) :
      target = some endpoint → hears = true →
      Requested link s target hears (.error (.transport error)) s'
        [.sent endpoint payload (.ok ()), .received endpoint link.timeout (.error error)]
  /-- The answer comes, and is decoded. -/
  | answered {endpoint : EndpointId} (payload answer : Payload) (result : Except DeviceError α)
      (s' : σ) : target = some endpoint → hears = true →
      (∀ error, result = .error error → Undecodable answer error) →
      Requested link s target hears result s'
        [.sent endpoint payload (.ok ()), .received endpoint link.timeout (.ok answer)]

theorem Requested.map {α β σ : Type} {link : Transport σ} {s s' : σ}
    {target : Option EndpointId}
    {hears : Bool} {result : Except DeviceError α} {trace : List Message}
    (h : Requested link s target hears result s' trace) (f : α → β) :
    Requested link s target hears (result.map f) s' trace := by
  cases h with
  | refused error => exact .refused error
  | unsent payload error s' there => exact .unsent payload error s' there
  | told payload value s' there deaf => exact .told payload (f value) s' there deaf
  | unanswered payload error s' there waits => exact .unanswered payload error s' there waits
  | answered payload answer result s' there waits undecodable =>
    exact .answered payload answer _ s' there waits fun error failed =>
      undecodable error (map_eq_error_iff.mp failed)

namespace Action

variable {α β σ : Type} {link : Transport σ} {s : σ} {target : Option EndpointId} {hears : Bool}

/-- An action is one request to an endpoint. -/
def Conducts (link : Transport σ) (s : σ) (target : Option EndpointId) (hears : Bool)
    (a : Action α) : Prop :=
  Requested link s target hears (a.run link s).1 (a.run link s).2 (a.trace link s)

private theorem conducts_fail (error : DeviceError) :
    (fail error : Action α).Conducts link s target hears :=
  .refused error

theorem conducts_ofExcept_bind {result : Except DeviceError α} {f : α → Action β}
    (h : ∀ value, result = .ok value → (f value).Conducts link s target hears) :
    (ofExcept result >>= f).Conducts link s target hears := by
  cases result with
  | ok value => exact h value rfl
  | error error => exact conducts_fail error

theorem Conducts.map {a : Action α} (h : a.Conducts link s target hears) (f : α → β) :
    (a >>= fun value => done (f value)).Conducts link s target hears := by
  have run_map : (a >>= fun value => done (f value)).run link s =
      ((a.run link s).1.map f, (a.run link s).2) := by
    rw [run_bind]
    rcases a.run link s with ⟨error | value, s₁⟩ <;> rfl
  rw [Conducts, run_map, trace_bind_done]
  exact Requested.map h f

private theorem conducts_tell (endpoint : EndpointId) (payload : Payload) :
    (tell endpoint payload).Conducts link s (some endpoint) false := by
  rw [Conducts, tell, trace_send, run]
  rcases link.send endpoint payload s with ⟨error | ⟨⟩, s₁⟩
  · exact .unsent payload error s₁ rfl
  · exact .told payload () s₁ rfl rfl

private theorem conducts_exchange (endpoint : EndpointId) (payload : Payload)
    {meaning : Payload → Except DeviceError α}
    (h : ∀ answer error, meaning answer = .error error → Undecodable answer error) :
    (exchange endpoint payload >>= fun answer => ofExcept (meaning answer)).Conducts link s
      (some endpoint) true := by
  rcases exchange_cases rfl link s with
    ⟨error, s', run, trace⟩ | ⟨error, s', run, trace⟩ | ⟨answer, s', run, trace⟩
  · rw [Conducts, run, trace]
    exact .unsent payload error s' rfl
  · rw [Conducts, run, trace]
    exact .unanswered payload error s' rfl rfl
  · rw [Conducts, run, trace]
    exact .answered payload answer _ s' rfl rfl (h answer)

end Action

namespace Endpoint

open DeviceLink.Action (conducts_ofExcept_bind conducts_tell conducts_exchange)

variable {e : Entity} {σ : Type} {link : Transport σ} {s : σ} {answer : Payload}
  {error : DeviceError}

private theorem undecodable_of_decoded {t : DataType} (h : decoded t answer = .error error) :
    Undecodable answer error := by
  obtain ⟨cause, found, rfl⟩ := mapError_eq_error_iff.mp h
  exact .codec found

private theorem undecodable_of_decodedByte (h : decodedByte answer = .error error) :
    Undecodable answer error :=
  undecodable_of_decoded (map_eq_error_iff.mp h)

private theorem undecodable_of_decodeValue {path : String} {address : EndpointId}
    (reached : readAddress path e = .ok address) (h : decodeValue path e answer = .error error) :
    Undecodable answer error := by
  obtain ⟨info, body⟩ := e
  cases body with
  | node children => simp [readAddress] at reached
  | function f => simp [readAddress] at reached
  | register r => exact undecodable_of_decoded (map_eq_error_iff.mp h)
  | bitmask b => exact undecodable_of_decodedByte (map_eq_error_iff.mp h)
  | selector s =>
    rcases bind_eq_error_iff.mp h with short | ⟨n, byte, refused⟩
    · exact undecodable_of_decodedByte short
    · rcases bind_eq_error_iff.mp refused with unknown | ⟨v, chosen, shown⟩
      · obtain ⟨cause, chosen, rfl⟩ := mapError_eq_error_iff.mp unknown
        exact .option (decodedByte_eq_ok_iff.mp byte) chosen
      · cases shown

theorem conducts_read (path : String) : (read path e).Conducts link s e.endpoint? true := by
  refine conducts_ofExcept_bind fun endpoint found => ?_
  rw [endpoint?_of_readAddress found]
  exact conducts_exchange endpoint [] fun answer error => undecodable_of_decodeValue found

theorem conducts_write (path : String) (value : Value) :
    (write path e value).Conducts link s e.endpoint? false := by
  refine conducts_ofExcept_bind fun (endpoint, payload) found => ?_
  rw [endpoint?_of_writeMessage found]
  exact conducts_tell endpoint payload

private theorem conducts_callFunction (path : String) (f : Function) (values : List Value) :
    (callFunction path f values).Conducts link s (some f.endpoint) (!f.result.isVoid) := by
  refine conducts_ofExcept_bind fun payload _ => ?_
  cases void : f.result.isVoid with
  | true => exact (conducts_tell f.endpoint payload).map fun _ => Value.void
  | false =>
    -- What is made of the answer is one step, which can fail only in decoding it.
    have decoding (answer : Payload) :
        (do let scalar ← Action.ofExcept (decoded f.result answer)
            return Value.ofScalar scalar f.unit) =
          Action.ofExcept ((decoded f.result answer).map (Value.ofScalar · f.unit)) := by
      cases decoded f.result answer <;> rfl
    simp only [decoding, Bool.false_eq_true, if_false, Bool.not_false]
    exact conducts_exchange f.endpoint payload fun answer error failed =>
      undecodable_of_decoded (map_eq_error_iff.mp failed)

end Endpoint

namespace Entity

/-- Whether a call of an entity is answered: functions without a result are not. -/
def answersCall (e : Entity) : Bool :=
  match e.body with
  | .function f => !f.result.isVoid
  | .node _ | .register _ | .selector _ | .bitmask _ => false

private theorem conducts_call {σ : Type} {link : Transport σ} {s : σ} (e : Entity) (path : String)
    (values : List Value) :
    (Endpoint.call path e values).Conducts link s e.endpoint? e.answersCall := by
  obtain ⟨info, body⟩ := e
  cases body with
  | function f => exact Endpoint.conducts_callFunction path f values
  | node | register | selector | bitmask => exact Action.conducts_fail _

end Entity

namespace Tree

open DeviceLink.Action (conducts_ofExcept_bind conducts_fail conducts_exchange)

def answersCall (t : Tree) (id : Nat) : Bool :=
  (t.get? id).any Entity.answersCall

variable {t : Tree} {id : Nat} {σ : Type} {link : Transport σ} {s : σ} {hears : Bool}

private theorem conducts_withEntity {α : Type} {f : String → Entity → Action α}
    (each : ∀ path e, t.get? id = some e → (f path e).Conducts link s e.endpoint? hears) :
    (t.withEntity id f).Conducts link s (t.address? id) hears := by
  rw [withEntity, address?]
  cases found : t.get? id with
  | none => exact conducts_fail _
  | some e => exact each (t.displayPath id) e found

private theorem conducts_read (id : Nat) : (t.read id).Conducts link s (t.address? id) true :=
  conducts_withEntity fun path _ _ => Endpoint.conducts_read path

private theorem conducts_write (id : Nat) (value : Value) :
    (t.write id value).Conducts link s (t.address? id) false :=
  conducts_withEntity fun path _ _ => Endpoint.conducts_write path value

private theorem conducts_writeText (id : Nat) (text : String) :
    (t.writeText id text).Conducts link s (t.address? id) false :=
  conducts_withEntity fun path _ _ =>
    conducts_ofExcept_bind fun value _ => Endpoint.conducts_write path value

private theorem conducts_call (id : Nat) (values : List Value) :
    (t.call id values).Conducts link s (t.address? id) (t.answersCall id) := by
  refine conducts_withEntity fun path e found => ?_
  rw [answersCall, found]
  exact e.conducts_call path values

private theorem undecodable_of_hashOf {answer : Payload} {error : DeviceError}
    (h : hashOf answer = .error error) : Undecodable answer error := by
  rcases bind_eq_error_iff.mp h with short | ⟨value, found, refused⟩
  · exact Endpoint.undecodable_of_decoded short
  · have held := mapError_eq_ok_iff.mp found
    obtain ⟨-, rfl⟩ := (Wire.decode_eq_ok_iff (t := .uint32) rfl).mp held
    cases refused

private theorem conducts_deviceHash : deviceHash.Conducts link s (some hashEndpoint) true :=
  conducts_exchange hashEndpoint [] fun _ _ => undecodable_of_hashOf

/-- What a place stands for is a handle, which takes no messages, or a value, which is read. -/
def Looks (link : Transport σ) (s : σ) (target : Option EndpointId) (a : Action Member) : Prop :=
  (∃ id, a = .done (.node id)) ∨ (∃ id, a = .done (.function id)) ∨ a.Conducts link s target true

theorem member_eq {e : Entity} (found : t.get? id = some e) : t.member id = match e.kind with
    | .node => .done (.node id)
    | .function => .done (.function id)
    | .register | .selector | .bitmask => t.read id >>= fun v => .done (.value v) := by
  rw [member, read, withEntity, withEntity, found]
  rfl

private theorem looks_member (id : Nat) : Looks link s (t.address? id) (t.member id) := by
  cases found : t.get? id with
  | none =>
    rw [member, withEntity, found]
    exact .inr (.inr (conducts_fail _))
  | some e =>
    rw [member_eq found]
    cases e.kind with
    | node => exact .inl ⟨id, rfl⟩
    | function => exact .inr (.inl ⟨id, rfl⟩)
    | register | selector | bitmask => exact .inr (.inr ((conducts_read id).map Member.value))

def addressOf? (t : Tree) (found : Except DeviceError Nat) : Option EndpointId :=
  found.toOption.bind t.address?

def answersCallOf (t : Tree) (found : Except DeviceError Nat) : Bool :=
  found.toOption.any t.answersCall

private theorem conducts_found {α : Type} {found : Except DeviceError Nat} {f : Nat → Action α}
    (h : ∀ id, found = .ok id → (f id).Conducts link s (t.address? id) hears) :
    (Action.ofExcept found >>= f).Conducts link s (t.addressOf? found) hears := by
  refine conducts_ofExcept_bind fun id there => ?_
  rw [there]
  exact h id there

private theorem looks_memberOf (found : Except DeviceError Nat) :
    Looks link s (t.addressOf? found) (Action.ofExcept found >>= t.member) := by
  cases found with
  | error error => exact .inr (.inr (conducts_fail error))
  | ok id => exact looks_member id

/-- Every request to a device, by a path or by a name below a node, is one request to the endpoint
that is found, which hears if and only if it is a read or a call of a function with a result. -/
structure Disciplined (t : Tree) (link : Transport σ) (s : σ) : Prop where
  get : ∀ path, Looks link s (t.addressOf? (t.childAt path)) (t.get path)
  getNamed : ∀ id name, Looks link s (t.addressOf? (t.childNamed id name)) (t.getNamed id name)
  readNamed : ∀ id name,
    (t.readNamed id name).Conducts link s (t.addressOf? (t.childNamed id name)) true
  set : ∀ path value, (t.set path value).Conducts link s (t.addressOf? (t.childAt path)) false
  setNamed : ∀ id name value,
    (t.setNamed id name value).Conducts link s (t.addressOf? (t.childNamed id name)) false
  setTextNamed : ∀ id name text,
    (t.setTextNamed id name text).Conducts link s (t.addressOf? (t.childNamed id name)) false
  call : ∀ id values, (t.call id values).Conducts link s (t.address? id) (t.answersCall id)
  callAt : ∀ path values, (t.callAt path values).Conducts link s
    (t.addressOf? (t.functionAt path)) (t.answersCallOf (t.functionAt path))
  deviceHash : deviceHash.Conducts link s (some hashEndpoint) true

theorem disciplined (t : Tree) {σ : Type} (link : Transport σ) (s : σ) : t.Disciplined link s where
  get path := looks_memberOf (t.childAt path)
  getNamed id name := looks_memberOf (t.childNamed id name)
  readNamed _ _ := conducts_found fun child _ => conducts_read child
  set _ value := conducts_found fun child _ => conducts_write child value
  setNamed _ _ value := conducts_found fun child _ => conducts_write child value
  setTextNamed _ _ text := conducts_found fun child _ => conducts_writeText child text
  call := conducts_call
  callAt path values := conducts_found fun child found => by
    rw [answersCallOf, found]
    exact conducts_call child values
  deviceHash := conducts_deviceHash

end Tree

end DeviceLink
