import DeviceLink.Device.Access
import DeviceLink.Device.MemoryLink
import Mathlib

/-!
Transports with a store: every endpoint answers with the payload that is stored for it, and what is
sent to it is stored unless it is empty. What reading and writing an endpoint over such a transport
does is said of the stored payloads alone (`Storage.run_read`, `Storage.run_write`).
-/

set_option autoImplicit false
set_option relaxedAutoImplicit false

namespace DeviceLink

open Wire (Payload)

/-- The payloads that are stored for the endpoints of a device. -/
abbrev Memory := EndpointId → Option Payload

/-- A store behind a transport, in the states in which the transport is usable. -/
structure Transport.Storage {σ : Type} (link : Transport σ) where
  usable : σ → Prop
  stored : σ → Memory
  usable_send : ∀ s endpoint payload, usable s → usable (link.send endpoint payload s).2
  send_ok : ∀ s endpoint payload, usable s → (link.send endpoint payload s).1 = .ok ()
  stored_send : ∀ s endpoint payload, usable s → stored (link.send endpoint payload s).2 =
    if payload = [] then stored s else Function.update (stored s) endpoint (some payload)
  usable_receive : ∀ s endpoint span, usable s → usable (link.receive endpoint span s).2
  stored_receive : ∀ s endpoint span, usable s →
    stored (link.receive endpoint span s).2 = stored s
  receive_ok_iff : ∀ s endpoint span payload, usable s →
    ((link.receive endpoint span s).1 = .ok payload ↔ stored s endpoint = some payload)

namespace MemoryLink

/-- A link without faults and without other answers than the stored payloads. -/
structure Faultless (link : MemoryLink) : Prop where
  answers : link.answers = []
  silent : link.silent = []
  sendFaults : link.sendFaults = []
  receiveFaults : link.receiveFaults = []
  greatest : link.greatest = 65535

private theorem send_eq {link : MemoryLink} (h : link.Faultless) (endpoint : EndpointId)
    (payload : Payload) : send endpoint payload link =
      (.ok (), if payload.isEmpty then { link with sent := (endpoint, payload) :: link.sent }
        else { link with sent := (endpoint, payload) :: link.sent,
                         stored := (endpoint, payload) :: link.stored }) := by
  have inside : ¬ link.greatest < endpoint := by
    rw [h.greatest, UInt16.lt_iff_toNat_lt]
    have := endpoint.toNat_lt
    simp only [UInt16.toNat_ofNat]
    omega
  rw [send, if_neg inside, h.sendFaults]
  rfl

private theorem receive_eq {link : MemoryLink} (h : link.Faultless) (endpoint : EndpointId)
    (span : Duration) : receive endpoint span link =
      ((lookup? link.stored endpoint).elim (.error (.timeout endpoint span)) .ok, link) := by
  have answer : link.answer? endpoint = lookup? link.stored endpoint := by
    rw [answer?, h.silent, h.answers]
    rfl
  simp only [receive, h.receiveFaults, answer]
  cases lookup? link.stored endpoint <;> rfl

private theorem lookup?_cons {α : Type} (table : List (EndpointId × α))
    (endpoint other : EndpointId) (value : α) : lookup? ((endpoint, value) :: table) other =
      if other = endpoint then some value else lookup? table other := by
  by_cases same : endpoint = other
  · simp [lookup?, same]
  · simp [lookup?, same, Ne.symm same]

/-- A faultless link keeps what is sent to it. -/
def storage (timeout : Duration) : (transport timeout).Storage where
  usable := Faultless
  stored link := lookup? link.stored
  usable_send link endpoint payload h := by
    simp only [transport, send_eq h]
    split <;> exact ⟨h.answers, h.silent, h.sendFaults, h.receiveFaults, h.greatest⟩
  send_ok link endpoint payload h := by
    simp only [transport, send_eq h]
  stored_send link endpoint payload h := by
    simp only [transport, send_eq h]
    cases payload with
    | nil => rfl
    | cons byte rest =>
      funext other
      simp only [List.isEmpty_cons, Bool.false_eq_true, if_false, reduceCtorEq]
      rw [lookup?_cons, Function.update_apply]
  usable_receive link endpoint span h := by
    simpa only [transport, receive_eq h] using h
  stored_receive link endpoint span h := by
    simp only [transport, receive_eq h]
  receive_ok_iff link endpoint span payload h := by
    simp only [transport, receive_eq h]
    cases lookup? link.stored endpoint <;> simp

end MemoryLink

/-! Runs of actions, one after another. -/

namespace Action

variable {α β σ : Type} {link : Transport σ}

theorem run_bind (a : Action α) (f : α → Action β) (s : σ) :
    (a >>= f).run link s = match a.run link s with
      | (.ok value, s') => (f value).run link s'
      | (.error error, s') => (.error error, s') := by
  change (a.andThen f).run link s = _
  induction a generalizing s with
  | finish result => cases result <;> rfl
  | send endpoint payload next ih => exact ih _ _
  | receive endpoint next ih => exact ih _ _

theorem run_bind_eq_ok {a : Action α} {f : α → Action β} {s s' : σ} {b : β} :
    (a >>= f).run link s = (.ok b, s') ↔
      ∃ value s₁, a.run link s = (.ok value, s₁) ∧ (f value).run link s₁ = (.ok b, s') := by
  rw [run_bind]
  rcases a.run link s with ⟨error | value, s₁⟩
  · simp
  · simp only [Prod.mk.injEq, Except.ok.injEq]
    refine ⟨fun later => ⟨value, s₁, ⟨rfl, rfl⟩, later⟩, ?_⟩
    rintro ⟨_, _, ⟨rfl, rfl⟩, later⟩
    exact later

private theorem run_hear (endpoint : EndpointId) (s : σ) : (hear endpoint).run link s =
    ((link.receive endpoint link.timeout s).1.mapError .transport,
      (link.receive endpoint link.timeout s).2) := by
  rw [hear, run]
  cases (link.receive endpoint link.timeout s).1 <;> rfl

end Action

/-! One endpoint over a store. -/

namespace Endpoint

variable {path : String} {e : Entity}

/-- What reading an entity gives when the stored payloads are the answers. -/
def Shows (m : Memory) (path : String) (e : Entity) (v : Value) : Prop :=
  ∃ address payload, readAddress path e = .ok address ∧ m address = some payload ∧
    decodeValue path e payload = .ok v

theorem Shows.unique {m : Memory} {v v' : Value} (h : Shows m path e v) (h' : Shows m path e v') :
    v = v' := by
  obtain ⟨address, payload, reached, stored, decoded⟩ := h
  obtain ⟨address', payload', reached', stored', decoded'⟩ := h'
  obtain rfl := Except.ok.inj (reached.symm.trans reached')
  obtain rfl := Option.some.inj (stored.symm.trans stored')
  exact Except.ok.inj (decoded.symm.trans decoded')

end Endpoint

namespace Transport.Storage

variable {σ : Type} {link : Transport σ} (storage : link.Storage) {s : σ}

private theorem run_exchange (usable : storage.usable s) (endpoint : EndpointId) :
    let r := (Action.exchange endpoint []).run link s
    storage.usable r.2 ∧ storage.stored r.2 = storage.stored s ∧
      ∀ payload, r.1 = .ok payload ↔ storage.stored s endpoint = some payload := by
  have asked := storage.usable_send s endpoint [] usable
  have same : storage.stored (link.send endpoint [] s).2 = storage.stored s := by
    rw [storage.stored_send s endpoint [] usable, if_pos rfl]
  have told : (Action.exchange endpoint []).run link s =
      (Action.hear endpoint).run link (link.send endpoint [] s).2 := by
    change (Action.tell endpoint [] >>= fun _ => Action.hear endpoint).run link s = _
    rw [Action.run_bind, Action.tell, Action.run, storage.send_ok s endpoint [] usable]
    rfl
  simp only [told, Action.run_hear]
  refine ⟨storage.usable_receive _ _ _ asked, ?_, fun payload => ?_⟩
  · rw [storage.stored_receive _ _ _ asked, same]
  · rw [← same, ← storage.receive_ok_iff _ endpoint link.timeout payload asked]
    cases (link.receive endpoint link.timeout (link.send endpoint [] s).2).1 <;>
      simp [Except.mapError]

theorem run_read (usable : storage.usable s) (path : String) (e : Entity) :
    let r := (Endpoint.read path e).run link s
    storage.usable r.2 ∧ storage.stored r.2 = storage.stored s ∧
      ∀ v, r.1 = .ok v ↔ Endpoint.Shows (storage.stored s) path e v := by
  cases reached : Endpoint.readAddress path e with
  | error error =>
    have refused : (Endpoint.read path e).run link s = (.error error, s) := by
      rw [Endpoint.read, reached]
      rfl
    simp [refused, usable, Endpoint.Shows, reached]
  | ok address =>
    obtain ⟨still, same, answer⟩ := storage.run_exchange usable address
    have asked : (Endpoint.read path e).run link s =
        (((Action.exchange address []).run link s).1.bind (Endpoint.decodeValue path e),
          ((Action.exchange address []).run link s).2) := by
      rw [Endpoint.read, reached]
      change (Action.exchange address [] >>= fun payload =>
        Action.ofExcept (Endpoint.decodeValue path e payload)).run link s = _
      rw [Action.run_bind]
      rcases (Action.exchange address []).run link s with ⟨error | payload, s'⟩ <;> rfl
    simp only [asked]
    refine ⟨still, same, fun v => ?_⟩
    have shows : Endpoint.Shows (storage.stored s) path e v ↔
        ∃ payload, ((Action.exchange address []).run link s).1 = .ok payload ∧
          Endpoint.decodeValue path e payload = .ok v := by
      simp [Endpoint.Shows, reached, answer]
    rw [shows]
    cases ((Action.exchange address []).run link s).1 <;> simp [Except.bind]

theorem run_write (usable : storage.usable s) {path : String} {e : Entity} {value : Value}
    {address : EndpointId} {payload : Payload} (filled : payload ≠ [])
    (message : Endpoint.writeMessage path e value = .ok (address, payload)) :
    ∃ s', (Endpoint.write path e value).run link s = (.ok (), s') ∧ storage.usable s' ∧
      storage.stored s' = Function.update (storage.stored s) address (some payload) := by
  refine ⟨(link.send address payload s).2, ?_, storage.usable_send s address payload usable, ?_⟩
  · rw [Endpoint.write, message]
    change (Action.tell address payload).run link s = _
    rw [Action.tell, Action.run, storage.send_ok s address payload usable]
    rfl
  · rw [storage.stored_send s address payload usable, if_neg filled]

end Transport.Storage

end DeviceLink
