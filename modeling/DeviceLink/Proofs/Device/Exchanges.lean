import DeviceLink.Proofs.Device.Inspections

/-!
Reading and writing as single exchanges. A write is one message (`Tree.write_eq_tell_iff`), and a read
comes to a value when its empty message is answered with bytes that mean the value
(`Action.run_exchange_eq_ok_iff`).
-/

set_option autoImplicit false
set_option relaxedAutoImplicit false

namespace DeviceLink

open Wire (Payload)

namespace Action

variable {α σ : Type} {link : Transport σ} {s : σ}

/-- An exchange comes to a value when the request is taken and the answer means the value. -/
theorem run_exchange_eq_ok_iff {a : Action α} {endpoint : EndpointId} {payload : Payload}
    {meaning : Payload → Except DeviceError α}
    (shape : a = exchange endpoint payload >>= fun answer => ofExcept (meaning answer))
    {value : α} :
    (a.run link s).1 = .ok value ↔ ∃ answer, meaning answer = .ok value ∧ a.trace link s =
      [.sent endpoint payload (.ok ()), .received endpoint link.timeout (.ok answer)] := by
  rcases exchange_cases shape link s with
    ⟨error, s', run, trace⟩ | ⟨error, s', run, trace⟩ | ⟨answer, s', run, trace⟩
  · simp [run, trace]
  · simp [run, trace]
  · rw [run, trace]
    constructor
    · intro came
      exact ⟨answer, came, rfl⟩
    · rintro ⟨other, came, same⟩
      cases same
      exact came

end Action

namespace Tree

variable {t : Tree} {id : Nat} {e : Entity} {address : EndpointId} {payload : Payload}
  {value : Value}

theorem write_eq_tell_iff (found : t.get? id = some e) : t.write id value = .tell address payload ↔
    Endpoint.writeMessage (t.displayPath id) e value = .ok (address, payload) := by
  rw [write, withEntity, found]
  simp only [Endpoint.write]
  cases message : Endpoint.writeMessage (t.displayPath id) e value with
  | error error => exact ⟨fun same => (by cases same), fun same => (by cases same)⟩
  | ok sent =>
    change Action.tell sent.1 sent.2 = _ ↔ _
    constructor
    · intro same
      obtain ⟨rfl, rfl⟩ := (Action.send.inj same).imp_right And.left
      rfl
    · intro same
      rw [Except.ok.inj same]

theorem read_eq_exchange (found : t.get? id = some e) (readable : e.readable? = some address) :
    t.read id = Action.exchange address [] >>= fun answer =>
      Action.ofExcept (Endpoint.decodeValue (t.displayPath id) e answer) := by
  rw [read, withEntity, found]
  simp only [Endpoint.read, Endpoint.readAddress_eq_ok_iff.mpr readable]
  rfl

def Answered {σ : Type} (t : Tree) (link : Transport σ) (s : σ) (id : Nat) (address : EndpointId)
    (answer : Payload) : Prop :=
  (t.read id).trace link s =
    [.sent address [] (.ok ()), .received address link.timeout (.ok answer)]

end Tree

end DeviceLink
