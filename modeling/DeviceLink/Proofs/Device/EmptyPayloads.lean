import DeviceLink.Proofs.Device.Denotation
import DeviceLink.Proofs.Device.Requests
import DeviceLink.Proofs.Text.Octets
import DeviceLink.Schema.Build
import DeviceLink.Validation.Report

/-!
Writes that a device takes for questions. A payload without bytes asks for a value, so no write
should send one. Every write that succeeds sends one message, which has bytes unless the entity holds
a text and the written text is empty (`Tree.empty_payload_iff`). Such a write succeeds too, and the
device goes on with the text it had (`Tree.empty_text_is_lost`).
-/

set_option autoImplicit false
set_option relaxedAutoImplicit false

namespace DeviceLink

open Wire (Payload)

namespace Wire

private theorem encode_eq_nil_iff {t : DataType} {scalar : Scalar} {payload : Payload}
    (h : encode t scalar = .ok payload) : payload = [] ↔ t = .string ∧ scalar = .text "" := by
  cases kind : t.isFixedWidth with
  | true =>
    have filled := ne_nil_of_encode kind h
    refine iff_of_false filled ?_
    rintro ⟨rfl, -⟩
    cases kind
  | false =>
    cases t with
    | void => cases h
    | string =>
      cases scalar with
      | text s =>
        obtain rfl := Except.ok.inj h
        rw [Text.octets_eq_nil_iff]
        simp
      | bool | unsigned | signed | real => cases h
    | bool | uint8 | int8 | uint16 | int16 | uint32 | int32 | uint64 | int64 | float | double =>
      cases kind

end Wire

def Entity.holdsText (e : Entity) : Bool :=
  match e.body with
  | .register r => r.dataType.isString
  | .node _ | .function _ | .selector _ | .bitmask _ => false

namespace Value

private theorem toScalar?_eq_text_iff (value : Value) (unit : Option MeasureUnit) (s : String) :
    value.toScalar? unit = .ok (some (.text s)) ↔ value = .scalar (.text s) := by
  cases value with
  | scalar scalar => simp [toScalar?]
  | quantity q =>
    rw [toScalar?, map_eq_ok_iff]
    simp
  | option v => simp [toScalar?]
  | void | flags names => simp [toScalar?]

end Value

namespace Endpoint

variable {path : String} {e : Entity} {value : Value} {address : EndpointId} {payload : Payload}

private theorem payload_eq_nil_iff (message : writeMessage path e value = .ok (address, payload)) :
    payload = [] ↔ e.holdsText = true ∧ value = .scalar (.text "") := by
  obtain ⟨info, body⟩ := e
  cases body with
  | node | function =>
    obtain ⟨t, scalar, reached, -, -⟩ := writeMessage_eq_ok_iff.mp message
    cases reached
  | selector s =>
    obtain ⟨-, -, choice, b, -, -, rfl⟩ := (writeMessage_selector rfl).mp message
    simp [Entity.holdsText]
  | bitmask b =>
    obtain ⟨-, -, bits, -, -, rfl⟩ := (writeMessage_bitmask rfl).mp message
    simp [Entity.holdsText]
  | register r =>
    obtain ⟨scalar, reduced, encoded⟩ := exists_scalar_of_writeMessage rfl message
    have kind : Entity.holdsText ⟨info, .register r⟩ = true ↔ r.dataType = .string := by
      change r.dataType.isString = true ↔ _
      cases r.dataType <;> simp [DataType.isString]
    rw [Wire.encode_eq_nil_iff encoded, kind]
    refine and_congr_right fun _ => ?_
    rw [← Value.toScalar?_eq_text_iff value r.unit, reduced, Except.ok.injEq, Option.some_inj]

private theorem valueOfText_eq_empty_iff {source : String} (text : e.holdsText = true)
    (meant : valueOfText path e source = .ok value) :
    value = .scalar (.text "") ↔ Text.trimmed source = "" := by
  obtain ⟨info, body⟩ := e
  cases body with
  | node | function | selector | bitmask => cases text
  | register r =>
    have kind : r.dataType.isString = true := text
    simp only [valueOfText, kind, if_true] at meant
    obtain rfl := Except.ok.inj meant
    simp

end Endpoint

/-- What a write to an entity has sent: one message to its address, which has bytes unless the
entity holds a text and nothing was written. -/
def Entity.Filled (e : Entity) (nothing : Prop) (trace : List Message) : Prop :=
  ∃ address payload, e.access.setter.isSome = true ∧ e.endpoint? = some address ∧
    trace = [.sent address payload (.ok ())] ∧ (payload = [] ↔ e.holdsText = true ∧ nothing)

theorem Entity.Filled.congr {e : Entity} {nothing nothing' : Prop} {trace : List Message}
    (h : e.Filled nothing trace) (same : e.holdsText = true → (nothing ↔ nothing')) :
    e.Filled nothing' trace := by
  obtain ⟨address, payload, writable, there, sent, empty⟩ := h
  exact ⟨address, payload, writable, there, sent, empty.trans (and_congr_right same)⟩

section Writing

variable {path : String} {e : Entity} {value : Value} {source : String} {σ : Type}
  {link : Transport σ} {s s' : σ}

private theorem Endpoint.filled_write (written : (write path e value).run link s = (.ok (), s')) :
    e.Filled (value = .scalar (.text "")) ((write path e value).trace link s) := by
  cases message : writeMessage path e value with
  | error error =>
    rw [write, message] at written
    cases written
  | ok sent =>
    obtain ⟨address, payload⟩ := sent
    have told : write path e value = Action.tell address payload := by
      rw [write, message]
      rfl
    obtain ⟨t, scalar, reached, -, -⟩ := writeMessage_eq_ok_iff.mp message
    obtain ⟨writable, there⟩ := writeAddress_eq_ok_iff.mp reached
    refine ⟨address, payload, writable, there, ?_, payload_eq_nil_iff message⟩
    rw [told, Action.tell, Action.run] at written
    rw [told, Action.tell, Action.trace_send]
    cases outcome : (link.send address payload s).1 with
    | error error =>
      rw [outcome] at written
      cases written
    | ok => rfl

private theorem Endpoint.filled_writeText
    (written : (Action.ofExcept (valueOfText path e source) >>= write path e).run link s =
      (.ok (), s')) :
    e.Filled (Text.trimmed source = "")
      ((Action.ofExcept (valueOfText path e source) >>= write path e).trace link s) := by
  cases meant : valueOfText path e source with
  | error error =>
    rw [meant] at written
    cases written
  | ok value =>
    rw [meant] at written
    have filled : e.Filled (value = .scalar (.text "")) ((write path e value).trace link s) :=
      filled_write written
    exact filled.congr fun text => valueOfText_eq_empty_iff text meant

end Writing

namespace Tree

variable {σ : Type} {link : Transport σ} {s : σ}

/-- A request that writes to what was found: if it succeeds, it has sent what it has to. -/
def Fills (t : Tree) (link : Transport σ) (s : σ) (found : Except DeviceError Nat)
    (nothing : Prop) (a : Action Unit) : Prop :=
  ∀ s', a.run link s = (.ok (), s') → ∃ id e, found = .ok id ∧ t.get? id = some e ∧
    e.Filled nothing (a.trace link s)

private theorem fills_found {t : Tree} {nothing : Prop} {f : String → Entity → Action Unit}
    (each : ∀ path e s', (f path e).run link s = (.ok (), s') →
      e.Filled nothing ((f path e).trace link s)) (found : Except DeviceError Nat) :
    t.Fills link s found nothing (Action.ofExcept found >>= fun id => t.withEntity id f) := by
  intro s' written
  cases found with
  | error error => cases written
  | ok id =>
    change (t.withEntity id f).run link s = (.ok (), s') at written
    change ∃ id' e, Except.ok id = .ok id' ∧ t.get? id' = some e ∧
      Entity.Filled e nothing ((t.withEntity id f).trace link s)
    rw [withEntity] at written ⊢
    cases there : t.get? id with
    | none =>
      rw [there] at written
      cases written
    | some e =>
      rw [there] at written
      exact ⟨id, e, rfl, there, each _ e s' written⟩

/-- Whatever tree and transport there are, a write of a value or of a text that succeeds has sent one
message. It asks for a value, in place of giving one, exactly when it goes to an endpoint that holds
a text and the text is empty. -/
theorem empty_payload_iff (t : Tree) (link : Transport σ) (s : σ) :
    (∀ path value,
      t.Fills link s (t.childAt path) (value = .scalar (.text "")) (t.set path value)) ∧
    (∀ id name value, t.Fills link s (t.childNamed id name) (value = .scalar (.text ""))
      (t.setNamed id name value)) ∧
    ∀ id name text, t.Fills link s (t.childNamed id name) (Text.trimmed text = "")
      (t.setTextNamed id name text) := by
  refine ⟨?_, ?_, ?_⟩
  · intro path value
    exact fills_found (fun _ _ _ => Endpoint.filled_write) _
  · intro id name value
    exact fills_found (fun _ _ _ => Endpoint.filled_write) _
  · intro id name text
    exact fills_found (fun _ _ _ => Endpoint.filled_writeText) _

def labelDocument : Json :=
  .object [("name", .string "tag"), ("remote_attributes", .array [
    .object [("name", .string "label"), ("dtype", .string "string"),
      ("getter_name", .string "get_label"), ("setter_name", .string "set_label")]])]

def labelledLink : MemoryLink :=
  { stored := [(1, [97])] }

/-- No rule is broken, and writing no text at all succeeds. The message has no bytes, and the device
still has the text from before. -/
theorem empty_text_is_lost :
    ∃ t s, Schema.build labelDocument false = .ok t ∧ t.violations = [] ∧
      (t.set "label" (.scalar (.text ""))).run (MemoryLink.transport .standardTimeout)
        labelledLink = (.ok (), s) ∧ s.sent = [(1, [])] ∧
      ((t.read 1).run (MemoryLink.transport .standardTimeout) s).1 =
        .ok (.scalar (.text "a")) := by
  have facts : ((Schema.build labelDocument false).toOption.map fun t =>
      decide (t.violations = [] ∧
        ((t.set "label" (.scalar (.text ""))).run (MemoryLink.transport .standardTimeout)
          labelledLink).1.toOption.isSome = true ∧
        ((t.set "label" (.scalar (.text ""))).run (MemoryLink.transport .standardTimeout)
          labelledLink).2.sent = [(1, [])] ∧
        ((t.read 1).run (MemoryLink.transport .standardTimeout)
          ((t.set "label" (.scalar (.text ""))).run (MemoryLink.transport .standardTimeout)
            labelledLink).2).1.toOption = some (.scalar (.text "a")))) = some true := by
    decide +kernel
  cases built : Schema.build labelDocument false with
  | error e => simp [built, Except.toOption] at facts
  | ok t =>
    rw [built] at facts
    obtain ⟨valid, accepted, sent, kept⟩ := of_decide_eq_true (Option.some.inj facts)
    rcases written : (t.set "label" (.scalar (.text ""))).run
      (MemoryLink.transport .standardTimeout) labelledLink with ⟨error | ⟨⟩, s⟩
    · simp [written, Except.toOption] at accepted
    · rw [written] at sent kept
      cases came : ((t.read 1).run (MemoryLink.transport .standardTimeout) s).1 with
      | error error => simp [came, Except.toOption] at kept
      | ok v =>
        obtain rfl : v = .scalar (.text "a") := by simpa [came, Except.toOption] using kept
        exact ⟨t, s, rfl, valid, written, sent, came⟩

end Tree

end DeviceLink
