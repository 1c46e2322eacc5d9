import DeviceLink.Proofs.Device.Bytes
import DeviceLink.Proofs.Device.Exchanges
import DeviceLink.Proofs.Device.ImportExport
import DeviceLink.Proofs.Text.Words

/-!
Values that are printed and typed in again. The text of a value that was read from an endpoint denotes
for the endpoint a value with the same payload, or with one that is read as the same value again
(`Endpoint.exists_message_of_text`), whatever kind of endpoint it is. This goes for the text of an
empty set of flags too, whose words are the names of no flags (`Tree.typed_text_read_back`).
-/

set_option autoImplicit false
set_option relaxedAutoImplicit false

namespace DeviceLink

open Number (Binary64 twoTo)
open Wire (Payload)

private theorem Identifier.IsIdentifier.isSolid {name : String} (h : IsIdentifier name) :
    Text.IsSolid name := by
  obtain ⟨first, rest, shape, -⟩ := h.word
  refine ⟨?_, fun c inside => isBlank_of_isPart (h.word.isPart c inside)⟩
  rw [shape]
  exact List.cons_ne_nil first rest

/-! Scalars as texts. -/

private theorem readUnsigned?_toString (n : UInt64) :
    readUnsigned? (toString n.toNat).toList = some n := by
  have small : n.toNat < twoTo 64 := n.toNat_lt
  rw [readUnsigned?, Number.readNat_toString]
  simp only [if_pos small, UInt64.ofNat_toNat]

private theorem readSigned?_toString (n : Int64) :
    readSigned? (toString n.toInt).toList = some n := by
  have low : -(twoTo 63 : Int) ≤ n.toInt := n.le_toInt
  have high : n.toInt < twoTo 63 := n.toInt_lt
  rw [readSigned?, Number.readInt_toString]
  simp [low, high]

namespace Scalar

variable {scalar : Scalar}

private theorem solid_toText (finite : scalar.isFinite = true) (textless : ∀ s, scalar ≠ .text s) :
    ∀ c ∈ scalar.toText.toList, Text.isBlank c = false := by
  cases scalar with
  | text s => exact absurd rfl (textless s)
  | bool b =>
    have letters : (toText (bool b)).toList.all (fun c => !Text.isBlank c) = true := by
      cases b <;> decide +kernel
    intro c inside
    simpa using List.all_eq_true.mp letters c inside
  | unsigned n =>
    show ∀ c ∈ (toString n.toNat).toList, _
    rw [Number.toList_toString]
    exact Number.solid_toDigits _
  | signed n =>
    show ∀ c ∈ (toString n.toInt).toList, _
    obtain ⟨sign, negative, shape, signed, -⟩ := Number.exists_toList_toString n.toInt
    rw [shape]
    exact List.forall_mem_append.mpr ⟨signed.solid, Number.solid_toDigits _⟩
  | real x =>
    show ∀ c ∈ x.text.toList, _
    rw [Binary64.text, Number.Layout.write, String.toList_ofList]
    exact fun c inside => Binary64.isBlank_of_mem_chars finite inside

private theorem trimmed_toText (finite : scalar.isFinite = true)
    (textless : ∀ s, scalar ≠ .text s) : Text.trimmed scalar.toText = scalar.toText := by
  rw [Text.trimmed, Text.trim_of_solid (solid_toText finite textless), String.ofList_toList]

end Scalar

namespace Wire

variable {t : DataType} {payload : Payload} {scalar : Scalar}

private theorem exists_quantity_of_decode (fixed : t.isFixedWidth = true) (truth : t ≠ .bool)
    (h : decode t payload = .ok scalar) (u : MeasureUnit) :
    ∃ q, Value.ofScalar scalar (some u) = .quantity q := by
  obtain ⟨-, rfl⟩ := (decode_eq_ok_iff fixed).mp h
  cases t with
  | void | string => cases fixed
  | bool => exact absurd rfl truth
  | uint8 | int8 | uint16 | int16 | uint32 | int32 | uint64 | int64 | float | double =>
    exact ⟨_, rfl⟩

end Wire

private theorem DataType.readScalar_toText {t : DataType} {payload : Payload} {scalar : Scalar}
    (fixed : t.isFixedWidth = true) (h : Wire.decode t payload = .ok scalar)
    (finite : scalar.isFinite = true) :
    t.readScalar scalar.toText = .ok (some scalar) := by
  have trimmed := Scalar.trimmed_toText finite (Wire.textless_of_decode fixed h)
  obtain ⟨-, rfl⟩ := (Wire.decode_eq_ok_iff fixed).mp h
  unfold readScalar
  rw [trimmed]
  cases t with
  | void | string => cases fixed
  | bool =>
    simp only [Wire.decodeFixed, Scalar.toText]
    cases Wire.ofLittleEndian payload != 0 <;> rfl
  | uint8 | uint16 | uint32 | uint64 =>
    simp only [Wire.decodeFixed, Scalar.toText, readUnsigned?_toString]
    rfl
  | int8 | int16 | int32 | int64 =>
    simp only [Wire.decodeFixed, Scalar.toText, readSigned?_toString]
    rfl
  | float | double =>
    simp only [Wire.decodeFixed, Scalar.toText, Scalar.isFinite] at finite ⊢
    rw [Binary64.ofString?_text finite]
    rfl

/-! Endpoints. -/

/-- What an entity needs so that the text of its value can be typed in: all that it takes to write the
value back, and no unit for a truth value. -/
structure Entity.Typeable (e : Entity) : Prop extends e.Restorable where
  plain : ∀ r, e.body = .register r → r.dataType = .bool → r.unit = none

namespace Endpoint

variable {path : String} {e : Entity} {payload : Payload} {v : Value} {t : DataType}
  {r : Register}

/-- The text of a value is sent as a type, and what is sent is decoded as the value. -/
def TypesBack (path : String) (e : Entity) (t : DataType) (v : Value) : Prop :=
  ∃ value scalar payload, valueOfText path e v.text = .ok value ∧
    writtenScalar path e value = .ok (t, scalar) ∧ Wire.encode t scalar = .ok payload ∧
      decodeValue path e payload = .ok v

private theorem typesBack_of_writesBack (same : v.toJson = .string v.text)
    (h : WritesBack path e t v) : TypesBack path e t v := by
  obtain ⟨value, scalar, payload, read, rest⟩ := h
  rw [same] at read
  exact ⟨value, scalar, payload, read, rest⟩

private theorem typesBack_register (body : e.body = .register r) (legible : e.body.Legible)
    (typeable : e.Typeable) (h : decodeValue path e payload = .ok v)
    (finite : v.isFinite = true) : TypesBack path e r.dataType v := by
  have back := writesBack_register body legible typeable.toRestorable h finite
  simp only [Body.Legible, body] at legible
  have fixed := isFixedWidth_of_restorable body legible.1 typeable.toRestorable
  obtain ⟨scalar, found, rfl⟩ := (decodeValue_register body).mp h
  cases unit : r.unit with
  | some u =>
    have truth : r.dataType ≠ .bool := fun truth => by
      have none := typeable.plain r body truth
      rw [unit] at none
      cases none
    obtain ⟨q, same⟩ := Wire.exists_quantity_of_decode fixed truth found u
    rw [unit, same] at back
    rw [same]
    exact typesBack_of_writesBack rfl back
  | none =>
    have same : Value.ofScalar scalar none = .scalar scalar := by cases scalar <;> rfl
    rw [unit, same] at finite
    have known : scalar.isFinite = true := finite
    have noText : r.dataType.isString = false := by
      simpa using (Bool.and_eq_true_iff.mp fixed).2
    have trimmed := Scalar.trimmed_toText known (Wire.textless_of_decode fixed found)
    obtain ⟨payload', encoded, decoded⟩ := Wire.exists_encode_of_decode fixed found known
    rw [same]
    refine ⟨.scalar scalar, scalar, payload', ?_, ?_, encoded,
      (decodeValue_register body).mpr ⟨scalar, decoded, by rw [unit, same]⟩⟩
    · show valueOfText path e scalar.toText = _
      simp only [valueOfText, body, noText, unit, Option.isSome_none, Bool.false_eq_true, if_false,
        trimmed, DataType.readScalar_toText fixed found known, lift, Except.mapError, bind,
        Except.bind]
    · simp only [writtenScalar, body, scalarOf, Value.toScalar?, lift, Except.mapError, bind,
        Except.bind]

private theorem typesBack_selector {s : Selector} (body : e.body = .selector s)
    (legible : e.body.Legible) (h : decodeValue path e payload = .ok v) :
    TypesBack path e optionType v := by
  have back := writesBack_selector body legible h
  obtain ⟨b, o, -, -, rfl⟩ := (decodeValue_selector body).mp h
  exact typesBack_of_writesBack rfl back

private theorem encode_words_text {flags : Flags} {given : List String}
    (words : ∀ name ∈ flags.names, Identifier.IsIdentifier name)
    (inside : ∀ name ∈ given, name ∈ flags.names) :
    flags.encode (Text.words (Value.flags given).text) = flags.encode given := by
  cases given with
  | nil =>
    -- The two words of the placeholder are no identifiers, so they are not among the flags.
    have other (word : String) (malformed : Identifier.wellFormed word = false) :
        word ∉ flags.names.take 64 := fun listed => by
      have flag := words word (List.mem_of_mem_take listed)
      have form := (Identifier.wellFormed_iff word).mpr flag.word
      rw [malformed] at form
      cases form
    have pieces : Text.words (Value.flags []).text = ["(no", "flags)"] := by decide +kernel
    rw [pieces, Flags.encode, Flags.encode, Flags.bitsOf_cons (other "(no" (by decide +kernel)),
      Flags.bitsOf_cons (other "flags)" (by decide +kernel))]
  | cons name rest =>
    have joined : (Value.flags (name :: rest)).text = " ".intercalate (name :: rest) := rfl
    rw [joined, Text.words_intercalate fun name member => (words name (inside name member)).isSolid]

private theorem typesBack_bitmask {b : Bitmask} (body : e.body = .bitmask b)
    (legible : e.body.Legible) (words : ∀ name ∈ b.flags.names, Identifier.IsIdentifier name)
    (h : decodeValue path e payload = .ok v) : TypesBack path e optionType v := by
  obtain ⟨given, payload', rfl, sent, back⟩ := exists_encode_of_decodeValue body legible h
  simp only [Body.Legible, body] at legible
  have inside : ∀ name ∈ given, name ∈ b.flags.names := by
    obtain ⟨byte, -, same⟩ := (decodeValue_bitmask body).mp h
    obtain rfl : given = b.flags.decode byte.toUInt64 := Value.flags.inj same
    intro name member
    rw [Flags.decode_of_plain legible.2] at member
    exact Flags.namesOf_subset member
  have same := encode_words_text words inside
  refine ⟨.flags (Text.words (Value.flags given).text), _, payload', ?_, ?_, sent, back⟩
  · simp only [valueOfText, body, Text.words_trimmed]
  · simp only [writtenScalar, body, bitsOf?, same]

theorem exists_message_of_text (legible : e.body.Legible) (typeable : e.Typeable)
    (words : ∀ name ∈ e.body.memberNames, Identifier.IsIdentifier name)
    (h : decodeValue path e payload = .ok v) (finite : v.isFinite = true) :
    ∃ value address payload', valueOfText path e v.text = .ok value ∧
      writeMessage path e value = .ok (address, payload') ∧ payload' ≠ [] ∧
        decodeValue path e payload' = .ok v := by
  obtain ⟨t, fixed, value, scalar, payload', read, written, encoded, decoded⟩ :
      ∃ t : DataType, t.isFixedWidth = true ∧ TypesBack path e t v := by
    cases body : e.body with
    | node | function => simp [decodeValue, body] at h
    | selector => exact ⟨_, rfl, typesBack_selector body legible h⟩
    | bitmask b =>
      rw [body] at words
      exact ⟨_, rfl, typesBack_bitmask body legible words h⟩
    | register r =>
      have back := typesBack_register body legible typeable h finite
      simp only [Body.Legible, body] at legible
      exact ⟨_, isFixedWidth_of_restorable body legible.1 typeable.toRestorable, back⟩
  obtain ⟨filled, address, message⟩ :=
    exists_message_of_encode fixed typeable.writable written encoded
  exact ⟨value, address, payload', read, message, filled, decoded⟩

end Endpoint

namespace Tree

variable {t : Tree} {node id : Nat} {name : String} {e : Entity} {σ : Type} {link : Transport σ}
  {s : σ} {v : Value}

private theorem readNamed_eq (named : t.childNamed node name = .ok id) :
    t.readNamed node name = t.read id := by
  rw [readNamed, named]
  rfl

private theorem setTextNamed_eq (named : t.childNamed node name = .ok id) (text : String) :
    t.setTextNamed node name text = t.writeText id text := by
  rw [setTextNamed, named]
  rfl

/-- The text of a value that was read from an endpoint can be typed in again. In a tree that was built
and breaks no rule this sends one message, with a payload, to the address that was asked for the value;
and whatever device answers with that payload shows the same value. -/
theorem typed_text_read_back {document : Json} {withRootName : Bool}
    (built : Schema.build document withRootName = .ok t) (valid : t.violations = [])
    (named : t.childNamed node name = .ok id) (found : t.get? id = some e) (typeable : e.Typeable)
    (read : ((t.readNamed node name).run link s).1 = .ok v) (finite : v.isFinite = true) :
    ∃ address answer payload,
      (t.readNamed node name).trace link s =
        [.sent address [] (.ok ()), .received address link.timeout (.ok answer)] ∧
      t.setTextNamed node name v.text = Action.tell address payload ∧ payload ≠ [] ∧
      ∀ {τ : Type} (link' : Transport τ) (s' : τ),
        (t.readNamed node name).trace link' s' =
            [.sent address [] (.ok ()), .received address link'.timeout (.ok payload)] →
          ((t.readNamed node name).run link' s').1 = .ok v := by
  have origin := Schema.built_of_build built
  have rules := (violations_eq_nil_iff origin.reachable.sound).mp valid
  have legible := legible_of_built origin rules found
  have shape := readNamed_eq named
  cases there : Endpoint.readAddress (t.displayPath id) e with
  | error error =>
    rw [shape, Tree.read, withEntity, found] at read
    simp only [Endpoint.read, there] at read
    cases read
  | ok address =>
    rw [read_eq_exchange found (Endpoint.readAddress_eq_ok_iff.mp there)] at shape
    obtain ⟨answer, decoded, messages⟩ := (Action.run_exchange_eq_ok_iff shape).mp read
    obtain ⟨value, target, payload, denoted, message, filled, back⟩ :=
      Endpoint.exists_message_of_text legible typeable (rules.members id e found) decoded finite
    have sent := Endpoint.endpoint?_of_writeMessage message
    obtain rfl : target = address :=
      Option.some.inj (sent.symm.trans (Endpoint.endpoint?_of_readAddress there))
    refine ⟨target, answer, payload, messages, ?_, filled, fun link' s' answered =>
      (Action.run_exchange_eq_ok_iff shape).mpr ⟨payload, back, answered⟩⟩
    have told := (write_eq_tell_iff found).mpr message
    rw [write, withEntity, found] at told
    rw [setTextNamed_eq named, writeText, withEntity, found]
    simp only [denoted]
    exact told

def quietFan : MemoryLink where
  stored := [(2, [0])]

/-- The text of no alarms sends a payload that shows no alarms. -/
theorem typed_text_read_back_alarms :
    ∃ t address payload, Schema.build fanDocument false = .ok t ∧ t.violations = [] ∧
      ((t.readNamed rootId "alarms").run fanLink quietFan).1 = .ok (.flags []) ∧
      t.setTextNamed rootId "alarms" "(no flags)" = Action.tell address payload ∧ payload ≠ [] ∧
      ∀ {τ : Type} (link' : Transport τ) (s' : τ),
        (t.readNamed rootId "alarms").trace link' s' =
            [.sent address [] (.ok ()), .received address link'.timeout (.ok payload)] →
          ((t.readNamed rootId "alarms").run link' s').1 = .ok (.flags []) := by
  have facts : ((Schema.build fanDocument false).toOption.map fun t =>
      decide (t.violations = [] ∧ (t.childNamed rootId "alarms").toOption = some 2 ∧
        (t.get? 2).any (fun e => decide (e.Restorable ∧ e.kind = .bitmask)) = true ∧
        ((t.readNamed rootId "alarms").run fanLink quietFan).1.toOption =
          some (.flags []))) = some true := by
    decide +kernel
  cases built : Schema.build fanDocument false with
  | error e => simp [built, Except.toOption] at facts
  | ok t =>
    rw [built] at facts
    obtain ⟨valid, named, place, shown⟩ := of_decide_eq_true (Option.some.inj facts)
    obtain ⟨e, found, fit⟩ := (Option.any_eq_true _ _).mp place
    obtain ⟨restorable, bitmask⟩ := of_decide_eq_true fit
    have typeable : e.Typeable :=
      ⟨restorable, fun r body => by simp [Entity.kind, body] at bitmask⟩
    have read := toOption_eq_some_iff.mp shown
    obtain ⟨address, -, payload, -, told, filled, back⟩ :=
      typed_text_read_back built valid (toOption_eq_some_iff.mp named) found typeable read rfl
    exact ⟨t, address, payload, rfl, valid, read, told, filled, back⟩

end Tree

end DeviceLink
