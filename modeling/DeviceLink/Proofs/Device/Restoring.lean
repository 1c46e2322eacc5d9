import DeviceLink.Proofs.Device.Addressing
import DeviceLink.Proofs.Device.Choices
import DeviceLink.Proofs.Unit.Quantities
import DeviceLink.Proofs.Wire.RoundTrip

/-!
Writing back what was read from one endpoint. The JSON form of a value that was decoded denotes a value
for which there is a message, and the payload of that message is decoded as the same value again
(`Endpoint.exists_message_of_decodeValue`).
-/

set_option autoImplicit false
set_option relaxedAutoImplicit false

namespace DeviceLink

open Number (Binary64)
open Wire (Payload)

def Value.isFinite : Value → Bool
  | .scalar value => value.isFinite
  | .quantity q => q.magnitude.isFinite
  | .void | .option _ | .flags _ => true

/-- The names and the units of an entity are told apart and can be read from their texts. -/
def Body.Legible : Body → Prop
  | .register r => r.dataType ≠ .void ∧
      ∀ u, r.unit = some u → ∃ source, Registry.standard.parse source = .ok u
  | .selector s => (s.options.names.take Options.capacity).Nodup ∧
      ∀ name ∈ s.options.names, Text.trimmed name = name
  | .bitmask b => b.flags.names.Nodup ∧ b.flags.defaultName = none
  | .node _ | .function _ => True

/-- What an entity needs so that its value can be written back: a getter and a setter, and no type
whose values do not keep in an export. -/
structure Entity.Restorable (e : Entity) : Prop where
  readable : e.access.getter.isSome = true
  writable : e.access.setter.isSome = true
  notText : ∀ r, e.body = .register r → r.dataType ≠ .string
  narrow : ∀ r, e.body = .register r → r.unit.isSome = true →
    r.dataType ≠ .uint64 ∧ r.dataType ≠ .int64
  number : ∀ r u, e.body = .register r → r.unit = some u → u.factor.isNaN = false

private theorem Entity.restorable_iff (e : Entity) : e.Restorable ↔
    e.access.getter.isSome = true ∧ e.access.setter.isSome = true ∧
      match e.body with
      | .register r => r.dataType ≠ .string ∧
          (r.unit.isSome = true → r.dataType ≠ .uint64 ∧ r.dataType ≠ .int64) ∧
            r.unit.all (fun u => !u.factor.isNaN) = true
      | .node _ | .function _ | .selector _ | .bitmask _ => True := by
  obtain ⟨info, body⟩ := e
  cases body with
  | register r =>
    refine ⟨fun h => ⟨h.readable, h.writable, h.notText r rfl, h.narrow r rfl, ?_⟩, ?_⟩
    · cases unit : r.unit with
      | none => rfl
      | some u => simp [h.number r u rfl unit]
    · rintro ⟨readable, writable, notText, narrow, number⟩
      refine ⟨readable, writable, ?_, ?_, ?_⟩
      · rintro _ ⟨rfl⟩
        exact notText
      · rintro _ ⟨rfl⟩
        exact narrow
      · rintro _ u ⟨rfl⟩ unit
        simpa [unit] using number
  | node | function | selector | bitmask =>
    refine ⟨fun h => ⟨h.readable, h.writable, trivial⟩, fun ⟨readable, writable, _⟩ =>
      ⟨readable, writable, ?_, ?_, ?_⟩⟩ <;>
      · rintro _
        simp

instance (e : Entity) : Decidable e.Restorable :=
  match e with
  | ⟨_, .node _⟩ | ⟨_, .function _⟩ | ⟨_, .selector _⟩ | ⟨_, .bitmask _⟩ | ⟨_, .register _⟩ =>
    decidable_of_iff _ (Entity.restorable_iff _).symm

/-! Quantities in their own unit. -/

theorem Quantity.magnitudeIn_self {x : Binary64} {u : MeasureUnit} (finite : x.isFinite = true)
    (number : u.factor.isNaN = false) : (Quantity.mk x u).magnitudeIn u = .ok x := by
  have same := Binary64.same_self number
  have factor : u.conversionFactor u = .ok .one := by
    rw [MeasureUnit.conversionFactor, if_neg (by simp), if_pos same]
  rw [Quantity.magnitudeIn, Quantity.convert, factor]
  exact congrArg Except.ok (Binary64.mul_one finite)

namespace Endpoint

variable {path : String} {e : Entity} {payload : Payload} {value v : Value} {address : EndpointId}

private theorem writeMessage_eq {t : DataType} {scalar : Scalar}
    (reached : writeAddress path e = .ok address)
    (written : writtenScalar path e value = .ok (t, scalar))
    (encoded : Wire.encode t scalar = .ok payload) :
    writeMessage path e value = .ok (address, payload) := by
  rw [writeMessage, reached]
  simp only [bind, Except.bind, written, encoded, lift, Except.mapError]

/-! Bytes of options and flags. -/

theorem decodedByte_eq_ok_iff {n : UInt64} :
    decodedByte payload = .ok n ↔ Wire.decode optionType payload = .ok (.unsigned n) := by
  cases found : Wire.decode optionType payload with
  | error e => simp [decodedByte, decoded, found, lift, Except.mapError, Except.map]
  | ok scalar =>
    obtain ⟨-, rfl⟩ := (Wire.decode_eq_ok_iff (t := optionType) rfl).mp found
    rw [decodedByte, decoded, found]
    simp [lift, Except.mapError, Except.map, optionType, Wire.decodeFixed]

private theorem decodedByte_lt {n : UInt64} (h : decodedByte payload = .ok n) : n.toNat < 256 := by
  obtain ⟨length, same⟩ :=
    (Wire.decode_eq_ok_iff (t := optionType) rfl).mp (decodedByte_eq_ok_iff.mp h)
  have small := Wire.ofLittleEndian_lt payload
  obtain rfl : UInt64.ofNat (Wire.ofLittleEndian payload) = n := Scalar.unsigned.inj same
  rw [length] at small
  have bound : Wire.ofLittleEndian payload < 256 := small
  rw [UInt64.toNat_ofNat_of_lt' (by rw [UInt64.size]; omega)]
  exact bound

private theorem exists_byte {n : UInt64} (small : n.toNat < 256) :
    ∃ payload, Wire.encode optionType (.unsigned n) = .ok payload ∧
      decodedByte payload = .ok n := by
  have scalar : Wire.integerScalar optionType n.toNat = .unsigned n :=
    congrArg Scalar.unsigned UInt64.ofNat_toNat
  have low : Wire.least optionType ≤ n.toNat := Int.natCast_nonneg _
  have high : (n.toNat : Int) ≤ Wire.greatest optionType := by
    have greatest : Wire.greatest optionType = 255 := by decide
    omega
  rw [← scalar]
  refine ⟨_, Wire.encode_integerScalar rfl low high, ?_⟩
  rw [decodedByte_eq_ok_iff, Wire.decode_integerBytes rfl low high, scalar]

/-! Registers. -/

variable {r : Register} {scalar : Scalar}

private theorem valueOfJson_scalar {other : Scalar} (fixed : r.dataType.isFixedWidth = true)
    (h : Wire.decode r.dataType payload = .ok scalar)
    (read : Scalar.ofJson? scalar.toJson = some other) :
    valueOfJson path e scalar.toJson = .ok (.scalar other) := by
  cases scalar with
  | text s => exact absurd rfl (Wire.textless_of_decode fixed h s)
  | bool | unsigned | signed =>
    simp only [Scalar.toJson] at read ⊢
    simp only [valueOfJson, read]
  | real x =>
    simp only [Scalar.toJson, Json.ofReal] at read ⊢
    by_cases finite : x.isFinite = true
    · rw [if_pos finite] at read ⊢
      simp only [valueOfJson, read]
    · rw [if_neg finite] at read
      cases read

private theorem exists_written_scalar (path : String) (body : e.body = .register r)
    (fixed : r.dataType.isFixedWidth = true) (h : Wire.decode r.dataType payload = .ok scalar)
    (finite : scalar.isFinite = true) :
    ∃ value sent, valueOfJson path e (Value.scalar scalar).toJson = .ok value ∧
      writtenScalar path e value = .ok (r.dataType, sent) ∧
        Wire.encode r.dataType sent = Wire.encode r.dataType scalar := by
  obtain ⟨other, read, same⟩ := Wire.exists_ofJson?_toJson fixed h finite
  refine ⟨.scalar other, other, valueOfJson_scalar fixed h read, ?_, same⟩
  simp [writtenScalar, body, scalarOf, Value.toScalar?, lift, Except.mapError, bind, Except.bind]

private theorem exists_written_quantity (path : String) (body : e.body = .register r)
    (text : r.dataType.isString = false) {x : Binary64} {u : MeasureUnit} {source : String}
    (unit : r.unit = some u) (read : Registry.standard.parse source = .ok u)
    (number : u.factor.isNaN = false) (finite : x.isFinite = true) :
    ∃ value, valueOfJson path e (Value.quantity ⟨x, u⟩).toJson = .ok value ∧
      writtenScalar path e value = .ok (r.dataType, .real x) := by
  have parsed := Registry.parseQuantity_text finite read
  have plain : MeasureUnit.dimensionless.isPlain = true := by decide +kernel
  refine ⟨if u.isPlain then .scalar (.real x) else .quantity ⟨x, u⟩, ?_, ?_⟩
  · simp only [Value.toJson, valueOfJson, valueOfText, body, text, unit, Option.isSome_some,
      Bool.false_eq_true, if_false, if_true, Registry.parseQuantity_trimmed, parsed, lift,
      Except.mapError, bind, Except.bind]
    cases here : u.isPlain <;> simp [here, plain]
  · cases u.isPlain
    · simp [writtenScalar, body, scalarOf, Value.toScalar?, unit,
        Quantity.magnitudeIn_self finite number, lift, Except.mapError, Except.map, bind,
        Except.bind]
    · simp [writtenScalar, body, scalarOf, Value.toScalar?, lift, Except.mapError, bind,
        Except.bind]

/-! Entities of each kind. -/

/-- The JSON form of a value is sent as a type, and what is sent is decoded as the value. -/
def WritesBack (path : String) (e : Entity) (t : DataType) (v : Value) : Prop :=
  ∃ value scalar payload, valueOfJson path e v.toJson = .ok value ∧
    writtenScalar path e value = .ok (t, scalar) ∧ Wire.encode t scalar = .ok payload ∧
      decodeValue path e payload = .ok v

theorem decodeValue_register (body : e.body = .register r) :
    decodeValue path e payload = .ok v ↔
      ∃ scalar, Wire.decode r.dataType payload = .ok scalar ∧ Value.ofScalar scalar r.unit = v := by
  simp only [decodeValue, body, decoded]
  cases Wire.decode r.dataType payload <;> simp [lift, Except.mapError, Except.map]

private theorem writesBack_of_encode (body : e.body = .register r)
    (fixed : r.dataType.isFixedWidth = true) (h : Wire.decode r.dataType payload = .ok scalar)
    (finite : scalar.isFinite = true) {sent : Scalar}
    (read : valueOfJson path e (Value.ofScalar scalar r.unit).toJson = .ok value)
    (written : writtenScalar path e value = .ok (r.dataType, sent))
    (same : Wire.encode r.dataType sent = Wire.encode r.dataType scalar) :
    WritesBack path e r.dataType (.ofScalar scalar r.unit) := by
  obtain ⟨payload', encoded, decoded⟩ := Wire.exists_encode_of_decode fixed h finite
  exact ⟨value, sent, payload', read, written, same.trans encoded,
    (decodeValue_register body).mpr ⟨scalar, decoded, rfl⟩⟩

theorem isFixedWidth_of_restorable (body : e.body = .register r) (filled : r.dataType ≠ .void)
    (restorable : e.Restorable) : r.dataType.isFixedWidth = true := by
  have noText := restorable.notText r body
  cases t : r.dataType <;> first | rfl | exact absurd t filled | exact absurd t noText

theorem writesBack_register (body : e.body = .register r) (legible : e.body.Legible)
    (restorable : e.Restorable) (h : decodeValue path e payload = .ok v)
    (finite : v.isFinite = true) : WritesBack path e r.dataType v := by
  simp only [Body.Legible, body] at legible
  obtain ⟨filled, units⟩ := legible
  have fixed := isFixedWidth_of_restorable body filled restorable
  have text : r.dataType.isString = false := by
    simpa using (Bool.and_eq_true_iff.mp fixed).2
  obtain ⟨scalar, found, rfl⟩ := (decodeValue_register body).mp h
  by_cases plain : r.unit = none ∨ r.dataType = .bool
  · have same : Value.ofScalar scalar r.unit = .scalar scalar := by
      rcases plain with unitless | truth
      · rw [unitless]
        cases scalar <;> rfl
      · rw [truth] at found
        obtain ⟨-, rfl⟩ := (Wire.decode_eq_ok_iff (t := .bool) rfl).mp found
        cases r.unit <;> rfl
    rw [same] at finite
    obtain ⟨value, sent, read, written, alike⟩ :=
      exists_written_scalar path body fixed found finite
    exact writesBack_of_encode body fixed found finite (by rwa [same]) written alike
  · obtain ⟨measured, other⟩ := not_or.mp plain
    obtain ⟨u, unit⟩ := Option.ne_none_iff_exists'.mp measured
    obtain ⟨source, parsed⟩ := units u unit
    have narrow : r.dataType.isInteger = true → Wire.width r.dataType ≤ 4 := fun integer =>
      have small := restorable.narrow r body (by rw [unit]; rfl)
      Wire.width_le_of_isInteger integer small.1 small.2
    obtain ⟨x, number, noTruth, sent⟩ := Wire.exists_number_of_decode fixed other narrow found
    have same : Value.ofScalar scalar r.unit = .quantity ⟨x, u⟩ := by
      rw [unit]
      cases scalar with
      | bool b => exact absurd rfl (noTruth b)
      | unsigned | signed | real | text => simp [Value.ofScalar, number]
    rw [same] at finite
    obtain ⟨known, alike⟩ := sent finite
    obtain ⟨value, read, written⟩ := exists_written_quantity path body text unit parsed
      (restorable.number r u body unit) finite
    exact writesBack_of_encode body fixed found known (by rwa [same]) written alike

theorem writesBack_selector {s : Selector} (body : e.body = .selector s) (legible : e.body.Legible)
    (h : decodeValue path e payload = .ok v) : WritesBack path e optionType v := by
  simp only [Body.Legible, body] at legible
  obtain ⟨distinct, trimmed⟩ := legible
  have decode {payload : Payload} {n : UInt64} (byte : decodedByte payload = .ok n) (v : Value) :
      decodeValue path e payload = .ok v ↔ ∃ o, s.options.decode n = .ok o ∧ .option o = v := by
    simp only [decodeValue, body, byte, bind, Except.bind]
    cases s.options.decode n <;> simp [lift, Except.mapError]
  cases byte : decodedByte payload with
  | error e => simp [decodeValue, body, byte, bind, Except.bind] at h
  | ok n =>
    obtain ⟨o, option, rfl⟩ := (decode byte v).mp h
    obtain ⟨small, encoded, known⟩ := Options.encode_name_of_decode distinct option
    have index : (UInt8.ofNat n.toNat).toUInt64 = n := by
      refine UInt64.toNat_inj.mp ?_
      rw [UInt8.toNat_toUInt64, UInt8.toNat_ofNat_of_lt' small]
    obtain ⟨payload', sent, back⟩ := exists_byte small
    refine ⟨.scalar (.text o.name), .unsigned n, payload', ?_, ?_, sent,
      (decode back _).mpr ⟨o, option, rfl⟩⟩
    · simp only [Value.toJson, valueOfJson, valueOfText, body, trimmed _ known]
    · simp only [writtenScalar, body, choiceOf?, encoded, lift, Except.mapError, bind, Except.bind,
        index]

private theorem mapM_string? (names : List String) :
    (names.map Json.string).mapM Json.string? = some names := by
  induction names with
  | nil => rfl
  | cons name rest ih => rw [List.map_cons, List.mapM_cons, ih]; rfl

theorem exists_encode_of_decodeValue {b : Bitmask} (body : e.body = .bitmask b)
    (legible : e.body.Legible) (h : decodeValue path e payload = .ok v) :
    ∃ given payload', v = .flags given ∧
      Wire.encode optionType (.unsigned (b.flags.encode given)) = .ok payload' ∧
        decodeValue path e payload' = .ok v := by
  simp only [Body.Legible, body] at legible
  obtain ⟨distinct, plain⟩ := legible
  have decode {payload : Payload} {n : UInt64} (byte : decodedByte payload = .ok n) :
      decodeValue path e payload = .ok (.flags (b.flags.decode n)) := by
    simp only [decodeValue, body, byte, Except.map]
  cases byte : decodedByte payload with
  | error e => simp [decodeValue, body, byte, Except.map] at h
  | ok n =>
    obtain rfl := Except.ok.inj ((decode byte).symm.trans h)
    obtain ⟨small, same⟩ := Flags.encode_decode distinct plain (decodedByte_lt byte)
    obtain ⟨payload', sent, back⟩ := exists_byte small
    exact ⟨b.flags.decode n, payload', rfl, sent, by rw [decode back, same]⟩

private theorem writesBack_bitmask {b : Bitmask} (body : e.body = .bitmask b)
    (legible : e.body.Legible) (h : decodeValue path e payload = .ok v) :
    WritesBack path e optionType v := by
  obtain ⟨given, payload', rfl, sent, back⟩ := exists_encode_of_decodeValue body legible h
  refine ⟨.flags given, _, payload', ?_, ?_, sent, back⟩
  · simp only [Value.toJson, valueOfJson, mapM_string?]
  · simp only [writtenScalar, body, bitsOf?]

private theorem exists_writeAddress (path : String) (writable : e.access.setter.isSome = true) :
    ∃ address, writeAddress path e = .ok address := by
  obtain ⟨info, body⟩ := e
  cases body with
  | node | function => simp [Entity.access] at writable
  | register | selector | bitmask =>
    simp only [Entity.access] at writable
    exact ⟨_, if_pos writable⟩

theorem exists_message_of_encode {t : DataType} (fixed : t.isFixedWidth = true)
    (writable : e.access.setter.isSome = true) (written : writtenScalar path e value = .ok (t, scalar))
    (encoded : Wire.encode t scalar = .ok payload) :
    payload ≠ [] ∧ ∃ address, writeMessage path e value = .ok (address, payload) := by
  obtain ⟨address, reached⟩ := exists_writeAddress path writable
  refine ⟨?_, address, writeMessage_eq reached written encoded⟩
  rintro rfl
  have length := Wire.length_encode fixed encoded
  have positive := Wire.width_pos fixed
  rw [List.length_nil] at length
  omega

/-- What was read from an endpoint is written back with one message, which is not empty, and the
endpoint is read as the same value again. -/
theorem exists_message_of_decodeValue (legible : e.body.Legible) (restorable : e.Restorable)
    (h : decodeValue path e payload = .ok v) (finite : v.isFinite = true) :
    ∃ value address payload', valueOfJson path e v.toJson = .ok value ∧
      writeMessage path e value = .ok (address, payload') ∧ payload' ≠ [] ∧
        decodeValue path e payload' = .ok v := by
  obtain ⟨t, fixed, value, scalar, payload', read, written, encoded, decoded⟩ :
      ∃ t : DataType, t.isFixedWidth = true ∧ WritesBack path e t v := by
    cases body : e.body with
    | node | function => simp [decodeValue, body] at h
    | selector => exact ⟨_, rfl, writesBack_selector body legible h⟩
    | bitmask => exact ⟨_, rfl, writesBack_bitmask body legible h⟩
    | register r =>
      have back := writesBack_register body legible restorable h finite
      simp only [Body.Legible, body] at legible
      exact ⟨_, isFixedWidth_of_restorable body legible.1 restorable, back⟩
  obtain ⟨filled, address, message⟩ :=
    exists_message_of_encode fixed restorable.writable written encoded
  exact ⟨value, address, payload', read, message, filled, decoded⟩

end Endpoint

end DeviceLink
