import DeviceLink.Proofs.Device.Restoring
import DeviceLink.Proofs.Results
import DeviceLink.Proofs.Wire.Counts

/-!
Options and flags on the wire. The message that chooses an option or sets flags is one byte
(`Endpoint.writeMessage_selector`, `Endpoint.writeMessage_bitmask`), and an answer means an option
or flags only if it is one byte (`Endpoint.decodeValue_selector`, `Endpoint.decodeValue_bitmask`).
-/

set_option autoImplicit false
set_option relaxedAutoImplicit false

namespace DeviceLink

open Wire (Payload)

namespace Wire

private theorem encode_byte_eq_ok_iff {n : UInt64} {payload : Payload} :
    encode optionType (.unsigned n) = .ok payload ↔
      n.toNat < 256 ∧ payload = [UInt8.ofNat n.toNat] := by
  have least : least optionType = 0 := by decide
  have greatest : greatest optionType = 255 := by decide
  rw [encode_of_isInteger rfl, encodeInteger]
  simp only [integerOf, bind, Except.bind, least, greatest, Bool.and_eq_true, decide_eq_true_eq]
  by_cases small : n.toNat < 256
  · have bytes : integerBytes (width optionType) n.toNat = [UInt8.ofNat n.toNat] := by
      change [UInt8.ofNat (((n.toNat : Int) % (256 : Nat)).toNat % 256)] = _
      congr 2
      omega
    rw [if_pos (by omega), bytes]
    simp [small, eq_comm]
  · rw [if_neg (by omega)]
    simp [small]

end Wire

namespace Endpoint

variable {path : String} {e : Entity} {value v : Value} {address : EndpointId} {payload : Payload}

private theorem decodedByte_eq_ok_iff_byte {n : UInt64} :
    decodedByte payload = .ok n ↔ ∃ b : UInt8, payload = [b] ∧ n = b.toUInt64 := by
  rw [decodedByte_eq_ok_iff, Wire.decode_eq_ok_iff rfl]
  have number (b : UInt8) : Wire.decodeFixed optionType [b] = .unsigned b.toUInt64 := by
    refine congrArg Scalar.unsigned (UInt64.toNat_inj.mp ?_)
    have small := b.toNat_lt
    rw [Wire.ofLittleEndian, Wire.ofLittleEndian, UInt64.toNat_ofNat_of_lt' (by
      rw [UInt64.size]
      omega), UInt8.toNat_toUInt64]
    omega
  constructor
  · rintro ⟨length, same⟩
    obtain ⟨b, rfl⟩ := List.length_eq_one_iff.mp length
    rw [number] at same
    exact ⟨b, rfl, (Scalar.unsigned.inj same).symm⟩
  · rintro ⟨b, rfl, rfl⟩
    exact ⟨rfl, number b⟩

theorem writeAddress_eq_ok_iff : writeAddress path e = .ok address ↔
    e.access.setter.isSome = true ∧ e.endpoint? = some address := by
  obtain ⟨info, body⟩ := e
  cases body with
  | node | function => simp [writeAddress, Entity.access]
  | register | selector | bitmask =>
    simp only [writeAddress, Entity.access, Entity.endpoint?]
    split <;> simp_all

theorem writeMessage_eq_ok_iff : writeMessage path e value = .ok (address, payload) ↔
    ∃ t scalar, writeAddress path e = .ok address ∧ writtenScalar path e value = .ok (t, scalar) ∧
      Wire.encode t scalar = .ok payload := by
  rw [writeMessage]
  simp only [bind_eq_ok_iff, lift, mapError_eq_ok_iff]
  constructor
  · rintro ⟨there, reached, ⟨t, scalar⟩, written, bytes, encoded, same⟩
    obtain ⟨rfl, rfl⟩ := Prod.mk.inj (Except.ok.inj same)
    exact ⟨t, scalar, reached, written, encoded⟩
  · rintro ⟨t, scalar, reached, written, encoded⟩
    exact ⟨address, reached, (t, scalar), written, payload, encoded, rfl⟩

/-! Options. -/

variable {s : Selector}

theorem writeMessage_selector (body : e.body = .selector s) :
    writeMessage path e value = .ok (address, payload) ↔
      s.access.setter.isSome = true ∧ address = s.endpoint ∧
        ∃ choice b, choiceOf? value = some choice ∧ s.options.encode choice = .ok b ∧
          payload = [b] := by
  have reached : writeAddress path e = .ok address ↔
      s.access.setter.isSome = true ∧ address = s.endpoint := by
    rw [writeAddress_eq_ok_iff, Entity.access, Entity.endpoint?, body]
    simp only [Option.some_inj, eq_comm]
  have written (t : DataType) (scalar : Scalar) :
      writtenScalar path e value = .ok (t, scalar) ↔ ∃ choice b, choiceOf? value = some choice ∧
        s.options.encode choice = .ok b ∧ t = optionType ∧ scalar = .unsigned b.toUInt64 := by
    rw [writtenScalar, body]
    cases choiceOf? value with
    | none => simp
    | some choice =>
      simp only [bind_eq_ok_iff, lift, mapError_eq_ok_iff]
      simp [eq_comm]
  have sent (b : UInt8) : Wire.encode optionType (.unsigned b.toUInt64) = .ok payload ↔
      payload = [b] := by
    have small := b.toNat_lt
    rw [Wire.encode_byte_eq_ok_iff, UInt8.toNat_toUInt64, UInt8.ofNat_toNat]
    exact and_iff_right small
  rw [writeMessage_eq_ok_iff]
  constructor
  · rintro ⟨t, scalar, there, message, encoded⟩
    obtain ⟨choice, b, made, chosen, rfl, rfl⟩ := (written t scalar).mp message
    obtain ⟨writable, same⟩ := reached.mp there
    exact ⟨writable, same, choice, b, made, chosen, (sent b).mp encoded⟩
  · rintro ⟨writable, same, choice, b, made, chosen, bytes⟩
    exact ⟨optionType, _, reached.mpr ⟨writable, same⟩,
      (written _ _).mpr ⟨choice, b, made, chosen, rfl, rfl⟩, (sent b).mpr bytes⟩

theorem decodeValue_selector (body : e.body = .selector s) :
    decodeValue path e payload = .ok v ↔
      ∃ b o, payload = [b] ∧ s.options.decode b.toUInt64 = .ok o ∧ v = .option o := by
  rw [decodeValue, body]
  simp only [bind_eq_ok_iff, lift, mapError_eq_ok_iff, decodedByte_eq_ok_iff_byte]
  constructor
  · rintro ⟨n, ⟨b, rfl, rfl⟩, o, chosen, same⟩
    exact ⟨b, o, rfl, chosen, (Except.ok.inj same).symm⟩
  · rintro ⟨b, o, rfl, chosen, rfl⟩
    exact ⟨_, ⟨b, rfl, rfl⟩, o, chosen, rfl⟩

/-! Flags. -/

variable {m : Bitmask}

theorem writeMessage_bitmask (body : e.body = .bitmask m) :
    writeMessage path e value = .ok (address, payload) ↔
      m.access.setter.isSome = true ∧ address = m.endpoint ∧
        ∃ bits, bitsOf? m.flags value = some bits ∧ bits.toNat < 256 ∧
          payload = [UInt8.ofNat bits.toNat] := by
  have reached : writeAddress path e = .ok address ↔
      m.access.setter.isSome = true ∧ address = m.endpoint := by
    rw [writeAddress_eq_ok_iff, Entity.access, Entity.endpoint?, body]
    simp only [Option.some_inj, eq_comm]
  have written (t : DataType) (scalar : Scalar) :
      writtenScalar path e value = .ok (t, scalar) ↔ ∃ bits, bitsOf? m.flags value = some bits ∧
        t = optionType ∧ scalar = .unsigned bits := by
    rw [writtenScalar, body]
    cases set : bitsOf? m.flags value with
    | none => simp [set]
    | some bits => simp [set, eq_comm]
  rw [writeMessage_eq_ok_iff]
  constructor
  · rintro ⟨t, scalar, there, message, encoded⟩
    obtain ⟨bits, set, rfl, rfl⟩ := (written t scalar).mp message
    obtain ⟨writable, same⟩ := reached.mp there
    exact ⟨writable, same, bits, set, Wire.encode_byte_eq_ok_iff.mp encoded⟩
  · rintro ⟨writable, same, bits, set, byte⟩
    exact ⟨optionType, _, reached.mpr ⟨writable, same⟩, (written _ _).mpr ⟨bits, set, rfl, rfl⟩,
      Wire.encode_byte_eq_ok_iff.mpr byte⟩

theorem decodeValue_bitmask (body : e.body = .bitmask m) :
    decodeValue path e payload = .ok v ↔
      ∃ b : UInt8, payload = [b] ∧ v = .flags (m.flags.decode b.toUInt64) := by
  rw [decodeValue, body]
  simp only [map_eq_ok_iff, decodedByte_eq_ok_iff_byte]
  constructor
  · rintro ⟨n, ⟨b, rfl, rfl⟩, same⟩
    exact ⟨b, rfl, same.symm⟩
  · rintro ⟨b, rfl, rfl⟩
    exact ⟨_, ⟨b, rfl, rfl⟩, rfl⟩

end Endpoint

end DeviceLink
