import DeviceLink.Proofs.Device.Exchanges
import DeviceLink.Proofs.Number.Significance
import DeviceLink.Proofs.Wire.Integers
import DeviceLink.Schema.Build
import DeviceLink.Validation.Report

/-!
Integers of 64 bits with a unit. They are read as quantities, whose magnitudes have 53 significant
bits, so that a reading written back sends the payload that it was decoded from only where the integer
has no more of them. Integers at the upper end of the range are rounded out of it, and the reading is
refused (`Tree.wide_reading_written_back`).
-/

set_option autoImplicit false
set_option relaxedAutoImplicit false

namespace DeviceLink

open Number (Binary64 twoTo)
open Wire (Payload)

namespace Wire

variable {t : DataType} {n : Int} {payload : Payload}

/-- Whether a type has the integers of 64 bits. -/
def IsWide (t : DataType) : Prop :=
  t = .uint64 ∨ t = .int64

private theorem IsWide.isInteger (wide : IsWide t) : t.isInteger = true := by
  obtain rfl | rfl := wide <;> rfl

private theorem IsWide.width_eq (wide : IsWide t) : width t = 8 := by
  obtain rfl | rfl := wide <;> rfl

/-- The integers of a type of 64 bits from which on rounding leaves the range. -/
def edge (t : DataType) : Int :=
  greatest t + 1 - if t.isSigned then 512 else 1024

private theorem natAbs_le_of_fits (wide : IsWide t) (fits : Fits t n) : n.natAbs ≤ twoTo 64 := by
  obtain ⟨low, high⟩ := fits.bounds wide.isInteger
  have half : (twoTo 63 : Int) ≤ twoTo 64 := by decide
  omega

private theorem rounded_cases {n i : Nat} (below : n < twoTo (54 + i)) :
    n + twoTo i < twoTo (54 + i) ∧ Number.rounded n < twoTo (54 + i) ∨
      twoTo (54 + i) ≤ n + twoTo i ∧ Number.rounded n = twoTo (54 + i) := by
  have most := Number.rounded_le_twoTo (Nat.le_of_lt below)
  have reached := Number.le_rounded_iff below
  omega

private theorem roundedInt_cases (wide : IsWide t) (fits : Fits t n) :
    n < edge t ∧ Fits t (Binary64.roundedInt n) ∨
      edge t ≤ n ∧ Binary64.roundedInt n = greatest t + 1 := by
  obtain ⟨low, high⟩ := fits
  obtain rfl | rfl := wide
  · have least : least .uint64 = 0 := rfl
    have greatest : greatest .uint64 = 18446744073709551615 := rfl
    have edge : edge .uint64 = 18446744073709550592 := rfl
    have limit : twoTo (54 + 10) = 18446744073709551616 := rfl
    have half : twoTo 10 = 1024 := rfl
    have cases := rounded_cases (n := n.natAbs) (i := 10) (by omega)
    have positive : ¬ n < 0 := by omega
    rw [Fits, Binary64.roundedInt, if_neg positive]
    omega
  · have least : least .int64 = -9223372036854775808 := rfl
    have greatest : greatest .int64 = 9223372036854775807 := rfl
    have edge : edge .int64 = 9223372036854775296 := rfl
    have limit : twoTo (54 + 9) = 9223372036854775808 := rfl
    have half : twoTo 9 = 512 := rfl
    rw [Fits, Binary64.roundedInt]
    by_cases negative : n < 0
    · -- The least integer is a power of two, so that no negative one leaves the range.
      have most := Number.rounded_le_twoTo (n := n.natAbs) (i := 9) (by omega)
      rw [if_pos negative]
      omega
    · have cases := rounded_cases (n := n.natAbs) (i := 9) (by omega)
      rw [if_neg negative]
      omega

end Wire

namespace Tree

variable {t : Tree} {id : Nat} {info : Info} {r : Register} {u : MeasureUnit} {payload : Payload}
  {n : Int}

def readingOf (n : Int) (u : MeasureUnit) : Value :=
  .quantity ⟨.ofInt n, u⟩

private theorem decode_wide (wide : Wire.IsWide r.dataType) (eight : payload.length = 8)
    (denoted : Wire.integerOfBytes r.dataType payload = n) :
    Wire.Fits r.dataType n ∧ Wire.integerBytes 8 n = payload ∧
      Wire.decode r.dataType payload = .ok (Wire.integerScalar r.dataType n) := by
  have integer := wide.isInteger
  have length : payload.length = Wire.width r.dataType := eight.trans wide.width_eq.symm
  obtain ⟨low, high⟩ := Wire.integerOfBytes_range integer length
  have bytes := Wire.integerBytes_integerOfBytes length
  rw [denoted] at low high bytes
  rw [wide.width_eq] at bytes
  refine ⟨⟨low, high⟩, bytes, ?_⟩
  rw [Wire.decode_eq_ok_iff (Wire.isFixedWidth_of_isInteger integer),
    Wire.decodeFixed_eq_integerScalar integer, denoted]
  exact ⟨length, rfl⟩

private theorem ofScalar_integerScalar (wide : Wire.IsWide r.dataType)
    (fits : Wire.Fits r.dataType n) (u : MeasureUnit) :
    Value.ofScalar (Wire.integerScalar r.dataType n) (some u) = readingOf n u := by
  have number := Wire.number?_integerScalar wide.isInteger fits.1 fits.2
  obtain ⟨m, form, -⟩ | ⟨m, form, -⟩ :=
    Wire.integerScalar_forms wide.isInteger fits.1 fits.2 <;>
  · rw [form] at number ⊢
    exact congrArg (fun x => Value.quantity ⟨x, u⟩) (Option.some.inj number)

private theorem write_reading (found : t.get? id = some ⟨info, .register r⟩)
    (wide : Wire.IsWide r.dataType) (fits : Wire.Fits r.dataType n) (unit : r.unit = some u)
    (number : u.factor.isNaN = false) (writable : r.access.setter.isSome = true) :
    t.write id (readingOf n u) = if Wire.Fits r.dataType (Binary64.roundedInt n)
      then .tell r.endpoint (Wire.integerBytes 8 (Binary64.roundedInt n))
      else .fail (.codec (.outOfRange (toString (Wire.clampWide (Binary64.roundedInt n)))
        r.dataType)) := by
  have whole := Binary64.isWhole_ofInt (Wire.natAbs_le_of_fits wide fits)
  have counts : (Value.scalar (.real (Binary64.ofInt n))).Counts (Binary64.roundedInt n) :=
    .real whole
  have encoded := Wire.encodeInteger_of_counts wide.isInteger counts
  rw [← Wire.encode_of_isInteger wide.isInteger, wide.width_eq] at encoded
  have scalar : Endpoint.writtenScalar (t.displayPath id) ⟨info, .register r⟩ (readingOf n u) =
      .ok (r.dataType, .real (.ofInt n)) := by
    simp only [Endpoint.writtenScalar, Endpoint.scalarOf, readingOf, Value.toScalar?, unit,
      Option.getD_some, Quantity.magnitudeIn_self whole.finite number]
    rfl
  rw [write, withEntity, found]
  simp only [Endpoint.write, Endpoint.writeMessage, Endpoint.writeAddress, writable, if_true,
    scalar, bind, Except.bind, encoded]
  by_cases stays : Wire.Fits r.dataType (Binary64.roundedInt n)
  · simp only [if_pos stays]
    rfl
  · simp only [if_neg stays]
    rfl

/-- A reading of 64 bits written back. Whatever 8 bytes a device answers, the integer of them is read
as a quantity. From the edge of the range on that quantity is refused, and before it is written as
the integer that it was rounded to. These are the bytes of the answer if, and only if, the integer has
no more than 53 significant bits. -/
theorem wide_reading_written_back (found : t.get? id = some ⟨info, .register r⟩)
    (wide : Wire.IsWide r.dataType) (unit : r.unit = some u) (number : u.factor.isNaN = false)
    (readable : r.access.getter.isSome = true) (writable : r.access.setter.isSome = true)
    (eight : payload.length = 8) (denoted : Wire.integerOfBytes r.dataType payload = n) :
    (∀ {σ : Type} (link : Transport σ) (s : σ), t.Answered link s id r.endpoint payload →
      ((t.read id).run link s).1 = .ok (readingOf n u)) ∧
    (Wire.edge r.dataType ≤ n → t.write id (readingOf n u) =
      .fail (.codec (.outOfRange (toString (Wire.greatest r.dataType + 1)) r.dataType))) ∧
    (n < Wire.edge r.dataType → ∃ k, (Binary64.ofInt n).IsWhole k ∧
      t.write id (readingOf n u) = .tell r.endpoint (Wire.integerBytes 8 k) ∧
        (Wire.integerBytes 8 k = payload ↔
          ∃ m e, m ≤ twoTo 53 ∧ n.natAbs = m * twoTo e)) := by
  obtain ⟨fits, bytes, decoded⟩ := decode_wide wide eight denoted
  have written := write_reading found wide fits unit number writable
  have cases := Wire.roundedInt_cases wide fits
  refine ⟨fun link s answered => ?_, fun beyond => ?_, fun inside => ?_⟩
  · have reached : (Entity.mk info (.register r)).readable? = some r.endpoint := if_pos readable
    refine (Action.run_exchange_eq_ok_iff (read_eq_exchange found reached)).mpr
      ⟨payload, (Endpoint.decodeValue_register rfl).mpr ⟨_, decoded, ?_⟩, answered⟩
    rw [unit]
    exact ofScalar_integerScalar wide fits u
  · obtain ⟨below, -⟩ | ⟨-, next⟩ := cases
    · omega
    · have clamped : Wire.clampWide (Wire.greatest r.dataType + 1) =
          Wire.greatest r.dataType + 1 := by
        obtain type | type := wide <;> rw [type] <;> decide
      have outside : ¬ Wire.Fits r.dataType (Wire.greatest r.dataType + 1) := by
        rw [Wire.Fits]
        omega
      rw [written, next, if_neg outside, clamped]
  · obtain ⟨-, stays⟩ | ⟨beyond, -⟩ := cases
    · have whole := Binary64.isWhole_ofInt (Wire.natAbs_le_of_fits wide fits)
      refine ⟨_, whole, by rw [written, if_pos stays], ?_⟩
      rw [← Binary64.roundedInt_eq_self_iff, ← bytes]
      constructor
      · intro same
        have integer := wide.isInteger
        have back := congrArg (Wire.integerOfBytes r.dataType) same
        rwa [← wide.width_eq, Wire.integerOfBytes_integerBytes integer stays.1 stays.2,
          Wire.integerOfBytes_integerBytes integer fits.1 fits.2] at back
      · intro same
        rw [same]
    · omega

def clockDocument : Json :=
  .object [("name", .string "clock"), ("remote_attributes", .array [
    .object [("name", .string "uptime"), ("dtype", .string "uint64"), ("unit", .string "second"),
      ("getter_name", .string "get_uptime"), ("setter_name", .string "set_uptime")]])]

/-- Twelve seconds are written as they were read. -/
theorem wide_reading_written_back_clock :
    ∃ t u, Schema.build clockDocument false = .ok t ∧ Registry.standard.parse "second" = .ok u ∧
      t.write 1 (readingOf 12 u) = .tell 1 [12, 0, 0, 0, 0, 0, 0, 0] := by
  have facts : ((Schema.build clockDocument false).toOption.map fun t =>
      (t.get? 1).any fun e => decide (e.kind = .register ∧ e.wireType? = some .uint64 ∧
        e.access.getter.isSome = true ∧ e.access.setter.isSome = true ∧ e.endpoint? = some 1 ∧
        e.unit?.isSome = true ∧ e.unit? = (Registry.standard.parse "second").toOption ∧
        e.unit?.all (fun u => !u.factor.isNaN) = true)) = some true := by
    decide +kernel
  cases built : Schema.build clockDocument false with
  | error e => simp [built, Except.toOption] at facts
  | ok t =>
    rw [built] at facts
    obtain ⟨⟨info, body⟩, found, place⟩ := (Option.any_eq_true _ _).mp (Option.some.inj facts)
    obtain ⟨kind, type, readable, writable, address, filled, parsed, number⟩ :=
      of_decide_eq_true place
    cases body with
    | node | function | selector | bitmask => cases kind
    | register r =>
      have type : r.dataType = .uint64 := Option.some.inj type
      have address : r.endpoint = 1 := Option.some.inj address
      obtain ⟨u, unit⟩ := Option.isSome_iff_exists.mp filled
      rw [unit] at parsed number
      have eight : ([12, 0, 0, 0, 0, 0, 0, 0] : Payload).length = 8 := rfl
      obtain ⟨-, -, inside⟩ := wide_reading_written_back found (.inl type) unit
        (by simpa using number) readable writable eight rfl
      rw [type] at inside
      obtain ⟨k, -, written, same⟩ := inside (by decide)
      have kept := same.mpr ⟨12, 0, by decide, by decide⟩
      rw [kept, address] at written
      exact ⟨t, u, rfl, toOption_eq_some_iff.mp parsed.symm, written⟩

def clockLink : Transport MemoryLink :=
  MemoryLink.transport .standardTimeout

def clockAt (answer : Payload) : MemoryLink :=
  { stored := [(1, answer)] }

/-- The last count of seconds is read, but its reading is refused; and the first one with 54
significant bits is written as its neighbour. -/
theorem wide_reading_is_rounded :
    ∃ t last long s, Schema.build clockDocument false = .ok t ∧ t.violations = [] ∧
      ((t.read 1).run clockLink (clockAt (List.replicate 8 255))).1 = .ok last ∧
      ((t.write 1 last).run clockLink {}).1 =
        .error (.codec (.outOfRange "18446744073709551616" .uint64)) ∧
      ((t.write 1 last).run clockLink {}).2.sent = [] ∧
      ((t.read 1).run clockLink (clockAt [1, 0, 0, 0, 0, 0, 32, 0])).1 = .ok long ∧
      (t.write 1 long).run clockLink {} = (.ok (), s) ∧
      s.sent = [(1, [0, 0, 0, 0, 0, 0, 32, 0])] := by
  have facts : ((Schema.build clockDocument false).toOption.map fun t =>
      decide (t.violations = [] ∧
        ((t.read 1).run clockLink (clockAt (List.replicate 8 255))).1.toOption.any (fun last =>
          decide (((t.write 1 last).run clockLink {}).1 =
              .error (.codec (.outOfRange "18446744073709551616" .uint64)) ∧
            ((t.write 1 last).run clockLink {}).2.sent = [])) = true ∧
        ((t.read 1).run clockLink (clockAt [1, 0, 0, 0, 0, 0, 32, 0])).1.toOption.any (fun long =>
          decide (((t.write 1 long).run clockLink {}).1.toOption = some () ∧
            ((t.write 1 long).run clockLink {}).2.sent =
              [(1, [0, 0, 0, 0, 0, 0, 32, 0])])) = true)) = some true := by
    decide +kernel
  cases built : Schema.build clockDocument false with
  | error e => simp [built, Except.toOption] at facts
  | ok t =>
    rw [built] at facts
    obtain ⟨valid, refused, moved⟩ := of_decide_eq_true (Option.some.inj facts)
    obtain ⟨last, read, refused⟩ := (Option.any_eq_true _ _).mp refused
    obtain ⟨long, read', moved⟩ := (Option.any_eq_true _ _).mp moved
    obtain ⟨failed, silent⟩ := of_decide_eq_true refused
    obtain ⟨ended, sent⟩ := of_decide_eq_true moved
    exact ⟨t, last, long, _, rfl, valid, toOption_eq_some_iff.mp read, failed, silent,
      toOption_eq_some_iff.mp read', Prod.ext (toOption_eq_some_iff.mp ended) rfl, sent⟩

end Tree

end DeviceLink
