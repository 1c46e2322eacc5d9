import DeviceLink.Proofs.Device.Bytes
import DeviceLink.Proofs.Wire.Counts

/-!
What a written value denotes. `Denotes` says for each kind of endpoint which value the host should
read after a write, in terms of the value that was written and not of the bytes between. The message
of a write is decoded as such a value (`Endpoint.renders_of_meant`).
-/

set_option autoImplicit false
set_option relaxedAutoImplicit false

namespace DeviceLink

open Number (Binary64 twoTo)
open Wire (Payload)

namespace Value

/-- The option that a value is, names or numbers. -/
inductive Picks : Value → OptionValue → Prop
  | option (o : OptionValue) : Picks (.option o) o
  | name (o : OptionValue) : Picks (.scalar (.text o.name)) o
  | signed {n : Int64} {o : OptionValue} : (o.index.toNat : Int) = n.toInt →
      Picks (.scalar (.signed n)) o
  | unsigned {n : UInt64} {o : OptionValue} : o.index.toNat = n.toNat →
      Picks (.scalar (.unsigned n)) o

end Value

/-- What an endpoint with a content shows after a value was written. Of the names that are given,
the flags among the first 64 count. -/
inductive Denotes : Body → Value → Value → Prop
  | option {s : Selector} {value : Value} {o : OptionValue} :
      o ∈ s.options.values → value.Picks o → Denotes (.selector s) value (.option o)
  | flags (b : Bitmask) (given : List String) :
      Denotes (.bitmask b) (.flags given) (.flags ((b.flags.names.take 64).filter given.contains))
  | words (b : Bitmask) (source : String) : Denotes (.bitmask b) (.scalar (.text source))
      (.flags ((b.flags.names.take 64).filter (Text.words source).contains))
  | bits (b : Bitmask) (n : UInt64) : Denotes (.bitmask b) (.scalar (.unsigned n))
      (.flags ((b.flags.names.zipIdx.filter fun flag => n.toNat.testBit flag.2).map (·.1)))
  | whole {r : Register} {value : Value} {held : Scalar} {n : Int} :
      r.dataType.isInteger = true → r.unit = none → value.Counts n → held.Holds n →
      Denotes (.register r) value (.scalar held)
  | truth {r : Register} {scalar : Scalar} {n : Int} :
      r.dataType = .bool → (Value.scalar scalar).Counts n →
      Denotes (.register r) (.scalar scalar) (.scalar (.bool (decide (n ≠ 0))))
  | double {r : Register} {u : MeasureUnit} (x : Binary64) :
      r.dataType = .double → r.unit = some u →
      Denotes (.register r) (.scalar (.real x)) (.quantity ⟨x, u⟩)
  | float {r : Register} {u : MeasureUnit} {x y : Binary64} :
      r.dataType = .float → r.unit = some u → x.Single y →
      Denotes (.register r) (.scalar (.real x)) (.quantity ⟨y, u⟩)

/-- The values whose meaning is fixed for an endpoint: all of them for options, flags and whole
numbers without a unit; truth values and whole numbers for truth values; and numbers for real
numbers with a unit. -/
inductive Meant : Body → Value → Prop
  | selector (s : Selector) (value : Value) : Meant (.selector s) value
  | bitmask (b : Bitmask) (value : Value) : Meant (.bitmask b) value
  | whole {r : Register} (value : Value) :
      r.dataType.isInteger = true → r.unit = none → Meant (.register r) value
  | bool {r : Register} (b : Bool) : r.dataType = .bool → Meant (.register r) (.scalar (.bool b))
  | signed {r : Register} (n : Int64) :
      r.dataType = .bool → Meant (.register r) (.scalar (.signed n))
  | unsigned {r : Register} (n : UInt64) :
      r.dataType = .bool → Meant (.register r) (.scalar (.unsigned n))
  | real {r : Register} {u : MeasureUnit} {x : Binary64} : r.dataType.isFloat = true →
      r.unit = some u → x.isNaN = false → Meant (.register r) (.scalar (.real x))

namespace Endpoint

variable {path : String} {e : Entity} {value : Value} {address : EndpointId} {payload : Payload}

/-- What is sent is not empty and is decoded as what the value denotes. -/
def Renders (path : String) (e : Entity) (value : Value) (payload : Payload) : Prop :=
  payload ≠ [] ∧ ∃ v, decodeValue path e payload = .ok v ∧ Denotes e.body value v

/-! Options and flags. -/

private theorem picks_of_choiceOf? {choice : Choice} {o : OptionValue}
    (made : choiceOf? value = some choice) (chosen : choice.Chooses o) : value.Picks o := by
  cases value with
  | void | quantity | flags => simp [choiceOf?] at made
  | option v =>
    obtain rfl := Option.some.inj made
    obtain rfl : o = v := chosen
    exact .option o
  | scalar scalar =>
    cases scalar with
    | bool | real => simp [choiceOf?] at made
    | text s =>
      obtain rfl := Option.some.inj made
      obtain rfl : o.name = s := chosen
      exact .name o
    | signed n =>
      obtain rfl := Option.some.inj made
      exact .signed chosen
    | unsigned n =>
      obtain rfl := Option.some.inj made
      -- A greater number is cut at a bound that is no byte, and so chooses nothing.
      have number : (o.index.toNat : Int) = (min n.toNat greatestChoice : Nat) := chosen
      have small : o.index.toNat < 256 := o.index.toNat_lt
      have bound : 256 ≤ greatestChoice := by decide
      exact .unsigned (by omega)

private theorem renders_selector {s : Selector} (body : e.body = .selector s)
    (message : writeMessage path e value = .ok (address, payload)) :
    Renders path e value payload := by
  obtain ⟨-, -, choice, b, made, encoded, rfl⟩ := (writeMessage_selector body).mp message
  obtain ⟨o, member, decoded, chosen⟩ := Options.decode_of_encode encoded
  refine ⟨by simp, .option o, (decodeValue_selector body).mpr ⟨b, o, rfl, decoded, rfl⟩, ?_⟩
  rw [body]
  exact .option member (picks_of_choiceOf? made chosen)

private theorem renders_bitmask {b : Bitmask} (body : e.body = .bitmask b)
    (plain : b.flags.defaultName = none)
    (message : writeMessage path e value = .ok (address, payload)) :
    Renders path e value payload := by
  obtain ⟨-, -, bits, set, small, rfl⟩ := (writeMessage_bitmask body).mp message
  have byte : (UInt8.ofNat bits.toNat).toUInt64 = bits := by
    refine UInt64.toNat_inj.mp ?_
    rw [UInt8.toNat_toUInt64, UInt8.toNat_ofNat_of_lt' small]
  refine ⟨by simp, _, (decodeValue_bitmask body).mpr ⟨_, rfl, rfl⟩, ?_⟩
  rw [body, byte, Flags.decode_of_plain plain]
  have given (names : List String) (same : b.flags.encode names = bits) :
      Flags.namesOf b.flags.names bits.toNat = (b.flags.names.take 64).filter names.contains := by
    rw [← same, Flags.toNat_encode, Flags.namesOf_bitsOf]
  cases value with
  | void | quantity | option => simp [bitsOf?] at set
  | flags names =>
    rw [given names (Option.some.inj set)]
    exact .flags b names
  | scalar scalar =>
    cases scalar with
    | bool | signed | real => simp [bitsOf?] at set
    | text source =>
      rw [given (Text.words source) (Option.some.inj set)]
      exact .words b source
    | unsigned n =>
      obtain rfl := Option.some.inj set
      rw [Flags.namesOf_eq_filter]
      exact .bits b n

/-! Registers. -/

variable {r : Register}

theorem exists_scalar_of_writeMessage (body : e.body = .register r)
    (message : writeMessage path e value = .ok (address, payload)) :
    ∃ scalar, value.toScalar? r.unit = .ok (some scalar) ∧
      Wire.encode r.dataType scalar = .ok payload := by
  obtain ⟨t, scalar, -, written, encoded⟩ := writeMessage_eq_ok_iff.mp message
  rw [writtenScalar, body] at written
  obtain ⟨sent, made, same⟩ := bind_eq_ok_iff.mp written
  obtain ⟨rfl, rfl⟩ := Prod.mk.inj (Except.ok.inj same)
  obtain ⟨found, reduced, shape⟩ := bind_eq_ok_iff.mp made
  cases found with
  | none => cases shape
  | some scalar =>
    obtain rfl := Except.ok.inj shape
    exact ⟨scalar, mapError_eq_ok_iff.mp reduced, encoded⟩

private theorem renders_of_decode (body : e.body = .register r) {scalar : Scalar}
    (filled : payload ≠ []) (decoded : Wire.decode r.dataType payload = .ok scalar)
    (denoted : Denotes (.register r) value (.ofScalar scalar r.unit)) :
    Renders path e value payload := by
  refine ⟨filled, _, (decodeValue_register body).mpr ⟨scalar, decoded, rfl⟩, ?_⟩
  rw [body]
  exact denoted

end Endpoint

namespace Endpoint

variable {path : String} {e : Entity} {value : Value} {address : EndpointId} {payload : Payload}
  {r : Register}

private theorem counts_of_toScalar? {t : DataType} {scalar : Scalar} {n : Int}
    (reduced : value.toScalar? none = .ok (some scalar)) (number : Wire.integerOf t scalar = .ok n)
    (low : -(twoTo 63 : Int) ≤ n) (high : n < twoTo 64) : value.Counts n := by
  cases value with
  | void | flags => simp [Value.toScalar?] at reduced
  | scalar given =>
    obtain rfl := Option.some.inj (Except.ok.inj reduced)
    exact Wire.counts_of_integerOf number low high
  | option o =>
    obtain rfl := Option.some.inj (Except.ok.inj reduced)
    obtain rfl := Except.ok.inj number
    rw [UInt8.toNat_toUInt64]
    exact .option o
  | quantity q =>
    obtain ⟨x, converted, same⟩ := map_eq_ok_iff.mp reduced
    obtain rfl := Option.some.inj same
    exact .quantity converted (Wire.isWhole_of_integerOf number low high)

private theorem renders_whole (body : e.body = .register r) (integer : r.dataType.isInteger = true)
    (unitless : r.unit = none) (message : writeMessage path e value = .ok (address, payload)) :
    Renders path e value payload := by
  obtain ⟨scalar, reduced, encoded⟩ := exists_scalar_of_writeMessage body message
  rw [unitless] at reduced
  obtain ⟨n, number, low, high, decoded⟩ := Wire.exists_integer_of_encode integer encoded
  obtain ⟨least, greatest, -, -⟩ := Wire.bounds_of_isInteger integer
  have counts := counts_of_toScalar? reduced number (by omega) (by omega)
  have filled := Wire.ne_nil_of_encode (Wire.isFixedWidth_of_isInteger integer) encoded
  refine renders_of_decode body filled decoded ?_
  have plain : Value.ofScalar (Wire.integerScalar r.dataType n) r.unit =
      .scalar (Wire.integerScalar r.dataType n) := by
    rw [unitless]
    cases Wire.integerScalar r.dataType n <;> rfl
  rw [plain]
  exact .whole integer unitless counts (Wire.holds_integerScalar integer low high)

private theorem renders_truth {scalar : Scalar} {n : Int} (body : e.body = .register r)
    (truth : r.dataType = .bool) (counts : (Value.scalar scalar).Counts n)
    (encoded : Wire.encode .bool scalar = .ok [if n = 0 then 0 else 1]) {payload : Payload}
    (message : writeMessage path e (.scalar scalar) = .ok (address, payload)) :
    Renders path e (.scalar scalar) payload := by
  obtain ⟨sent, reduced, sending⟩ := exists_scalar_of_writeMessage body message
  obtain rfl := Option.some.inj (Except.ok.inj reduced)
  rw [truth, encoded] at sending
  obtain rfl := Except.ok.inj sending
  have decoded : Wire.decode r.dataType [if n = 0 then 0 else 1] =
      .ok (.bool (decide (n ≠ 0))) := by
    rw [truth, Wire.decode_eq_ok_iff rfl]
    refine ⟨rfl, ?_⟩
    by_cases zero : n = 0 <;> simp [zero, Wire.decodeFixed, Wire.ofLittleEndian]
  refine renders_of_decode body (by simp) decoded ?_
  have plain : Value.ofScalar (.bool (decide (n ≠ 0))) r.unit =
      .scalar (.bool (decide (n ≠ 0))) := by
    cases r.unit <;> rfl
  rw [plain]
  exact .truth truth counts

end Endpoint

namespace Endpoint

variable {path : String} {e : Entity} {value : Value} {address : EndpointId} {payload : Payload}
  {r : Register}

private theorem renders_real {u : MeasureUnit} {x : Binary64} (body : e.body = .register r)
    (float : r.dataType.isFloat = true) (unit : r.unit = some u) (number : x.isNaN = false)
    (message : writeMessage path e (.scalar (.real x)) = .ok (address, payload)) :
    Renders path e (.scalar (.real x)) payload := by
  obtain ⟨sent, reduced, encoded⟩ := exists_scalar_of_writeMessage body message
  obtain rfl := Option.some.inj (Except.ok.inj reduced)
  have measured (y : Binary64) : Value.ofScalar (.real y) r.unit = .quantity ⟨y, u⟩ := by
    rw [unit]
    rfl
  have fixed : r.dataType.isFixedWidth = true := by
    cases t : r.dataType <;> simp_all [DataType.isFloat, DataType.isFixedWidth, DataType.isVoid,
      DataType.isString]
  have filled := Wire.ne_nil_of_encode fixed encoded
  cases t : r.dataType with
  | double =>
    rw [t] at encoded
    obtain rfl : Wire.littleEndian 8 x.bits.toNat = payload := Except.ok.inj encoded
    refine renders_of_decode body filled (by rw [t]; exact Wire.decode_double x) ?_
    rw [measured]
    exact .double x t unit
  | float =>
    rw [t] at encoded
    obtain ⟨y, single, decoded⟩ := Wire.decode_single number encoded
    refine renders_of_decode body filled (by rw [t]; exact decoded) ?_
    rw [measured]
    exact .float t unit single
  | void | bool | uint8 | int8 | uint16 | int16 | uint32 | int32 | uint64 | int64 | string =>
    simp [t, DataType.isFloat] at float

theorem renders_of_meant (meant : Meant e.body value)
    (plain : ∀ b, e.body = .bitmask b → b.flags.defaultName = none)
    (message : writeMessage path e value = .ok (address, payload)) :
    Renders path e value payload := by
  generalize body : e.body = content at meant
  cases meant with
  | selector s => exact renders_selector body message
  | bitmask b => exact renders_bitmask body (plain b body) message
  | whole value integer unitless => exact renders_whole body integer unitless message
  | bool b truth => exact renders_truth body truth (.bool b) (by cases b <;> rfl) message
  | signed n truth => exact renders_truth body truth (.signed n) rfl message
  | unsigned n truth => exact renders_truth body truth (.unsigned n) rfl message
  | real float unit number => exact renders_real body float unit number message

end Endpoint

end DeviceLink
