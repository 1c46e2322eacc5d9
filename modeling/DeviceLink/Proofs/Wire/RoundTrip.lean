import DeviceLink.Proofs.Number.Exactness
import DeviceLink.Proofs.Wire.Codec

/-!
Payloads there and back. What was decoded from a payload can be encoded again, and is decoded as the
same value from the new payload (`exists_encode_of_decode`), although the two payloads may differ.
Integers of at most 32 bits may take the way through binary64 (`exists_number_of_decode`).
-/

set_option autoImplicit false
set_option relaxedAutoImplicit false

namespace DeviceLink

open Number (Binary64 twoTo)

def DataType.isInteger (t : DataType) : Bool :=
  t.isFixedWidth && !t.isFloat && t != .bool

namespace Wire

private theorem twoTo_bits (width : Nat) : twoTo (8 * (width + 1)) = 256 * twoTo (8 * width) := by
  rw [Nat.mul_succ, Nat.add_comm, Number.twoTo_add]
  rfl

/-! Bytes and the numbers that they denote. -/

theorem ofLittleEndian_lt (bytes : Payload) : ofLittleEndian bytes < twoTo (8 * bytes.length) := by
  induction bytes with
  | nil => decide
  | cons b rest ih =>
    have byte : b.toNat < 256 := b.toNat_lt
    rw [ofLittleEndian, List.length_cons, twoTo_bits]
    omega

theorem ofLittleEndian_littleEndian {width n : Nat} (small : n < twoTo (8 * width)) :
    ofLittleEndian (littleEndian width n) = n := by
  induction width generalizing n with
  | zero =>
    have : n < 1 := small
    rw [littleEndian, ofLittleEndian]
    omega
  | succ width ih =>
    rw [twoTo_bits] at small
    have byte : (UInt8.ofNat (n % 256)).toNat = n % 256 := by
      rw [UInt8.toNat_ofNat']
      omega
    rw [littleEndian, ofLittleEndian, ih (by omega), byte]
    omega

private theorem littleEndian_ofLittleEndian (bytes : Payload) :
    littleEndian bytes.length (ofLittleEndian bytes) = bytes := by
  induction bytes with
  | nil => rfl
  | cons b rest ih =>
    have byte : b.toNat < 256 := b.toNat_lt
    have first : (b.toNat + 256 * ofLittleEndian rest) % 256 = b.toNat := by omega
    have others : (b.toNat + 256 * ofLittleEndian rest) / 256 = ofLittleEndian rest := by omega
    rw [List.length_cons, littleEndian, ofLittleEndian, first, others, ih, UInt8.ofNat_toNat]

variable {t : DataType} {n : Int}

def integerScalar (t : DataType) (n : Int) : Scalar :=
  if t.isSigned then .signed (Int64.ofInt n) else .unsigned (UInt64.ofNat n.toNat)

private theorem ofLittleEndian_integerBytes {width : Nat} (low : 0 ≤ n)
    (high : n < twoTo (8 * width)) : ofLittleEndian (integerBytes width n) = n.toNat := by
  rw [integerBytes, Int.emod_eq_of_lt low high]
  exact ofLittleEndian_littleEndian (by omega)

private theorem signedOf_integerBytes {width : Nat} (positive : 0 < width)
    (low : -(twoTo (8 * width - 1) : Int) ≤ n) (high : n < twoTo (8 * width - 1)) :
    signedOf (integerBytes width n) = n := by
  have double : twoTo (8 * width) = 2 * twoTo (8 * width - 1) := by
    rw [← Number.twoTo_succ]
    exact congrArg twoTo (by omega)
  have residue : n % twoTo (8 * width) = if n < 0 then n + twoTo (8 * width) else n := by
    split
    · rw [← Int.add_emod_right, Int.emod_eq_of_lt (by omega) (by omega)]
    · exact Int.emod_eq_of_lt (by omega) (by omega)
  have small : (n % twoTo (8 * width)).toNat < twoTo (8 * width) := by
    rw [residue]
    split <;> omega
  rw [signedOf, integerBytes, ofLittleEndian_littleEndian small, length_littleEndian, residue]
  split <;> split <;> omega

/-! Integer types. -/

def integerOfBytes (t : DataType) (bytes : Payload) : Int :=
  if t.isSigned then signedOf bytes else ofLittleEndian bytes

theorem decode_eq_ok_iff {payload : Payload} {value : Scalar} (fixed : t.isFixedWidth = true) :
    decode t payload = .ok value ↔ payload.length = width t ∧ decodeFixed t payload = value := by
  have plain : t.isVoid = false := by
    cases t <;> simp_all [DataType.isFixedWidth, DataType.isVoid]
  obtain ⟨size, same⟩ : ∃ size, t.size? = some size := by
    cases t <;> simp_all [DataType.isFixedWidth, DataType.isString, DataType.size?]
  simp only [decode, same, plain, width, Bool.false_eq_true, if_false, Option.getD_some]
  split <;> simp [*]

theorem isFixedWidth_of_isInteger (h : t.isInteger = true) : t.isFixedWidth = true := by
  simp only [DataType.isInteger, Bool.and_eq_true] at h
  exact h.1.1

theorem width_pos (h : t.isFixedWidth = true) : 0 < width t := by
  cases t <;> first | exact absurd h (by decide) | decide

theorem decodeFixed_eq_integerScalar (integer : t.isInteger = true) (bytes : Payload) :
    decodeFixed t bytes = integerScalar t (integerOfBytes t bytes) := by
  cases t <;> first | exact absurd integer (by decide) | rfl

theorem integerOfBytes_integerBytes (integer : t.isInteger = true) (low : least t ≤ n)
    (high : n ≤ greatest t) : integerOfBytes t (integerBytes (width t) n) = n := by
  have positive := width_pos (isFixedWidth_of_isInteger integer)
  rw [integerOfBytes]
  rw [least] at low
  rw [greatest] at high
  split at low
  · rename_i signed
    rw [if_pos signed] at high ⊢
    exact signedOf_integerBytes positive low (by omega)
  · rename_i signed
    rw [if_neg signed] at high ⊢
    rw [ofLittleEndian_integerBytes low (by omega)]
    omega

theorem integerBytes_integerOfBytes {bytes : Payload} (length : bytes.length = width t) :
    integerBytes (width t) (integerOfBytes t bytes) = bytes := by
  have small := ofLittleEndian_lt bytes
  rw [length] at small
  have plain : (ofLittleEndian bytes : Int) % twoTo (8 * width t) = ofLittleEndian bytes :=
    Int.emod_eq_of_lt (by omega) (by omega)
  -- The sign moves the number by the modulus, which the residue does not see.
  have residue : integerOfBytes t bytes % twoTo (8 * width t) = ofLittleEndian bytes := by
    rw [integerOfBytes]
    split
    · simp only [signedOf, length]
      split
      · exact plain
      · rw [Int.sub_emod_right]
        exact plain
    · exact plain
  rw [integerBytes, residue, Int.toNat_natCast, ← length, littleEndian_ofLittleEndian]

theorem integerOfBytes_range {bytes : Payload} (integer : t.isInteger = true)
    (length : bytes.length = width t) :
    least t ≤ integerOfBytes t bytes ∧ integerOfBytes t bytes ≤ greatest t := by
  have positive := width_pos (isFixedWidth_of_isInteger integer)
  have small := ofLittleEndian_lt bytes
  have double : twoTo (8 * width t) = 2 * twoTo (8 * width t - 1) := by
    rw [← Number.twoTo_succ]
    exact congrArg twoTo (by omega)
  rw [length] at small
  rw [integerOfBytes, least, greatest]
  split
  · simp only [signedOf, length]
    split <;> omega
  · omega

theorem decode_integerBytes (integer : t.isInteger = true) (low : least t ≤ n)
    (high : n ≤ greatest t) : decode t (integerBytes (width t) n) = .ok (integerScalar t n) := by
  rw [decode_eq_ok_iff (isFixedWidth_of_isInteger integer), decodeFixed_eq_integerScalar integer,
    integerOfBytes_integerBytes integer low high]
  exact ⟨length_littleEndian _ _, rfl⟩

private theorem exists_integerScalar {payload : Payload} {value : Scalar}
    (integer : t.isInteger = true) (h : decode t payload = .ok value) :
    ∃ n, least t ≤ n ∧ n ≤ greatest t ∧ value = integerScalar t n := by
  obtain ⟨length, rfl⟩ := (decode_eq_ok_iff (isFixedWidth_of_isInteger integer)).mp h
  obtain ⟨low, high⟩ := integerOfBytes_range integer length
  exact ⟨_, low, high, decodeFixed_eq_integerScalar integer payload⟩

theorem bounds_of_isInteger (integer : t.isInteger = true) :
    -(twoTo 63 : Int) ≤ least t ∧ greatest t < twoTo 64 ∧
      (t.isSigned = true → greatest t < twoTo 63) ∧ (t.isSigned = false → least t = 0) := by
  cases t <;> first | exact absurd integer (by decide) | decide

theorem integerScalar_forms (integer : t.isInteger = true) (low : least t ≤ n)
    (high : n ≤ greatest t) :
    (∃ m : Int64, integerScalar t n = .signed m ∧ m.toInt = n) ∨
      ∃ m : UInt64, integerScalar t n = .unsigned m ∧ (m.toNat : Int) = n := by
  obtain ⟨least, greatest, signed, unsigned⟩ := bounds_of_isInteger integer
  have half : (twoTo 63 : Int) = 2 ^ 63 := rfl
  have whole : twoTo 64 = 2 ^ 64 := rfl
  rw [integerScalar]
  split
  · rename_i sign
    have bound := signed sign
    exact Or.inl ⟨_, rfl, Int64.toInt_ofInt_of_le (by omega) (by omega)⟩
  · rename_i sign
    have bound := unsigned (Bool.eq_false_of_not_eq_true sign)
    have value : (UInt64.ofNat n.toNat).toNat = n.toNat :=
      UInt64.toNat_ofNat_of_lt' (by rw [UInt64.size]; omega)
    exact Or.inr ⟨_, rfl, by omega⟩

private theorem integerOf_integerScalar (integer : t.isInteger = true) (low : least t ≤ n)
    (high : n ≤ greatest t) (t' : DataType) : integerOf t' (integerScalar t n) = .ok n := by
  rcases integerScalar_forms integer low high with ⟨m, form, value⟩ | ⟨m, form, value⟩ <;>
    rw [form, integerOf, value]

theorem number?_integerScalar (integer : t.isInteger = true) (low : least t ≤ n)
    (high : n ≤ greatest t) : (integerScalar t n).number? = some (.ofInt n) := by
  rcases integerScalar_forms integer low high with ⟨m, form, value⟩ | ⟨m, form, value⟩
  · rw [form, Scalar.number?, value]
  · rw [form, Scalar.number?, ← Binary64.ofInt_natCast, value]

private theorem toJson_integerScalar (integer : t.isInteger = true) (low : least t ≤ n)
    (high : n ≤ greatest t) : (integerScalar t n).toJson = .integer n := by
  rcases integerScalar_forms integer low high with ⟨m, form, value⟩ | ⟨m, form, value⟩ <;>
    rw [form, Scalar.toJson, value]

private theorem exists_ofJson?_integer (low : -(twoTo 63 : Int) ≤ n) (high : n < twoTo 64) :
    ∃ value, Scalar.ofJson? (.integer n) = some value ∧ ∀ t', integerOf t' value = .ok n := by
  have half : (twoTo 63 : Int) = 2 ^ 63 := rfl
  have whole : twoTo 64 = 2 ^ 64 := rfl
  by_cases sign : 0 ≤ n
  · have value : (UInt64.ofNat n.toNat).toNat = n.toNat :=
      UInt64.toNat_ofNat_of_lt' (by rw [UInt64.size]; omega)
    refine ⟨_, if_pos sign, fun t' => ?_⟩
    rw [integerOf, value]
    exact congrArg _ (by omega)
  · refine ⟨_, if_neg sign, fun t' => ?_⟩
    rw [integerOf, Int64.toInt_ofInt_of_le (by omega) (by omega)]

/-! Encoding what was decoded. -/

variable {payload : Payload} {value other : Scalar}

theorem encode_of_isInteger (integer : t.isInteger = true) (value : Scalar) :
    encode t value = encodeInteger t value := by
  cases t <;> first | exact absurd integer (by decide) | rfl

private theorem encode_congr_integerOf (integer : t.isInteger = true)
    (same : integerOf t other = integerOf t value) : encode t other = encode t value := by
  rw [encode_of_isInteger integer, encode_of_isInteger integer, encodeInteger, encodeInteger, same]

theorem encode_integerScalar (integer : t.isInteger = true) (low : least t ≤ n)
    (high : n ≤ greatest t) :
    encode t (integerScalar t n) = .ok (integerBytes (width t) n) := by
  rw [encode_of_isInteger integer, encodeInteger, integerOf_integerScalar integer low high]
  exact if_pos (by simp [low, high])

end Wire

def Scalar.isFinite : Scalar → Bool
  | .real x => x.isFinite
  | _ => true

namespace Wire

variable {t : DataType} {payload : Payload} {value : Scalar} {n : Int}

theorem exists_encode_of_decode (fixed : t.isFixedWidth = true) (h : decode t payload = .ok value)
    (finite : value.isFinite = true) :
    ∃ payload', encode t value = .ok payload' ∧ decode t payload' = .ok value := by
  by_cases integer : t.isInteger = true
  · obtain ⟨n, low, high, rfl⟩ := exists_integerScalar integer h
    exact ⟨_, encode_integerScalar integer low high, decode_integerBytes integer low high⟩
  · obtain ⟨length, rfl⟩ := (decode_eq_ok_iff fixed).mp h
    cases t with
    | void | string => cases fixed
    | uint8 | int8 | uint16 | int16 | uint32 | int32 | uint64 | int64 =>
      exact absurd rfl integer
    | bool =>
      refine ⟨_, rfl, (decode_eq_ok_iff fixed).mpr ⟨rfl, ?_⟩⟩
      simp only [decodeFixed]
      cases ofLittleEndian payload != 0 <;> rfl
    | float =>
      generalize bits : UInt32.ofNat (ofLittleEndian payload) = b
      have number : (Binary64.ofBinary32 b).isFinite = true := by
        rw [← bits]
        exact finite
      have single := Binary64.isFinite32_of_isFinite number
      have same := Binary64.toBinary32_ofBinary32 single
      have sent : encode .float (decodeFixed .float payload) = .ok (littleEndian 4 b.toNat) := by
        simp [decodeFixed, bits, encode, numberOf, Scalar.number?, encodeSingle, same, single,
          bind, Except.bind]
      refine ⟨_, sent, (decode_eq_ok_iff fixed).mpr ⟨length_littleEndian _ _, ?_⟩⟩
      simp only [decodeFixed, bits]
      rw [ofLittleEndian_littleEndian b.toNat_lt, UInt32.ofNat_toNat]
    | double =>
      generalize bits : UInt64.ofNat (ofLittleEndian payload) = b
      have sent : encode .double (decodeFixed .double payload) = .ok (littleEndian 8 b.toNat) := by
        simp [decodeFixed, bits, encode, numberOf, Scalar.number?, Except.map]
      refine ⟨_, sent, (decode_eq_ok_iff fixed).mpr ⟨length_littleEndian _ _, ?_⟩⟩
      simp only [decodeFixed, bits]
      rw [ofLittleEndian_littleEndian b.toNat_lt, UInt64.ofNat_toNat]

theorem width_le_of_isInteger (integer : t.isInteger = true) (unsigned : t ≠ .uint64)
    (signed : t ≠ .int64) : width t ≤ 4 := by
  cases t <;> first
    | exact absurd integer (by decide)
    | exact absurd rfl unsigned
    | exact absurd rfl signed
    | decide

private theorem narrow_bounds (integer : t.isInteger = true) (narrow : width t ≤ 4) :
    -(twoTo 31 : Int) ≤ least t ∧ greatest t < twoTo 32 := by
  cases t <;> first | exact absurd integer (by decide) | exact absurd narrow (by decide) | decide

theorem clampWide_eq (low : -(twoTo 64 : Int) ≤ n) (high : n < twoTo 64) : clampWide n = n := by
  have whole : (twoTo 64 : Int) = 2 ^ 64 := rfl
  have bound : (twoTo 127 : Int) = 2 ^ 127 := rfl
  simp only [clampWide, bound]
  split
  · omega
  · split <;> omega

theorem textless_of_decode (fixed : t.isFixedWidth = true) (h : decode t payload = .ok value)
    (s : String) : value ≠ .text s := by
  obtain ⟨-, rfl⟩ := (decode_eq_ok_iff fixed).mp h
  cases t <;> simp [decodeFixed]

theorem exists_number_of_decode (fixed : t.isFixedWidth = true) (truth : t ≠ .bool)
    (narrow : t.isInteger = true → width t ≤ 4) (h : decode t payload = .ok value) :
    ∃ x, value.number? = some x ∧ (∀ b, value ≠ .bool b) ∧ (x.isFinite = true →
      value.isFinite = true ∧ encode t (.real x) = encode t value) := by
  by_cases integer : t.isInteger = true
  · obtain ⟨n, low, high, rfl⟩ := exists_integerScalar integer h
    obtain ⟨least, greatest⟩ := narrow_bounds integer (narrow integer)
    have half : (twoTo 31 : Int) = 2 ^ 31 := rfl
    have whole : (twoTo 32 : Int) = 2 ^ 32 := rfl
    have few : n.natAbs ≤ twoTo 53 := by
      have : twoTo 53 = 2 ^ 53 := rfl
      omega
    have wide : (twoTo 64 : Int) = 2 ^ 64 := rfl
    have clamped : clampWide n = n := clampWide_eq (by omega) (by omega)
    refine ⟨_, number?_integerScalar integer low high, ?_, fun _ => ⟨?_, ?_⟩⟩
    · intro b
      rw [integerScalar]
      split <;> simp
    · rw [integerScalar]
      split <;> rfl
    · refine encode_congr_integerOf integer ?_
      rw [integerOf_integerScalar integer low high, integerOf, Binary64.whole?_ofInt few]
      exact congrArg _ clamped
  · obtain ⟨length, rfl⟩ := (decode_eq_ok_iff fixed).mp h
    cases t with
    | void | string => cases fixed
    | uint8 | int8 | uint16 | int16 | uint32 | int32 | uint64 | int64 =>
      exact absurd rfl integer
    | bool => exact absurd rfl truth
    | float | double => exact ⟨_, rfl, by simp [decodeFixed], fun finite => ⟨finite, rfl⟩⟩

theorem exists_ofJson?_toJson (fixed : t.isFixedWidth = true) (h : decode t payload = .ok value)
    (finite : value.isFinite = true) :
    ∃ other, Scalar.ofJson? value.toJson = some other ∧ encode t other = encode t value := by
  by_cases integer : t.isInteger = true
  · obtain ⟨n, low, high, rfl⟩ := exists_integerScalar integer h
    obtain ⟨least, greatest, -, -⟩ := bounds_of_isInteger integer
    obtain ⟨other, form, value⟩ := exists_ofJson?_integer (n := n) (by omega) (by omega)
    refine ⟨other, by rw [toJson_integerScalar integer low high, form], ?_⟩
    refine encode_congr_integerOf integer ?_
    rw [value, integerOf_integerScalar integer low high]
  · obtain ⟨length, rfl⟩ := (decode_eq_ok_iff fixed).mp h
    cases t with
    | void | string => cases fixed
    | uint8 | int8 | uint16 | int16 | uint32 | int32 | uint64 | int64 =>
      exact absurd rfl integer
    | bool => exact ⟨_, rfl, rfl⟩
    | float | double =>
      refine ⟨_, ?_, rfl⟩
      simp only [decodeFixed, Scalar.isFinite] at finite
      simp only [Scalar.toJson, decodeFixed, Json.ofReal, finite, if_true, Scalar.ofJson?]

end Wire

end DeviceLink
