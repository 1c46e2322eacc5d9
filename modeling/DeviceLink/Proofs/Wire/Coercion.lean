import DeviceLink.Proofs.Number.Values
import DeviceLink.Proofs.Wire.Integers

/-!
Values read from text and the wire. The text of an integer is read with 64 bits and the text of a
number with double precision, whatever the data type is; the range of the type is looked at only
when the value is encoded. A value that was read is of the right kind (`kind_of_readScalar`), so it
is encoded unless it lies beyond the range of a narrower type (`encode_of_kind`).
-/

set_option autoImplicit false
set_option relaxedAutoImplicit false

namespace DeviceLink

open Number (Binary64 Format twoTo)

/-! Rounding to infinity. -/

namespace Number.Format

variable {f : Format}

private theorem infinity_mod_two (f : Format) (fractional : 1 ≤ f.fraction) : f.infinity % 2 = 0 :=
  mod_two_of_place fractional _ 0

private theorem nearest_lt_infinity_iff (fractional : 1 ≤ f.fraction) {n d : Nat}
    (positive : 0 < d) : f.nearest n d < f.infinity ↔
      2 * n < (f.units (f.infinity - 1) + f.units f.infinity) * d := by
  have mono := f.units_strictMono.monotone
  constructor
  · intro finite
    have rounds := rounds_of_nearest fractional positive finite
    generalize f.nearest n d = c at finite rounds
    have last : f.units c ≤ f.units (f.infinity - 1) := mono (by omega)
    have next : f.units (c + 1) ≤ f.units f.infinity := mono finite
    have sums : (f.units c + f.units (c + 1)) * d ≤
        (f.units (f.infinity - 1) + f.units f.infinity) * d :=
      Nat.mul_le_mul_right d (Nat.add_le_add last next)
    refine Nat.lt_of_le_of_ne (Nat.le_trans rounds.high sums) fun midpoint => ?_
    -- At the midpoint the code would be the last finite one, which is odd.
    have level : 2 * n = (f.units c + f.units (c + 1)) * d :=
      Nat.le_antisymm rounds.high (midpoint ▸ sums)
    have equal := Nat.eq_of_mul_eq_mul_right positive (level.symm.trans midpoint)
    have same : c + 1 = f.infinity := f.units_strictMono.injective (by omega)
    have even := rounds.tie (Or.inr level)
    have even' := f.infinity_mod_two fractional
    omega
  · intro below
    by_contra infinite
    have rounds := rounds_of_place fractional n positive
    rw [nearest] at infinite
    generalize (Nat.log2 (n / d) - f.fraction) * f.hidden +
      roundHalfEven n (d * twoTo (Nat.log2 (n / d) - f.fraction)) = c at infinite rounds
    have beyond : f.infinity ≤ c := by omega
    have sums : (f.units (f.infinity - 1) + f.units f.infinity) * d ≤
        (f.units (c - 1) + f.units c) * d :=
      Nat.mul_le_mul_right d (Nat.add_le_add (mono (by omega)) (mono beyond))
    have low := rounds.low
    omega

end Number.Format

namespace Number.Binary64

open Format (binary32)

/-- The magnitude from which on single precision is infinite: 25 bits that are all set, and 103
places behind them. -/
def singleEdge : Nat :=
  (twoTo 25 - 1) * twoTo 103 * unitsOfOne

private theorem midpoint32 :
    (binary32.units (binary32.infinity - 1) + binary32.units binary32.infinity) * twoTo gap =
      2 * singleEdge := by
  decide +kernel

theorem isFinite32_toBinary32_iff {x : Binary64} (finite : x.isFinite = true) :
    isFinite32 x.toBinary32 = true ↔ x.units < singleEdge := by
  have shape : x.toBinary32 = UInt32.ofNat ((if x.isNegative then twoTo 31 else 0) +
      binary32.nearest x.units (twoTo gap)) := by
    rw [toBinary32, isNaN_of_isFinite finite, isInfinite_of_isFinite finite]
    rfl
  have near : binary32.nearest x.units (twoTo gap) ≤ binary32.infinity := Nat.min_le_right _ _
  obtain ⟨code, -⟩ := toNat_bits32 x.isNegative (Nat.lt_of_le_of_lt near infinity32_lt)
  rw [← shape] at code
  rw [isFinite32, decide_eq_true_iff, code,
    Format.nearest_lt_infinity_iff (by decide) (twoTo_pos gap), midpoint32]
  omega

end Number.Binary64

/-! What is read for a type. -/

/-- The kind of scalar that a type has values of. -/
inductive DataType.Kind : DataType → Scalar → Prop
  | bool (b : Bool) : Kind .bool (.bool b)
  | unsigned {t : DataType} (n : UInt64) : t.isInteger = true → t.isSigned = false →
      Kind t (.unsigned n)
  | signed {t : DataType} (n : Int64) : t.isInteger = true → t.isSigned = true → Kind t (.signed n)
  | real {t : DataType} (x : Binary64) : t.isFloat = true → Kind t (.real x)
  | text (s : String) : Kind .string (.text s)

variable {t : DataType} {s : String} {value : Scalar}

theorem DataType.kind_of_readScalar (read : t.readScalar s = .ok (some value)) :
    t.Kind value := by
  unfold readScalar at read
  cases t with
  | void => cases read
  | bool =>
    cases truth : readBool? (Text.trimmed s) with
    | none => simp [truth] at read
    | some b =>
      obtain rfl : Scalar.bool b = value := by simpa [truth] using read
      exact .bool b
  | uint8 | uint16 | uint32 | uint64 =>
    cases number : readUnsigned? (Text.trimmed s).toList with
    | none => simp [number] at read
    | some n =>
      obtain rfl : Scalar.unsigned n = value := by simpa [number] using read
      exact .unsigned n rfl rfl
  | int8 | int16 | int32 | int64 =>
    cases number : readSigned? (Text.trimmed s).toList with
    | none => simp [number] at read
    | some n =>
      obtain rfl : Scalar.signed n = value := by simpa [number] using read
      exact .signed n rfl rfl
  | float | double =>
    cases number : Binary64.ofString? (Text.trimmed s) with
    | none => simp [number] at read
    | some x =>
      obtain rfl : Scalar.real x = value := by simpa [number] using read
      exact .real x rfl
  | string =>
    obtain rfl : Scalar.text (Text.trimmed s) = value := by simpa using read
    exact .text _

/-! What a type has a place for. -/

namespace Wire

/-- A value of the right kind that lies beyond its type: an integer that is too large, or a signed
one that is too small as well, for an integer type, and for single precision a finite number that it
would round to infinity. -/
inductive Exceeds : DataType → Scalar → Prop
  | unsigned {t : DataType} (n : UInt64) : t.isInteger = true → greatest t < n.toNat →
      Exceeds t (.unsigned n)
  | signed {t : DataType} (n : Int64) : t.isInteger = true →
      n.toInt < least t ∨ greatest t < n.toInt → Exceeds t (.signed n)
  | single (x : Binary64) : x.isFinite = true → Binary64.singleEdge ≤ x.units →
      Exceeds .float (.real x)

private theorem encode_eq_of_counts {n : Int} (integer : t.isInteger = true)
    (counts : (Value.scalar value).Counts n) : encode t value =
      if Fits t n then .ok (integerBytes (width t) n)
      else .error (.outOfRange (toString (clampWide n)) t) := by
  rw [encode_of_isInteger integer, encodeInteger_of_counts integer counts]

private theorem exceeds_unsigned_iff {n : UInt64} (integer : t.isInteger = true)
    (unsigned : t.isSigned = false) : Exceeds t (.unsigned n) ↔ ¬ Fits t n.toNat := by
  have least : least t = 0 := (bounds_of_isInteger integer).2.2.2 unsigned
  constructor
  · rintro exceeds ⟨-, high⟩
    cases exceeds with
    | unsigned _ _ beyond => omega
  · intro outside
    refine .unsigned n integer ?_
    rw [Fits, least] at outside
    omega

private theorem exceeds_signed_iff {n : Int64} (integer : t.isInteger = true) :
    Exceeds t (.signed n) ↔ ¬ Fits t n.toInt := by
  constructor
  · rintro exceeds ⟨low, high⟩
    cases exceeds with
    | signed _ _ beyond => omega
  · intro outside
    refine .signed n integer ?_
    rw [Fits] at outside
    omega

private theorem encode_float (x : Binary64) : encode .float (.real x) =
    if x.isFinite = true ∧ Binary64.singleEdge ≤ x.units then .error (.outOfRange x.text .float)
    else .ok (littleEndian 4 x.toBinary32.toNat) := by
  have edge : (x.isFinite && !Binary64.isFinite32 x.toBinary32) = true ↔
      x.isFinite = true ∧ Binary64.singleEdge ≤ x.units := by
    rw [Bool.and_eq_true, and_congr_right_iff]
    intro finite
    rw [Bool.not_eq_true', ← Bool.not_eq_true, Binary64.isFinite32_toBinary32_iff finite, not_lt]
  simp only [encode, numberOf, Scalar.number?, encodeSingle, bind, Except.bind, edge]

theorem encode_of_kind (kind : t.Kind value) :
    (¬ Exceeds t value ∧ ∃ payload, encode t value = .ok payload) ∨
      (Exceeds t value ∧ ∃ number, encode t value = .error (.outOfRange number t)) := by
  cases kind with
  | bool b => exact Or.inl ⟨nofun, _, rfl⟩
  | text s => exact Or.inl ⟨nofun, _, rfl⟩
  | unsigned n integer unsigned =>
    rw [exceeds_unsigned_iff integer unsigned, encode_eq_of_counts integer (.unsigned n)]
    by_cases fits : Fits t n.toNat
    · exact Or.inl ⟨not_not_intro fits, _, if_pos fits⟩
    · exact Or.inr ⟨fits, _, if_neg fits⟩
  | signed n integer signed =>
    rw [exceeds_signed_iff integer, encode_eq_of_counts integer (.signed n)]
    by_cases fits : Fits t n.toInt
    · exact Or.inl ⟨not_not_intro fits, _, if_pos fits⟩
    · exact Or.inr ⟨fits, _, if_neg fits⟩
  | real x float =>
    cases t with
    | double => exact Or.inl ⟨nofun, _, rfl⟩
    | float =>
      rw [encode_float]
      by_cases large : x.isFinite = true ∧ Binary64.singleEdge ≤ x.units
      · exact Or.inr ⟨.single x large.1 large.2, _, if_pos large⟩
      · refine Or.inl ⟨fun exceeds => ?_, _, if_neg large⟩
        cases exceeds with
        | single _ finite beyond => exact large ⟨finite, beyond⟩
    | _ => cases float

/-- The types whose values are read more widely than they are sent. -/
def narrow : List DataType :=
  [.uint8, .int8, .uint16, .int16, .uint32, .int32, .float]

private theorem narrow_of_exceeds (kind : t.Kind value) (exceeds : Exceeds t value) :
    t ∈ narrow := by
  cases exceeds with
  | single => decide
  | unsigned n integer beyond =>
    have size : n.toNat < 2 ^ 64 := n.toNat_lt
    have whole : greatest .uint64 = 2 ^ 64 - 1 := rfl
    cases kind with
    | unsigned _ _ unsigned =>
      cases t with
      | uint64 => omega
      | uint8 | uint16 | uint32 => decide
      | int8 | int16 | int32 | int64 => cases unsigned
      | _ => cases integer
  | signed n integer beyond =>
    have low := n.le_toInt
    have high := n.toInt_lt
    have least' : least .int64 = -2 ^ 63 := rfl
    have greatest' : greatest .int64 = 2 ^ 63 - 1 := rfl
    cases kind with
    | signed _ _ signed =>
      cases t with
      | int64 => omega
      | int8 | int16 | int32 => decide
      | uint8 | uint16 | uint32 | uint64 => cases signed
      | _ => cases integer

private theorem exists_exceeding (inside : t ∈ narrow) :
    ∃ s value, t.readScalar s = .ok (some value) ∧ Exceeds t value := by
  simp only [narrow, List.mem_cons, List.not_mem_nil, or_false] at inside
  rcases inside with rfl | rfl | rfl | rfl | rfl | rfl | rfl
  · exact ⟨"256", _, by decide +kernel, .unsigned 256 rfl (by decide)⟩
  · exact ⟨"128", _, by decide +kernel, .signed 128 rfl (Or.inr (by decide))⟩
  · exact ⟨"65536", _, by decide +kernel, .unsigned 65536 rfl (by decide)⟩
  · exact ⟨"32768", _, by decide +kernel, .signed 32768 rfl (Or.inr (by decide))⟩
  · exact ⟨"4294967296", _, by decide +kernel, .unsigned 4294967296 rfl (by decide)⟩
  · exact ⟨"2147483648", _, by decide +kernel, .signed 2147483648 rfl (Or.inr (by decide))⟩
  · exact ⟨"1e39", _, by decide +kernel,
      .single (.ofRatio false (Number.tenTo 39) 1) (by decide +kernel) (by decide +kernel)⟩

/-- Coercion and the wire. A value that was read from a text is encoded unless it lies beyond its
type, and is out of range if it does. Only integers of fewer than 64 bits and single precision have
texts with such values, and they all have some. -/
theorem encode_of_readScalar (t : DataType) :
    (∀ s value, t.readScalar s = .ok (some value) →
      ((∃ payload, encode t value = .ok payload) ↔ ¬ Exceeds t value) ∧
      ((∃ number, encode t value = .error (.outOfRange number t)) ↔ Exceeds t value)) ∧
    ((∀ s value, t.readScalar s = .ok (some value) → ∃ payload, encode t value = .ok payload) ↔
      t ∉ narrow) := by
  have each (s : String) (value : Scalar) (read : t.readScalar s = .ok (some value)) :
      ((∃ payload, encode t value = .ok payload) ↔ ¬ Exceeds t value) ∧
      ((∃ number, encode t value = .error (.outOfRange number t)) ↔ Exceeds t value) := by
    rcases encode_of_kind (DataType.kind_of_readScalar read) with
      ⟨within, payload, sent⟩ | ⟨beyond, number, refused⟩
    · simpa [sent] using within
    · simpa [refused] using beyond
  refine ⟨each, ?_, ?_⟩
  · intro sent inside
    obtain ⟨s, value, read, beyond⟩ := exists_exceeding inside
    exact (each s value read).1.mp (sent s value read) beyond
  · intro outside s value read
    refine (each s value read).1.mpr fun beyond => outside ?_
    exact narrow_of_exceeds (DataType.kind_of_readScalar read) beyond

/-- The greatest octet is sent and the number behind it is not, although both are read. -/
theorem encode_of_readScalar_octet :
    (∃ payload, encode .uint8 (.unsigned 255) = .ok payload) ∧
      ∃ number, encode .uint8 (.unsigned 256) = .error (.outOfRange number .uint8) := by
  obtain ⟨each, -⟩ := encode_of_readScalar .uint8
  have sent := each "255" (.unsigned 255) (by decide +kernel)
  have refused := each " 256" (.unsigned 256) (by decide +kernel)
  refine ⟨sent.1.mpr ?_, refused.2.mpr (.unsigned 256 rfl (by decide))⟩
  rw [exceeds_unsigned_iff rfl rfl]
  decide

/-- A number that no octet holds is read for an octet. -/
theorem coercion_overlooks_width :
    ∃ value, DataType.readScalar .uint8 "256" = .ok (some value) ∧
      encode .uint8 value = .error (.outOfRange "256" .uint8) :=
  ⟨.unsigned 256, by decide +kernel, by decide +kernel⟩

end Wire

end DeviceLink
