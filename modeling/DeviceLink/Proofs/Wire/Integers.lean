import DeviceLink.Proofs.Wire.Counts

/-!
Whole numbers on the wire. An integer type encodes the whole numbers in its range and nothing else,
whatever form they are given in (`encoding_of_isInteger`). Its payloads are the sequences of as many
bytes as it has, and each of them is the payload of exactly one number (`integer_codec_exact`).
-/

set_option autoImplicit false
set_option relaxedAutoImplicit false

namespace DeviceLink

open Number (Binary64 twoTo)

theorem Value.Counts.unique {value : Value} {m n : Int} (counts : value.Counts m)
    (counts' : value.Counts n) : m = n := by
  cases counts with
  | bool | unsigned | signed | option =>
    cases counts'
    rfl
  | real exact =>
    cases counts' with
    | real exact' => exact exact.unique exact'
  | quantity converted exact =>
    cases counts' with
    | quantity converted' exact' =>
      obtain rfl := Except.ok.inj (converted.symm.trans converted')
      exact exact.unique exact'

namespace Wire

/-- A whole number in the range of an integer type. -/
def Fits (t : DataType) (n : Int) : Prop :=
  least t ≤ n ∧ n ≤ greatest t

instance (t : DataType) (n : Int) : Decidable (Fits t n) :=
  inferInstanceAs (Decidable (_ ∧ _))

variable {t : DataType} {value : Scalar} {payload : Payload} {n : Int}

theorem Fits.bounds (integer : t.isInteger = true) (fits : Fits t n) :
    -(twoTo 63 : Int) ≤ n ∧ n < twoTo 64 := by
  obtain ⟨least, greatest, -, -⟩ := bounds_of_isInteger integer
  obtain ⟨low, high⟩ := fits
  omega

/-! Numbers and what is sent for them. -/

theorem clampWide_eq_zero_iff : clampWide n = 0 ↔ n = 0 := by
  have bound : (twoTo 127 : Int) = 2 ^ 127 := rfl
  simp only [clampWide, bound]
  split
  · omega
  · split <;> omega

private theorem fits_clampWide_iff (integer : t.isInteger = true) :
    Fits t (clampWide n) ↔ Fits t n := by
  constructor
  · intro fits
    obtain ⟨low, high⟩ := fits.bounds integer
    have same : n = clampWide n := eq_of_clampWide rfl low high
    rwa [same]
  · intro fits
    obtain ⟨low, high⟩ := fits.bounds integer
    have half : (twoTo 63 : Int) ≤ twoTo 64 := by decide
    rwa [clampWide_eq (by omega) high]

theorem integerOf_of_counts (counts : (Value.scalar value).Counts n) (t : DataType) :
    integerOf t value = .ok (clampWide n) := by
  have whole : (twoTo 64 : Int) = 2 ^ 64 := rfl
  cases counts with
  | bool b => cases b <;> rfl
  | unsigned k =>
    have high : k.toNat < 2 ^ 64 := k.toNat_lt
    rw [integerOf, clampWide_eq (by omega) (by omega)]
  | signed k =>
    have low := k.le_toInt
    have high := k.toInt_lt
    rw [integerOf, clampWide_eq (by omega) (by omega)]
  | real exact => rw [integerOf, Binary64.whole?_of_isWhole exact]

theorem counts_or_real (textless : ∀ s, value ≠ .text s) :
    (∃ n, (Value.scalar value).Counts n) ∨ ∃ x : Binary64, value = .real x ∧ x.whole? = none := by
  cases value with
  | text s => exact absurd rfl (textless s)
  | bool b => exact Or.inl ⟨_, .bool b⟩
  | unsigned k => exact Or.inl ⟨_, .unsigned k⟩
  | signed k => exact Or.inl ⟨_, .signed k⟩
  | real x =>
    cases whole : x.whole? with
    | none => exact Or.inr ⟨x, rfl, whole⟩
    | some n => exact Or.inl ⟨n, .real (Binary64.isWhole_of_whole? whole)⟩

/-- What an integer type makes of a value. -/
inductive Encoding (t : DataType) (value : Scalar) : Except Error Payload → Prop
  | text (s : String) : value = .text s → Encoding t value (.error (.mismatch value t))
  | fits (n : Int) : (Value.scalar value).Counts n → Fits t n →
      Encoding t value (.ok (integerBytes (width t) n))
  | outside (number : String) : (∀ s, value ≠ .text s) →
      (∀ n, (Value.scalar value).Counts n → ¬ Fits t n) →
      Encoding t value (.error (.outOfRange number t))

theorem encodeInteger_of_counts (integer : t.isInteger = true)
    (counts : (Value.scalar value).Counts n) :
    encodeInteger t value = if Fits t n then .ok (integerBytes (width t) n)
      else .error (.outOfRange (toString (clampWide n)) t) := by
  have range : (least t ≤ clampWide n && clampWide n ≤ greatest t) = true ↔ Fits t n := by
    rw [Bool.and_eq_true, decide_eq_true_eq, decide_eq_true_eq]
    exact fits_clampWide_iff integer
  rw [encodeInteger, integerOf_of_counts counts]
  simp only [bind, Except.bind, range]
  split
  · rename_i fits
    obtain ⟨low, high⟩ := ((fits_clampWide_iff integer).mpr fits).bounds integer
    have same : n = clampWide n := eq_of_clampWide rfl low high
    rw [← same]
  · rfl

theorem encoding_of_isInteger (integer : t.isInteger = true) (value : Scalar) :
    Encoding t value (encode t value) := by
  rw [encode_of_isInteger integer]
  by_cases text : ∃ s, value = .text s
  · obtain ⟨s, rfl⟩ := text
    exact .text s rfl
  · have textless : ∀ s, value ≠ .text s := fun s same => text ⟨s, same⟩
    rcases counts_or_real textless with ⟨n, counts⟩ | ⟨x, rfl, fractional⟩
    · rw [encodeInteger_of_counts integer counts]
      split
      · rename_i fits
        exact .fits n counts fits
      · rename_i outside
        apply Encoding.outside _ textless
        intro k counts'
        rwa [counts'.unique counts]
    · have refused : encodeInteger t (.real x) = .error (.outOfRange x.text t) := by
        simp only [encodeInteger, integerOf, fractional, bind, Except.bind]
      rw [refused]
      apply Encoding.outside _ textless
      intro k counts
      cases counts with
      | real exact => simp [Binary64.whole?_of_isWhole exact] at fractional

private theorem exists_decode_of_length (integer : t.isInteger = true)
    (length : payload.length = width t) :
    ∃ v, decode t payload = .ok v ∧ encode t v = .ok payload := by
  have fixed := isFixedWidth_of_isInteger integer
  obtain ⟨low, high⟩ := integerOfBytes_range integer length
  refine ⟨_, (decode_eq_ok_iff fixed).mpr ⟨length, rfl⟩, ?_⟩
  rw [decodeFixed_eq_integerScalar integer, encode_integerScalar integer low high,
    integerBytes_integerOfBytes length]

private theorem size?_of_isFixedWidth (fixed : t.isFixedWidth = true) :
    t.size? = some (width t) := by
  cases t <;> first | exact absurd fixed (by decide) | rfl

private theorem decode_of_other_length (fixed : t.isFixedWidth = true)
    (other : payload.length ≠ width t) :
    decode t payload = .error (.length t (width t) payload.length) := by
  have plain : t.isVoid = false := by
    cases t <;> first | exact absurd fixed (by decide) | rfl
  simp only [decode, size?_of_isFixedWidth fixed, plain, Bool.false_eq_true, if_false, if_neg other]

/-- The codec of an integer type is exact. Texts do not match it; every other value is encoded if it
counts as a whole number in the range of the type, and out of range if not. The payload has the size
of the type and is decoded as the same number. Every payload of that size is decoded, and is the
payload of what it is decoded as; any other payload has a wrong length. -/
theorem integer_codec_exact (integer : t.isInteger = true) :
    (∀ value, (∃ v u, encode t value = .error (.mismatch v u)) ↔ ∃ s, value = .text s) ∧
    (∀ value, (∀ s, value ≠ .text s) →
      ((∃ payload, encode t value = .ok payload) ↔
        ∃ n, (Value.scalar value).Counts n ∧ Fits t n) ∧
      ((∃ number, encode t value = .error (.outOfRange number t)) ↔
        ¬ ∃ n, (Value.scalar value).Counts n ∧ Fits t n)) ∧
    (∀ value payload, encode t value = .ok payload → t.size? = some payload.length ∧
      ∃ n, (Value.scalar value).Counts n ∧ (integerScalar t n).Holds n ∧
        decode t payload = .ok (integerScalar t n)) ∧
    ∀ payload, (t.size? = some payload.length →
        ∃ v, decode t payload = .ok v ∧ encode t v = .ok payload) ∧
      (t.size? ≠ some payload.length →
        decode t payload = .error (.length t (width t) payload.length)) := by
  have fixed := isFixedWidth_of_isInteger integer
  refine ⟨?_, ?_, ?_, ?_⟩
  · intro value
    have encoding := encoding_of_isInteger integer value
    generalize encode t value = result at encoding
    cases encoding with
    | text s same => simp [same]
    | fits n counts fits => cases counts <;> simp
    | outside number textless uncounted => simpa using textless
  · intro value textless
    have encoding := encoding_of_isInteger integer value
    generalize encode t value = result at encoding
    cases encoding with
    | text s same => exact absurd same (textless s)
    | fits n counts fits => simpa using ⟨n, counts, fits⟩
    | outside number _ uncounted => simpa using uncounted
  · intro value payload encoded
    have encoding := encoding_of_isInteger integer value
    rw [encoded] at encoding
    cases encoding with
    | fits n counts fits =>
      rw [integerBytes, length_littleEndian, size?_of_isFixedWidth fixed]
      exact ⟨rfl, n, counts, holds_integerScalar integer fits.1 fits.2,
        decode_integerBytes integer fits.1 fits.2⟩
  · intro payload
    rw [size?_of_isFixedWidth fixed, ne_eq, Option.some_inj, eq_comm]
    exact ⟨exists_decode_of_length integer, decode_of_other_length fixed⟩

/-- Two bytes count from 32768 below zero: what is beyond has no payload, and every pair of bytes is
the payload of a number. -/
theorem integer_codec_exact_int16 :
    DataType.isInteger .int16 = true ∧
      (∃ number, encode .int16 (.unsigned 32768) = .error (.outOfRange number .int16)) ∧
      ∃ v, decode .int16 [0x00, 0x80] = .ok v ∧ encode .int16 v = .ok [0x00, 0x80] := by
  have integer : DataType.isInteger .int16 = true := rfl
  obtain ⟨-, ranges, -, payloads⟩ := integer_codec_exact integer
  refine ⟨integer, (ranges (.unsigned 32768) (by simp)).2.mpr ?_, (payloads _).1 rfl⟩
  rintro ⟨n, counts, fits⟩
  cases counts
  exact absurd fits (by decide)

end Wire

end DeviceLink
