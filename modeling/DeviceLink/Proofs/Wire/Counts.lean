import DeviceLink.Device.Value
import DeviceLink.Proofs.Number.Values
import DeviceLink.Proofs.Results
import DeviceLink.Proofs.Wire.RoundTrip

/-!
Values as whole numbers on the wire. An integer type sends the whole number that a value counts as
(`Wire.counts_of_integerOf`) and decodes it as a scalar that holds the same number
(`Wire.holds_integerScalar`).
-/

set_option autoImplicit false
set_option relaxedAutoImplicit false

namespace DeviceLink

open Number (Binary64 twoTo)

/-- The whole number that a scalar of an integer type holds. -/
def Scalar.Holds : Scalar → Int → Prop
  | .signed m, n => m.toInt = n
  | .unsigned m, n => (m.toNat : Int) = n
  | .bool _, _ | .real _, _ | .text _, _ => False

namespace Value

/-- The whole number that a value counts as. An option counts as its byte, and a quantity as its
magnitude without a dimension. -/
inductive Counts : Value → Int → Prop
  | bool (b : Bool) : Counts (.scalar (.bool b)) (if b then 1 else 0)
  | unsigned (m : UInt64) : Counts (.scalar (.unsigned m)) m.toNat
  | signed (m : Int64) : Counts (.scalar (.signed m)) m.toInt
  | real {x : Binary64} {n : Int} : x.IsWhole n → Counts (.scalar (.real x)) n
  | option (o : OptionValue) : Counts (.option o) o.index.toNat
  | quantity {q : Quantity} {x : Binary64} {n : Int} :
      q.magnitudeIn .dimensionless = .ok x → x.IsWhole n → Counts (.quantity q) n

end Value

namespace Wire

variable {t : DataType} {scalar : Scalar} {payload : Payload}

theorem ne_nil_of_encode (fixed : t.isFixedWidth = true) (h : encode t scalar = .ok payload) :
    payload ≠ [] := by
  have length := length_encode fixed h
  have positive := width_pos fixed
  rintro rfl
  rw [List.length_nil] at length
  omega

theorem exists_integer_of_encode (integer : t.isInteger = true)
    (h : encode t scalar = .ok payload) : ∃ n, integerOf t scalar = .ok n ∧ least t ≤ n ∧
      n ≤ greatest t ∧ decode t payload = .ok (integerScalar t n) := by
  rw [encode_of_isInteger integer, encodeInteger] at h
  obtain ⟨n, number, sent⟩ := bind_eq_ok_iff.mp h
  simp only [Bool.and_eq_true, decide_eq_true_eq] at sent
  split at sent
  · rename_i bounds
    obtain rfl := Except.ok.inj sent
    exact ⟨n, number, bounds.1, bounds.2, decode_integerBytes integer bounds.1 bounds.2⟩
  · cases sent

theorem holds_integerScalar {n : Int} (integer : t.isInteger = true) (low : least t ≤ n)
    (high : n ≤ greatest t) : (integerScalar t n).Holds n := by
  rcases integerScalar_forms integer low high with ⟨m, form, value⟩ | ⟨m, form, value⟩
  · rw [form]
    exact value
  · rw [form]
    exact value

theorem eq_of_clampWide {m n : Int} (h : clampWide m = n) (low : -(twoTo 63 : Int) ≤ n)
    (high : n < twoTo 64) : m = n := by
  have half : (twoTo 63 : Int) = 2 ^ 63 := rfl
  have whole : (twoTo 64 : Int) = 2 ^ 64 := rfl
  have bound : (twoTo 127 : Int) = 2 ^ 127 := rfl
  simp only [clampWide, bound] at h
  split at h
  · omega
  · split at h <;> omega

theorem isWhole_of_integerOf {x : Binary64} {n : Int} (h : integerOf t (.real x) = .ok n)
    (low : -(twoTo 63 : Int) ≤ n) (high : n < twoTo 64) : x.IsWhole n := by
  rw [integerOf] at h
  cases whole : x.whole? with
  | none => simp [whole] at h
  | some m =>
    rw [whole] at h
    obtain rfl := eq_of_clampWide (Except.ok.inj h) low high
    exact Binary64.isWhole_of_whole? whole

theorem counts_of_integerOf {n : Int} (h : integerOf t scalar = .ok n)
    (low : -(twoTo 63 : Int) ≤ n) (high : n < twoTo 64) : (Value.scalar scalar).Counts n := by
  cases scalar with
  | text s => simp [integerOf] at h
  | real x => exact .real (isWhole_of_integerOf h low high)
  | bool b =>
    obtain rfl := Except.ok.inj h
    exact .bool b
  | unsigned m =>
    obtain rfl := Except.ok.inj h
    exact .unsigned m
  | signed m =>
    obtain rfl := Except.ok.inj h
    exact .signed m

theorem decode_double (x : Binary64) :
    decode .double (littleEndian 8 x.bits.toNat) = .ok (.real x) := by
  refine (decode_eq_ok_iff rfl).mpr ⟨length_littleEndian _ _, ?_⟩
  rw [decodeFixed, ofLittleEndian_littleEndian x.bits.toNat_lt, UInt64.ofNat_toNat]

theorem decode_single {x : Binary64} {payload : Payload} (number : x.isNaN = false)
    (h : encodeSingle .float x = .ok payload) :
    ∃ y, x.Single y ∧ decode .float payload = .ok (.real y) := by
  rw [encodeSingle] at h
  simp only [Bool.and_eq_true, Bool.not_eq_true'] at h
  split at h
  · cases h
  · rename_i stays
    obtain rfl := Except.ok.inj h
    refine ⟨.ofBinary32 x.toBinary32, ?_, (decode_eq_ok_iff rfl).mpr ⟨length_littleEndian _ _, ?_⟩⟩
    · by_cases finite : x.isFinite = true
      · have single : Binary64.isFinite32 x.toBinary32 = true := by
          rw [← Bool.not_eq_false]
          exact fun lost => stays ⟨finite, lost⟩
        exact Binary64.single_of_isFinite finite single
      · have infinite := Binary64.isInfinite_of_not_isFinite number finite
        rw [Binary64.single_of_isInfinite infinite]
        exact .infinite infinite
    · rw [decodeFixed, ofLittleEndian_littleEndian x.toBinary32.toNat_lt, UInt32.ofNat_toNat]

end Wire

end DeviceLink
