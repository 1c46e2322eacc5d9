import DeviceLink.Proofs.Number.Rounding

/-!
Operations on binary64 numbers that lose nothing: whole numbers with at most 53 bits, the product
with one, and the way from binary32 and back.
-/

set_option autoImplicit false
set_option relaxedAutoImplicit false

namespace DeviceLink.Number.Binary64

open Format (binary32 binary64)

/-! Signs and codes. -/

theorem infinity_lt : binary64.infinity < twoTo 63 := by decide

private theorem code_lt (x : Binary64) : x.code < twoTo 63 :=
  Nat.mod_lt _ (twoTo_pos 63)

variable {negative : Bool} {c : Nat}

private theorem toNat_bits_ofCode (h : c < twoTo 63) :
    (ofCode negative c).bits.toNat = if negative then twoTo 63 + c else c := by
  have limit : twoTo 63 = 9223372036854775808 := rfl
  refine UInt64.toNat_ofNat_of_lt' ?_
  rw [UInt64.size]
  split <;> omega

@[simp] theorem code_ofCode (h : c < twoTo 63) : (ofCode negative c).code = c := by
  rw [code, toNat_bits_ofCode h]
  split
  · rw [Nat.add_mod_left, Nat.mod_eq_of_lt h]
  · exact Nat.mod_eq_of_lt h

@[simp] theorem isNegative_ofCode (h : c < twoTo 63) :
    (ofCode negative c).isNegative = negative := by
  rw [isNegative, toNat_bits_ofCode h]
  cases negative with
  | true => simp
  | false => simpa using h

theorem ofCode_code (x : Binary64) : ofCode x.isNegative x.code = x := by
  have size : x.bits.toNat < 18446744073709551616 := x.bits.toNat_lt
  have limit : twoTo 63 = 9223372036854775808 := rfl
  refine congrArg Binary64.mk (UInt64.toNat_inj.mp ?_)
  refine (toNat_bits_ofCode (code_lt _)).trans ?_
  simp only [isNegative, code, decide_eq_true_eq, limit]
  split <;> omega

theorem units_ofCode (h : c < twoTo 63) : (ofCode negative c).units = binary64.units c := by
  rw [units, code_ofCode h]

theorem isFinite_iff (x : Binary64) : x.isFinite = true ↔ x.code < binary64.infinity :=
  decide_eq_true_iff

theorem isNaN_of_isFinite {x : Binary64} (h : x.isFinite = true) : x.isNaN = false :=
  decide_eq_false (Nat.lt_asymm ((isFinite_iff x).mp h))

theorem isInfinite_of_isFinite {x : Binary64} (h : x.isFinite = true) : x.isInfinite = false :=
  beq_false_of_ne (Nat.ne_of_lt ((isFinite_iff x).mp h))

/-! Whole numbers. -/

theorem ofRatio_exact (negative : Bool) {n : Nat} (few : n ≤ twoTo 53) :
    (ofRatio negative n 1).isFinite = true ∧ (ofRatio negative n 1).units = n * unitsOfOne ∧
      (ofRatio negative n 1).isNegative = negative := by
  have room : twoTo 53 + 1074 * binary64.hidden < binary64.infinity := by decide
  obtain ⟨c, bound, value⟩ := Format.exists_units_eq (f := binary64) few 1074
  have finite : c < binary64.infinity := by omega
  have small := Nat.lt_trans finite infinity_lt
  have same : n * unitsOfOne = binary64.units c * 1 := by rw [value, Nat.mul_one]; rfl
  rw [ofRatio, same, Format.nearest_units (by decide) Nat.one_pos (Nat.le_of_lt finite)]
  exact ⟨by rwa [isFinite_iff, code_ofCode small], by rw [units_ofCode small, Nat.mul_one],
    isNegative_ofCode small⟩

theorem ofInt_natCast (n : Nat) : ofInt n = ofNat n := by
  have positive : decide ((n : Int) < 0) = false := decide_eq_false (by omega)
  rw [ofInt, ofNat, positive, Int.natAbs_natCast]

theorem unitsOfOne_pos : 0 < unitsOfOne :=
  twoTo_pos _

theorem whole?_ofInt {n : Int} (few : n.natAbs ≤ twoTo 53) : (ofInt n).whole? = some n := by
  obtain ⟨finite, value, sign⟩ := ofRatio_exact (decide (n < 0)) few
  rw [whole?, ofInt, finite, value, sign, Nat.mul_mod_left, Nat.mul_div_cancel _ unitsOfOne_pos]
  simp only [beq_self_eq_true, Bool.and_self, if_true, decide_eq_true_eq, Option.some.injEq,
    Int.ofNat_eq_natCast]
  split <;> omega

theorem mul_one {x : Binary64} (finite : x.isFinite = true) : x * one = x := by
  obtain ⟨finite₁, value₁, sign₁⟩ := ofRatio_exact false (n := 1) (by decide)
  have product : x.units * one.units = binary64.units x.code * unitsOfOne := by
    rw [one, ofNat, value₁, Nat.one_mul, units]
  have sign : (x.isNegative != one.isNegative) = x.isNegative := by
    rw [one, ofNat, sign₁, Bool.bne_false]
  have near := Format.nearest_units (f := binary64) (by decide) unitsOfOne_pos
    (Nat.le_of_lt ((isFinite_iff x).mp finite))
  change mul x one = x
  rw [mul, isNaN_of_isFinite finite, isInfinite_of_isFinite finite, product, near, sign]
  have plain : one.isNaN = false ∧ one.isInfinite = false :=
    ⟨isNaN_of_isFinite finite₁, isInfinite_of_isFinite finite₁⟩
  simp only [plain.1, plain.2, Bool.or_self, Bool.false_eq_true, if_false]
  exact ofCode_code x

/-! Single precision. -/

/-- How much finer the grid of binary64 is. -/
def gap : Nat := binary64.scale - binary32.scale

private theorem exists_units_binary32 {n : Nat} (finite : n < binary32.infinity) :
    ∃ c < binary64.infinity, binary64.units c = binary32.units n * twoTo gap := by
  by_cases subnormal : n < binary32.hidden
  · have room : binary32.hidden + gap * binary64.hidden < binary64.infinity := by decide
    have few : n ≤ 2 * binary64.hidden :=
      Nat.le_of_lt (Nat.lt_trans subnormal (by decide))
    obtain ⟨c, bound, value⟩ := Format.exists_units_eq few gap
    refine ⟨c, by omega, ?_⟩
    rw [value, Format.units_of_le (by omega)]
  · obtain ⟨p, m, rfl, low, high⟩ := Format.exists_place (Nat.le_of_not_lt subnormal)
    have place : p ≤ 254 := by
      have limit : binary32.infinity = 255 * binary32.hidden := by decide
      rw [limit] at finite
      have := Nat.lt_of_mul_lt_mul_right (Nat.lt_of_le_of_lt (Nat.le_add_right _ _) finite)
      omega
    have room : 2 * binary32.hidden + (254 + gap) * binary64.hidden < binary64.infinity := by
      decide
    have few : m ≤ 2 * binary64.hidden :=
      Nat.le_of_lt (Nat.lt_trans high (by decide))
    obtain ⟨c, bound, value⟩ := Format.exists_units_eq few (p + gap)
    have places : (p + gap) * binary64.hidden ≤ (254 + gap) * binary64.hidden :=
      Nat.mul_le_mul_right _ (by omega)
    refine ⟨c, by omega, ?_⟩
    rw [value, Format.units_place p low (Nat.le_of_lt high), twoTo_add, Nat.mul_assoc]

theorem ofBinary32_eq {bits : UInt32} (finite : isFinite32 bits = true) :
    ∃ c < binary64.infinity,
      binary64.units c = binary32.units (bits.toNat % twoTo 31) * twoTo gap ∧
        ofBinary32 bits = ofCode (decide (twoTo 31 ≤ bits.toNat)) c := by
  have limit : bits.toNat % twoTo 31 < binary32.infinity := decide_eq_true_iff.mp finite
  obtain ⟨c, bound, value⟩ := exists_units_binary32 limit
  refine ⟨c, bound, value, ?_⟩
  have near := Format.nearest_units (f := binary64) (by decide) Nat.one_pos (Nat.le_of_lt bound)
  rw [value, Nat.mul_one] at near
  simp only [ofBinary32, Nat.lt_asymm limit, Nat.ne_of_lt limit, if_false]
  rw [← near]
  rfl

theorem toBinary32_ofBinary32 {bits : UInt32} (finite : isFinite32 bits = true) :
    (ofBinary32 bits).toBinary32 = bits := by
  obtain ⟨c, bound, value, same⟩ := ofBinary32_eq finite
  have small := Nat.lt_trans bound infinity_lt
  have number : (ofBinary32 bits).isFinite = true := by
    rw [same, isFinite_iff, code_ofCode small]
    exact bound
  have near := Format.nearest_units (f := binary32) (by decide) (twoTo_pos gap)
    (Nat.le_of_lt (decide_eq_true_iff.mp finite))
  rw [toBinary32, isNaN_of_isFinite number, isInfinite_of_isFinite number, same,
    isNegative_ofCode small, units_ofCode small, value]
  simp only [Bool.false_eq_true, if_false, decide_eq_true_eq]
  change UInt32.ofNat (_ + binary32.nearest (_ * twoTo gap) (twoTo gap)) = bits
  rw [near]
  refine UInt32.toNat_inj.mp ?_
  have size : bits.toNat < 4294967296 := bits.toNat_lt
  have half : twoTo 31 = 2147483648 := rfl
  rw [UInt32.toNat_ofNat', half]
  split <;> omega

theorem isFinite32_of_isFinite {bits : UInt32} (h : (ofBinary32 bits).isFinite = true) :
    isFinite32 bits = true := by
  have infinite (negative : Bool) : (infinite negative).isFinite = false := by
    cases negative <;> decide
  simp only [ofBinary32] at h
  split at h
  · exact absurd h (by decide)
  · split at h
    · exact absurd h (by rw [infinite]; decide)
    · exact decide_eq_true (by omega)

end DeviceLink.Number.Binary64
