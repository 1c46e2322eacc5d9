import DeviceLink.Proofs.Number.Exactness

/-!
What a binary64 number stands for: the whole number that it is (`isWhole_of_whole?`), and the number
of single precision that it is rounded to (`single_of_isFinite`).
-/

set_option autoImplicit false
set_option relaxedAutoImplicit false

namespace DeviceLink.Number

theorem Format.rounds_of_nearest {f : Format} (fractional : 1 ≤ f.fraction) {n d : Nat}
    (positive : 0 < d) (finite : f.nearest n d < f.infinity) : f.Rounds (f.nearest n d) n d := by
  have rounded := rounds_of_place fractional n positive
  rw [Format.nearest] at finite ⊢
  rwa [Nat.min_eq_left (by omega)]

namespace Binary64

open Format (binary32 binary64)

/-- A number is a whole number, exactly and with its sign. -/
structure IsWhole (x : Binary64) (n : Int) : Prop where
  finite : x.isFinite = true
  magnitude : x.units = n.natAbs * unitsOfOne
  sign : if x.isNegative then n ≤ 0 else 0 ≤ n

theorem isWhole_of_whole? {x : Binary64} {n : Int} (h : x.whole? = some n) : x.IsWhole n := by
  rw [whole?] at h
  split at h
  · rename_i exact
    rw [Bool.and_eq_true, beq_iff_eq] at exact
    obtain ⟨finite, divides⟩ := exact
    have same : x.units = x.units / unitsOfOne * unitsOfOne :=
      (Nat.div_mul_cancel (Nat.dvd_of_mod_eq_zero divides)).symm
    generalize x.units / unitsOfOne = q at h same
    obtain rfl := Option.some.inj h
    refine ⟨finite, ?_, ?_⟩
    · rw [same]
      split <;> simp
    · split <;> simp
  · cases h

theorem whole?_of_isWhole {x : Binary64} {n : Int} (h : x.IsWhole n) : x.whole? = some n := by
  obtain ⟨finite, magnitude, sign⟩ := h
  rw [whole?, finite, magnitude, Nat.mul_mod_left, Nat.mul_div_cancel _ unitsOfOne_pos]
  simp only [beq_self_eq_true, Bool.and_self, if_true, Option.some.injEq, Int.ofNat_eq_natCast]
  cases negative : x.isNegative with
  | true =>
    rw [negative] at sign
    have below : n ≤ 0 := sign
    simp only [if_true]
    omega
  | false =>
    rw [negative] at sign
    have above : 0 ≤ n := sign
    simp only [Bool.false_eq_true, if_false]
    omega

/-- The number of single precision that a number is rounded to. A finite one goes to the nearest
value of the grid of binary32, a half to the even code, and keeps its sign; infinities stay. -/
inductive Single (x : Binary64) : Binary64 → Prop
  | finite {y : Binary64} (code : Nat) : x.isFinite = true → y.isFinite = true →
      code < binary32.infinity → binary32.Rounds code x.units (twoTo gap) →
      y.units = binary32.units code * twoTo gap → y.isNegative = x.isNegative → Single x y
  | infinite : x.isInfinite = true → Single x x

theorem infinity32_lt : binary32.infinity < twoTo 31 := by decide

theorem toNat_bits32 (negative : Bool) {c : Nat} (h : c < twoTo 31) :
    let bits := UInt32.ofNat ((if negative then twoTo 31 else 0) + c)
    bits.toNat % twoTo 31 = c ∧ decide (twoTo 31 ≤ bits.toNat) = negative := by
  have half : twoTo 31 = 2147483648 := rfl
  rw [half] at h
  simp only [UInt32.toNat_ofNat', half]
  cases negative with
  | true =>
    simp only [if_true, decide_eq_true_eq]
    omega
  | false =>
    simp only [Bool.false_eq_true, if_false, decide_eq_false_iff_not]
    omega

theorem single_of_isFinite {x : Binary64} (finite : x.isFinite = true)
    (stays : isFinite32 x.toBinary32 = true) : Single x (ofBinary32 x.toBinary32) := by
  obtain ⟨c, bound, value, same⟩ := ofBinary32_eq stays
  have small := Nat.lt_trans bound infinity_lt
  have shape : x.toBinary32 = UInt32.ofNat ((if x.isNegative then twoTo 31 else 0) +
      binary32.nearest x.units (twoTo gap)) := by
    rw [toBinary32, isNaN_of_isFinite finite, isInfinite_of_isFinite finite]
    rfl
  have near : binary32.nearest x.units (twoTo gap) ≤ binary32.infinity := Nat.min_le_right _ _
  obtain ⟨code, sign⟩ := toNat_bits32 x.isNegative (Nat.lt_of_le_of_lt near infinity32_lt)
  rw [← shape] at code sign
  -- The code that is found back is the nearest one, which is below infinity only if it is not cut.
  have limit : x.toBinary32.toNat % twoTo 31 < binary32.infinity := decide_eq_true_iff.mp stays
  rw [code] at limit value
  have rounded := Format.rounds_of_nearest (f := binary32) (by decide) (twoTo_pos gap) limit
  rw [same]
  refine .finite _ finite ?_ limit rounded ?_ ?_
  · rw [isFinite_iff, code_ofCode small]
    exact bound
  · rw [units_ofCode small, value]
  · rw [isNegative_ofCode small, sign]

theorem single_of_isInfinite {x : Binary64} (infinite : x.isInfinite = true) :
    ofBinary32 x.toBinary32 = x := by
  have code : x.code = binary64.infinity := eq_of_beq infinite
  have number : x.isNaN = false := by rw [isNaN, code]; exact decide_eq_false (Nat.lt_irrefl _)
  obtain ⟨same, sign⟩ := toNat_bits32 x.isNegative infinity32_lt
  have shape : x.toBinary32 =
      UInt32.ofNat ((if x.isNegative then twoTo 31 else 0) + binary32.infinity) := by
    rw [toBinary32, number, infinite]
    rfl
  rw [← shape] at same sign
  simp only [ofBinary32, same, sign, Nat.lt_irrefl, if_false, if_true]
  rw [Binary64.infinite, ← code, ofCode_code]

theorem isInfinite_of_not_isFinite {x : Binary64} (number : x.isNaN = false)
    (unbounded : ¬ x.isFinite = true) : x.isInfinite = true := by
  have high : ¬ binary64.infinity < x.code := of_decide_eq_false number
  rw [isFinite_iff] at unbounded
  exact beq_of_eq (by omega)

theorem IsWhole.unique {x : Binary64} {m n : Int} (h : x.IsWhole m)
    (h' : x.IsWhole n) : m = n :=
  Option.some.inj ((whole?_of_isWhole h).symm.trans (whole?_of_isWhole h'))

end Binary64

end DeviceLink.Number
