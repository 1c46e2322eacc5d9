import DeviceLink.Proofs.Number.Values

/-!
Whole numbers in binary64. A whole number of up to 64 bits is rounded to a whole number with 53
significant bits (`Binary64.isWhole_ofInt`). It is kept where it has no more than these
(`rounded_eq_self_iff`), and near a power of two it may be rounded up to this power
(`le_rounded_iff`).
-/

set_option autoImplicit false
set_option relaxedAutoImplicit false

namespace DeviceLink.Number

open Format (binary64)

/-- The step between the numbers with 53 significant bits around a number. -/
def step53 (n : Nat) : Nat :=
  twoTo (n.log2 - 52)

/-- The nearest number with 53 significant bits, a half going to the even one. -/
def rounded (n : Nat) : Nat :=
  roundHalfEven n (step53 n) * step53 n

private theorem step53_pos (n : Nat) : 0 < step53 n :=
  twoTo_pos _

private theorem lt_mul_step53 (n : Nat) : n < twoTo 53 * step53 n := by
  have bound := (binary64.place_bounds n Nat.one_pos).1
  rwa [Nat.div_one, Nat.one_mul] at bound

private theorem step53_cases (n : Nat) : step53 n = 1 ∨ twoTo 52 * step53 n ≤ n := by
  have bound := (binary64.place_bounds n Nat.one_pos).2
  rw [Nat.div_one, Nat.one_mul] at bound
  refine bound.imp_left fun none => ?_
  rw [step53]
  exact congrArg twoTo none

private theorem rounded_bounds (n : Nat) :
    2 * rounded n ≤ 2 * n + step53 n ∧ 2 * n ≤ 2 * rounded n + step53 n :=
  let ⟨above, below, _⟩ := roundHalfEven_bounds n (step53_pos n)
  ⟨above, below⟩

private theorem roundHalfEven_le_step53 (n : Nat) : roundHalfEven n (step53 n) ≤ twoTo 53 := by
  have quotient := (Nat.div_lt_iff_lt_mul (step53_pos n)).mpr (lt_mul_step53 n)
  have most := roundHalfEven_le n (step53 n)
  omega

private theorem rounded_of_dvd {n : Nat} (divides : step53 n ∣ n) : rounded n = n := by
  have nothing : n % step53 n = 0 := Nat.mod_eq_zero_of_dvd divides
  rw [rounded, roundHalfEven, nothing, if_pos (step53_pos n), Nat.div_mul_cancel divides]

theorem rounded_eq_self_iff (n : Nat) :
    rounded n = n ↔ ∃ m e, m ≤ twoTo 53 ∧ n = m * twoTo e := by
  constructor
  · intro same
    exact ⟨_, _, roundHalfEven_le_step53 n, same.symm⟩
  · rintro ⟨m, e, few, rfl⟩
    apply rounded_of_dvd
    rcases step53_cases (m * twoTo e) with one | full
    · rw [one]
      exact Nat.one_dvd _
    · generalize place : (m * twoTo e).log2 - 52 = q at full
      rw [step53, place] at full ⊢
      by_cases inside : q ≤ e
      · exact (Nat.pow_dvd_pow 2 inside).mul_left m
      · -- The number is a power of two, the only one whose step is more than its place.
        have above : twoTo (53 + e) ≤ twoTo 52 * twoTo q := by
          rw [← twoTo_add]
          exact Nat.pow_le_pow_right (by decide) (by omega)
        have below : m * twoTo e ≤ twoTo (53 + e) := by
          rw [twoTo_add]
          exact Nat.mul_le_mul_right _ few
        have power : m * twoTo e = twoTo (53 + e) := Nat.le_antisymm below (above.trans full)
        have tight : twoTo 52 * twoTo q ≤ twoTo (53 + e) := power ▸ full
        rw [← twoTo_add] at tight
        have places : 52 + q ≤ 53 + e := (Nat.pow_le_pow_iff_right (by decide)).mp tight
        rw [power]
        exact Nat.pow_dvd_pow 2 (by omega)

private theorem step53_le {n i : Nat} (below : n < twoTo (54 + i)) : step53 n ≤ 2 * twoTo i := by
  rw [← twoTo_succ, step53]
  refine Nat.pow_le_pow_right (by decide) ?_
  by_cases zero : n = 0
  · rw [zero, Nat.log2_zero]
    omega
  · have := (Nat.log2_lt zero).mpr below
    omega

private theorem twoTo_eq_mul_step (i : Nat) : twoTo (54 + i) = twoTo 53 * (2 * twoTo i) := by
  rw [← twoTo_succ, ← twoTo_add]
  congr 1
  omega

theorem rounded_le_twoTo {n i : Nat} (below : n ≤ twoTo (54 + i)) :
    rounded n ≤ twoTo (54 + i) := by
  rcases Nat.lt_or_eq_of_le below with less | rfl
  · rw [twoTo_eq_mul_step]
    exact Nat.mul_le_mul (roundHalfEven_le_step53 n) (step53_le less)
  · have kept := (rounded_eq_self_iff (twoTo (54 + i))).mpr
      ⟨1, 54 + i, by decide, (Nat.one_mul _).symm⟩
    exact Nat.le_of_eq kept

theorem le_rounded_iff {n i : Nat} (below : n < twoTo (54 + i)) :
    twoTo (54 + i) ≤ rounded n ↔ twoTo (54 + i) ≤ n + twoTo i := by
  have whole : twoTo (54 + i) = twoTo 54 * twoTo i := twoTo_add 54 i
  have widest := step53_le below
  obtain ⟨near, -⟩ := rounded_bounds n
  constructor
  · intro reached
    omega
  · intro close
    by_contra short
    have half : twoTo (54 + i) = 2 * twoTo (53 + i) := by rw [← twoTo_succ]; congr 1; omega
    have small : 2 * twoTo i ≤ twoTo (53 + i) := by
      rw [← twoTo_succ]
      exact Nat.pow_le_pow_right (by decide) (by omega)
    have place : n.log2 = 53 + i := by
      have nonzero : n ≠ 0 := by
        have := twoTo_pos i
        omega
      refine (Nat.log2_eq_iff nonzero).mpr ⟨show twoTo (53 + i) ≤ n by omega, ?_⟩
      rwa [show 53 + i + 1 = 54 + i by omega]
    have step : step53 n = 2 * twoTo i := by
      rw [step53, place, ← twoTo_succ]
      congr 1
      omega
    obtain ⟨-, far, tie⟩ := roundHalfEven_bounds n (step53_pos n)
    rw [rounded] at short
    rw [step] at short far tie
    generalize roundHalfEven n (2 * twoTo i) = m at short far tie
    have limit := twoTo_eq_mul_step i
    -- The significand below the power is odd, so that the half step goes up.
    have odd : m + 1 ≤ twoTo 53 := by
      rw [limit] at short
      exact Nat.lt_of_mul_lt_mul_right (Nat.lt_of_not_le short)
    have room : (m + 1) * (2 * twoTo i) ≤ twoTo 53 * (2 * twoTo i) :=
      Nat.mul_le_mul_right _ odd
    rw [Nat.succ_mul, ← limit] at room
    have even := tie (Or.inr (by omega))
    have last : (m + 1) * (2 * twoTo i) = twoTo 53 * (2 * twoTo i) := by
      rw [Nat.succ_mul, ← limit]
      omega
    have same := Nat.eq_of_mul_eq_mul_right (Nat.mul_pos Nat.two_pos (twoTo_pos i)) last
    have parity : twoTo 53 % 2 = 0 := by decide
    omega

/-! Rounding in the format. -/

private theorem roundHalfEven_mul_right (n d : Nat) {k : Nat} (positive : 0 < k) :
    roundHalfEven (n * k) (d * k) = roundHalfEven n d := by
  have less (a b : Nat) : a * k < b * k ↔ a < b := Nat.mul_lt_mul_right positive
  simp only [roundHalfEven, Nat.mul_mod_mul_right, Nat.mul_div_mul_right _ _ positive,
    ← Nat.mul_assoc, less]

private theorem log2_mul_twoTo {n : Nat} (nonzero : n ≠ 0) (k : Nat) :
    (n * twoTo k).log2 = n.log2 + k := by
  have filled : n * twoTo k ≠ 0 := Nat.mul_ne_zero nonzero (Nat.ne_of_gt (twoTo_pos k))
  refine (Nat.log2_eq_iff filled).mpr ⟨?_, ?_⟩
  · rw [Nat.pow_add]
    exact Nat.mul_le_mul_right _ (Nat.log2_self_le nonzero)
  · rw [Nat.add_right_comm, Nat.pow_add]
    exact Nat.mul_lt_mul_of_pos_right Nat.lt_log2_self (twoTo_pos k)

namespace Binary64

variable {n : Nat}

private theorem ofRatio_whole (negative : Bool) (few : n ≤ twoTo 64) :
    (ofRatio negative n 1).isFinite = true ∧
      (ofRatio negative n 1).units = rounded n * unitsOfOne ∧
        (ofRatio negative n 1).isNegative = negative := by
  by_cases exact : n ≤ twoTo 53
  · have kept : rounded n = n := (rounded_eq_self_iff n).mpr ⟨n, 0, exact, (Nat.mul_one n).symm⟩
    rw [kept]
    exact ofRatio_exact negative exact
  · have large : twoTo 53 < n := Nat.lt_of_not_le exact
    have nonzero : n ≠ 0 := by omega
    have place : 52 ≤ n.log2 :=
      (Nat.le_log2 nonzero).mpr (Nat.le_trans (by decide) (Nat.le_of_lt large))
    have high : n.log2 - 52 ≤ 12 := by
      have := (Nat.log2_lt nonzero).mpr (Nat.lt_of_le_of_lt few (by decide : twoTo 64 < 2 ^ 65))
      omega
    have normal : binary64.hidden ≤ roundHalfEven n (step53 n) := by
      have quotient : twoTo 52 ≤ n / step53 n := by
        rw [Nat.le_div_iff_mul_le (step53_pos n), step53, ← twoTo_add,
          show 52 + (n.log2 - 52) = n.log2 by omega]
        exact Nat.log2_self_le nonzero
      exact Nat.le_trans quotient (div_le_roundHalfEven n _)
    have most : roundHalfEven n (step53 n) ≤ 2 * binary64.hidden := roundHalfEven_le_step53 n
    have bound : (n.log2 - 52 + 1074) * binary64.hidden + roundHalfEven n (step53 n) <
        binary64.infinity := by
      have places : (n.log2 - 52 + 1074) * binary64.hidden ≤ (12 + 1074) * binary64.hidden :=
        Nat.mul_le_mul_right _ (by omega)
      have room : (12 + 1074) * binary64.hidden + 2 * binary64.hidden < binary64.infinity := by
        decide
      omega
    have near : binary64.nearest (n * unitsOfOne) 1 =
        (n.log2 - 52 + 1074) * binary64.hidden + roundHalfEven n (step53 n) := by
      have scale : unitsOfOne = twoTo 1074 := rfl
      have shifted : n.log2 + 1074 - binary64.fraction = n.log2 - 52 + 1074 := by
        show n.log2 + 1074 - 52 = _
        omega
      rw [Format.nearest, Nat.div_one, scale, log2_mul_twoTo nonzero, shifted]
      simp only [Nat.one_mul]
      rw [twoTo_add, roundHalfEven_mul_right n _ (twoTo_pos 1074)]
      exact Nat.min_eq_left (Nat.le_of_lt bound)
    rw [ofRatio, near]
    have code := Nat.lt_trans bound infinity_lt
    refine ⟨by rwa [isFinite_iff, code_ofCode code], ?_, isNegative_ofCode code⟩
    rw [units_ofCode code, Format.units_place _ normal most, twoTo_add, rounded, Nat.mul_assoc]
    rfl

def roundedInt (n : Int) : Int :=
  if n < 0 then -(rounded n.natAbs : Int) else rounded n.natAbs

theorem isWhole_ofInt {n : Int} (few : n.natAbs ≤ twoTo 64) :
    (ofInt n).IsWhole (roundedInt n) := by
  obtain ⟨finite, magnitude, sign⟩ := ofRatio_whole (decide (n < 0)) few
  refine ⟨finite, ?_, ?_⟩
  · rw [ofInt, magnitude, roundedInt]
    split <;> simp
  · rw [ofInt, sign, roundedInt]
    by_cases negative : n < 0 <;> simp [negative]

theorem roundedInt_eq_self_iff (n : Int) :
    roundedInt n = n ↔ ∃ m e, m ≤ twoTo 53 ∧ n.natAbs = m * twoTo e := by
  rw [← rounded_eq_self_iff, roundedInt]
  split <;> omega

end Binary64

end DeviceLink.Number
