import DeviceLink.Number.Binary64
import Mathlib.Order.Monotone.Basic
import Mathlib.Tactic.Linarith
import Mathlib.Tactic.Ring

/-!
Rounding to a grid of binary numbers. The values of the codes grow with the codes, and `Rounds` says
that a fraction lies where it rounds to a code: between the midpoints to the two neighbours, which
themselves go to the even code. There is only one such code (`Rounds.unique`), and it is the one
that `nearest` finds (`nearest_eq_of_rounds`).
-/

set_option autoImplicit false
set_option relaxedAutoImplicit false

namespace DeviceLink.Number

theorem twoTo_pos (n : Nat) : 0 < twoTo n :=
  Nat.two_pow_pos n

theorem twoTo_succ (n : Nat) : twoTo (n + 1) = 2 * twoTo n := by
  simp only [twoTo, Nat.pow_eq, Nat.pow_succ, Nat.mul_comm]

theorem twoTo_add (m n : Nat) : twoTo (m + n) = twoTo m * twoTo n :=
  Nat.pow_add 2 m n

theorem roundHalfEven_bounds (n : Nat) {d : Nat} (positive : 0 < d) :
    2 * (roundHalfEven n d * d) ≤ 2 * n + d ∧ 2 * n ≤ 2 * (roundHalfEven n d * d) + d ∧
      (2 * (roundHalfEven n d * d) = 2 * n + d ∨ 2 * n = 2 * (roundHalfEven n d * d) + d →
        roundHalfEven n d % 2 = 0) := by
  have whole : n / d * d + n % d = n := Nat.div_add_mod' n d
  have part : n % d < d := Nat.mod_lt n positive
  have above : (n / d + 1) * d = n / d * d + d := Nat.succ_mul _ _
  rw [roundHalfEven]
  split
  · omega
  · split
    · rw [above]
      omega
    · rcases Nat.mod_two_eq_zero_or_one (n / d) with even | odd
      · rw [even, Nat.add_zero]
        omega
      · rw [odd, above]
        omega

theorem div_le_roundHalfEven (n d : Nat) : n / d ≤ roundHalfEven n d := by
  rw [roundHalfEven]
  split
  · exact Nat.le_refl _
  · split <;> omega

theorem roundHalfEven_le (n d : Nat) : roundHalfEven n d ≤ n / d + 1 := by
  rw [roundHalfEven]
  split
  · omega
  · split <;> omega

namespace Format

variable {f : Format}

private theorem hidden_pos (f : Format) : 0 < f.hidden :=
  twoTo_pos _

theorem units_place (p : Nat) {m : Nat} (low : f.hidden ≤ m) (high : m ≤ 2 * f.hidden) :
    f.units (p * f.hidden + m) = m * twoTo p := by
  have positive := f.hidden_pos
  have normal : ¬ p * f.hidden + m < f.hidden := by
    have := Nat.zero_le (p * f.hidden)
    omega
  rw [units, if_neg normal]
  rcases Nat.lt_or_eq_of_le high with inner | rfl
  · obtain ⟨k, rfl⟩ := Nat.exists_eq_add_of_le low
    have small : k < f.hidden := by omega
    have shape : p * f.hidden + (f.hidden + k) = k + (p + 1) * f.hidden := by ring
    rw [shape, Nat.add_mul_mod_self_right, Nat.mod_eq_of_lt small,
      Nat.add_mul_div_right _ _ positive, Nat.div_eq_of_lt small]
    congr 2
    omega
  · have shape : p * f.hidden + 2 * f.hidden = (p + 2) * f.hidden := by ring
    rw [shape, Nat.mul_mod_left, Nat.mul_div_cancel _ positive]
    have place : p + 2 - 1 = p + 1 := by omega
    rw [place, twoTo_succ]
    ring

theorem units_of_le {c : Nat} (small : c ≤ 2 * f.hidden) : f.units c = c := by
  by_cases subnormal : c < f.hidden
  · rw [units, if_pos subnormal]
  · have normal := units_place (f := f) 0 (Nat.le_of_not_lt subnormal) small
    rwa [Nat.zero_mul, Nat.zero_add, show twoTo 0 = 1 from rfl, Nat.mul_one] at normal

theorem exists_place {c : Nat} (large : f.hidden ≤ c) :
    ∃ p m, c = p * f.hidden + m ∧ f.hidden ≤ m ∧ m < 2 * f.hidden := by
  have positive := f.hidden_pos
  have rest := Nat.mod_lt c positive
  have whole := Nat.div_add_mod' c f.hidden
  obtain ⟨p, place⟩ := Nat.exists_eq_add_of_le (Nat.div_pos large positive)
  refine ⟨p, f.hidden + c % f.hidden, ?_, by omega, by omega⟩
  rw [place, Nat.add_mul, Nat.one_mul] at whole
  omega

private theorem units_at {p m : Nat} (low : p = 0 ∨ f.hidden ≤ m) (high : m ≤ 2 * f.hidden) :
    f.units (p * f.hidden + m) = m * twoTo p := by
  rcases low with rfl | normal
  · rw [Nat.zero_mul, Nat.zero_add, units_of_le high, show twoTo 0 = 1 from rfl, Nat.mul_one]
  · exact units_place p normal high

private theorem units_at_succ {p m : Nat} (low : p = 0 ∨ f.hidden ≤ m) (high : m ≤ 2 * f.hidden) :
    (m + 1) * twoTo p ≤ f.units (p * f.hidden + m + 1) := by
  have positive := f.hidden_pos
  rcases Nat.lt_or_eq_of_le high with inner | rfl
  · rw [Nat.add_assoc, units_at (low.imp_right Nat.le_succ_of_le) inner]
  · have shape : p * f.hidden + 2 * f.hidden + 1 = (p + 1) * f.hidden + (f.hidden + 1) := by ring
    have wide : (f.hidden + 1) * (2 * twoTo p) = (2 * f.hidden + 1) * twoTo p + twoTo p := by ring
    rw [shape, units_place (p + 1) (by omega) (by omega), twoTo_succ, wide]
    exact Nat.le_add_right _ _

theorem units_lt_succ (f : Format) (c : Nat) : f.units c < f.units (c + 1) := by
  by_cases small : c < 2 * f.hidden
  · rw [units_of_le (Nat.le_of_lt small), units_of_le small]
    exact Nat.lt_succ_self c
  · obtain ⟨p, m, rfl, low, high⟩ := exists_place (show f.hidden ≤ c by omega)
    rw [Nat.add_assoc, units_place p low (Nat.le_of_lt high), units_place p (by omega) high]
    exact Nat.mul_lt_mul_of_pos_right (Nat.lt_succ_self m) (twoTo_pos p)

theorem units_strictMono (f : Format) : StrictMono f.units :=
  strictMono_nat_of_lt_succ f.units_lt_succ

theorem units_eq_zero_iff {c : Nat} : f.units c = 0 ↔ c = 0 := by
  have zero : f.units 0 = 0 := units_of_le (Nat.zero_le _)
  exact ⟨fun h => f.units_strictMono.injective (h.trans zero.symm), fun h => h ▸ zero⟩

private theorem units_pred_mul_le (f : Format) (c d : Nat) : f.units (c - 1) * d ≤ f.units c * d :=
  Nat.mul_le_mul_right d (f.units_strictMono.monotone (Nat.sub_le c 1))

private theorem eq_zero_of_units_pred_mul (f : Format) {c d : Nat} (positive : 0 < d)
    (level : f.units (c - 1) * d = f.units c * d) : c = 0 := by
  have same := f.units_strictMono.injective (Nat.eq_of_mul_eq_mul_right positive level)
  omega

private theorem units_at_pred {p m : Nat} (low : p = 0 ∨ f.hidden ≤ m)
    (high : m + 1 ≤ 2 * f.hidden) :
    f.units (p * f.hidden + (m + 1) - 1) + twoTo p = (m + 1) * twoTo p := by
  rw [← Nat.add_assoc, Nat.add_sub_cancel, units_at low (by omega)]
  ring

private theorem units_before_place (f : Format) (p : Nat) :
    f.units ((p + 1) * f.hidden + f.hidden - 1) = (2 * f.hidden - 1) * twoTo p := by
  have positive := f.hidden_pos
  have shape : (p + 1) * f.hidden + f.hidden - 1 = p * f.hidden + (2 * f.hidden - 1) := by
    rw [Nat.succ_mul]
    omega
  rw [shape, units_place p (by omega) (by omega)]

theorem mod_two_of_place (fractional : 1 ≤ f.fraction) (p m : Nat) :
    (p * f.hidden + m) % 2 = m % 2 := by
  obtain ⟨k, fraction⟩ := Nat.exists_eq_add_of_le fractional
  have even : f.hidden = 2 * twoTo k := by rw [hidden, fraction, Nat.add_comm, twoTo_succ]
  rw [even, Nat.mul_left_comm, Nat.mul_add_mod]

theorem units_spread (f : Format) {c : Nat} (nonzero : c ≠ 0) :
    f.units c + f.hidden * f.units (c - 1) ≤ f.hidden * f.units (c + 1) := by
  have positive := f.hidden_pos
  by_cases small : c < 2 * f.hidden
  · obtain ⟨k, rfl⟩ : ∃ k, c = k + 1 := Nat.exists_eq_succ_of_ne_zero nonzero
    rw [Nat.add_sub_cancel, units_of_le (by omega), units_of_le (by omega),
      units_of_le (show k + 1 + 1 ≤ _ from small)]
    have spread : f.hidden * (k + 1 + 1) = f.hidden * k + 2 * f.hidden := by ring
    omega
  · obtain ⟨p, m, rfl, low, high⟩ := exists_place (show f.hidden ≤ c by omega)
    obtain ⟨q, rfl⟩ : ∃ q, p = q + 1 := Nat.exists_eq_succ_of_ne_zero fun first => by
      rw [first] at small
      omega
    have next : f.units ((q + 1) * f.hidden + m + 1) = (m + 1) * (2 * twoTo q) := by
      rw [Nat.add_assoc, units_place (q + 1) (by omega) high, twoTo_succ]
    rw [units_place (q + 1) low (Nat.le_of_lt high), next, twoTo_succ]
    by_cases first : m = f.hidden
    · obtain ⟨h, width⟩ := Nat.exists_eq_succ_of_ne_zero (Nat.ne_of_gt positive)
      rw [first, units_before_place, width, show 2 * (h + 1) - 1 = 2 * h + 1 by omega]
      nlinarith [Nat.zero_le (h * twoTo q), twoTo_pos q]
    · have before : f.units ((q + 1) * f.hidden + m - 1) = (m - 1) * (2 * twoTo q) := by
        rw [Nat.add_sub_assoc (by omega), units_place (q + 1) (by omega) (by omega), twoTo_succ]
      obtain ⟨k, rfl⟩ := Nat.exists_eq_succ_of_ne_zero (show m ≠ 0 by omega)
      have room : (k + 1) * (2 * twoTo q) ≤ 2 * f.hidden * (2 * twoTo q) :=
        Nat.mul_le_mul_right _ (Nat.le_of_lt high)
      rw [before, Nat.succ_sub_one]
      calc (k + 1) * (2 * twoTo q) + f.hidden * (k * (2 * twoTo q))
          ≤ 2 * f.hidden * (2 * twoTo q) + f.hidden * (k * (2 * twoTo q)) :=
            Nat.add_le_add_right room _
        _ = f.hidden * ((k + 1 + 1) * (2 * twoTo q)) := by ring

/-- Where the fraction `n / d` rounds to a code: between the midpoints to the neighbours of the code,
which belong to it when it is even. -/
structure Rounds (f : Format) (c n d : Nat) : Prop where
  low : (f.units (c - 1) + f.units c) * d ≤ 2 * n
  high : 2 * n ≤ (f.units c + f.units (c + 1)) * d
  tie : 2 * n = (f.units (c - 1) + f.units c) * d ∨ 2 * n = (f.units c + f.units (c + 1)) * d →
    c % 2 = 0

private theorem Rounds.not_lt {c c' n d : Nat} (positive : 0 < d) (h : f.Rounds c n d)
    (h' : f.Rounds c' n d) : ¬ c < c' := by
  intro less
  have mono := f.units_strictMono.monotone
  have lower : f.units c ≤ f.units (c' - 1) := mono (by omega)
  have upper : f.units (c + 1) ≤ f.units c' := mono less
  have sums : (f.units c + f.units (c + 1)) * d ≤ (f.units (c' - 1) + f.units c') * d :=
    Nat.mul_le_mul_right d (Nat.add_le_add lower upper)
  -- Both ends coincide, so the codes are neighbours, and only one of them is even.
  have first : 2 * n = (f.units c + f.units (c + 1)) * d :=
    Nat.le_antisymm h.high (Nat.le_trans sums h'.low)
  have second : 2 * n = (f.units (c' - 1) + f.units c') * d :=
    Nat.le_antisymm (Nat.le_trans h.high sums) h'.low
  have equal := Nat.eq_of_mul_eq_mul_right positive (first.symm.trans second)
  have next : f.units c = f.units (c' - 1) := by omega
  have neighbour := f.units_strictMono.injective next
  have even := h.tie (Or.inr first)
  have even' := h'.tie (Or.inl second)
  omega

theorem Rounds.unique {c c' n d : Nat} (positive : 0 < d) (h : f.Rounds c n d)
    (h' : f.Rounds c' n d) : c = c' :=
  Nat.le_antisymm (Nat.le_of_not_lt (h'.not_lt positive h)) (Nat.le_of_not_lt (h.not_lt positive h'))

theorem place_bounds (f : Format) (n : Nat) {d : Nat} (positive : 0 < d) :
    n < 2 * f.hidden * (d * twoTo (Nat.log2 (n / d) - f.fraction)) ∧
      (Nat.log2 (n / d) - f.fraction = 0 ∨
        f.hidden * (d * twoTo (Nat.log2 (n / d) - f.fraction)) ≤ n) := by
  generalize place : Nat.log2 (n / d) - f.fraction = p
  have scale : f.hidden * (d * twoTo p) = twoTo (f.fraction + p) * d := by
    rw [twoTo_add, hidden]
    ring
  constructor
  · have below : n / d < twoTo (f.fraction + p + 1) :=
      Nat.lt_of_lt_of_le Nat.lt_log2_self (Nat.pow_le_pow_right (by decide) (by omega))
    have bound := (Nat.div_lt_iff_lt_mul positive).mp below
    rw [twoTo_succ, Nat.mul_assoc, ← scale] at bound
    rwa [Nat.mul_assoc]
  · by_cases first : p = 0
    · exact Or.inl first
    · have exponent : Nat.log2 (n / d) = f.fraction + p := by omega
      have nonzero : n / d ≠ 0 := by
        intro vanished
        rw [vanished, Nat.log2_zero] at exponent
        omega
      have above : twoTo (f.fraction + p) ≤ n / d := exponent ▸ Nat.log2_self_le nonzero
      rw [scale]
      exact Or.inr ((Nat.le_div_iff_mul_le positive).mp above)

theorem rounds_of_place (fractional : 1 ≤ f.fraction) (n : Nat) {d : Nat} (positive : 0 < d) :
    f.Rounds ((Nat.log2 (n / d) - f.fraction) * f.hidden +
      roundHalfEven n (d * twoTo (Nat.log2 (n / d) - f.fraction))) n d := by
  obtain ⟨below, above⟩ := f.place_bounds n positive
  generalize Nat.log2 (n / d) - f.fraction = p at below above ⊢
  have step : 0 < d * twoTo p := Nat.mul_pos positive (twoTo_pos p)
  obtain ⟨near, far, half⟩ := roundHalfEven_bounds n step
  have least := div_le_roundHalfEven n (d * twoTo p)
  have most := roundHalfEven_le n (d * twoTo p)
  generalize roundHalfEven n (d * twoTo p) = r at near far half least most ⊢
  have high : r ≤ 2 * f.hidden := by
    have := (Nat.div_lt_iff_lt_mul step).mpr below
    omega
  have low : p = 0 ∨ f.hidden ≤ r :=
    above.imp_right fun h => Nat.le_trans ((Nat.le_div_iff_mul_le step).mpr h) least
  have value : f.units (p * f.hidden + r) * d = r * (d * twoTo p) := by
    rw [units_at low high]
    ring
  have upper : (r + 1) * (d * twoTo p) ≤ f.units (p * f.hidden + r + 1) * d := by
    have scaled := Nat.mul_le_mul_right d (units_at_succ low high)
    rwa [Nat.mul_assoc, Nat.mul_comm (twoTo p)] at scaled
  have lower : r * (d * twoTo p) ≤ n ∨
      f.units (p * f.hidden + r - 1) * d + d * twoTo p = r * (d * twoTo p) := by
    refine (Nat.lt_or_ge n (r * (d * twoTo p))).symm.imp_right fun beyond => ?_
    obtain ⟨m, rfl⟩ : ∃ m, r = m + 1 :=
      Nat.exists_eq_succ_of_ne_zero fun vanished => by simp [vanished] at beyond
    have inner : p = 0 ∨ f.hidden ≤ m := above.imp_right fun h =>
      Nat.le_of_lt_succ (Nat.lt_of_mul_lt_mul_right (Nat.lt_of_le_of_lt h beyond))
    rw [Nat.mul_left_comm, ← units_at_pred inner high]
    ring
  have down := f.units_pred_mul_le (p * f.hidden + r) d
  rw [Nat.succ_mul] at upper
  refine ⟨?_, ?_, ?_⟩
  · rw [Nat.add_mul, value]
    omega
  · rw [Nat.add_mul, value]
    omega
  · rw [mod_two_of_place fractional, Nat.add_mul, Nat.add_mul, value]
    rintro (left | right)
    · rcases lower with inside | stepped
      · have zero := f.eq_zero_of_units_pred_mul (c := p * f.hidden + r) positive (by omega)
        omega
      · exact half (Or.inl (by omega))
    · exact half (Or.inr (by omega))

/-- Rounding finds the code that a fraction rounds to. -/
theorem nearest_eq_of_rounds (fractional : 1 ≤ f.fraction) {c n d : Nat} (positive : 0 < d)
    (finite : c ≤ f.infinity) (h : f.Rounds c n d) : f.nearest n d = c := by
  have same := (rounds_of_place fractional n positive).unique positive h
  rw [nearest, same, Nat.min_eq_left finite]

private theorem rounds_self (f : Format) (c : Nat) {d : Nat} (positive : 0 < d) :
    f.Rounds c (f.units c * d) d := by
  have down := f.units_pred_mul_le c d
  have up : f.units c * d < f.units (c + 1) * d :=
    Nat.mul_lt_mul_of_pos_right (f.units_lt_succ c) positive
  refine ⟨by rw [Nat.add_mul]; omega, by rw [Nat.add_mul]; omega, ?_⟩
  rw [Nat.add_mul, Nat.add_mul]
  rintro (left | right)
  · have zero := f.eq_zero_of_units_pred_mul (c := c) positive (by omega)
    omega
  · omega

theorem nearest_units (fractional : 1 ≤ f.fraction) {c d : Nat} (positive : 0 < d)
    (finite : c ≤ f.infinity) : f.nearest (f.units c * d) d = c :=
  nearest_eq_of_rounds fractional positive finite (f.rounds_self c positive)

private theorem exists_units_double (f : Format) (c : Nat) :
    ∃ c' ≤ c + f.hidden, f.units c' = 2 * f.units c := by
  by_cases small : c < f.hidden
  · refine ⟨2 * c, by omega, ?_⟩
    rw [units_of_le (by omega), units_of_le (by omega)]
  · obtain ⟨p, m, rfl, low, high⟩ := exists_place (Nat.le_of_not_lt small)
    refine ⟨(p + 1) * f.hidden + m, by rw [Nat.succ_mul]; omega, ?_⟩
    rw [units_place (p + 1) low (Nat.le_of_lt high), units_place p low (Nat.le_of_lt high),
      twoTo_succ]
    ring

theorem exists_units_eq {m : Nat} (few : m ≤ 2 * f.hidden) (e : Nat) :
    ∃ c ≤ m + e * f.hidden, f.units c = m * twoTo e := by
  induction e with
  | zero => exact ⟨m, by omega, by rw [units_of_le few, show twoTo 0 = 1 from rfl, Nat.mul_one]⟩
  | succ e ih =>
    obtain ⟨c, bound, value⟩ := ih
    obtain ⟨c', bound', value'⟩ := f.exists_units_double c
    refine ⟨c', by rw [Nat.succ_mul]; omega, ?_⟩
    rw [value', value, twoTo_succ]
    ring

end Format

end DeviceLink.Number
