import DeviceLink.Number.Numeral
import DeviceLink.Proofs.Number.Exactness
import Mathlib.Algebra.Order.Field.Basic
import Mathlib.Data.Rat.Cast.Order
import Mathlib.Tactic.FieldSimp

/-!
The shortest decimal of a number is read back as the number. A decimal reads back as a code when it
lies in the interval that rounds to the code; the search for a short one only takes decimals there
(`roundsTo_of_onGrid?`), and finds one with seventeen digits at the latest, since the step of that
grid is below the width of the interval (`isSome_onGrid?`).
-/

set_option autoImplicit false
set_option relaxedAutoImplicit false

namespace DeviceLink.Number

open Format (binary64)

private theorem tenTo_pos (n : Nat) : 0 < tenTo n :=
  Nat.pow_pos (by decide)

private theorem tenTo_add (m n : Nat) : tenTo (m + n) = tenTo m * tenTo n :=
  Nat.pow_add 10 m n

private theorem tenTo_mono {m n : Nat} (h : m ≤ n) : tenTo m ≤ tenTo n :=
  Nat.pow_le_pow_right (by decide) h

@[simp] theorem cast_tenTo (n : Nat) : (tenTo n : ℚ) = 10 ^ n :=
  Nat.cast_pow 10 n

private theorem toDigits_bounds {n : Nat} (nonzero : n ≠ 0) :
    tenTo ((Nat.toDigits 10 n).length - 1) ≤ n ∧ n < tenTo (Nat.toDigits 10 n).length := by
  have long : 0 < (Nat.toDigits 10 n).length := Nat.length_toDigits_pos
  refine ⟨?_, (Nat.length_toDigits_le_iff (by decide) long).mp (Nat.le_refl _)⟩
  rcases Nat.eq_zero_or_pos ((Nat.toDigits 10 n).length - 1) with single | more
  · rw [single]
    exact Nat.pos_of_ne_zero nonzero
  · refine Nat.le_of_not_lt fun below => ?_
    have := (Nat.length_toDigits_le_iff (by decide) more).mpr below
    omega

/-! Decimals that read back as a code. -/

namespace Format

variable {f : Format} {c n d n' d' : Nat}

theorem Rounds.congr (positive : 0 < d) (positive' : 0 < d') (same : n * d' = n' * d)
    (h : f.Rounds c n d) : f.Rounds c n' d' := by
  have scale (k : Nat) : k * d' * d = k * d * d' := Nat.mul_right_comm k d' d
  have value : 2 * n' * d = 2 * n * d' := by rw [Nat.mul_assoc, ← same, Nat.mul_assoc]
  have back {k : Nat} (h : 2 * n' = k * d') : 2 * n = k * d :=
    Nat.eq_of_mul_eq_mul_right positive' (by rw [← value, h, scale])
  refine ⟨Nat.le_of_mul_le_mul_right ?_ positive, Nat.le_of_mul_le_mul_right ?_ positive,
    fun ends => h.tie (ends.imp back back)⟩
  · rw [scale, value]
    exact Nat.mul_le_mul_right d' h.low
  · rw [scale, value]
    exact Nat.mul_le_mul_right d' h.high

end Format

namespace Decimal

def value (d : Decimal) : ℚ :=
  d.digits * 10 ^ d.exponent

/-- A decimal lies in the interval of the values that round to a code of binary64. -/
def RoundsTo (d : Decimal) (c : Nat) : Prop :=
  binary64.Rounds c (d.digits * tenTo d.exponent.toNat * Binary64.unitsOfOne)
    (tenTo (-d.exponent).toNat)

private theorem value_mul_tenTo (d : Decimal) :
    d.value * tenTo (-d.exponent).toNat = d.digits * tenTo d.exponent.toNat := by
  have parts : (10 : ℚ) ^ d.exponent * 10 ^ (-d.exponent).toNat = 10 ^ d.exponent.toNat := by
    rw [← zpow_natCast, ← zpow_natCast, ← zpow_add₀ (by norm_num)]
    congr 1
    omega
  rw [value, mul_assoc, cast_tenTo, cast_tenTo, parts]

theorem RoundsTo.congr {d d' : Decimal} {c : Nat} (same : d.value = d'.value)
    (h : d.RoundsTo c) : d'.RoundsTo c := by
  refine Format.Rounds.congr (tenTo_pos _) (tenTo_pos _) ?_ h
  have cross : (d.digits * tenTo d.exponent.toNat) * tenTo (-d'.exponent).toNat =
      d'.digits * tenTo d'.exponent.toNat * tenTo (-d.exponent).toNat := by
    have cast : ((d.digits * tenTo d.exponent.toNat * tenTo (-d'.exponent).toNat : Nat) : ℚ) =
        (d'.digits * tenTo d'.exponent.toNat * tenTo (-d.exponent).toNat : Nat) := by
      push_cast
      rw [← value_mul_tenTo, ← value_mul_tenTo, same]
      ring
    exact_mod_cast cast
  rw [Nat.mul_right_comm, cross, Nat.mul_right_comm]

variable {d : Decimal} {c : Nat}

theorem RoundsTo.digits_ne_zero (nonzero : c ≠ 0) (h : d.RoundsTo c) : d.digits ≠ 0 := by
  intro vanished
  have below := h.low
  have positive : 0 < binary64.units c :=
    Nat.pos_of_ne_zero fun zero => nonzero (Format.units_eq_zero_iff.mp zero)
  have := Nat.mul_pos (Nat.add_pos_right (binary64.units (c - 1)) positive)
    (tenTo_pos (-d.exponent).toNat)
  rw [vanished, Nat.zero_mul, Nat.zero_mul] at below
  omega

private theorem RoundsTo.top_le (nonzero : c ≠ 0) (finite : c < binary64.infinity)
    (h : d.RoundsTo c) : (Nat.toDigits 10 d.digits).length + d.exponent ≤ 400 := by
  refine Int.not_lt.mp fun beyond => ?_
  have long : 0 < (Nat.toDigits 10 d.digits).length := Nat.length_toDigits_pos
  have limit : binary64.units binary64.infinity < tenTo 400 * Binary64.unitsOfOne := by
    decide +kernel
  have mono := binary64.units_strictMono.monotone
  have code : binary64.units c ≤ binary64.units binary64.infinity := mono (Nat.le_of_lt finite)
  have next : binary64.units (c + 1) ≤ binary64.units binary64.infinity := mono finite
  have places : tenTo 400 * tenTo (-d.exponent).toNat ≤ d.digits * tenTo d.exponent.toNat :=
    calc tenTo 400 * tenTo (-d.exponent).toNat
        ≤ tenTo ((Nat.toDigits 10 d.digits).length - 1) * tenTo d.exponent.toNat := by
          rw [← tenTo_add, ← tenTo_add]
          exact tenTo_mono (by omega)
      _ ≤ d.digits * tenTo d.exponent.toNat :=
          Nat.mul_le_mul_right _ (toDigits_bounds (h.digits_ne_zero nonzero)).1
  have value : tenTo 400 * Binary64.unitsOfOne * tenTo (-d.exponent).toNat ≤
      binary64.units binary64.infinity * tenTo (-d.exponent).toNat := by
    refine Nat.le_of_mul_le_mul_left ?_ (Nat.two_pos)
    calc 2 * (tenTo 400 * Binary64.unitsOfOne * tenTo (-d.exponent).toNat)
        ≤ 2 * (d.digits * tenTo d.exponent.toNat * Binary64.unitsOfOne) := by
          rw [Nat.mul_right_comm (tenTo 400)]
          exact Nat.mul_le_mul_left 2 (Nat.mul_le_mul_right _ places)
      _ ≤ (binary64.units c + binary64.units (c + 1)) * tenTo (-d.exponent).toNat := h.high
      _ ≤ 2 * (binary64.units binary64.infinity * tenTo (-d.exponent).toNat) := by
          rw [← Nat.mul_assoc]
          exact Nat.mul_le_mul_right _ (by omega)
  exact Nat.not_lt_of_le (Nat.le_of_mul_le_mul_right value (tenTo_pos _)) limit

private theorem RoundsTo.le_top (nonzero : c ≠ 0) (h : d.RoundsTo c) :
    -400 ≤ (Nat.toDigits 10 d.digits).length + d.exponent := by
  refine Int.not_lt.mp fun beyond => ?_
  have limit : 2 * Binary64.unitsOfOne < tenTo 401 := by decide +kernel
  have least : 0 < d.digits := Nat.pos_of_ne_zero (h.digits_ne_zero nonzero)
  have positive : 1 ≤ binary64.units (c - 1) + binary64.units c :=
    Nat.add_pos_right _ (Nat.pos_of_ne_zero fun zero => nonzero (Format.units_eq_zero_iff.mp zero))
  have value : tenTo 401 * (d.digits * tenTo d.exponent.toNat) ≤
      2 * Binary64.unitsOfOne * (d.digits * tenTo d.exponent.toNat) :=
    calc tenTo 401 * (d.digits * tenTo d.exponent.toNat)
        ≤ tenTo 401 * (tenTo (Nat.toDigits 10 d.digits).length * tenTo d.exponent.toNat) :=
          Nat.mul_le_mul_left _
            (Nat.mul_le_mul_right _ (Nat.le_of_lt (toDigits_bounds (Nat.ne_of_gt least)).2))
      _ ≤ 1 * tenTo (-d.exponent).toNat := by
          rw [← tenTo_add, ← tenTo_add, Nat.one_mul]
          exact tenTo_mono (by omega)
      _ ≤ (binary64.units (c - 1) + binary64.units c) * tenTo (-d.exponent).toNat :=
          Nat.mul_le_mul_right _ positive
      _ ≤ 2 * (d.digits * tenTo d.exponent.toNat * Binary64.unitsOfOne) := h.low
      _ = 2 * Binary64.unitsOfOne * (d.digits * tenTo d.exponent.toNat) := by ring
  have product := Nat.mul_pos least (tenTo_pos d.exponent.toNat)
  exact Nat.not_lt_of_le (Nat.le_of_mul_le_mul_right value product) limit

end Decimal

namespace Binary64

theorem ofDecimal_eq (negative : Bool) {d : Decimal} {c : Nat} (nonzero : c ≠ 0)
    (finite : c < binary64.infinity) (h : d.RoundsTo c) :
    ofDecimal negative d = ofCode negative c := by
  have high := h.top_le nonzero finite
  have low := h.le_top nonzero
  rw [ofDecimal, if_neg (h.digits_ne_zero nonzero), if_neg (by omega), if_neg (by omega), ofRatio,
    Format.nearest_eq_of_rounds (by decide) (tenTo_pos _) (Nat.le_of_lt finite) h]

end Binary64

/-! The search for a short decimal. -/

namespace Span

private theorem holds_of_multiple? {s : Span} {tie : Tie} {step m : Nat}
    (h : s.multiple? tie step = some m) : s.holds (m * step) = true := by
  simp only [multiple?] at h
  split at h
  · rename_i below
    split at h
    · rename_i above
      have either {n : Nat} (beside : n = s.mid / step ∨ n = s.mid / step + 1) :
          s.holds (n * step) = true := by
        rcases beside with rfl | rfl
        · exact below
        · exact above
      refine either ?_
      split at h
      · exact Or.inl (Option.some.inj h).symm
      · split at h
        · exact Or.inr (Option.some.inj h).symm
        · cases tie with
          | up => exact Or.inr (Option.some.inj h).symm
          | toEven =>
            have := Option.some.inj h
            omega
    · exact Option.some.inj h ▸ below
  · split at h
    · rename_i above
      exact Option.some.inj h ▸ above
    · contradiction

private theorem holds_above {s : Span} {step : Nat} (positive : 0 < step) (low : s.low < s.mid)
    (high : s.mid < s.high) (fine : s.low + step < s.high)
    (below : ¬ s.holds (s.mid / step * step) = true) :
    s.holds ((s.mid / step + 1) * step) = true := by
  have part : s.mid % step < step := Nat.mod_lt _ positive
  have whole : s.mid / step * step + s.mid % step = s.mid := Nat.div_add_mod' _ _
  have next : (s.mid / step + 1) * step = s.mid / step * step + step := Nat.succ_mul _ _
  rw [next]
  generalize s.mid / step * step = m at below whole ⊢
  cases closed : s.closed <;>
    simp only [holds, closed, Bool.false_eq_true, if_false, if_true, Bool.and_eq_true,
      decide_eq_true_eq] at below ⊢ <;>
    omega

private theorem isSome_multiple? {s : Span} {step : Nat} (tie : Tie) (positive : 0 < step)
    (low : s.low < s.mid) (high : s.mid < s.high) (fine : s.low + step < s.high) :
    (s.multiple? tie step).isSome = true := by
  simp only [multiple?]
  by_cases below : s.holds (s.mid / step * step) = true
  · rw [if_pos below]
    split
    · split
      · rfl
      · split
        · rfl
        · cases tie <;> rfl
    · rfl
  · rw [if_neg below, if_pos (holds_above positive low high fine below)]
    rfl

end Span

namespace Binary64

private theorem unitsOfOne_mul_tenTo_le {x : Binary64} (nonzero : x.code ≠ 0) :
    unitsOfOne * tenTo x.leadingExponent.toNat ≤ x.units * tenTo (-x.leadingExponent).toNat := by
  have limit : unitsOfOne ≤ tenTo 400 := by decide +kernel
  have positive : 1 ≤ x.units :=
    Nat.pos_of_ne_zero fun zero => nonzero (Format.units_eq_zero_iff.mp zero)
  have large : x.units * tenTo 400 / unitsOfOne ≠ 0 := by
    refine Nat.ne_of_gt (Nat.div_pos ?_ unitsOfOne_pos)
    exact Nat.le_trans limit (Nat.le_mul_of_pos_left _ positive)
  have long : 0 < (Nat.toDigits 10 (x.units * tenTo 400 / unitsOfOne)).length :=
    Nat.length_toDigits_pos
  have below := (Nat.le_div_iff_mul_le unitsOfOne_pos).mp (toDigits_bounds large).1
  rw [leadingExponent]
  generalize (Nat.toDigits 10 (x.units * tenTo 400 / unitsOfOne)).length = l at long below ⊢
  -- The top of the numeral is counted from four hundred places below the point.
  have places : tenTo (l - 1) * tenTo (-((l : Int) - 401)).toNat =
      tenTo ((l : Int) - 401).toNat * tenTo 400 := by
    rw [← tenTo_add, ← tenTo_add]
    congr 1
    omega
  refine Nat.le_of_mul_le_mul_right ?_ (tenTo_pos 400)
  calc unitsOfOne * tenTo ((l : Int) - 401).toNat * tenTo 400
      = tenTo (l - 1) * unitsOfOne * tenTo (-((l : Int) - 401)).toNat := by
        rw [Nat.mul_assoc, ← places]
        ring
    _ ≤ x.units * tenTo 400 * tenTo (-((l : Int) - 401)).toNat := Nat.mul_le_mul_right _ below
    _ = x.units * tenTo (-((l : Int) - 401)).toNat * tenTo 400 := Nat.mul_right_comm _ _ _

private theorem step_lt_width {x : Binary64} (nonzero : x.code ≠ 0) {k : Int}
    (place : k = x.leadingExponent - 16) :
    2 * unitsOfOne * tenTo k.toNat + binary64.units (x.code - 1) * tenTo (-k).toNat <
      binary64.units (x.code + 1) * tenTo (-k).toNat := by
  have places : tenTo x.leadingExponent.toNat * tenTo (-k).toNat =
      tenTo 16 * (tenTo k.toNat * tenTo (-x.leadingExponent).toNat) := by
    rw [← tenTo_add, ← tenTo_add, ← tenTo_add]
    exact congrArg tenTo (by omega)
  have top := unitsOfOne_mul_tenTo_le nonzero
  have mono := binary64.units_strictMono
  have order : binary64.units (x.code - 1) < binary64.units (x.code + 1) := mono (by omega)
  obtain ⟨w, width⟩ := Nat.exists_eq_add_of_lt order
  rw [Nat.add_assoc] at width
  have spread : x.units ≤ binary64.hidden * (w + 1) := by
    have := binary64.units_spread nonzero
    rw [width, Nat.mul_add] at this
    rw [units]
    omega
  have digits : 2 * binary64.hidden < tenTo 16 := by decide
  have positive := Nat.mul_pos (tenTo_pos (-x.leadingExponent).toNat) (tenTo_pos (-k).toNat)
  rw [width, Nat.add_mul, Nat.add_comm]
  refine Nat.add_lt_add_left ?_ _
  generalize tenTo x.leadingExponent.toNat = up, tenTo (-x.leadingExponent).toNat = down,
    tenTo k.toNat = step, tenTo (-k).toNat = scale, tenTo 16 = wide, binary64.hidden = hidden,
    unitsOfOne = one at *
  refine Nat.lt_of_mul_lt_mul_left (a := wide * down) ?_
  calc wide * down * (2 * one * step)
      = 2 * one * (wide * (step * down)) := by ring
    _ = 2 * (one * up) * scale := by rw [← places]; ring
    _ ≤ 2 * (x.units * down) * scale :=
        Nat.mul_le_mul_right _ (Nat.mul_le_mul_left 2 top)
    _ ≤ 2 * (hidden * (w + 1) * down) * scale :=
        Nat.mul_le_mul_right _ (Nat.mul_le_mul_left 2 (Nat.mul_le_mul_right _ spread))
    _ = 2 * hidden * ((w + 1) * (down * scale)) := by ring
    _ < wide * ((w + 1) * (down * scale)) :=
        Nat.mul_lt_mul_of_pos_right digits (Nat.mul_pos (Nat.succ_pos w) positive)
    _ = wide * down * ((w + 1) * scale) := by ring

/-- A decimal that the search takes lies in the interval of the number. -/
theorem roundsTo_of_onGrid? {x : Binary64} {tie : Tie} {k : Int} {d : Decimal}
    (h : x.onGrid? tie k = some d) : d.RoundsTo x.code := by
  obtain ⟨m, found, rfl⟩ := Option.map_eq_some_iff.mp h
  have inside := Span.holds_of_multiple? found
  have twice : m * (2 * unitsOfOne * tenTo k.toNat) = 2 * (m * tenTo k.toNat * unitsOfOne) := by
    ring
  rw [twice] at inside
  cases even : x.code % 2 == 0 <;>
    simp only [Span.holds, Span.scaleBy, span, units, even, Bool.false_eq_true, if_false, if_true,
      Bool.and_eq_true, decide_eq_true_eq] at inside
  · exact ⟨Nat.le_of_lt inside.1, Nat.le_of_lt inside.2,
      (Or.elim · (absurd · (Nat.ne_of_gt inside.1)) (absurd · (Nat.ne_of_lt inside.2)))⟩
  · exact ⟨inside.1, inside.2, fun _ => eq_of_beq even⟩

theorem isSome_onGrid? {x : Binary64} (nonzero : x.code ≠ 0) (tie : Tie) :
    (x.onGrid? tie (x.leadingExponent - 16)).isSome = true := by
  generalize place : x.leadingExponent - 16 = k
  have fine := step_lt_width nonzero place.symm
  have positive := tenTo_pos (-k).toNat
  have down : binary64.units (x.code - 1) * tenTo (-k).toNat < x.units * tenTo (-k).toNat :=
    Nat.mul_lt_mul_of_pos_right (binary64.units_strictMono (by omega)) positive
  have up : x.units * tenTo (-k).toNat < binary64.units (x.code + 1) * tenTo (-k).toNat :=
    Nat.mul_lt_mul_of_pos_right (binary64.units_lt_succ _) positive
  rw [onGrid?, Option.isSome_map]
  refine Span.isSome_multiple? tie
    (Nat.mul_pos (Nat.mul_pos Nat.two_pos unitsOfOne_pos) (tenTo_pos _)) ?_ ?_ ?_ <;>
    simp only [Span.scaleBy, span, Nat.add_mul, Nat.mul_assoc 2] at fine ⊢ <;>
    omega

theorem roundsTo_shortest {x : Binary64} (nonzero : x.code ≠ 0) (tie : Tie) :
    (x.shortest tie).RoundsTo x.code := by
  have found : ((List.range 17).findSome? fun (n : Nat) =>
      x.onGrid? tie (x.leadingExponent - n)).isSome = true :=
    List.findSome?_isSome_iff.mpr ⟨16, by decide, isSome_onGrid? nonzero tie⟩
  obtain ⟨d, first⟩ := Option.isSome_iff_exists.mp found
  obtain ⟨n, -, taken⟩ := List.exists_of_findSome?_eq_some first
  have here : x.isZero = false := beq_false_of_ne nonzero
  simp only [shortest, here, Bool.false_eq_true, if_false, first, Option.getD_some]
  exact roundsTo_of_onGrid? taken

end Binary64

end DeviceLink.Number
