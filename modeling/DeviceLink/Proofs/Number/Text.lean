import DeviceLink.Proofs.Number.Decimals
import DeviceLink.Proofs.Number.Literals

/-!
The text of a finite number is read back as the number (`ofString?_text`). The digits of the shortest
decimal are written around a point; whatever the place of the point is, the numeral that is read
denotes the same value, and so rounds to the same number. The text is a literal (`literal_chars`),
and so it holds no blank.
-/

set_option autoImplicit false
set_option relaxedAutoImplicit false

namespace DeviceLink.Number

open Format (binary64)

/-! Digits and their value. -/

private theorem digitsValue_append (n : Nat) (ds es : List Char) :
    digitsValue n (ds ++ es) = digitsValue (digitsValue n ds) es :=
  List.foldl_append

private theorem digitsValue_zeros (n k : Nat) :
    digitsValue n (List.replicate k '0') = tenTo k * n :=
  Nat.ofDigitChars_replicate_zero

theorem digitsValue_toDigits (n : Nat) : digitsValue 0 (Nat.toDigits 10 n) = n :=
  Nat.ofDigitChars_ten_toDigits

theorem isDigit_of_mem_toDigits {n : Nat} {c : Char} (h : c ∈ Nat.toDigits 10 n) :
    c.isDigit = true :=
  Nat.isDigit_of_mem_toDigits (by decide) (by decide) h

private theorem isDigit_of_mem_zeros {k : Nat} {c : Char} (h : c ∈ List.replicate k '0') :
    c.isDigit = true := by
  rw [(List.mem_replicate.mp h).2]
  decide

private theorem toDigits_eq_significantDigits (n : Nat) :
    ∃ k, Nat.toDigits 10 n = Layout.significantDigits n ++ List.replicate k '0' := by
  have zeros : (Nat.toDigits 10 n).reverse.takeWhile (· == '0') =
      List.replicate ((Nat.toDigits 10 n).reverse.takeWhile (· == '0')).length '0' :=
    List.eq_replicate_iff.mpr ⟨rfl, fun c inside =>
      eq_of_beq (List.mem_takeWhile_imp (p := fun c => c == '0') inside)⟩
  refine ⟨((Nat.toDigits 10 n).reverse.takeWhile (· == '0')).length, ?_⟩
  rw [Layout.significantDigits, ← List.reverse_replicate, ← zeros, ← List.reverse_append,
    List.takeWhile_append_dropWhile, List.reverse_reverse]

private theorem digitsValue_significantDigits {n k : Nat}
    (h : Nat.toDigits 10 n = Layout.significantDigits n ++ List.replicate k '0') :
    n = tenTo k * digitsValue 0 (Layout.significantDigits n) := by
  rw [← digitsValue_zeros, ← digitsValue_append, ← h, digitsValue_toDigits]

/-! Numerals without an exponent. -/

namespace Binary64

private theorem exists_numeral_positionalText {ds : List Char} (digits : Digits ds) (point : Int) :
    ∃ d, Numeral (Layout.positionalText false ds point) d ∧
      d.value = digitsValue 0 ds * 10 ^ (point - ds.length) := by
  rw [Layout.positionalText]
  split
  · rename_i small
    have front : digitsValue 0 ('0' :: List.replicate (-point).toNat '0') = 0 :=
      digitsValue_zeros 0 ((-point).toNat + 1)
    have value : digitsValue 0 (['0'] ++ (List.replicate (-point).toNat '0' ++ ds)) =
        digitsValue 0 ds := by
      rw [← List.append_assoc, digitsValue_append]
      exact congrArg (digitsValue · ds) front
    have place : -((List.replicate (-point).toNat '0' ++ ds).length : Int) = point - ds.length := by
      rw [List.length_append, List.length_replicate]
      omega
    have zero : ∀ c ∈ ['0'], c.isDigit = true := List.forall_mem_singleton.mpr rfl
    have all : Digits (['0'] ++ (List.replicate (-point).toNat '0' ++ ds)) := by
      refine ⟨List.cons_ne_nil _ _, ?_⟩
      rw [List.forall_mem_append, List.forall_mem_append]
      exact ⟨zero, fun c => isDigit_of_mem_zeros, digits.2⟩
    refine ⟨_, .fraction all, ?_⟩
    rw [Decimal.value, value, place]
  · split
    · rename_i long
      have place : ((point.toNat - ds.length : Nat) : Int) = point - ds.length := by omega
      have all : Digits (ds ++ List.replicate (point.toNat - ds.length) '0') := by
        refine ⟨List.append_ne_nil_of_left_ne_nil digits.1 _, ?_⟩
        exact List.forall_mem_append.mpr ⟨digits.2, fun c => isDigit_of_mem_zeros⟩
      simp only [Bool.false_eq_true, if_false, List.append_nil]
      refine ⟨_, .digits all, ?_⟩
      rw [Decimal.value, digitsValue_append, digitsValue_zeros, ← place, zpow_natCast,
        Nat.cast_mul, cast_tenTo, zpow_zero, Rat.mul_one, mul_comm]
    · have place : -((ds.drop point.toNat).length : Int) = point - ds.length := by
        rw [List.length_drop]
        omega
      have all : Digits (ds.take point.toNat ++ ds.drop point.toNat) := by
        rwa [List.take_append_drop]
      refine ⟨_, .fraction all, ?_⟩
      rw [Decimal.value, List.take_append_drop, place]

/-! Whole texts. -/

def signText (negative : Bool) : List Char :=
  if negative then ['-'] else []

private theorem sign_signText (negative : Bool) : Sign (signText negative) negative := by
  cases negative with
  | true => exact .minus
  | false => exact .none

private theorem chars_of_isFinite {x : Binary64} (finite : x.isFinite = true) :
    Layout.readable.chars x = signText x.isNegative ++
      if x.isZero then ['0'] else Layout.readable.decimalText (x.shortest .up) := by
  rw [Layout.chars, isNaN_of_isFinite finite, isInfinite_of_isFinite finite]
  cases x.isZero <;> rfl

private theorem digits_significantDigits {n : Nat} (positive : n ≠ 0) :
    Digits (Layout.significantDigits n) := by
  obtain ⟨k, same⟩ := toDigits_eq_significantDigits n
  constructor
  · intro vanished
    have digits := digitsValue_significantDigits same
    rw [vanished] at digits
    exact positive digits
  · intro c inside
    apply isDigit_of_mem_toDigits (n := n)
    rw [same]
    exact List.mem_append_left _ inside

private theorem exists_numeral_decimalText {d : Decimal} (positive : d.digits ≠ 0) :
    ∃ d', Numeral (Layout.readable.decimalText d) d' ∧ d'.value = d.value := by
  obtain ⟨k, same⟩ := toDigits_eq_significantDigits d.digits
  have digits := digitsValue_significantDigits same
  obtain ⟨d', numeral, value⟩ := exists_numeral_positionalText (digits_significantDigits positive)
    ((Nat.toDigits 10 d.digits).length + d.exponent)
  refine ⟨d', numeral, ?_⟩
  have place : ((Nat.toDigits 10 d.digits).length : Int) + d.exponent -
      (Layout.significantDigits d.digits).length = k + d.exponent := by
    rw [same, List.length_append, List.length_replicate]
    omega
  have cast : (d.digits : ℚ) = 10 ^ k * digitsValue 0 (Layout.significantDigits d.digits) := by
    rw [← cast_tenTo, ← Nat.cast_mul, ← digits]
  rw [value, place, Decimal.value, cast, zpow_add₀ (by norm_num), zpow_natCast]
  ring

/-- The text of a finite number is a literal that denotes the number. -/
theorem literal_chars {x : Binary64} (finite : x.isFinite = true) :
    Literal (Layout.readable.chars x) x := by
  obtain ⟨ds, d, same, numeral, value⟩ : ∃ ds d,
      Layout.readable.chars x = signText x.isNegative ++ ds ∧ Numeral ds d ∧
        ofDecimal x.isNegative d = x := by
    rw [chars_of_isFinite finite]
    by_cases zero : x.code = 0
    · have isZero : x.isZero = true := beq_of_eq zero
      rw [isZero, if_pos rfl]
      refine ⟨_, _, rfl, .digits ⟨List.cons_ne_nil _ _, List.forall_mem_singleton.mpr rfl⟩, ?_⟩
      rw [ofDecimal, if_pos (by decide), ← zero, ofCode_code]
    · have isZero : x.isZero = false := beq_false_of_ne zero
      have found := roundsTo_shortest zero .up
      obtain ⟨d, numeral, value⟩ := exists_numeral_decimalText (found.digits_ne_zero zero)
      rw [isZero, if_neg Bool.false_ne_true]
      refine ⟨_, d, rfl, numeral, ?_⟩
      rw [ofDecimal_eq _ zero ((isFinite_iff x).mp finite) (found.congr value.symm), ofCode_code]
  have literal := Literal.numeral (sign_signText x.isNegative) numeral
  rwa [value, ← same] at literal

theorem read_chars {x : Binary64} (finite : x.isFinite = true) :
    read (Layout.readable.chars x) = some x :=
  read_eq_some_iff.mpr (literal_chars finite)

theorem ofString?_text {x : Binary64} (finite : x.isFinite = true) :
    ofString? x.text = some x := by
  rw [ofString?, text, Layout.write, String.toList_ofList, read_chars finite]

/-! Texts and blanks. -/

theorem isBlank_of_mem_chars {x : Binary64} (finite : x.isFinite = true) {c : Char}
    (inside : c ∈ Layout.readable.chars x) : Text.isBlank c = false :=
  (literal_chars finite).solid c inside

theorem chars_ne_nil {x : Binary64} (finite : x.isFinite = true) :
    Layout.readable.chars x ≠ [] := by
  intro vanished
  have same := read_chars finite
  have unread : read [] = none := by decide
  rw [vanished, unread] at same
  cases same

end Binary64

/-! Whole numbers. -/

theorem toList_toString (n : Nat) : (toString n).toList = Nat.toDigits 10 n :=
  String.toList_ofList

private theorem digits_toDigits (n : Nat) : Digits (Nat.toDigits 10 n) :=
  ⟨Nat.toDigits_ne_nil, fun _ inside => isDigit_of_mem_toDigits inside⟩

theorem readNat_toString (n : Nat) : readNat (toString n).toList = some n := by
  have digits := digits_toDigits n
  obtain ⟨c, rest, shape, digit⟩ := exists_cons_of_digits digits
  have read : readDigits (Nat.toDigits 10 n) = some n :=
    readDigits_eq_some_iff.mpr ⟨digits, digitsValue_toDigits n⟩
  have unsigned : c ≠ '+' := by
    rintro rfl
    exact absurd digit (by decide)
  rw [toList_toString, shape] at *
  rw [readNat.eq_2 _ fun _ same => unsigned (List.cons.inj same).1]
  exact read

theorem exists_toList_toString (n : Int) : ∃ sign negative,
    (toString n).toList = sign ++ Nat.toDigits 10 n.natAbs ∧ Sign sign negative ∧
      n = if negative then -(n.natAbs : Int) else n.natAbs := by
  cases n with
  | ofNat m => exact ⟨[], false, toList_toString m, .none, rfl⟩
  | negSucc m =>
    refine ⟨['-'], true, ?_, .minus, rfl⟩
    show ("-" ++ toString (m + 1)).toList = _
    rw [String.toList_append, toList_toString]
    rfl

theorem readInt_toString (n : Int) : readInt (toString n).toList = some n := by
  obtain ⟨sign, negative, shape, signed, value⟩ := exists_toList_toString n
  refine readInt_eq_some_iff.mpr ⟨sign, negative, _, shape, signed, digits_toDigits _, ?_⟩
  rw [digitsValue_toDigits, ← value]

theorem solid_toDigits (n : Nat) : ∀ c ∈ Nat.toDigits 10 n, Text.isBlank c = false :=
  fun _ inside => isBlank_of_isDigit (isDigit_of_mem_toDigits inside)

end DeviceLink.Number
