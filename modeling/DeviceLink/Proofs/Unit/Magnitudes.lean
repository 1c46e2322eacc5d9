import DeviceLink.Proofs.Results
import DeviceLink.Proofs.Unit.Quantities

/-!
The number at the front of the text of a quantity. What is taken is the longest front that is a
finite literal (`Registry.parseQuantity_of_longest`). That is the longest literal, or no finite
literal is there, unless the longest one is a numeral beyond every finite number: then a shorter
numeral is taken, and its further digits go to the unit (`Registry.keepsNumber_iff`).
-/

set_option autoImplicit false
set_option relaxedAutoImplicit false

namespace DeviceLink

open Number (Binary64 Literal Numeral Sign)
open Number.Binary64 (read_eq_some_iff)

/-! Longest fronts. -/

/-- A front of a text that has a property once it is trimmed, and that no longer one has it. -/
structure LongestFront (P : List Char → Prop) (cs : List Char) (k : Nat) : Prop where
  inside : k ≤ cs.length
  holds : P (Text.trim (cs.take k))
  longest : ∀ j ≤ cs.length, P (Text.trim (cs.take j)) → j ≤ k

variable {P : List Char → Prop} {cs : List Char} {j k : Nat} {x y : Binary64}

theorem LongestFront.unique (front : LongestFront P cs j) (front' : LongestFront P cs k) :
    j = k := by
  apply Nat.le_antisymm
  · exact front'.longest j front.inside front.holds
  · exact front.longest k front'.inside front'.holds

private theorem exists_longestFront (inside : j ≤ cs.length) (holds : P (Text.trim (cs.take j))) :
    ∃ k, LongestFront P cs k := by
  classical
  refine ⟨Nat.findGreatest (fun k => P (Text.trim (cs.take k))) cs.length, ?_, ?_, ?_⟩
  · exact Nat.findGreatest_le _
  · exact Nat.findGreatest_spec (P := fun k => P (Text.trim (cs.take k))) inside holds
  · intro k bound there
    exact Nat.le_findGreatest bound there

/-! Literals at the front of a text. -/

/-- A text that denotes a number, which may be infinite or no number at all. -/
def IsLiteral (cs : List Char) : Prop :=
  ∃ x, Literal cs x

def IsFiniteLiteral (cs : List Char) : Prop :=
  ∃ x, Literal cs x ∧ x.isFinite = true

private theorem IsFiniteLiteral.isLiteral (finite : IsFiniteLiteral cs) : IsLiteral cs := by
  obtain ⟨x, literal, -⟩ := finite
  exact ⟨x, literal⟩

/-- A numeral beyond every finite number is the longest literal at the front of a text. -/
def Overflows (cs : List Char) : Prop :=
  ∃ k sign negative ds d, LongestFront IsLiteral cs k ∧ Sign sign negative ∧ Numeral ds d ∧
    Text.trim (cs.take k) = sign ++ ds ∧ (Binary64.ofDecimal negative d).isFinite = false

private theorem Overflows.not_isFinite (overflows : Overflows cs)
    (front : LongestFront IsLiteral cs k) (literal : Literal (Text.trim (cs.take k)) x) :
    x.isFinite = false := by
  obtain ⟨k', sign, negative, ds, d, front', signed, numeral, here, infinite⟩ := overflows
  obtain rfl := front.unique front'
  rw [here] at literal
  obtain rfl := literal.unique (.numeral signed numeral)
  exact infinite

private theorem Overflows.exists_finite (trimmed : Text.trim cs = cs) (overflows : Overflows cs) :
    ∃ j ≤ cs.length, IsFiniteLiteral (Text.trim (cs.take j)) := by
  obtain ⟨k, sign, negative, ds, d, -, signed, numeral, here, -⟩ := overflows
  obtain ⟨more, whole⟩ := Text.exists_trim_take_append trimmed k
  obtain ⟨front, rest, d', rfl, numeral', finite⟩ := numeral.exists_finite_front
  have literal := Literal.numeral signed numeral'
  have split : cs = (sign ++ front) ++ (rest ++ more) := by
    rw [← whole, here]
    simp only [List.append_assoc]
  refine ⟨(sign ++ front).length, ?_, _, ?_, finite negative⟩
  · rw [split]
    simp only [List.length_append]
    omega
  · rw [split, List.take_left, Text.trim_of_solid literal.solid]
    exact literal

private theorem not_finite_of_longest (trimmed : Text.trim cs = cs)
    (front : LongestFront IsLiteral cs k) (literal : Literal (Text.trim (cs.take k)) x)
    (infinite : x.isFinite = false) (within : ¬ Overflows cs) (j : Nat) :
    ¬ IsFiniteLiteral (Text.trim (cs.take j)) := by
  rintro ⟨y, literal', finite⟩
  obtain ⟨more, whole⟩ := Text.exists_trim_take_append trimmed k
  obtain ⟨more', whole'⟩ := Text.exists_trim_take_append trimmed j
  -- What follows the sign tells numerals from names, and it is the same for both literals.
  have kind := literal.leads_or more
  have kind' := literal'.leads_or more'
  rw [whole] at kind
  rw [whole'] at kind'
  rcases kind with ⟨-, sign, negative, ds, d, signed, numeral, here, rfl⟩ | ⟨name, -⟩
  · exact within ⟨k, sign, negative, ds, d, front, signed, numeral, here, infinite⟩
  · rcases kind' with ⟨number, -⟩ | ⟨-, infinite'⟩
    · rw [name] at number
      cases number
    · rw [finite] at infinite'
      cases infinite'

namespace Registry

variable {r : Registry} {source : String}

/-! What is taken. -/

private theorem numericFront?_eq_some_iff :
    numericFront? cs k = some x ↔ Literal (Text.trim (cs.take k)) x ∧ x.isFinite = true := by
  rw [numericFront?, Option.filter_eq_some_iff, read_eq_some_iff]

private theorem splitMagnitude?_eq_none (missing : ∀ k ≤ cs.length,
    ¬ IsFiniteLiteral (Text.trim (cs.take k))) : splitMagnitude? cs = none := by
  rw [splitMagnitude?, List.findSome?_eq_none_iff]
  intro before inside
  rw [List.mem_reverse, List.mem_range] at inside
  rw [Option.map_eq_none_iff, Option.eq_none_iff_forall_ne_some]
  intro x found
  exact missing (before + 1) inside ⟨x, numericFront?_eq_some_iff.mp found⟩

private theorem splitMagnitude?_eq_some (front : LongestFront IsFiniteLiteral cs k)
    (literal : Literal (Text.trim (cs.take k)) x) :
    splitMagnitude? cs = some (x, Text.trim (cs.drop k)) := by
  obtain ⟨y, literal', finite⟩ := front.holds
  obtain rfl := literal.unique literal'
  cases k with
  | zero =>
    have unread : Binary64.read [] = none := by decide
    have read := read_eq_some_iff.mpr literal
    rw [List.take_zero, show Text.trim [] = [] from rfl, unread] at read
    cases read
  | succ before =>
    apply splitMagnitude?_of_longest front.inside
    · exact numericFront?_eq_some_iff.mpr ⟨literal, finite⟩
    · intro j after inside
      rw [Option.eq_none_iff_forall_ne_some]
      intro y found
      have bound := front.longest (j + 1) inside ⟨y, numericFront?_eq_some_iff.mp found⟩
      omega

/-- A magnitude in the unit that an expression denotes, or in no unit without an expression. -/
def quantityOf (r : Registry) (x : Binary64) (expression : List Char) :
    Except QuantityError Quantity :=
  if expression = [] then .ok ⟨x, .dimensionless⟩
  else ((r.parse (String.ofList expression)).mapError .unit).map (⟨x, ·⟩)

private theorem quantityOf_ne_missing (x : Binary64) (expression : List Char) (text : String) :
    r.quantityOf x expression ≠ .error (.missingMagnitude text) := by
  rw [quantityOf]
  split
  · simp
  · cases r.parse (String.ofList expression) <;> simp [Except.mapError, Except.map]

/-- The longest front that is a finite literal is the magnitude, and what follows it is the unit. -/
theorem parseQuantity_of_longest
    (front : LongestFront IsFiniteLiteral (Text.trim source.toList) k)
    (literal : Literal (Text.trim ((Text.trim source.toList).take k)) x) :
    r.parseQuantity source = r.quantityOf x (Text.trim ((Text.trim source.toList).drop k)) := by
  simp only [parseQuantity, splitMagnitude?_eq_some front literal, quantityOf]
  generalize Text.trim ((Text.trim source.toList).drop k) = rest
  cases rest with
  | nil => rfl
  | cons c rest =>
    simp only [reduceCtorEq, if_false]
    cases r.parse (String.ofList (c :: rest)) <;> rfl

private theorem parseQuantity_of_missing (missing : ∀ k ≤ (Text.trim source.toList).length,
    ¬ IsFiniteLiteral (Text.trim ((Text.trim source.toList).take k))) :
    r.parseQuantity source =
      .error (.missingMagnitude (String.ofList (Text.trim source.toList))) := by
  simp only [parseQuantity, splitMagnitude?_eq_none missing]

/-! Numbers are kept whole unless they overflow. -/

/-- The number of a quantity is the longest literal at the front of its text: if the literal is
finite, it is the magnitude and what follows it is the unit; if it is not, or if there is none, the
magnitude is missing. -/
def KeepsNumber (r : Registry) (source : String) : Prop :=
  let cs := Text.trim source.toList
  (∀ k x, LongestFront IsLiteral cs k → Literal (Text.trim (cs.take k)) x → x.isFinite = true →
    r.parseQuantity source = r.quantityOf x (Text.trim (cs.drop k))) ∧
  ((∀ k x, LongestFront IsLiteral cs k → Literal (Text.trim (cs.take k)) x →
    x.isFinite = false) →
    r.parseQuantity source = .error (.missingMagnitude (String.ofList cs)))

private theorem keepsNumber_of_not_overflows (within : ¬ Overflows (Text.trim source.toList)) :
    r.KeepsNumber source := by
  have trimmed := Text.trim_trim source.toList
  refine ⟨?_, ?_⟩
  · intro k x front literal finite
    refine parseQuantity_of_longest ⟨front.inside, ⟨x, literal, finite⟩, ?_⟩ literal
    intro j inside there
    exact front.longest j inside there.isLiteral
  · intro infinite
    apply parseQuantity_of_missing
    intro j inside there
    obtain ⟨k, front⟩ := exists_longestFront inside there.isLiteral
    obtain ⟨x, literal⟩ := front.holds
    exact not_finite_of_longest trimmed front literal (infinite k x front literal) within j there

private theorem exists_shorter_of_overflows (r : Registry)
    (overflows : Overflows (Text.trim source.toList)) :
    ∃ j x, LongestFront IsFiniteLiteral (Text.trim source.toList) j ∧
      Literal (Text.trim ((Text.trim source.toList).take j)) x ∧
      (∀ k, LongestFront IsLiteral (Text.trim source.toList) k → j < k) ∧
      r.parseQuantity source = r.quantityOf x (Text.trim ((Text.trim source.toList).drop j)) := by
  have trimmed := Text.trim_trim source.toList
  obtain ⟨i, inside, there⟩ := overflows.exists_finite trimmed
  obtain ⟨j, shorter⟩ := exists_longestFront inside there
  obtain ⟨x, literal, finite⟩ := shorter.holds
  refine ⟨j, x, shorter, literal, ?_, parseQuantity_of_longest shorter literal⟩
  intro k front
  apply Nat.lt_of_le_of_ne (front.longest j shorter.inside ⟨x, literal⟩)
  rintro rfl
  have infinite := overflows.not_isFinite front literal
  rw [finite] at infinite
  cases infinite

private theorem not_keepsNumber_of_overflows (overflows : Overflows (Text.trim source.toList)) :
    ¬ r.KeepsNumber source := by
  rintro ⟨-, missing⟩
  obtain ⟨j, x, -, -, -, taken⟩ := exists_shorter_of_overflows r overflows
  apply quantityOf_ne_missing (r := r) x
  rw [← taken]
  apply missing
  intro k y front literal
  exact overflows.not_isFinite front literal

/-- The number of a quantity is kept whole, unless the longest literal at the front of the text is a
numeral beyond every finite number. Then the longest numeral before its end that is finite is the
magnitude, and the further digits are the front of the unit. -/
theorem keepsNumber_iff (r : Registry) (source : String) :
    (r.KeepsNumber source ↔ ¬ Overflows (Text.trim source.toList)) ∧
    (Overflows (Text.trim source.toList) →
      ∃ j x, LongestFront IsFiniteLiteral (Text.trim source.toList) j ∧
        Literal (Text.trim ((Text.trim source.toList).take j)) x ∧
        (∀ k, LongestFront IsLiteral (Text.trim source.toList) k → j < k) ∧
        r.parseQuantity source =
          r.quantityOf x (Text.trim ((Text.trim source.toList).drop j))) := by
  refine ⟨⟨?_, keepsNumber_of_not_overflows⟩, exists_shorter_of_overflows r⟩
  intro keeps overflows
  exact not_keepsNumber_of_overflows overflows keeps

/-- The number `1e309` is beyond every finite number, and is taken apart. -/
theorem splits_overflowing_number : ¬ standard.KeepsNumber "1e309 volt" ∧
    ∃ u, standard.parseQuantity "1e309 volt" = .ok ⟨.ofDecimal false ⟨1, 30⟩, u⟩ ∧
      u.name = "9 volt" := by
  constructor
  · apply not_keepsNumber_of_overflows
    have numeral : Numeral "1e309".toList ⟨1, 309⟩ :=
      Number.Binary64.readMagnitude_eq_some_iff.mp (by decide)
    refine ⟨6, [], false, "1e309".toList, ⟨1, 309⟩, ⟨by decide, ?_, ?_⟩, .none, numeral, by decide,
      by decide +kernel⟩
    · have literal := Literal.numeral .none numeral
      exact ⟨_, literal⟩
    · have unread : ∀ j ≤ 10, 6 < j →
          Binary64.read (Text.trim ((Text.trim "1e309 volt".toList).take j)) = none := by
        decide +kernel
      rintro j inside ⟨x, literal⟩
      by_contra longer
      have read := read_eq_some_iff.mpr literal
      rw [unread j inside (by omega)] at read
      cases read
  · have taken : (standard.parseQuantity "1e309 volt").toOption.map (fun q =>
        (q.magnitude, q.unit.name)) = some (.ofDecimal false ⟨1, 30⟩, "9 volt") := by
      decide +kernel
    obtain ⟨q, same, parts⟩ := Option.map_eq_some_iff.mp taken
    obtain ⟨magnitude, name⟩ := Prod.mk.inj parts
    rw [toOption_eq_some_iff.mp same]
    exact ⟨q.unit, by rw [← magnitude], name⟩

end Registry

end DeviceLink
