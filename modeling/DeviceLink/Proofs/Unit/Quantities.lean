import DeviceLink.Proofs.Lists
import DeviceLink.Proofs.Number.Text
import DeviceLink.Proofs.Results
import DeviceLink.Proofs.Text.Blanks
import DeviceLink.Unit.Expression

/-!
The text of a quantity is read back as the quantity. The magnitude has no blanks and is followed by
one, so the longest front of the text that is a number ends there (`splitMagnitude?_append`); the rest
is the name of the unit, which is the text that the unit was read from.
-/

set_option autoImplicit false
set_option relaxedAutoImplicit false

namespace DeviceLink

open Number (Binary64)

/-! Units and their names. -/

theorem Number.Binary64.same_self {x : Binary64} (number : x.isNaN = false) : x.same x = true := by
  rw [Binary64.same, number, beq_self_eq_true]
  rfl

private theorem MeasureUnit.same_self {u : MeasureUnit} (number : u.factor.isNaN = false) :
    u.same u = true := by
  rw [same, decide_eq_true rfl, Binary64.same_self number]
  rfl

private theorem MeasureUnit.same_dimensionless {u : MeasureUnit} (plain : u.isPlain = true) :
    u.same .dimensionless = true :=
  plain

namespace Registry

variable {r : Registry} {u : MeasureUnit}

private theorem parse_name {source : String} (h : r.parse source = .ok u) :
    r.parse u.name = .ok u ∧ Text.trim u.name.toList = u.name.toList ∧ u.name.toList ≠ [] := by
  rw [parse] at h
  split at h
  · cases h
  · rename_i filled
    split at h
    · cases h
    · rename_i tokens scanned
      cases value : r.evaluate (String.ofList (Text.trim source.toList)) id tokens with
      | error e => simp [value, Except.map] at h
      | ok m =>
        rw [value] at h
        obtain rfl := Except.ok.inj h
        have trimmed : Text.trim (String.ofList (Text.trim source.toList)).toList =
            Text.trim source.toList := by rw [String.toList_ofList, Text.trim_trim]
        refine ⟨?_, by rw [trimmed, String.toList_ofList], ?_⟩
        · rw [parse, trimmed, if_neg filled, scanned]
          exact congrArg (Except.map _) value
        · rw [String.toList_ofList]
          exact fun empty => filled (List.isEmpty_iff.mpr empty)

/-! Quantities and their texts. -/

variable {x : Binary64}

theorem splitMagnitude?_of_longest {cs : List Char} {before : Nat} (inside : before < cs.length)
    (found : numericFront? cs (before + 1) = some x)
    (longest : ∀ k, before < k → k < cs.length → numericFront? cs (k + 1) = none) :
    splitMagnitude? cs = some (x, Text.trim (cs.drop (before + 1))) := by
  refine findSome?_reverse_range inside ?_ fun k after bound => ?_
  · rw [found]
    rfl
  · rw [longest k after bound]
    rfl

private theorem numericFront?_chars (finite : x.isFinite = true) {cs : List Char} {length : Nat}
    (front : Text.trim (cs.take length) = Number.Layout.readable.chars x) :
    numericFront? cs length = some x := by
  rw [numericFront?, front, Binary64.read_chars finite, Option.filter_some, if_pos finite]

private theorem parseQuantity_number (r : Registry) (finite : x.isFinite = true) :
    r.parseQuantity x.text = .ok ⟨x, .dimensionless⟩ := by
  have trimmed := Text.trim_of_solid fun c => Binary64.isBlank_of_mem_chars finite (c := c)
  have positive := List.length_pos_iff.mpr (Binary64.chars_ne_nil finite)
  rw [parseQuantity, Binary64.text, Number.Layout.write, String.toList_ofList, trimmed]
  generalize text : Number.Layout.readable.chars x = cs at positive trimmed
  have whole : cs.length - 1 + 1 = cs.length := Nat.sub_add_cancel positive
  have front : Text.trim (cs.take (cs.length - 1 + 1)) = Number.Layout.readable.chars x := by
    rw [whole, List.take_length, trimmed, text]
  have split : splitMagnitude? cs = some (x, []) := by
    rw [splitMagnitude?_of_longest (Nat.sub_lt positive Nat.one_pos)
      (numericFront?_chars finite front) (fun k after inside => by omega), whole, List.drop_length]
    rfl
  rw [split]

theorem splitMagnitude?_append (finite : x.isFinite = true) {c : Char}
    (solid : Text.isBlank c = false) (rest : List Char) :
    splitMagnitude? (Number.Layout.readable.chars x ++ ' ' :: c :: rest) =
      some (x, Text.trim (c :: rest)) := by
  have blanks := fun c => Binary64.isBlank_of_mem_chars finite (c := c)
  have filled := Binary64.chars_ne_nil finite
  have found (cs : List Char) (length : Nat)
      (front : Text.trim (cs.take length) = Number.Layout.readable.chars x) :=
    numericFront?_chars finite front
  generalize Number.Layout.readable.chars x = text at blanks filled found ⊢
  have here : (text ++ ' ' :: c :: rest).take (text.length + 1) = text ++ [' '] := by
    rw [List.take_length_add_append]
    rfl
  have there : (text ++ ' ' :: c :: rest).drop (text.length + 1) = c :: rest := by
    rw [List.drop_length_add_append]
    rfl
  have inside : text.length < (text ++ ' ' :: c :: rest).length := by simp
  rw [splitMagnitude?_of_longest inside
    (found _ _ (by rw [here, Text.trim_append_space blanks])) ?_, there]
  intro k after inside
  obtain ⟨j, rfl⟩ := Nat.exists_eq_add_of_lt after
  obtain ⟨a, before, rfl⟩ := List.exists_cons_of_ne_nil filled
  -- Any longer front has the blank inside.
  have longer : ((a :: before) ++ ' ' :: c :: rest).take ((a :: before).length + j + 1 + 1) =
      a :: (before ++ [' ']) ++ c :: rest.take j := by
    rw [Nat.add_assoc, Nat.add_assoc, List.take_length_add_append]
    simp
  have space : ' ' ∈ a :: (before ++ [' ']) ++ c :: Text.dropBlankEnd (rest.take j) := by simp
  rw [numericFront?, longer, Text.trim_cons_append_cons (blanks a List.mem_cons_self) solid,
    Binary64.read_of_space space]
  rfl

private theorem parseQuantity_append (finite : x.isFinite = true) (h : r.parse u.name = .ok u)
    (trimmed : Text.trim u.name.toList = u.name.toList) (filled : u.name.toList ≠ []) :
    r.parseQuantity (x.text ++ " " ++ u.name) = .ok ⟨x, u⟩ := by
  obtain ⟨c, rest, name, solid, back⟩ := Text.exists_cons_of_trimmed trimmed filled
  have split := splitMagnitude?_append finite solid rest
  have whole : Text.trim (Number.Layout.readable.chars x ++ ' ' :: c :: rest) =
      Number.Layout.readable.chars x ++ ' ' :: c :: rest := by
    have blanks := fun c => Binary64.isBlank_of_mem_chars finite (c := c)
    obtain ⟨a, before, text⟩ := List.exists_cons_of_ne_nil (Binary64.chars_ne_nil finite)
    rw [text] at blanks ⊢
    have trimmed := Text.trim_cons_append_cons (blanks a List.mem_cons_self) solid
      (before ++ [' ']) rest
    rwa [back, List.cons_append, List.append_assoc] at trimmed
  have text : (x.text ++ " " ++ u.name).toList =
      Number.Layout.readable.chars x ++ ' ' :: c :: rest := by
    simp [Binary64.text, Number.Layout.write, name]
  rw [name] at trimmed
  rw [parseQuantity, text, whole, split, trimmed]
  simp only [← name, String.ofList_toList, h]

theorem parseQuantity_trimmed (r : Registry) (source : String) :
    r.parseQuantity (Text.trimmed source) = r.parseQuantity source := by
  rw [parseQuantity, parseQuantity, Text.trimmed, String.toList_ofList, Text.trim_trim]

theorem parseQuantity_text {source : String} (finite : x.isFinite = true)
    (h : r.parse source = .ok u) :
    r.parseQuantity (Quantity.mk x u).text =
      .ok ⟨x, if u.isPlain then .dimensionless else u⟩ := by
  obtain ⟨again, trimmed, filled⟩ := parse_name h
  rw [Quantity.text]
  split
  · exact parseQuantity_number r finite
  · exact parseQuantity_append finite again trimmed filled

/-- A quantity with a finite magnitude, in any unit that was read and whose factor is a number, is
found back in its text: the magnitude as it is, and a unit that means the same. It is the very unit
where the text names one. -/
theorem exists_quantity_of_text {source : String} (h : r.parse source = .ok u)
    (number : u.factor.isNaN = false) (finite : x.isFinite = true) :
    ∃ v, r.parseQuantity (Quantity.mk x u).text = .ok ⟨x, v⟩ ∧ u.same v = true ∧
      (u.isPlain = false → v = u) := by
  refine ⟨_, parseQuantity_text finite h, ?_, ?_⟩
  · split
    · rename_i plain
      exact MeasureUnit.same_dimensionless plain
    · exact MeasureUnit.same_self number
  · intro named
    rw [named]
    rfl

/-- A unit may itself start with a sign and digits, which are no part of the magnitude before it. -/
theorem exists_quantity_of_text_signed_unit :
    ∃ u v, standard.parse "-2 %/second**2" = .ok u ∧ u.factor.isNaN = false ∧
      (Binary64.ofDecimal true ⟨1, -1⟩).isFinite = true ∧
      standard.parseQuantity (Quantity.mk (.ofDecimal true ⟨1, -1⟩) u).text =
        .ok ⟨.ofDecimal true ⟨1, -1⟩, v⟩ ∧ u.same v = true := by
  have read : (standard.parse "-2 %/second**2").toOption.any (!·.factor.isNaN) = true := by
    decide +kernel
  obtain ⟨u, same, number⟩ := (Option.any_eq_true _ _).mp read
  rw [Bool.not_eq_true'] at number
  have parsed := toOption_eq_some_iff.mp same
  have finite : (Binary64.ofDecimal true ⟨1, -1⟩).isFinite = true := by decide +kernel
  obtain ⟨v, found, meant, -⟩ := exists_quantity_of_text parsed number finite
  exact ⟨u, v, parsed, number, finite, found, meant⟩

end Registry

end DeviceLink
