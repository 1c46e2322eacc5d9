import DeviceLink.Proofs.Text.Blanks
import DeviceLink.Proofs.Text.Lines
import DeviceLink.Text.UpperCase
import DeviceLink.Validation.Identifier
import Mathlib

/-!
Which words are identifiers, said of their characters: letters, digits and underscores, the first no
digit, and no reserved word. A name has no fault exactly when it is one (`fault?_eq_none_iff`).
-/

set_option autoImplicit false
set_option relaxedAutoImplicit false

namespace DeviceLink.Identifier

def IsLetter (c : Char) : Prop :=
  ('a' ≤ c ∧ c ≤ 'z') ∨ ('A' ≤ c ∧ c ≤ 'Z')

def IsDigit (c : Char) : Prop :=
  '0' ≤ c ∧ c ≤ '9'

def IsWord (cs : List Char) : Prop :=
  ∃ first rest, cs = first :: rest ∧ (IsLetter first ∨ first = '_') ∧
    ∀ c ∈ rest, IsLetter c ∨ IsDigit c ∨ c = '_'

/-- A word that generated code may use as a name. -/
structure IsIdentifier (name : String) : Prop where
  word : IsWord name.toList
  free : name ∉ reservedWords

theorem isAlpha_iff (c : Char) : c.isAlpha = true ↔ IsLetter c := by
  simp only [Char.isAlpha, Char.isUpper, Char.isLower, IsLetter, Bool.or_eq_true,
    Bool.and_eq_true, decide_eq_true_eq, Char.le_def, ge_iff_le]
  exact or_comm

private theorem isDigit_iff (c : Char) : c.isDigit = true ↔ IsDigit c := by
  simp only [Char.isDigit, IsDigit, Bool.and_eq_true, decide_eq_true_eq, Char.le_def, ge_iff_le]

private theorem isStart_iff (c : Char) : isStart c = true ↔ IsLetter c ∨ c = '_' := by
  rw [isStart, Bool.or_eq_true, isAlpha_iff, beq_iff_eq]

theorem isPart_iff (c : Char) : isPart c = true ↔ IsLetter c ∨ IsDigit c ∨ c = '_' := by
  rw [isPart, Char.isAlphanum, Bool.or_eq_true, Bool.or_eq_true, isAlpha_iff, isDigit_iff,
    beq_iff_eq, or_assoc]

theorem wellFormed_iff (name : String) : wellFormed name = true ↔ IsWord name.toList := by
  rw [wellFormed, IsWord]
  cases name.toList with
  | nil => simp
  | cons first rest =>
    simp only [Bool.and_eq_true, List.all_eq_true, isStart_iff, isPart_iff]
    constructor
    · rintro ⟨start, others⟩
      exact ⟨first, rest, rfl, start, others⟩
    · rintro ⟨c, cs, same, start, others⟩
      obtain ⟨rfl, rfl⟩ := List.cons.inj same
      exact ⟨start, others⟩

theorem fault?_eq_none_iff (name : String) : fault? name = none ↔ IsIdentifier name := by
  have parts : IsIdentifier name ↔ wellFormed name = true ∧ name ∉ reservedWords :=
    ⟨fun h => ⟨(wellFormed_iff name).mpr h.word, h.free⟩,
      fun h => ⟨(wellFormed_iff name).mp h.1, h.2⟩⟩
  rw [parts, fault?]
  cases wellFormed name with
  | false => simp
  | true =>
    by_cases taken : name ∈ reservedWords
    · simp [taken]
    · simp [taken]

theorem IsWord.isPart {cs : List Char} (h : IsWord cs) : ∀ c ∈ cs, isPart c = true := by
  obtain ⟨first, rest, rfl, start, others⟩ := h
  intro c inside
  rw [isPart_iff]
  rcases List.mem_cons.mp inside with rfl | later
  · rcases start with letter | underscore
    · exact Or.inl letter
    · exact Or.inr (Or.inr underscore)
  · exact others c later

/-! Lines, blanks and capitals. -/

theorem oneLine_of_wellFormed {name : String} (h : wellFormed name = true) : Text.OneLine name :=
  fun broken => absurd (((wellFormed_iff name).mp h).isPart '\n' broken) (by decide)

theorem space_notMem_of_wellFormed {name : String} (h : wellFormed name = true) :
    ' ' ∉ name.toList :=
  fun inside => absurd (((wellFormed_iff name).mp h).isPart ' ' inside) (by decide)

theorem IsIdentifier.oneLine {name : String} (h : IsIdentifier name) : Text.OneLine name :=
  oneLine_of_wellFormed ((wellFormed_iff name).mpr h.word)

theorem isBlank_of_isPart {c : Char} (h : isPart c = true) : Text.isBlank c = false := by
  rcases (isPart_iff c).mp h with (letter | letter) | digit | rfl
  · exact Text.isBlank_of_visible (UInt32.le_trans (by decide) letter.1)
      (UInt32.le_trans letter.2 (by decide))
  · exact Text.isBlank_of_visible (UInt32.le_trans (by decide) letter.1)
      (UInt32.le_trans letter.2 (by decide))
  · exact Text.isBlank_of_visible (UInt32.le_trans (by decide) digit.1)
      (UInt32.le_trans digit.2 (by decide))
  · decide

theorem IsIdentifier.trimmed_eq {name : String} (h : IsIdentifier name) :
    Text.trimmed name = name := by
  rw [Text.trimmed, Text.trim_of_solid fun c inside => isBlank_of_isPart (h.word.isPart c inside),
    String.ofList_toList]

theorem upper_eq_map {cs : List Char} (word : ∀ c ∈ cs, isPart c = true) :
    Text.upper cs = cs.map Char.toUpper := by
  have ascii (c : Char) (part : isPart c = true) : c.toNat < 0x80 := by
    rcases (isPart_iff c).mp part with (letter | letter) | digit | rfl
    · exact Nat.lt_of_le_of_lt letter.2 (by decide)
    · exact Nat.lt_of_le_of_lt letter.2 (by decide)
    · exact Nat.lt_of_le_of_lt digit.2 (by decide)
    · decide
  rw [Text.upper, List.map_eq_flatMap]
  exact List.flatMap_congr fun c inside => Text.upperChar_of_ascii c (ascii c (word c inside))

end DeviceLink.Identifier
