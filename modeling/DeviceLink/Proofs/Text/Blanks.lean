import DeviceLink.Text.Blank
import Mathlib.Data.List.DropRight

/-!
Blanks at the ends of a text. A text without blanks at its ends is left as it is (`trim_eq_self_iff`),
and so is what stands before a character that is no blank.
-/

set_option autoImplicit false
set_option relaxedAutoImplicit false

namespace DeviceLink.Text

theorem isBlank_of_visible {c : Char} (low : '!'.val ≤ c.val) (high : c.val ≤ '~'.val) :
    isBlank c = false := by
  have least : 33 ≤ c.toNat := UInt32.le_iff_toNat_le.mp low
  have greatest : c.toNat ≤ 126 := UInt32.le_iff_toNat_le.mp high
  simp only [isBlank, Bool.or_eq_false_iff, Bool.and_eq_false_iff, decide_eq_false_iff_not,
    beq_eq_false_iff_ne]
  omega

private theorem dropBlankEnd_sublist (cs : List Char) : (dropBlankEnd cs).Sublist cs := by
  rw [dropBlankEnd, ← List.reverse_sublist, List.reverse_reverse]
  exact List.dropWhile_sublist _

private theorem dropBlankEnd_idempotent (cs : List Char) :
    dropBlankEnd (dropBlankEnd cs) = dropBlankEnd cs := by
  simp only [dropBlankEnd, List.reverse_reverse, List.dropWhile_idempotent]

private theorem dropBlankEnd_cons (c : Char) (rest : List Char) :
    dropBlankEnd (c :: rest) =
      if (dropBlankEnd rest).isEmpty && isBlank c then [] else c :: dropBlankEnd rest := by
  simp only [dropBlankEnd, List.reverse_cons, List.dropWhile_append, List.isEmpty_reverse]
  by_cases empty : (rest.reverse.dropWhile isBlank).isEmpty = true
  · have vanished := List.isEmpty_iff.mp empty
    cases blank : isBlank c <;> simp [vanished, blank]
  · simp [empty]

theorem trim_eq_self_iff {cs : List Char} :
    trim cs = cs ↔ cs.dropWhile isBlank = cs ∧ dropBlankEnd cs = cs := by
  refine ⟨fun same => ?_, fun ⟨front, back⟩ => by rw [trim, front, back]⟩
  have front : cs.dropWhile isBlank = cs := by
    refine (List.dropWhile_sublist _).eq_of_length_le ?_
    have shorter := (dropBlankEnd_sublist (cs.dropWhile isBlank)).length_le
    rwa [← trim, same] at shorter
  rw [trim, front] at same
  exact ⟨front, same⟩

variable {c : Char}

private theorem dropWhile_isBlank_cons (solid : isBlank c = false) (rest : List Char) :
    (c :: rest).dropWhile isBlank = c :: rest := by
  rw [List.dropWhile_cons, solid]
  rfl

private theorem isBlank_of_dropWhile_eq_cons {cs rest : List Char}
    (front : cs.dropWhile isBlank = c :: rest) : isBlank c = false := by
  have first := List.head?_dropWhile_not isBlank cs
  rw [front] at first
  exact first

private theorem dropBlankEnd_cons_of_solid (solid : isBlank c = false) (rest : List Char) :
    dropBlankEnd (c :: rest) = c :: dropBlankEnd rest := by
  rw [dropBlankEnd_cons, solid, Bool.and_false]
  rfl

private theorem dropBlankEnd_append_cons (solid : isBlank c = false) (before after : List Char) :
    dropBlankEnd (before ++ c :: after) = before ++ c :: dropBlankEnd after := by
  induction before with
  | nil => exact dropBlankEnd_cons_of_solid solid after
  | cons b before ih =>
    rw [List.cons_append, dropBlankEnd_cons, ih]
    simp

theorem trim_of_solid {cs : List Char} (solid : ∀ c ∈ cs, isBlank c = false) : trim cs = cs := by
  refine trim_eq_self_iff.mpr ⟨?_, ?_⟩
  · cases cs with
    | nil => rfl
    | cons c rest => exact dropWhile_isBlank_cons (solid c List.mem_cons_self) rest
  · induction cs with
    | nil => rfl
    | cons c rest ih =>
      rw [dropBlankEnd_cons_of_solid (solid c List.mem_cons_self),
        ih fun c inside => solid c (List.mem_cons_of_mem _ inside)]

theorem trim_append_space {cs : List Char} (solid : ∀ c ∈ cs, isBlank c = false) :
    trim (cs ++ [' ']) = cs := by
  have space : isBlank ' ' = true := by decide
  have back : dropBlankEnd (cs ++ [' ']) = dropBlankEnd cs := by
    simp only [dropBlankEnd, List.reverse_append, List.reverse_singleton, List.singleton_append,
      List.dropWhile_cons, space, if_true]
  cases cs with
  | nil => decide
  | cons c rest =>
    rw [trim, List.cons_append, dropWhile_isBlank_cons (solid c List.mem_cons_self),
      ← List.cons_append, back]
    exact (trim_eq_self_iff.mp (trim_of_solid solid)).2

theorem trim_cons_append_cons {a c : Char} (front : isBlank a = false) (solid : isBlank c = false)
    (before after : List Char) :
    trim (a :: before ++ c :: after) = a :: before ++ c :: dropBlankEnd after := by
  rw [trim, List.cons_append, dropWhile_isBlank_cons front, ← List.cons_append,
    dropBlankEnd_append_cons solid]

theorem trim_trim (cs : List Char) : trim (trim cs) = trim cs := by
  refine trim_eq_self_iff.mpr ⟨?_, dropBlankEnd_idempotent _⟩
  rw [trim]
  cases front : cs.dropWhile isBlank with
  | nil => rfl
  | cons c rest =>
    have solid := isBlank_of_dropWhile_eq_cons front
    rw [dropBlankEnd_cons_of_solid solid, dropWhile_isBlank_cons solid]

theorem exists_cons_of_trimmed {cs : List Char} (trimmed : trim cs = cs) (filled : cs ≠ []) :
    ∃ c rest, cs = c :: rest ∧ isBlank c = false ∧ dropBlankEnd rest = rest := by
  obtain ⟨c, rest, rfl⟩ := List.exists_cons_of_ne_nil filled
  obtain ⟨front, back⟩ := trim_eq_self_iff.mp trimmed
  have solid := isBlank_of_dropWhile_eq_cons front
  rw [dropBlankEnd_cons_of_solid solid] at back
  exact ⟨c, rest, rfl, solid, (List.cons.inj back).2⟩

theorem exists_trim_take_append {cs : List Char} (trimmed : trim cs = cs) (k : Nat) :
    ∃ more, trim (cs.take k) ++ more = cs := by
  have front : (cs.take k).dropWhile isBlank = cs.take k := by
    cases cs with
    | nil => rw [List.take_nil]; rfl
    | cons c rest =>
      cases k with
      | zero => rfl
      | succ k =>
        have solid := isBlank_of_dropWhile_eq_cons (trim_eq_self_iff.mp trimmed).1
        rw [List.take_succ_cons, dropWhile_isBlank_cons solid]
  have shorter : dropBlankEnd (cs.take k) <+: cs.take k := List.rdropWhile_prefix isBlank _
  rw [trim, front]
  exact shorter.trans (List.take_prefix k cs)

end DeviceLink.Text
