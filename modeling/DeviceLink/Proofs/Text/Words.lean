import DeviceLink.Text.Blank
import Mathlib.Data.List.TakeWhile

/-!
The words of a text. Blanks at the ends make no difference to them (`words_trimmed`), and words that
are joined by spaces are found back (`words_intercalate`).
-/

set_option autoImplicit false
set_option relaxedAutoImplicit false

namespace DeviceLink.Text

variable {word cs rest : List Char}

private theorem wordsFrom_append (solid : ∀ c ∈ cs, isBlank c = false) :
    wordsFrom word (cs ++ rest) = wordsFrom (cs.reverse ++ word) rest := by
  induction cs generalizing word with
  | nil => rfl
  | cons c cs ih =>
    obtain ⟨first, others⟩ := List.forall_mem_cons.mp solid
    rw [List.cons_append, wordsFrom, first, if_neg Bool.false_ne_true, ih others,
      List.reverse_cons, List.append_assoc]
    rfl

private theorem wordsFrom_word {c : Char} (solid : ∀ c ∈ cs, isBlank c = false) (filled : cs ≠ [])
    (blank : isBlank c = true) (rest : List Char) :
    wordsFrom [] (cs ++ c :: rest) = cs :: wordsFrom [] rest := by
  rw [wordsFrom_append solid, List.append_nil, wordsFrom, if_pos blank]
  simp [filled]

private theorem wordsFrom_last (solid : ∀ c ∈ cs, isBlank c = false) (filled : cs ≠ []) :
    wordsFrom [] cs = [cs] := by
  have whole : wordsFrom [] (cs ++ []) = wordsFrom (cs.reverse ++ []) [] := wordsFrom_append solid
  rw [List.append_nil, List.append_nil] at whole
  rw [whole, wordsFrom]
  simp [filled]

private theorem wordsFrom_dropWhile (cs : List Char) :
    wordsFrom [] (cs.dropWhile isBlank) = wordsFrom [] cs := by
  induction cs with
  | nil => rfl
  | cons c cs ih =>
    rw [List.dropWhile_cons]
    split
    · rename_i blank
      rw [ih, wordsFrom, if_pos blank]
      rfl
    · rfl

private theorem wordsFrom_append_blanks {blanks : List Char}
    (blank : ∀ c ∈ blanks, isBlank c = true) (cs : List Char) :
    wordsFrom word (cs ++ blanks) = wordsFrom word cs := by
  have closed : wordsFrom [] blanks = [] := by
    induction blanks with
    | nil => rfl
    | cons c rest ih =>
      obtain ⟨first, others⟩ := List.forall_mem_cons.mp blank
      rw [wordsFrom, if_pos first]
      exact ih others
  induction cs generalizing word with
  | nil =>
    cases blanks with
    | nil => rfl
    | cons c rest =>
      obtain ⟨first, -⟩ := List.forall_mem_cons.mp blank
      have later : wordsFrom [] rest = [] := by
        rwa [wordsFrom, if_pos first, List.isEmpty_nil, if_pos rfl] at closed
      rw [List.nil_append]
      simp only [wordsFrom, first, if_true, later]
  | cons c cs ih =>
    rw [List.cons_append, wordsFrom, wordsFrom, ih, ih]

theorem words_trimmed (s : String) : words (trimmed s) = words s := by
  have ending (cs : List Char) : wordsFrom [] (dropBlankEnd cs) = wordsFrom [] cs := by
    have split : dropBlankEnd cs ++ (cs.reverse.takeWhile isBlank).reverse = cs := by
      rw [dropBlankEnd, ← List.reverse_append, List.takeWhile_append_dropWhile,
        List.reverse_reverse]
    have blank : ∀ c ∈ (cs.reverse.takeWhile isBlank).reverse, isBlank c = true := fun c inside =>
      List.mem_takeWhile_imp (List.mem_reverse.mp inside)
    rw [← wordsFrom_append_blanks blank, split]
  rw [words, words, trimmed, String.toList_ofList, trim, ending, wordsFrom_dropWhile]

/-- A word has letters, and none of them is blank. -/
def IsSolid (name : String) : Prop :=
  name.toList ≠ [] ∧ ∀ c ∈ name.toList, isBlank c = false

theorem words_intercalate {names : List String} (solid : ∀ name ∈ names, IsSolid name) :
    words (" ".intercalate names) = names := by
  rw [words]
  induction names with
  | nil => rfl
  | cons name rest ih =>
    obtain ⟨⟨filled, letters⟩, others⟩ := List.forall_mem_cons.mp solid
    cases rest with
    | nil =>
      rw [String.intercalate_singleton, wordsFrom_last letters filled, List.map_singleton,
        String.ofList_toList]
    | cons next rest =>
      have shape : (" ".intercalate (name :: next :: rest)).toList =
          name.toList ++ ' ' :: (" ".intercalate (next :: rest)).toList := by
        rw [String.intercalate_cons_cons, String.toList_append, String.toList_append,
          List.append_assoc]
        rfl
      rw [shape, wordsFrom_word letters filled (by decide), List.map_cons, ih others,
        String.ofList_toList]

end DeviceLink.Text
