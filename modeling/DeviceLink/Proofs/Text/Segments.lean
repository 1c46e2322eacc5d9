import DeviceLink.Text.Segments
import Mathlib.Data.List.TakeWhile

/-!
Texts cut at a separator. A separator in a text cuts it in two parts with pieces of their own
(`split_append_separator`), and parts without the separator come back from the text that they are
joined to (`segments_intercalate`).
-/

set_option autoImplicit false
set_option relaxedAutoImplicit false

namespace DeviceLink.Text

variable {separator : Char}

theorem split_of_plain {cs : List Char} (plain : separator ∉ cs) : split separator cs = [cs] := by
  induction cs with
  | nil => rfl
  | cons c rest ih =>
    have other : c ≠ separator := (List.ne_of_not_mem_cons plain).symm
    rw [split, if_neg other, ih (List.not_mem_of_not_mem_cons plain)]

theorem split_append_separator (before behind : List Char) :
    split separator (before ++ separator :: behind) =
      split separator before ++ split separator behind := by
  induction before with
  | nil => simp [split]
  | cons c rest ih =>
    rw [List.cons_append, split, split, ih]
    split
    · rw [List.cons_append]
    · obtain ⟨first, others, parts⟩ := List.exists_cons_of_ne_nil (split_ne_nil separator rest)
      rw [parts, List.cons_append, List.cons_append]

private theorem split_flatten_intersperse {parts : List (List Char)} (filled : parts ≠ [])
    (plain : ∀ part ∈ parts, separator ∉ part) :
    split separator (parts.intersperse [separator]).flatten = parts := by
  induction parts with
  | nil => exact absurd rfl filled
  | cons part rest ih =>
    obtain ⟨first, others⟩ := List.forall_mem_cons.mp plain
    cases rest with
    | nil =>
      rw [List.intersperse_singleton, List.flatten_singleton]
      exact split_of_plain first
    | cons next more =>
      rw [List.intersperse_cons_cons, List.flatten_cons, List.flatten_cons, List.singleton_append,
        split_append_separator, split_of_plain first, ih (List.cons_ne_nil _ _) others,
        List.singleton_append]

theorem segments_intercalate {names : List String}
    (plain : ∀ name ∈ names, name ≠ "" ∧ separator ∉ name.toList) :
    segments separator ((String.ofList [separator]).intercalate names) = names := by
  cases names with
  | nil => rfl
  | cons name rest =>
    have parts : split separator ((String.ofList [separator]).intercalate (name :: rest)).toList =
        (name :: rest).map String.toList := by
      rw [String.toList_intercalate, String.toList_ofList]
      apply split_flatten_intersperse (by simp)
      intro part inside
      obtain ⟨word, listed, rfl⟩ := List.mem_map.mp inside
      exact (plain word listed).2
    have kept : ((name :: rest).map String.toList).filter (!·.isEmpty) =
        (name :: rest).map String.toList := by
      apply List.filter_eq_self.mpr
      intro part inside
      obtain ⟨word, listed, rfl⟩ := List.mem_map.mp inside
      have filled : word.toList ≠ [] := fun none => (plain word listed).1 (String.toList_inj.mp none)
      simpa using filled
    rw [segments, parts, kept, List.map_map]
    simp [Function.comp_def]

theorem segments_of_plain {s : String} (filled : s ≠ "") (plain : separator ∉ s.toList) :
    segments separator s = [s] := by
  have visible : s.toList ≠ [] := fun none => filled (String.toList_inj.mp none)
  rw [segments, split_of_plain plain]
  simp [visible]

theorem segments_append_separator (before behind : String) :
    segments separator (String.ofList (before.toList ++ separator :: behind.toList)) =
      segments separator before ++ segments separator behind := by
  rw [segments, String.toList_ofList, split_append_separator, List.filter_append,
    List.map_append, segments, segments]

theorem splitLast?_spec (separator : Char) (s : String) :
    (splitLast? separator s = none ∧ separator ∉ s.toList) ∨
      ∃ before behind, splitLast? separator s = some (before, behind) ∧
        s = String.ofList (before.toList ++ separator :: behind.toList) ∧
        separator ∉ behind.toList := by
  have tail : ∀ c ∈ s.toList.reverse.takeWhile (· != separator), c ≠ separator := fun c inside =>
    by simpa using List.mem_takeWhile_imp inside
  have whole := List.takeWhile_append_dropWhile (p := (· != separator)) (l := s.toList.reverse)
  have stop := List.head_dropWhile_not (· != separator) (l := s.toList.reverse)
  rw [splitLast?]
  generalize s.toList.reverse.takeWhile (· != separator) = last at tail whole ⊢
  generalize s.toList.reverse.dropWhile (· != separator) = rest at whole stop ⊢
  have letters : s.toList = rest.reverse ++ last.reverse := by
    rw [← List.reverse_append, whole, List.reverse_reverse]
  cases rest with
  | nil =>
    refine Or.inl ⟨rfl, fun inside => ?_⟩
    rw [letters, List.reverse_nil, List.nil_append, List.mem_reverse] at inside
    exact tail separator inside rfl
  | cons c before =>
    obtain rfl : c = separator := by simpa using stop (List.cons_ne_nil _ _)
    refine Or.inr ⟨_, _, rfl, ?_, ?_⟩
    · rw [← String.toList_inj, letters]
      simp
    · rw [String.toList_ofList, List.mem_reverse]
      exact fun inside => tail c inside rfl

end DeviceLink.Text
