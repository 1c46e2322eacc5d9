import DeviceLink.Proofs.Text.Lines
import DeviceLink.Reference
import Mathlib.Algebra.Order.BigOperators.Group.List
import Mathlib.Algebra.Order.Ring.Nat

/-!
The tables of arguments in the reference. Their columns have fixed widths, and a cell that is longer
than its column is written in full. So a table is a grid exactly when every argument fits into the
columns (`isGrid_iff`).
-/

set_option autoImplicit false
set_option relaxedAutoImplicit false

namespace DeviceLink

/-- The name and the unit of an argument are no longer than their columns, and the unit stands on one
line. -/
structure Argument.FitsColumns (a : Argument) : Prop where
  name : a.name.length ≤ 16
  unit : (Reference.unitText a.unit).length ≤ 16
  unbroken : Text.OneLine (Reference.unitText a.unit)

namespace Reference

def tableLines (arguments : List Argument) : List (List Char) :=
  (argumentTable arguments).flatMap Text.linesOf

/-- Lines form the grid of a table with a number of rows. The border at the top, with a plus at
every separator of columns, says where the separators of all other lines are. -/
structure IsGrid (rows : Nat) (lines : List (List Char)) : Prop where
  /-- There are a border, the header, a border, and the rows, each with a border below it. -/
  count : lines.length = 2 * rows + 3
  width : ∀ l ∈ lines, ∀ l' ∈ lines, l.length = l'.length
  separators : ∀ top, lines.head? = some top → ∀ l ∈ lines, ∀ place : Nat,
    top[place]? = some '+' → l[place]? = some '+' ∨ l[place]? = some '|'

/-! Lines that are cut into segments. -/

/-- A line of a table: an indent, a separator, and segments with a separator behind each. -/
def ruled (separator : Char) (segments : List (List Char)) : List Char :=
  ' ' :: ' ' :: separator :: segments.flatMap (· ++ [separator])

private theorem length_ruled (separator : Char) (segments : List (List Char)) :
    (ruled separator segments).length = (segments.map (·.length + 1)).sum + 3 := by
  simp [ruled, List.length_flatMap]

private theorem length_ruled_eq {segments segments' : List (List Char)}
    (separator separator' : Char) (same : segments.map List.length = segments'.map List.length) :
    (ruled separator segments).length = (ruled separator' segments').length := by
  have lengths (l : List (List Char)) : l.map (·.length + 1) = (l.map List.length).map (· + 1) := by
    rw [List.map_map]
    rfl
  rw [length_ruled, length_ruled, lengths, lengths, same]

private theorem separated_segments {segments segments' : List (List Char)} {mark : Char}
    (separator : Char) (same : segments.map List.length = segments'.map List.length)
    (plain : ∀ segment ∈ segments, mark ∉ segment) {place : Nat}
    (there : (segments.flatMap (· ++ [mark]))[place]? = some mark) :
    (segments'.flatMap (· ++ [separator]))[place]? = some separator := by
  induction segments generalizing segments' place with
  | nil => simp at there
  | cons segment rest ih =>
    cases segments' with
    | nil => simp at same
    | cons segment' rest' =>
      obtain ⟨first, others⟩ := List.cons.inj same
      obtain ⟨own, later⟩ := List.forall_mem_cons.mp plain
      rw [List.flatMap_cons, List.append_assoc, List.singleton_append] at there ⊢
      rcases Nat.lt_trichotomy place segment.length with inside | rfl | behind
      · rw [List.getElem?_append_left inside] at there
        exact absurd (List.mem_of_getElem? there) own
      · rw [first, List.getElem?_append_right (Nat.le_refl _), Nat.sub_self, List.getElem?_cons_zero]
      · obtain ⟨k, rfl⟩ := Nat.exists_eq_add_of_lt behind
        have skip (n : Nat) : n + k + 1 - n = k + 1 := by omega
        rw [List.getElem?_append_right (by omega), skip, List.getElem?_cons_succ] at there
        rw [first, List.getElem?_append_right (by omega), skip, List.getElem?_cons_succ]
        exact ih others later there

private theorem separated_of_ruled {segments segments' : List (List Char)} {mark : Char}
    (separator : Char) (visible : mark ≠ ' ')
    (same : segments.map List.length = segments'.map List.length)
    (plain : ∀ segment ∈ segments, mark ∉ segment) {place : Nat}
    (there : (ruled mark segments)[place]? = some mark) :
    (ruled separator segments')[place]? = some separator := by
  rw [ruled] at there ⊢
  match place with
  | 0 | 1 => exact absurd (Option.some.inj there).symm visible
  | 2 => rfl
  | place + 3 => exact separated_segments separator same plain there

/-! Borders and rows. -/

def borderSegments (mark : Char) : List (List Char) :=
  columnWidths.map fun width => List.replicate (width + 2) mark

def rowSegments (cells : List String) : List (List Char) :=
  (columnWidths.zip cells).map fun column => ' ' :: (padded column.1 column.2).toList ++ [' ']

private theorem toList_border (mark : Char) : (border mark).toList =
    ruled '+' (borderSegments mark) := by
  simp [border, ruled, borderSegments, columnWidths]

private theorem toList_row (cells : List String) :
    (row cells).toList = ruled '|' (rowSegments cells) := by
  simp [row, ruled, rowSegments, List.flatMap_map]

private theorem length_padded (width : Nat) (text : String) :
    (padded width text).toList.length = max width text.length := by
  rw [padded, String.toList_append, String.toList_ofList, List.length_append, List.length_replicate,
    String.length_toList]
  omega

private theorem map_length_borderSegments (mark : Char) :
    (borderSegments mark).map List.length = [18, 12, 18] := by
  simp [borderSegments, columnWidths]

private theorem map_length_rowSegments (name type unit : String) :
    (rowSegments [name, type, unit]).map List.length =
      [max 16 name.length + 2, max 10 type.length + 2, max 16 unit.length + 2] := by
  simp [rowSegments, columnWidths, length_padded]

private theorem length_border (mark : Char) : (border mark).toList.length = 54 := by
  rw [toList_border, length_ruled]
  simp [borderSegments, columnWidths]

private theorem length_name_dataType (t : DataType) : t.name.length ≤ 10 := by
  cases t <;> decide

private theorem length_argumentRow (a : Argument) :
    (argumentRow a).toList.length = max 16 a.name.length + max 16 (unitText a.unit).length + 22 := by
  have type := length_name_dataType a.dataType
  rw [argumentRow, toList_row, length_ruled]
  simp only [rowSegments, columnWidths, List.zip_cons_cons, List.zip_nil_right, List.map_cons,
    List.map_nil, List.length_cons, List.length_append, length_padded, List.sum_cons, List.sum_nil,
    List.length_nil]
  omega

theorem oneLine_name_dataType (t : DataType) : Text.OneLine t.name := by
  cases t <;> decide

private theorem oneLine_argumentRow_iff (a : Argument) :
    Text.OneLine (argumentRow a) ↔ Text.OneLine a.name ∧ Text.OneLine (unitText a.unit) := by
  have type : '\n' ∉ a.dataType.name.toList := oneLine_name_dataType a.dataType
  simp [Text.OneLine, argumentRow, row, columnWidths, padded, type]

/-! The lines of a table. -/

private theorem tableLines_eq (arguments : List Argument) :
    tableLines arguments =
      [(border '-').toList, (row ["Name", "Type", "Unit"]).toList, (border '=').toList] ++
        arguments.flatMap fun a => Text.linesOf (argumentRow a) ++ [(border '-').toList] := by
  have thin : Text.linesOf (border '-') = [(border '-').toList] :=
    Text.linesOf_of_oneLine (by decide)
  have thick : Text.linesOf (border '=') = [(border '=').toList] :=
    Text.linesOf_of_oneLine (by decide)
  have header : Text.linesOf (row ["Name", "Type", "Unit"]) =
      [(row ["Name", "Type", "Unit"]).toList] :=
    Text.linesOf_of_oneLine (by decide)
  rw [tableLines, argumentTable, List.flatMap_append, List.flatMap_assoc]
  simp only [List.flatMap_cons, List.flatMap_nil, List.append_nil, thin, thick, header]
  rfl

private theorem length_tableLines (arguments : List Argument) :
    (tableLines arguments).length = 2 * arguments.length + 3 +
      (arguments.map fun a => (argumentRow a).toList.count '\n').sum := by
  rw [tableLines_eq, List.length_append]
  induction arguments with
  | nil => rfl
  | cons a rest ih =>
    rw [List.flatMap_cons, List.length_append, List.length_append, Text.length_linesOf,
      List.map_cons, List.sum_cons, List.length_cons]
    simp only [List.length_cons, List.length_nil] at ih ⊢
    omega

private theorem oneLine_argumentRow {a : Argument} (named : Text.OneLine a.name)
    (fits : a.FitsColumns) : Text.OneLine (argumentRow a) :=
  (oneLine_argumentRow_iff a).mpr ⟨named, fits.unbroken⟩

private theorem ruled_of_mem_tableLines {arguments : List Argument}
    (named : ∀ a ∈ arguments, Text.OneLine a.name) (fits : ∀ a ∈ arguments, a.FitsColumns)
    {l : List Char} (inside : l ∈ tableLines arguments) :
    ∃ separator segments, (separator = '+' ∨ separator = '|') ∧
      segments.map List.length = [18, 12, 18] ∧ l = ruled separator segments := by
  have bordered (mark : Char) : ∃ separator segments, (separator = '+' ∨ separator = '|') ∧
      segments.map List.length = [18, 12, 18] ∧ (border mark).toList = ruled separator segments :=
    ⟨'+', _, Or.inl rfl, map_length_borderSegments mark, toList_border mark⟩
  have header : (rowSegments ["Name", "Type", "Unit"]).map List.length = [18, 12, 18] := by
    rw [map_length_rowSegments]
    decide
  rw [tableLines_eq] at inside
  rcases List.mem_append.mp inside with top | below
  · simp only [List.mem_cons, List.not_mem_nil, or_false] at top
    rcases top with rfl | rfl | rfl
    · exact bordered '-'
    · exact ⟨'|', _, Or.inr rfl, header, toList_row _⟩
    · exact bordered '='
  · obtain ⟨a, listed, below⟩ := List.mem_flatMap.mp below
    rw [Text.linesOf_of_oneLine (oneLine_argumentRow (named a listed) (fits a listed))] at below
    rcases List.mem_cons.mp below with rfl | below
    · have name := (fits a listed).name
      have type := length_name_dataType a.dataType
      have unit := (fits a listed).unit
      refine ⟨'|', _, Or.inr rfl, ?_, toList_row _⟩
      rw [map_length_rowSegments, max_eq_left name, max_eq_left type, max_eq_left unit]
    · obtain rfl := List.mem_singleton.mp below
      exact bordered '-'

private theorem head?_tableLines (arguments : List Argument) :
    (tableLines arguments).head? = some (border '-').toList := by
  rw [tableLines_eq]
  rfl

private theorem isGrid_of_fits {arguments : List Argument}
    (named : ∀ a ∈ arguments, Text.OneLine a.name) (fits : ∀ a ∈ arguments, a.FitsColumns) :
    IsGrid arguments.length (tableLines arguments) where
  count := by
    have unbroken : ∀ n ∈ arguments.map fun a => (argumentRow a).toList.count '\n', n = 0 := by
      refine List.forall_mem_map.mpr fun a listed => List.count_eq_zero.mpr ?_
      exact oneLine_argumentRow (named a listed) (fits a listed)
    rw [length_tableLines, List.sum_eq_zero unbroken, Nat.add_zero]
  width := by
    intro l inside l' inside'
    obtain ⟨separator, segments, -, cut, rfl⟩ := ruled_of_mem_tableLines named fits inside
    obtain ⟨separator', segments', -, cut', rfl⟩ := ruled_of_mem_tableLines named fits inside'
    exact length_ruled_eq separator separator' (cut.trans cut'.symm)
  separators := by
    intro top first l inside place plus
    obtain ⟨separator, segments, known, cut, rfl⟩ := ruled_of_mem_tableLines named fits inside
    obtain rfl := Option.some.inj ((head?_tableLines arguments).symm.trans first)
    have dashes : ∀ segment ∈ borderSegments '-', '+' ∉ segment := by decide
    rw [toList_border] at plus
    have there := separated_of_ruled separator (by decide)
      ((map_length_borderSegments '-').trans cut.symm) dashes plus
    rcases known with rfl | rfl
    · exact Or.inl there
    · exact Or.inr there

private theorem fits_of_isGrid {arguments : List Argument}
    (grid : IsGrid arguments.length (tableLines arguments)) :
    ∀ a ∈ arguments, a.FitsColumns := by
  intro a listed
  have breaks : (arguments.map fun a => (argumentRow a).toList.count '\n').sum = 0 := by
    have count := grid.count
    rw [length_tableLines] at count
    omega
  have none : (argumentRow a).toList.count '\n' = 0 :=
    List.sum_eq_zero_iff.mp breaks _ (List.mem_map_of_mem listed)
  have whole : Text.OneLine (argumentRow a) := List.count_eq_zero.mp none
  have thin : (border '-').toList ∈ tableLines arguments :=
    List.mem_of_mem_head? (head?_tableLines arguments)
  have printed : (argumentRow a).toList ∈ tableLines arguments := by
    rw [tableLines_eq]
    refine List.mem_append_right _ (List.mem_flatMap.mpr ⟨a, listed, ?_⟩)
    rw [Text.linesOf_of_oneLine whole]
    exact List.mem_cons_self
  have width := grid.width _ printed _ thin
  rw [length_argumentRow, length_border] at width
  constructor
  · omega
  · omega
  · exact ((oneLine_argumentRow_iff a).mp whole).2

theorem isGrid_iff {arguments : List Argument} (named : ∀ a ∈ arguments, Text.OneLine a.name) :
    IsGrid arguments.length (tableLines arguments) ↔ ∀ a ∈ arguments, a.FitsColumns :=
  ⟨fits_of_isGrid, isGrid_of_fits named⟩

end Reference

end DeviceLink
