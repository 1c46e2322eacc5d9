import DeviceLink.Proofs.Dispatch.Printed

/-!
The definitions in the text of an implementation. A reader who looks above the braces that stand alone
finds the first lines of functions, and knows dispatchers by their parameters. If nothing in a line of
the text breaks it into two, the reader finds the dispatchers of the implementation and nothing else
(`definedNames_text`).
-/

set_option autoImplicit false
set_option relaxedAutoImplicit false

namespace DeviceLink.Dispatch

open Text (ofLines OneLine)

/-- The lines directly above a brace that stands alone. -/
def heads : List String → List String
  | above :: next :: rest =>
    if next = openBrace then above :: heads (next :: rest) else heads (next :: rest)
  | [_] | [] => []

/-- The name in the first line of a dispatcher: the last word before the parameters. -/
def dispatcherName? (head : String) : Option String :=
  (("(" ++ parameterList ++ ")").toList.isSuffixOf? head.toList).map fun front =>
    String.ofList (front.reverse.takeWhile (· != ' ')).reverse

/-- The names of the dispatchers that a file defines, as a reader finds them. -/
def definedNames (file : String) : List String :=
  (heads ((Text.linesOf file).map String.ofList)).filterMap dispatcherName?

private theorem heads_append {rest : List String} (apart : rest.head? ≠ some openBrace)
    (front : List String) : heads (front ++ rest) = heads front ++ heads rest := by
  induction front with
  | nil => rfl
  | cons above front ih =>
    cases front with
    | cons next more =>
      rw [List.cons_append, List.cons_append, heads, heads, ← List.cons_append, ih]
      split <;> rfl
    | nil =>
      cases rest with
      | nil => rfl
      | cons next more =>
        have other : next ≠ openBrace := fun same => apart (congrArg some same)
        rw [List.singleton_append, heads, if_neg other]
        rfl

private theorem heads_cons_of_unbraced (above : String) {rest : List String}
    (unbraced : openBrace ∉ rest) : heads (above :: rest) = [] := by
  induction rest generalizing above with
  | nil => rfl
  | cons next more ih =>
    have other : next ≠ openBrace := (List.ne_of_not_mem_cons unbraced).symm
    rw [heads, if_neg other, ih next (List.not_mem_of_not_mem_cons unbraced)]

private theorem heads_append_of_unbraced {front rest : List String} (unbraced : openBrace ∉ front)
    (apart : rest.head? ≠ some openBrace) : heads (front ++ rest) = heads rest := by
  rw [heads_append apart]
  cases front with
  | nil => rfl
  | cons first more =>
    rw [heads_cons_of_unbraced first (List.not_mem_of_not_mem_cons unbraced), List.nil_append]

private theorem dispatcherName?_headOf (front : String) {name : String}
    (solid : ' ' ∉ name.toList) : dispatcherName? (front ++ headOf name) = some name := by
  have shape : ((front ++ "uint8_t").toList ++ ' ' :: name.toList) ++
      ("(" ++ parameterList ++ ")").toList = (front ++ headOf name).toList := by
    have mark : "uint8_t ".toList = "uint8_t".toList ++ [' '] := rfl
    simp only [headOf, String.toList_append, mark, List.append_assoc, List.singleton_append]
  have letters : ∀ c ∈ name.toList.reverse, (c != ' ') = true := by
    intro c inside
    rw [bne_iff_ne]
    rintro rfl
    exact solid (List.mem_reverse.mp inside)
  rw [dispatcherName?, List.isSuffixOf?_eq_some_iff_append_eq.mpr shape, Option.map_some,
    List.reverse_append, List.reverse_cons, List.append_assoc, List.singleton_append,
    List.takeWhile_append_of_pos letters, List.takeWhile_cons_of_neg (by decide), List.append_nil,
    List.reverse_reverse, String.ofList_toList]

/-- A dispatcher whose lines are found again: no name and no statement is broken into two. -/
structure Dispatcher.Legible (d : Dispatcher) : Prop where
  whole : OneLine d.name
  solid : ' ' ∉ d.name.toList
  qualifier : ∀ qualifier, d.qualifier = some qualifier → OneLine (Text.trimmed qualifier)
  statements : ∀ s ∈ d.statements, OneLine s.text
  branches : ∀ b ∈ d.branches, ∀ s ∈ b.statements, OneLine s.text

variable {d : Dispatcher}

/-! Lines that are not broken. -/

private theorem oneLine_margin {text : String} (whole : OneLine text) : OneLine ("    " ++ text) :=
  Text.oneLine_append (by decide) whole

private theorem oneLine_headOf {name : String} (whole : OneLine name) : OneLine (headOf name) := by
  simp only [headOf, Text.oneLine_append_iff]
  exact ⟨⟨⟨⟨by decide, whole⟩, by decide⟩, by decide⟩, by decide⟩

private theorem oneLine_branchLines {branches : List Branch} {keyword : String}
    (start : OneLine keyword) (each : ∀ b ∈ branches, ∀ s ∈ b.statements, OneLine s.text) :
    ∀ text ∈ branchLines keyword branches, OneLine text := by
  induction branches generalizing keyword with
  | nil => exact fun text listed => absurd listed List.not_mem_nil
  | cons b rest ih =>
    obtain ⟨first, others⟩ := List.forall_mem_cons.mp each
    have condition : OneLine (keyword ++ " (" ++ b.command.name ++ " == cmd)") := by
      have command : OneLine b.command.name := by cases b.command <;> decide
      simp only [Text.oneLine_append_iff]
      exact ⟨⟨⟨start, by decide⟩, command⟩, by decide⟩
    have body : ∀ text ∈ b.statements.map ("    " ++ ·.text), OneLine text := by
      intro text listed
      obtain ⟨s, inside, rfl⟩ := List.mem_map.mp listed
      exact oneLine_margin (first s inside)
    rw [branchLines]
    simp only [List.forall_mem_append, List.forall_mem_cons]
    exact ⟨⟨⟨⟨condition, by decide, by simp⟩, body⟩, by decide, by simp⟩, ih (by decide) others⟩

private theorem oneLine_definitionLines (legible : d.Legible) :
    ∀ text ∈ definitionLines d, OneLine text := by
  have front : OneLine
      ((d.qualifier.map fun qualifier => Text.trimmed qualifier ++ " ").getD "") := by
    cases own : d.qualifier with
    | none => decide
    | some qualifier => exact Text.oneLine_append (legible.qualifier qualifier own) (by decide)
  have body : ∀ text ∈ (branchLines "if" d.branches ++ d.statements.map (·.text)).map ("    " ++ ·),
      OneLine text := by
    intro text listed
    obtain ⟨inner, inside, rfl⟩ := List.mem_map.mp listed
    refine oneLine_margin ?_
    rcases List.mem_append.mp inside with branch | statement
    · exact oneLine_branchLines (by decide) legible.branches inner branch
    · obtain ⟨s, own, rfl⟩ := List.mem_map.mp statement
      exact legible.statements s own
  rw [definitionLines]
  simp only [List.forall_mem_append, List.forall_mem_cons]
  have head := Text.oneLine_append front (oneLine_headOf legible.whole)
  exact ⟨⟨⟨by decide, head, by decide, by simp⟩, body⟩, by decide, by simp⟩

private theorem append_ne_brace {front : String}
    (start : front.toList.head?.any (· != '\x7b') = true) (rest : String) :
    front ++ rest ≠ openBrace := by
  intro same
  have first := congrArg String.toList same
  rw [String.toList_append] at first
  cases shape : front.toList with
  | nil => simp [shape] at start
  | cons c more =>
    rw [shape, List.cons_append] at first
    obtain rfl : c = '\x7b' := (List.cons.inj first).1
    simp [shape] at start

private theorem names_definitionLines (legible : d.Legible) :
    (heads (definitionLines d)).filterMap dispatcherName? = [d.name] := by
  generalize front : (d.qualifier.map fun qualifier => Text.trimmed qualifier ++ " ").getD "" = start
  have named := dispatcherName?_headOf start legible.solid
  have other : start ++ headOf d.name ≠ openBrace := by
    intro same
    have nothing : dispatcherName? openBrace = none := by decide
    rw [same, nothing] at named
    cases named
  have body : openBrace ∉
      (branchLines "if" d.branches ++ d.statements.map (·.text)).map ("    " ++ ·) ++ ["\x7d"] := by
    intro inside
    rcases List.mem_append.mp inside with inner | last
    · obtain ⟨text, -, same⟩ := List.mem_map.mp inner
      exact append_ne_brace (by decide) text same
    · exact absurd last (by decide)
  have alone : "\x7b" = openBrace := rfl
  rw [definitionLines, front, List.append_assoc, List.cons_append, List.cons_append, List.cons_append,
    List.nil_append, heads, if_neg other, heads, if_pos alone, heads_cons_of_unbraced _ body,
    List.filterMap_cons_some named, List.filterMap_nil]

private theorem names_flatMap_definitionLines {dispatchers : List Dispatcher} {rest : List String}
    (legible : ∀ d ∈ dispatchers, d.Legible) (apart : rest.head? ≠ some openBrace) :
    (heads (dispatchers.flatMap definitionLines ++ rest)).filterMap dispatcherName? =
      dispatchers.map (·.name) ++ (heads rest).filterMap dispatcherName? := by
  induction dispatchers with
  | nil => rfl
  | cons d others ih =>
    obtain ⟨first, later⟩ := List.forall_mem_cons.mp legible
    have next : (others.flatMap definitionLines ++ rest).head? ≠ some openBrace := by
      cases others with
      | nil => exact apart
      | cons d' more => exact fun same => absurd (Option.some.inj same) (by decide)
    rw [List.flatMap_cons, List.append_assoc, heads_append next, List.filterMap_append,
      names_definitionLines first, ih later, List.map_cons, List.cons_append, List.nil_append,
      List.cons_append]

private theorem mem_of_mem_commaLines {texts : List String} {text : String}
    (listed : text ∈ commaLines texts) :
    text = "" ∨ ∃ inner ∈ texts, text = inner ∨ text = inner ++ "," := by
  induction texts with
  | nil => exact Or.inl (List.mem_singleton.mp listed)
  | cons first rest ih =>
    cases rest with
    | nil => exact Or.inr ⟨first, List.mem_cons_self, Or.inl (List.mem_singleton.mp listed)⟩
    | cons next more =>
      rcases List.mem_cons.mp listed with rfl | later
      · exact Or.inr ⟨first, List.mem_cons_self, Or.inr rfl⟩
      · refine (ih later).imp_right ?_
        rintro ⟨inner, inside, same⟩
        exact ⟨inner, List.mem_cons_of_mem _ inside, same⟩

/-- Lines that a reader finds as they are and takes for no brace. -/
def Unbraced (texts : List String) : Prop :=
  ∀ text ∈ texts, OneLine text ∧ text ≠ openBrace

private theorem unbraced_tableLines {names : List String} (whole : ∀ name ∈ names, OneLine name) :
    Unbraced (tableLines names) := by
  have head : OneLine (tableHead names.length ++ " = \x7b") ∧
      tableHead names.length ++ " = \x7b" ≠ openBrace := by
    unfold tableHead
    constructor
    · have number := Text.oneLine_toString names.length
      simp only [Text.oneLine_append_iff]
      exact ⟨⟨⟨⟨⟨by decide, number⟩, by decide⟩, by decide⟩, by decide⟩, by decide⟩
    · simp only [String.append_assoc]
      exact append_ne_brace (by decide) _
  have entries : Unbraced ((commaLines (names.map ("&" ++ ·))).map ("    " ++ ·)) := by
    intro text listed
    obtain ⟨entry, inside, rfl⟩ := List.mem_map.mp listed
    refine ⟨oneLine_margin ?_, append_ne_brace (by decide) entry⟩
    rcases mem_of_mem_commaLines inside with rfl | ⟨inner, known, same⟩
    · decide
    · obtain ⟨name, own, rfl⟩ := List.mem_map.mp known
      have reference : OneLine ("&" ++ name) := Text.oneLine_append (by decide) (whole name own)
      rcases same with rfl | rfl
      · exact reference
      · exact Text.oneLine_append reference (by decide)
  rw [Unbraced, tableLines]
  simp only [List.forall_mem_append, List.forall_mem_cons]
  exact ⟨⟨⟨by decide, head, by simp⟩, entries⟩, by decide, by simp⟩

private theorem unbraced_openingLines {i : Implementation}
    (whole : ∀ target ∈ i.includes, OneLine target) : Unbraced (openingLines i) := by
  have notes : Unbraced bannerLines := by
    unfold Unbraced
    decide +kernel
  have includes : Unbraced (i.includes.map ("#include " ++ ·)) := by
    intro text listed
    obtain ⟨target, own, rfl⟩ := List.mem_map.mp listed
    exact ⟨Text.oneLine_append (by decide) (whole target own), append_ne_brace (by decide) target⟩
  have helpers : Unbraced (if i.withStrings then
      ["", stringGetterSignature ++ ";", stringSetterSignature ++ ";"] else []) := by
    unfold Unbraced
    cases i.withStrings <;> decide +kernel
  unfold Unbraced at notes includes helpers ⊢
  rw [openingLines]
  simp only [List.forall_mem_append]
  exact ⟨⟨⟨notes, by decide⟩, includes⟩, helpers⟩

private theorem exists_closingLines (withStrings : Bool) : ∃ closing,
    (if withStrings then stringHelpersText else "") = ofLines closing ∧
      (∀ text ∈ closing, OneLine text) ∧ closing.head? ≠ some openBrace ∧
      (heads (closing ++ [""])).filterMap dispatcherName? = [] := by
  cases withStrings with
  | false => exact ⟨[], rfl, by decide, by decide, by decide⟩
  | true =>
    refine ⟨_, (Text.ofLines_append _ _).symm, ?_, ?_, ?_⟩
    · decide +kernel
    · decide +kernel
    · decide +kernel

/-- What a reader finds above the braces of an implementation, if its lines are not broken by what
stands in them, are its dispatchers. -/
theorem definedNames_text {i : Implementation} (includes : ∀ target ∈ i.includes, OneLine target)
    (table : ∀ name ∈ i.table, OneLine name) (legible : ∀ d ∈ i.dispatchers, d.Legible) :
    definedNames i.text = i.dispatchers.map (·.name) := by
  obtain ⟨closing, helpers, last, apart, nameless⟩ := exists_closingLines i.withStrings
  have front : Unbraced (openingLines i ++ tableLines i.table) :=
    List.forall_mem_append.mpr ⟨unbraced_openingLines includes, unbraced_tableLines table⟩
  have defined : ∀ text ∈ i.dispatchers.flatMap definitionLines, OneLine text := by
    intro text listed
    obtain ⟨d, own, inside⟩ := List.mem_flatMap.mp listed
    exact oneLine_definitionLines (legible d own) text inside
  have whole : ∀ text ∈ openingLines i ++ tableLines i.table ++ (i.dispatchers.flatMap
      definitionLines ++ closing), OneLine text :=
    List.forall_mem_append.mpr ⟨fun text listed => (front text listed).1,
      List.forall_mem_append.mpr ⟨defined, last⟩⟩
  have apart' : (closing ++ [""]).head? ≠ some openBrace := by
    cases closing with
    | nil => decide
    | cons first more => exact apart
  have next : (i.dispatchers.flatMap definitionLines ++ (closing ++ [""])).head? ≠
      some openBrace := by
    cases i.dispatchers with
    | nil => exact apart'
    | cons d others => exact fun same => absurd (Option.some.inj same) (by decide)
  have read : (Text.linesOf i.text).map String.ofList =
      openingLines i ++ tableLines i.table ++ (i.dispatchers.flatMap definitionLines ++
        (closing ++ [""])) := by
    have texts (l : List String) : (l.map String.toList).map String.ofList = l := by
      simp [Function.comp_def]
    rw [text_implementation, helpers, ← Text.ofLines_append, List.append_assoc, Text.linesOf_ofLines,
      Text.flatMap_linesOf_of_oneLine whole, List.map_append, texts]
    simp only [List.append_assoc]
    rfl
  rw [definedNames, read, heads_append_of_unbraced (fun inside => (front _ inside).2 rfl) next,
    names_flatMap_definitionLines legible apart', nameless, List.append_nil]

end DeviceLink.Dispatch
