import DeviceLink.Proofs.Reference.Headlines
import DeviceLink.Proofs.Reference.Tables
import DeviceLink.Proofs.Schema.Acceptance
import DeviceLink.Proofs.Validation.Validity

/-!
The sections of a reference. In the file of a valid tree a reader finds the title of the device and
that of every endpoint, each with as many marks below it as it has characters; other headlines stand
within a label, a unit or a summary of several lines (`headlines_text_perm`). The tables stand there
as they are (`tableLines_within`), and `grids_and_headlines` says what the file holds as a whole.
-/

set_option autoImplicit false
set_option relaxedAutoImplicit false

namespace DeviceLink.Reference

open Identifier (IsIdentifier isPart isBlank_of_isPart)

def unitLines : Body → List String
  | .register r => ["- Unit: " ++ unitText r.unit]
  | .function f => ("- Unit: " ++ unitText f.unit) :: f.arguments.map argumentRow
  | .node _ | .selector _ | .bitmask _ => []

def labelLines (anchor : Option String) : List String :=
  anchor.toList.map fun anchor => ".. _" ++ anchor ++ ":"

def summaryTexts (summary : Option String) : List String :=
  summary.toList.map Text.trimmed

/-- The texts in the section at a place that the validation does not look at: the label, the units and
the summary. -/
def freeTextsAt (t : Tree) (id : Nat) : List String :=
  match t.get? id with
  | some e => labelLines e.info.anchor ++ (unitLines e.body ++ summaryTexts e.info.summary)
  | none => []

def freeTexts (t : Tree) : List String :=
  summaryTexts ((t.get? Tree.rootId).bind (·.info.summary)) ++ t.endpoints.flatMap (freeTextsAt t)

/-- The titles of a reference: one for the device and one for each endpoint. -/
def titles (t : Tree) : List Headline :=
  headline '=' (t.rootName ++ " API Reference") ::
    t.endpoints.map fun id => headline '-' (heading t id)

variable {t : Tree} {id : Nat}

/-! The titles of valid trees. -/

private theorem oneLine_nameOf (valid : t.Valid) (id : Nat) : Text.OneLine (t.nameOf id) := by
  rw [Tree.nameOf]
  cases found : t.get? id with
  | none => exact List.not_mem_nil
  | some e => exact (valid.names id e found).oneLine

private theorem oneLine_fullName (valid : t.Valid) (id : Nat) : Text.OneLine (t.fullName id) := by
  refine Text.oneLine_intercalate (by decide) fun name listed => ?_
  obtain ⟨id', e, found, rfl⟩ := Tree.mem_pathNames listed
  exact (valid.names id' e found).oneLine

private theorem isTitle_device (valid : t.Valid) : IsTitle (t.rootName ++ " API Reference") where
  whole := Text.oneLine_append (oneLine_nameOf valid Tree.rootId) (by decide)
  visible := by
    refine ⟨'A', ?_, by decide⟩
    rw [String.toList_append]
    exact List.mem_append_right _ (by decide)

private theorem exists_mem_fullName (h : t.Sound) (valid : t.Valid) (inside : id ∈ t.endpoints) :
    ∃ c ∈ (t.fullName id).toList, isPart c = true := by
  obtain ⟨e, names, found, path⟩ := Tree.pathNames_endpoint h inside
  obtain ⟨first, rest, spelled, -⟩ := (valid.names id e found).word
  have within : first ∈ e.name.toList := by
    rw [spelled]
    exact List.mem_cons_self
  have listed : e.name.toList ∈ (t.pathNames id).map String.toList := by
    rw [path]
    exact List.mem_map_of_mem (List.mem_append_right _ (List.mem_singleton_self _))
  refine ⟨first, ?_, (valid.names id e found).word.isPart first within⟩
  rw [Tree.fullName, String.toList_intercalate]
  exact List.mem_flatten.mpr ⟨_, mem_intersperse_of_mem _ listed, within⟩

private theorem isTitle_heading (h : t.Sound) (valid : t.Valid) (inside : id ∈ t.endpoints) :
    IsTitle (heading t id) := by
  rw [heading]
  split
  · obtain ⟨c, within, part⟩ := exists_mem_fullName h valid inside
    exact ⟨oneLine_fullName valid id, c, within, isBlank_of_isPart part⟩
  · refine ⟨?_, '.', by simp, by decide⟩
    exact Text.oneLine_append (Text.oneLine_append (oneLine_nameOf valid _) (by decide))
      (oneLine_fullName valid id)

/-! The lines about the content of an entity. -/

private theorem unruled_item {front : String} (rest : String) (whole : Text.OneLine front)
    (spaced : ' ' ∈ front.toList) : Unruled (front ++ rest) :=
  unruled_append rest whole spaced (by decide)

private theorem unruled_row (cells : List String) : Unruled (row cells) :=
  unruled_item _ (by decide) (by decide)

private theorem unruled_argumentTable (arguments : List Argument) :
    ∀ s ∈ argumentTable arguments, Unruled s := by
  intro s inside
  rcases List.mem_append.mp inside with top | below
  · simp only [List.mem_cons, List.not_mem_nil, or_false] at top
    rcases top with rfl | rfl | rfl
    · decide
    · exact unruled_row _
    · decide
  · obtain ⟨a, -, below⟩ := List.mem_flatMap.mp below
    simp only [List.mem_cons, List.not_mem_nil, or_false] at below
    rcases below with rfl | rfl
    · exact unruled_row _
    · decide

private theorem headlinesOf_argumentTable (arguments : List Argument) :
    headlinesOf (argumentTable arguments) = headlinesWithin (arguments.map argumentRow) := by
  have thin : headlines (Text.linesOf (border '-')) = [] := headlines_of_oneLine (by decide)
  have thick : headlines (Text.linesOf (border '=')) = [] := headlines_of_oneLine (by decide)
  have header : headlines (Text.linesOf (row ["Name", "Type", "Unit"])) = [] :=
    headlines_of_oneLine (by decide)
  rw [headlinesOf_of_unruled (unruled_argumentTable arguments), argumentTable,
    headlinesWithin_append]
  simp only [headlinesWithin, List.flatMap_assoc, List.flatMap_map, List.flatMap_cons,
    List.flatMap_nil, thin, thick, header, List.append_nil, List.nil_append]

private theorem unruled_head_bodyLines (b : Body) {s : String}
    (first : (bodyLines b).head? = some s) : Unruled s := by
  cases b with
  | node | register | function | selector | bitmask =>
    obtain rfl := Option.some.inj first
    exact unruled_item _ (by decide) (by decide)

private theorem headlinesOf_typed {label label' : String} (type : DataType) (rest : String)
    (whole : Text.OneLine label) (whole' : Text.OneLine label') (spaced : ' ' ∈ label.toList)
    (spaced' : ' ' ∈ label'.toList) :
    headlinesOf [label ++ type.name, label' ++ rest] = headlinesWithin [label' ++ rest] := by
  have calm : ∀ s ∈ [label ++ type.name, label' ++ rest], Unruled s := by
    rw [List.forall_mem_cons, List.forall_mem_singleton]
    exact ⟨unruled_item _ whole spaced, unruled_item rest whole' spaced'⟩
  have single : Text.OneLine (label ++ type.name) :=
    Text.oneLine_append whole (oneLine_name_dataType type)
  rw [headlinesOf_of_unruled calm, headlinesWithin_cons_of_oneLine single]

private theorem headlinesOf_bodyLines {b : Body}
    (named : ∀ name ∈ b.memberNames, IsIdentifier name) :
    headlinesOf (bodyLines b) = headlinesWithin (unitLines b) := by
  have joined (label : String) (whole : Text.OneLine label) :
      Text.OneLine (label ++ ", ".intercalate b.memberNames) :=
    Text.oneLine_append whole <| Text.oneLine_intercalate (by decide) fun name listed =>
      (named name listed).oneLine
  cases b with
  | node =>
    rw [bodyLines, headlinesOf_typed _ _ (by decide) (by decide) (by decide) (by decide)]
    exact headlinesWithin_cons_of_oneLine (by decide) []
  | register =>
    rw [bodyLines, headlinesOf_typed _ _ (by decide) (by decide) (by decide) (by decide)]
    rfl
  | selector =>
    rw [bodyLines, headlinesOf_typed _ _ (by decide) (by decide) (by decide) (by decide)]
    exact headlinesWithin_cons_of_oneLine (joined "- Options: " (by decide)) []
  | bitmask =>
    rw [bodyLines, headlinesOf_typed _ _ (by decide) (by decide) (by decide) (by decide)]
    exact headlinesWithin_cons_of_oneLine (joined "- Flags: " (by decide)) []
  | function f =>
    have about : headlinesOf ["- Return Type: " ++ f.result.name, "- Unit: " ++ unitText f.unit] =
        headlinesWithin ["- Unit: " ++ unitText f.unit] :=
      headlinesOf_typed _ _ (by decide) (by decide) (by decide) (by decide)
    have last (s : String) (calm : Unruled s) (whole : Text.OneLine s) :
        headlinesOf (["- Return Type: " ++ f.result.name, "- Unit: " ++ unitText f.unit] ++ [s]) =
          headlinesWithin ["- Unit: " ++ unitText f.unit] := by
      rw [headlinesOf_append_cons calm, about, headlinesOf_of_oneLine whole, List.append_nil]
    rw [bodyLines, unitLines]
    cases empty : f.arguments.isEmpty with
    | true =>
      rw [if_pos rfl, last "- Arguments: None" (by decide) (by decide), List.isEmpty_iff.mp empty]
      rfl
    | false =>
      have shape : ["- Return Type: " ++ f.result.name, "- Unit: " ++ unitText f.unit] ++
          (["- Arguments:", ""] ++ argumentTable f.arguments) =
          ["- Return Type: " ++ f.result.name, "- Unit: " ++ unitText f.unit] ++ ["- Arguments:"] ++
            "" :: argumentTable f.arguments := rfl
      rw [if_neg Bool.false_ne_true, shape, headlinesOf_append_blank,
        last "- Arguments:" (by decide) (by decide), headlinesOf_argumentTable,
        ← headlinesWithin_append]
      rfl

/-! Whole sections. -/

def detailLines (e : Entity) : List String :=
  ("- Endpoint ID: " ++ toString (e.endpoint?.getD 0).toNat) ::
    (bodyLines e.body ++ summaryLines e.info.summary)

private theorem headlinesOf_append_summaryLines (front : List String) (summary : Option String) :
    headlinesOf (front ++ summaryLines summary) =
      headlinesOf front ++ headlinesWithin (summaryTexts summary) := by
  cases summary with
  | none => rw [summaryLines, List.append_nil]; exact (List.append_nil _).symm
  | some text =>
    rw [summaryLines, headlinesOf_append_blank, headlinesOf_singleton]
    rfl

private theorem headlinesOf_detailLines {e : Entity}
    (named : ∀ name ∈ e.body.memberNames, IsIdentifier name) :
    headlinesOf (detailLines e) =
      headlinesWithin (unitLines e.body ++ summaryTexts e.info.summary) := by
  have address : Text.OneLine ("- Endpoint ID: " ++ toString (e.endpoint?.getD 0).toNat) :=
    Text.oneLine_append (by decide) (Text.oneLine_toString _)
  have apart : ∀ s, (bodyLines e.body).head? = some s → Unruled s := fun _ =>
    unruled_head_bodyLines e.body
  rw [detailLines, ← List.cons_append, headlinesOf_append_summaryLines, ← List.singleton_append,
    headlinesOf_append apart, headlinesOf_bodyLines named, headlinesOf_of_oneLine address,
    List.nil_append, headlinesWithin_append]

/-- The headlines in the section of an entity: its title, and what its label, its units and its
summary bring along. -/
def sectionHeadlines (title : String) (e : Entity) : List Headline :=
  headlinesWithin (labelLines e.info.anchor) ++ headline '-' title ::
    headlinesWithin (unitLines e.body ++ summaryTexts e.info.summary)

private theorem headlinesOf_sectionOf {title : String} (h : IsTitle title) {e : Entity}
    (named : ∀ name ∈ e.body.memberNames, IsIdentifier name) :
    headlinesOf (sectionOf title e) = sectionHeadlines title e := by
  have titled : headlinesOf (underlined '-' title ++ "" :: detailLines e) =
      headline '-' title :: headlinesWithin (unitLines e.body ++ summaryTexts e.info.summary) := by
    rw [headlinesOf_append_blank, headlinesOf_underlined (by decide) h,
      headlinesOf_detailLines named, List.singleton_append]
  cases anchored : e.info.anchor with
  | none =>
    have shape : sectionOf title e = "" :: (underlined '-' title ++ "" :: detailLines e) := by
      simp [sectionOf, anchored, detailLines]
    rw [shape, headlinesOf_blank_cons, titled, sectionHeadlines, anchored]
    rfl
  | some anchor =>
    have shape : sectionOf title e = "" :: (labelLines (some anchor) ++
        "" :: (underlined '-' title ++ "" :: detailLines e)) := by
      simp [sectionOf, anchored, detailLines, labelLines]
    have label : headlinesOf (labelLines (some anchor)) =
        headlinesWithin (labelLines (some anchor)) := headlinesOf_singleton _
    rw [shape, headlinesOf_blank_cons, headlinesOf_append_blank, titled, label, sectionHeadlines,
      anchored]

def headlinesAt (t : Tree) (id : Nat) : List Headline :=
  match t.get? id with
  | some e => sectionHeadlines (heading t id) e
  | none => []

private theorem unruled_head_sections (t : Tree) {ids : List Nat} {s : String}
    (first : (ids.flatMap (sectionAt t)).head? = some s) : Unruled s := by
  induction ids with
  | nil => cases first
  | cons id rest ih =>
    rw [List.flatMap_cons, sectionAt] at first
    cases found : t.get? id with
    | none =>
      rw [found] at first
      exact ih first
    | some e =>
      rw [found] at first
      obtain rfl := Option.some.inj first
      rfl

private theorem headlinesOf_sections (h : t.Sound) (valid : t.Valid) {ids : List Nat}
    (listed : ∀ id ∈ ids, id ∈ t.endpoints) :
    headlinesOf (ids.flatMap (sectionAt t)) = ids.flatMap (headlinesAt t) := by
  induction ids with
  | nil => rfl
  | cons id rest ih =>
    obtain ⟨inside, others⟩ := List.forall_mem_cons.mp listed
    obtain ⟨e, found, -⟩ := (Tree.mem_endpoints_iff h).mp inside
    have own : headlinesOf (sectionAt t id) = headlinesAt t id := by
      rw [sectionAt, headlinesAt, found]
      exact headlinesOf_sectionOf (isTitle_heading h valid inside) (valid.members id e found)
    rw [List.flatMap_cons, headlinesOf_append fun _ => unruled_head_sections t, own, ih others,
      List.flatMap_cons]

private theorem headlinesOf_lines (h : t.Sound) (valid : t.Valid) :
    headlinesOf (lines t) =
      headline '=' (t.rootName ++ " API Reference") ::
        (headlinesWithin (summaryTexts ((t.get? Tree.rootId).bind (·.info.summary))) ++
          t.endpoints.flatMap (headlinesAt t)) := by
  have title := isTitle_device valid
  have sections := headlinesOf_sections h valid fun id (inside : id ∈ t.endpoints) => inside
  have hash : Text.OneLine ("Protocol hash: ``" ++ hexLiteral t.hash ++ "``") :=
    Text.oneLine_append (Text.oneLine_append (by decide) (Text.oneLine_hexLiteral _)) (by decide)
  have notes : headlinesOf (notice.map (".. " ++ ·)) = [] := by decide +kernel
  have shape : lines t = notice.map (".. " ++ ·) ++ "" ::
      (underlined '=' (t.rootName ++ " API Reference") ++
          summaryLines ((t.get? Tree.rootId).bind (·.info.summary)) ++
        "" :: (["Protocol hash: ``" ++ hexLiteral t.hash ++ "``"] ++
          t.endpoints.flatMap (sectionAt t))) := by
    simp [lines, opening]
  rw [shape, headlinesOf_append_blank, notes, headlinesOf_append_blank,
    headlinesOf_append_summaryLines, headlinesOf_underlined (by decide) title,
    headlinesOf_append fun _ => unruled_head_sections t, headlinesOf_of_oneLine hash, sections,
    List.nil_append, List.nil_append, List.append_assoc, List.singleton_append]

/-! The text of the file. -/

private theorem linesOf_text (t : Tree) :
    Text.linesOf (text t) = (lines t).flatMap Text.linesOf ++ [[]] :=
  Text.linesOf_ofLines (lines t)

private theorem headlines_text (t : Tree) : headlines (Text.linesOf (text t)) =
    headlinesOf (lines t) := by
  have ended : (lines t).flatMap Text.linesOf ++ [[]] = (lines t ++ [""]).flatMap Text.linesOf := by
    rw [List.flatMap_append]
    rfl
  rw [linesOf_text, ended]
  exact (headlinesOf_append_blank (lines t) []).trans (List.append_nil _)

private theorem headlinesAt_perm (h : t.Sound) (inside : id ∈ t.endpoints) :
    (headlinesAt t id).Perm (headline '-' (heading t id) :: headlinesWithin (freeTextsAt t id)) := by
  obtain ⟨e, found, -⟩ := (Tree.mem_endpoints_iff h).mp inside
  rw [headlinesAt, freeTextsAt, found]
  show (sectionHeadlines _ e).Perm (_ :: headlinesWithin (labelLines e.info.anchor ++ _))
  rw [sectionHeadlines, headlinesWithin_append (labelLines e.info.anchor)]
  exact List.perm_middle

private theorem sections_perm (h : t.Sound) {ids : List Nat}
    (listed : ∀ id ∈ ids, id ∈ t.endpoints) : (ids.flatMap (headlinesAt t)).Perm
      (ids.map (fun id => headline '-' (heading t id)) ++
        headlinesWithin (ids.flatMap (freeTextsAt t))) := by
  induction ids with
  | nil => exact .nil
  | cons id rest ih =>
    obtain ⟨inside, others⟩ := List.forall_mem_cons.mp listed
    rw [List.flatMap_cons, List.flatMap_cons, List.map_cons, headlinesWithin_append]
    have both := (headlinesAt_perm h inside).append (ih others)
    refine both.trans (.cons _ ?_)
    exact List.perm_append_comm_assoc _ _ _

theorem headlines_text_perm (h : t.Sound) (valid : t.Valid) :
    (headlines (Text.linesOf (text t))).Perm (titles t ++ headlinesWithin (freeTexts t)) := by
  rw [headlines_text, headlinesOf_lines h valid, titles, freeTexts, headlinesWithin_append]
  refine .cons _ ?_
  exact ((sections_perm h fun _ inside => inside).append_left _).trans
    (List.perm_append_comm_assoc _ _ _)

private theorem headlines_text_of_oneLine (h : t.Sound) (valid : t.Valid)
    (whole : ∀ s ∈ freeTexts t, Text.OneLine s) : headlines (Text.linesOf (text t)) = titles t := by
  obtain ⟨summary, others⟩ := List.forall_mem_append.mp whole
  have titled : ∀ id ∈ t.endpoints, headlinesAt t id = [headline '-' (heading t id)] := by
    intro id inside
    have own : ∀ s ∈ freeTextsAt t id, Text.OneLine s := fun s within =>
      others s (List.mem_flatMap.mpr ⟨id, inside, within⟩)
    have perm := headlinesAt_perm h inside
    rw [headlinesWithin_of_oneLine own] at perm
    exact List.perm_singleton.mp perm
  rw [headlines_text, headlinesOf_lines h valid, headlinesWithin_of_oneLine summary,
    List.nil_append, List.flatMap_congr titled, ← List.map_eq_flatMap]
  rfl

/-! The tables in the file. -/

private theorem argumentTable_ends {f : Function} (some : f.arguments ≠ []) :
    argumentTable f.arguments <:+ bodyLines (.function f) := by
  rw [bodyLines, if_neg (by simpa using some), ← List.append_assoc]
  exact List.suffix_append _ _

private theorem bodyLines_within (title : String) (info : Info) (b : Body) :
    bodyLines b <:+: sectionOf title ⟨info, b⟩ :=
  List.infix_append _ _ _

/-- The table of a function with arguments stands in the file line by line. -/
theorem tableLines_within (h : t.Sound) {info : Info} {f : Function}
    (found : t.get? id = some ⟨info, .function f⟩) (some : f.arguments ≠ []) :
    tableLines f.arguments <:+: Text.linesOf (text t) := by
  have inside : id ∈ t.endpoints := (Tree.mem_endpoints_iff h).mpr ⟨_, found, rfl⟩
  have own : sectionAt t id = sectionOf (heading t id) ⟨info, .function f⟩ := by
    rw [sectionAt, found]
  have within : argumentTable f.arguments <:+: sectionAt t id := by
    rw [own]
    exact (argumentTable_ends some).isInfix.trans (bodyLines_within _ _ _)
  have listed : sectionAt t id <:+: t.endpoints.flatMap (sectionAt t) :=
    List.infix_of_mem_flatten (List.mem_map_of_mem inside)
  have printed : sectionAt t id <:+: lines t := listed.trans (List.suffix_append _ _).isInfix
  rw [linesOf_text]
  exact ((within.trans printed).flatMap Text.linesOf).trans (List.prefix_append _ _).isInfix

private theorem oneLine_argument (valid : t.Valid) {info : Info} {f : Function}
    (found : t.get? id = some ⟨info, .function f⟩) : ∀ a ∈ f.arguments, Text.OneLine a.name :=
  fun a listed => (valid.members id _ found a.name (List.mem_map_of_mem listed)).oneLine

/-- In the reference of a tree without violations, the table of a function stands line by line, and it
is a grid exactly when no name and no unit of an argument is longer than its column or broken into
lines. The headlines are the title of the device and that of each endpoint, with as many marks below
them as they have characters, and what labels, units and summaries of several lines hold. -/
theorem grids_and_headlines (h : t.Reachable) (valid : t.violations = []) :
    (∀ id info f, t.get? id = some ⟨info, .function f⟩ → f.arguments ≠ [] →
      tableLines f.arguments <:+: Text.linesOf (text t) ∧
      (IsGrid f.arguments.length (tableLines f.arguments) ↔
        ∀ a ∈ f.arguments, a.FitsColumns)) ∧
    (headlines (Text.linesOf (text t))).Perm (titles t ++ headlinesWithin (freeTexts t)) ∧
    ((∀ s ∈ freeTexts t, Text.OneLine s) → headlines (Text.linesOf (text t)) = titles t) ∧
    ∀ title ∈ titles t, title.Matches := by
  have rules : t.Valid := (Tree.violations_eq_nil_iff h.sound).mp valid
  refine ⟨fun id info f found some => ⟨?printed, ?grid⟩, ?others, ?plain, ?titled⟩
  case printed => exact tableLines_within h.sound found some
  case grid => exact isGrid_iff (oneLine_argument rules found)
  case others => exact headlines_text_perm h.sound rules
  case plain => exact headlines_text_of_oneLine h.sound rules
  case titled =>
    rw [titles, List.forall_mem_cons, List.forall_mem_map]
    exact ⟨matches_headline _ _, fun id _ => matches_headline _ _⟩

/-- A tree with a function that has two arguments, one of them with a unit. -/
def lathe : Tree :=
  (Tree.ofRoot ⟨"lathe", some "A turning machine.", none, false, [], none, none⟩ false).afterAdd 0
    ⟨⟨"move_to", some "Moves the slide.", none, false, [], none, some "move"⟩,
      .function ⟨"slide_move_to", [⟨"position", none, .float, some ⟨"radian", ⟨.one, .base .angle⟩⟩⟩,
        ⟨"maximal_velocity", none, .float, none⟩], .void, none, 1⟩⟩

theorem grids_and_headlines_lathe :
    lathe.violations = [] ∧
      (∃ info f, lathe.get? 1 = some ⟨info, .function f⟩ ∧ f.arguments.length = 2 ∧
        tableLines f.arguments <:+: Text.linesOf (text lathe) ∧
        IsGrid 2 (tableLines f.arguments)) ∧
      headlines (Text.linesOf (text lathe)) =
        [headline '=' "lathe API Reference", headline '-' "lathe.move_to"] ∧
      ∀ found ∈ headlines (Text.linesOf (text lathe)), found.Matches := by
  have valid : lathe.violations = [] := by decide +kernel
  obtain ⟨tables, -, plain, matching⟩ := grids_and_headlines (.add _ _ (.root _ _)) valid
  obtain ⟨printed, grid⟩ := tables 1 _ _ rfl (List.cons_ne_nil _ _)
  have whole : headlines (Text.linesOf (text lathe)) = titles lathe := plain (by decide +kernel)
  refine ⟨valid, ⟨_, _, rfl, rfl, printed, grid.mpr ?_⟩, whole.trans (by decide +kernel), ?_⟩
  · rw [List.forall_mem_cons, List.forall_mem_singleton]
    exact ⟨⟨by decide, by decide, by decide⟩, ⟨by decide, by decide, by decide⟩⟩
  · rw [whole]
    exact matching

/-- A document with a function whose argument has a name of 18 characters. -/
def longNameDocument : Json :=
  .object [("name", .string "tm"), ("remote_attributes", .array [
    .object [("name", .string "move_to"), ("caller_name", .string "planner_move_to"),
      ("arguments", .array [
        .object [("name", .string "acceleration_limit"), ("dtype", .string "float")]])]])]

def argumentsOf : Body → List Argument
  | .function f => f.arguments
  | .node _ | .register _ | .selector _ | .bitmask _ => []

/-- No rule is broken, and the row of the argument is longer than the other lines of its table. -/
theorem ragged_longName :
    ∃ t info f, Schema.build longNameDocument false = .ok t ∧ t.violations = [] ∧
      t.get? 1 = some ⟨info, .function f⟩ ∧ f.arguments ≠ [] ∧
      tableLines f.arguments <:+: Text.linesOf (text t) ∧
      (tableLines f.arguments).map List.length = [54, 54, 54, 56, 54] := by
  have facts : ((Schema.build longNameDocument false).toOption.bind fun t =>
      (t.get? 1).map fun e => decide (t.violations = [] ∧ argumentsOf e.body ≠ [] ∧
        (tableLines (argumentsOf e.body)).map List.length = [54, 54, 54, 56, 54])) = some true := by
    decide +kernel
  cases built : Schema.build longNameDocument false with
  | error e => simp [built, Except.toOption] at facts
  | ok t =>
    rcases found : t.get? 1 with _ | ⟨info, body⟩
    · simp [built, found, Except.toOption] at facts
    · simp only [built, found, Except.toOption, Option.bind_some, Option.map_some,
        Option.some.injEq, decide_eq_true_eq] at facts
      obtain ⟨valid, some, lengths⟩ := facts
      cases body with
      | node | register | selector | bitmask => exact absurd rfl some
      | function f =>
        have printed := tableLines_within (Schema.built_of_build built).reachable.sound found some
        exact ⟨t, info, f, rfl, valid, found, some, printed, lengths⟩

end DeviceLink.Reference
