import DeviceLink.Proofs.Dispatch.Announcements
import DeviceLink.Proofs.Tree.Documentation

/-!
What documentation can do to generated code. The enumerations and the implementation do not depend
on it. The header holds summaries in comments, and without its comments it is the header of the tree
without documentation exactly when every summary stays inside its comment
(`documentation_is_no_code_iff`).
-/

set_option autoImplicit false
set_option relaxedAutoImplicit false

namespace DeviceLink.Dispatch

open Text (Region scan)

/-! The units of a tree without documentation. -/

section

variable (s : Settings) (t : Tree) (id : Nat)

private theorem enumerations_undocumented : enumerations t.undocumented = enumerations t := by
  rw [enumerations, enumerations, Tree.endpoints_undocumented]
  refine List.filterMap_congr fun id _ => ?_
  rw [enumerationAt?, enumerationAt?, Tree.get?_undocumented]
  cases t.get? id with
  | none => rfl
  | some e =>
    obtain ⟨info, body⟩ := e
    cases body with
    | node | register | function => rfl
    | selector | bitmask =>
      simp [Entity.undocumented, Body.undocumented, Tree.optionsTypeName, Tree.flagsTypeName]

private theorem names_undocumented (arguments : List Argument) :
    (arguments.map Argument.undocumented).map (·.name) = arguments.map (·.name) := by
  rw [List.map_map]
  rfl

private theorem unpackArguments_undocumented (arguments : List Argument) :
    unpackArguments (arguments.map Argument.undocumented) = unpackArguments arguments := by
  cases arguments with
  | nil => rfl
  | cons a rest => exact congrArg (Statement.declareOffset :: ·) (List.flatMap_map _ _ _)

private theorem functionStatements_undocumented (f : Function) (name : String) :
    functionStatements { f with arguments := f.arguments.map Argument.undocumented } name =
      functionStatements f name := by
  have declared : (f.arguments.map Argument.undocumented).mapM (declareArgument name) =
      f.arguments.mapM (declareArgument name) := by
    rw [List.mapM_map]
    rfl
  have called : callStatements { f with arguments := f.arguments.map Argument.undocumented } =
      callStatements f := by
    simp only [callStatements, names_undocumented]
  simp only [functionStatements, declared, unpackArguments_undocumented, called]

private theorem ofPlace_undocumented : ofPlace t.undocumented id = ofPlace t id := by
  rw [ofPlace, ofPlace, Tree.get?_undocumented]
  cases t.get? id with
  | none => simp
  | some e =>
    simp only [Option.map_some, Tree.functionName_undocumented, Tree.fullName_undocumented]
    obtain ⟨info, body⟩ := e
    cases body with
    | node | register | selector | bitmask => rfl
    | function f =>
      show (functionStatements _ _).map _ = (functionStatements f _).map _
      rw [functionStatements_undocumented]
      rfl

private theorem holdsString_undocumented : holdsString t.undocumented id = holdsString t id := by
  rw [holdsString, holdsString, Tree.get?_undocumented]
  cases t.get? id with
  | none => rfl
  | some e =>
    obtain ⟨info, body⟩ := e
    cases body <;> rfl

private theorem implementation_undocumented : implementation s t.undocumented =
    implementation s t := by
  have places : ofPlace t.undocumented = ofPlace t := funext (ofPlace_undocumented t)
  have strings : holdsString t.undocumented = holdsString t := funext (holdsString_undocumented t)
  have functions : t.undocumented.functionName = t.functionName :=
    funext t.functionName_undocumented
  simp only [implementation, dispatchers, table, Tree.endpoints_undocumented, places, strings,
    functions]

private theorem prototypeAt?_undocumented :
    prototypeAt? t.undocumented id = (prototypeAt? t id).map Prototype.bare := by
  rw [prototypeAt?, prototypeAt?, Tree.get?_undocumented]
  cases t.get? id with
  | none => rfl
  | some e =>
    simp only [Option.map_some, Tree.functionName_undocumented]
    obtain ⟨info, body⟩ := e
    cases body with
    | node | register | selector | bitmask => rfl
    | function f =>
      simp [prototypeOf, Prototype.bare, Entity.undocumented, Body.undocumented, Info.undocumented,
        Entity.endpoint?, Argument.undocumented, Argument.text, Function.comp_def]

def announcements : List Prototype :=
  t.endpoints.filterMap (prototypeAt? t)

private theorem announcements_undocumented :
    announcements t.undocumented = (announcements t).map Prototype.bare := by
  rw [announcements, announcements, Tree.endpoints_undocumented, List.map_filterMap]
  exact List.filterMap_congr fun id _ => prototypeAt?_undocumented t id

def preamble : String :=
  { header s t with prototypes := [] }.text ++ hashPrototype.text

end

/-! The header of a valid tree. -/

section

variable (s : Settings) (t : Tree)

private theorem preamble_undocumented : preamble s t.undocumented = preamble s t := by
  have headers : { header s t.undocumented with prototypes := [] } =
      { header s t with prototypes := [] } := by
    simp only [header, Tree.endpoints_undocumented]
    rfl
  rw [preamble, preamble, headers]

private theorem text_eq_preamble :
    (header s t).text = preamble s t ++ String.join ((announcements t).map (·.text)) := by
  simp [preamble, Header.text, header, announcements, String.append_assoc]

private theorem ended_text_of_prototypes_eq_nil {h : Header} (none : h.prototypes = []) :
    Text.Ended h.text.toList := by
  obtain ⟨before, shape⟩ := exists_text_header_eq h
  have last : h.text =
      before ++ (Text.ofLines [""] ++ line ("extern " ++ tableHead h.tableLength ++ ";")) := by
    rw [shape, none, line_eq, ← Text.ofLines_append]
    rfl
  rw [last, String.toList_append, String.toList_append, toList_line, ← List.append_assoc,
    ← List.append_assoc]
  exact Text.ended_append_newline _

private theorem ended_preamble : Text.Ended (preamble s t).toList := by
  rw [preamble, String.toList_append]
  exact (ended_text_of_prototypes_eq_nil rfl).append (Prototype.ended_text _)

private theorem scan_preamble : (scan .code (preamble s t).toList).2 = .code := by
  have plain : hashPrototype.Plain := ⟨by decide, by simp [hashPrototype]⟩
  have closed := Prototype.scan_text_region plain
  rw [preamble, String.toList_append, Text.scan_append (ended_text_of_prototypes_eq_nil rfl), closed]

end

variable {s : Settings} {t : Tree} {i : Implementation}

private theorem mem_announcements_iff {p : Prototype} :
    p ∈ announcements t ↔
      ∃ id e, id ∈ t.endpoints ∧ t.get? id = some e ∧ p = prototypeOf (t.functionName id) e := by
  simp only [announcements, List.mem_filterMap, prototypeAt?, Option.map_eq_some_iff]
  constructor
  · rintro ⟨id, inside, e, found, rfl⟩
    exact ⟨id, e, inside, found, rfl⟩
  · rintro ⟨id, e, inside, found, rfl⟩
    exact ⟨id, inside, e, found, rfl⟩

private theorem plain_announcements (valid : t.Valid) : ∀ p ∈ announcements t, p.Plain := by
  intro p inside
  obtain ⟨id, e, listed, found, rfl⟩ := mem_announcements_iff.mp inside
  have slash : ¬(Identifier.isPart '/' = true) := by decide
  constructor
  · have stem : '/' ∉ (t.underscoredName id).toList := fun member =>
      slash (Tree.isPart_underscoredName valid '/' member)
    simp [prototypeOf, Tree.functionName, functionMark, stem]
  · obtain ⟨info, body⟩ := e
    cases body with
    | node | register | selector | bitmask => exact fun a member => absurd member List.not_mem_nil
    | function f =>
      refine List.forall_mem_map.mpr fun a member => ?_
      have named : a.name ∈ (Body.function f).memberNames := List.mem_map_of_mem member
      have name : '/' ∉ a.name.toList := fun within =>
        slash ((valid.members id _ found _ named).word.isPart '/' within)
      have type : '/' ∉ a.dataType.name.toList := by
        cases a.dataType <;> decide
      simp [Argument.text, name, type]

def SummariesConfined (t : Tree) : Prop :=
  ∀ id e summary, id ∈ t.endpoints → t.get? id = some e → e.info.summary = some summary →
    Confined summary

private theorem confined_announcements_iff :
    (∀ p ∈ announcements t, p.Confined) ↔ SummariesConfined t := by
  constructor
  · intro all id e summary inside found documented
    exact all _ (mem_announcements_iff.mpr ⟨id, e, inside, found, rfl⟩) summary documented
  · rintro all p member summary documented
    obtain ⟨id, e, inside, found, rfl⟩ := mem_announcements_iff.mp member
    exact all id e summary inside found documented

private theorem withoutComments_header (valid : t.Valid) (s : Settings) :
    (Text.withoutComments (header s t).text).toList =
      (scan .code (preamble s t).toList).1 ++ (announcements t).flatMap Prototype.kept := by
  rw [Text.withoutComments, String.toList_ofList, text_eq_preamble, String.toList_append,
    Text.scan_append (ended_preamble s t), scan_preamble,
    scan_announcements (plain_announcements valid)]

private theorem withoutComments_header_eq_iff {a b : Tree} (validA : a.Valid) (validB : b.Valid)
    (same : a.undocumented = b.undocumented) (s : Settings) :
    Text.withoutComments (header s a).text = Text.withoutComments (header s b).text ↔
      (announcements a).flatMap Prototype.kept = (announcements b).flatMap Prototype.kept := by
  have front : preamble s a = preamble s b := by
    rw [← preamble_undocumented, same, preamble_undocumented]
  rw [← String.toList_inj, withoutComments_header validA, withoutComments_header validB, front,
    List.append_cancel_left_eq]

private theorem withoutComments_header_bare_iff {a b : Tree} (validA : a.Valid) (validB : b.Valid)
    (same : a.undocumented = b.undocumented) (bare : b.undocumented = b) (s : Settings) :
    Text.withoutComments (header s a).text = Text.withoutComments (header s b).text ↔
      SummariesConfined a := by
  have silent : announcements b = (announcements a).map Prototype.bare := by
    rw [← announcements_undocumented, same, bare]
  rw [withoutComments_header_eq_iff validA validB same, silent,
    flatMap_kept_iff (plain_announcements validA), confined_announcements_iff]

private theorem generate_eq (made : implementation s t = .ok i) (room : s.maxPayload ≠ 0) :
    generate s t = .ok [⟨s.paths.enumerations, enumerationsText (enumerations t)⟩,
      ⟨s.paths.header, (header s t).text⟩, ⟨s.paths.implementation, i.text⟩] := by
  rw [generate, if_neg room, made]
  rfl

private theorem generate_same {a b : Tree} (sound : a.Sound) (valid : a.Valid)
    (same : a.undocumented = b.undocumented) (room : s.maxPayload ≠ 0) :
    ∃ enums implementation,
      generate s a = .ok [⟨s.paths.enumerations, enums⟩, ⟨s.paths.header, (header s a).text⟩,
        ⟨s.paths.implementation, implementation⟩] ∧
      generate s b = .ok [⟨s.paths.enumerations, enums⟩, ⟨s.paths.header, (header s b).text⟩,
        ⟨s.paths.implementation, implementation⟩] := by
  obtain ⟨i, made⟩ := exists_implementation sound valid s
  have madeB : implementation s b = .ok i := by
    rw [← implementation_undocumented, ← same, implementation_undocumented, made]
  have enums : enumerations b = enumerations a := by
    rw [← enumerations_undocumented, ← same, enumerations_undocumented]
  have second := generate_eq madeB room
  rw [enums] at second
  exact ⟨_, _, generate_eq made room, second⟩

/-- Documentation is no code. Two valid trees that differ only in documentation have the same
enumerations and the same implementation, and their headers are the same without comments if every
summary stays inside its comment. Beside a tree without documentation, this is the only case. -/
theorem documentation_is_no_code {a b : Tree} (ha : a.Reachable) (hb : b.Reachable)
    (validA : a.violations = []) (validB : b.violations = [])
    (same : a.undocumented = b.undocumented) (room : s.maxPayload ≠ 0) :
    ∃ enums headerA headerB implementation,
      generate s a = .ok [⟨s.paths.enumerations, enums⟩, ⟨s.paths.header, headerA⟩,
        ⟨s.paths.implementation, implementation⟩] ∧
      generate s b = .ok [⟨s.paths.enumerations, enums⟩, ⟨s.paths.header, headerB⟩,
        ⟨s.paths.implementation, implementation⟩] ∧
      (SummariesConfined a → SummariesConfined b →
        Text.withoutComments headerA = Text.withoutComments headerB) ∧
      (b.undocumented = b →
        (Text.withoutComments headerA = Text.withoutComments headerB ↔ SummariesConfined a)) := by
  have rulesA := (Tree.violations_eq_nil_iff ha.sound).mp validA
  have rulesB := (Tree.violations_eq_nil_iff hb.sound).mp validB
  obtain ⟨enums, implementation, first, second⟩ := generate_same ha.sound rulesA same room
  refine ⟨enums, _, _, implementation, first, second, ?_, fun bare =>
    withoutComments_header_bare_iff rulesA rulesB same bare s⟩
  intro confinedA confinedB
  have bare : (announcements a).map Prototype.bare = (announcements b).map Prototype.bare := by
    rw [← announcements_undocumented, same, announcements_undocumented]
  have keptA := flatMap_kept_iff (plain_announcements rulesA)
  have keptB := flatMap_kept_iff (plain_announcements rulesB)
  rw [confined_announcements_iff] at keptA keptB
  rw [withoutComments_header_eq_iff rulesA rulesB same, keptA.mpr confinedA, keptB.mpr confinedB,
    bare]

def describedLamp (summary : String) : Tree :=
  (Tree.ofRoot ⟨"lamp", none, none, false, [], none, none⟩ false).afterAdd 0
    ⟨⟨"mode", some summary, none, true, [("page", .integer 7)], none, some "lamp-mode"⟩,
      .selector ⟨⟨["off", "on"]⟩, ⟨some "lamp_get_mode", none⟩, 1⟩⟩

/-- A summary may hold slashes and stars, as long as it has no closing mark. -/
theorem documentation_is_no_code_lamp :
    ∃ files header header' implementation,
      generate coolerSettings (describedLamp "Off/on, * while /* dimmed") =
        .ok [files, ⟨"endpoints.h", header⟩, implementation] ∧
      generate coolerSettings lamp = .ok [files, ⟨"endpoints.h", header'⟩, implementation] ∧
      Text.withoutComments header = Text.withoutComments header' := by
  have valid : (describedLamp "Off/on, * while /* dimmed").violations = [] := by decide +kernel
  have bare : lamp.violations = [] := by decide +kernel
  have same : (describedLamp "Off/on, * while /* dimmed").undocumented = lamp.undocumented := rfl
  have silent : lamp.undocumented = lamp := rfl
  obtain ⟨_, _, _, _, files, files', -, exactly⟩ := documentation_is_no_code (s := coolerSettings)
    (.add _ _ (.root _ _)) (.add _ _ (.root _ _)) valid bare same (by decide)
  refine ⟨_, _, _, _, files, files', (exactly silent).mpr ?_⟩
  intro id e summary _ found documented
  have few : id < 2 := Tree.lt_size_of_get? found
  obtain rfl | rfl : id = 0 ∨ id = 1 := by omega
  · obtain rfl := Option.some.inj found
    cases documented
  · obtain rfl := Option.some.inj found
    obtain rfl := Option.some.inj documented
    exact confined_of_unclosed (by decide)

/-- A summary with a closing mark leaves its comment, and its further text is code. -/
theorem closing_mark_is_code :
    (describedLamp "On */ int mode; /* off").violations = [] ∧ lamp.violations = [] ∧
      (describedLamp "On */ int mode; /* off").undocumented = lamp.undocumented ∧
      ∃ files header header' implementation,
        generate coolerSettings (describedLamp "On */ int mode; /* off") =
          .ok [files, ⟨"endpoints.h", header⟩, implementation] ∧
        generate coolerSettings lamp = .ok [files, ⟨"endpoints.h", header'⟩, implementation] ∧
        Text.withoutComments header ≠ Text.withoutComments header' := by
  have valid : (describedLamp "On */ int mode; /* off").violations = [] := by decide +kernel
  have bare : lamp.violations = [] := by decide +kernel
  have same : (describedLamp "On */ int mode; /* off").undocumented = lamp.undocumented := rfl
  have reachable : (describedLamp "On */ int mode; /* off").Reachable := .add _ _ (.root _ _)
  have rules := (Tree.violations_eq_nil_iff reachable.sound).mp valid
  have reachable' : lamp.Reachable := .add _ _ (.root _ _)
  have rules' := (Tree.violations_eq_nil_iff reachable'.sound).mp bare
  have room : coolerSettings.maxPayload ≠ 0 := by decide
  obtain ⟨enums, implementation, first, second⟩ := generate_same reachable.sound rules same room
  refine ⟨valid, bare, same, _, _, _, _, first, second, fun equal => ?_⟩
  have confined := (withoutComments_header_bare_iff rules rules' same rfl _).mp equal
  have inside : 1 ∈ (describedLamp "On */ int mode; /* off").endpoints := by decide +kernel
  have whole : Confined "On */ int mode; /* off" := confined 1 _ _ inside rfl rfl
  exact absurd whole (by decide +kernel)

end DeviceLink.Dispatch
