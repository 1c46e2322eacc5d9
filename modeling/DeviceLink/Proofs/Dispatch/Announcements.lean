import DeviceLink.Proofs.Dispatch.FileScope
import DeviceLink.Proofs.Number.Text
import DeviceLink.Proofs.Text.Comments

/-!
The announcement of a dispatcher is a comment and a declaration, and a summary is written into the
comment as it is. When comments are removed, announcements leave what they would leave without
summaries exactly when every summary stays inside its comment (`flatMap_kept_iff`).
-/

set_option autoImplicit false
set_option relaxedAutoImplicit false

namespace DeviceLink.Dispatch

open Text (Region scan)

theorem toList_line (text : String) : (line text).toList = text.toList ++ ['\n'] := by
  rw [line, String.toList_append]
  rfl

private theorem ended_line (text : String) : Text.Ended (line text).toList := by
  rw [toList_line]
  exact Text.ended_append_newline _

/-- Whether a summary stays inside the comment that it is written into. -/
def Confined (summary : String) : Prop :=
  scan .comment (line (Text.trimmed summary)).toList = ([], .comment)

instance (summary : String) : Decidable (Confined summary) :=
  inferInstanceAs (Decidable (_ = _))

theorem confined_of_unclosed {summary : String} (unclosed : ¬ ['*', '/'] <:+: summary.toList) :
    Confined summary := by
  apply Text.scan_comment_of_unclosed
  rw [toList_line, Text.trimmed, String.toList_ofList]
  intro closed
  rcases List.infix_concat_iff.mp closed with ⟨front, ending⟩ | inner
  · have last := congrArg List.getLast? ending
    simp at last
  · exact unclosed (inner.trans (Text.trim_infix _))

namespace Prototype

/-- The announcement of a dispatcher without its summary. -/
def bare (p : Prototype) : Prototype :=
  { p with summary := none }

def opening (p : Prototype) : String :=
  line "" ++ line "/*" ++ line (" * " ++ p.name) ++ line " *"

/-- The lines of the summary in the comment of an announcement. -/
def remark (p : Prototype) : String :=
  match p.summary with
  | some summary => line (" * " ++ Text.trimmed summary) ++ line " *"
  | none => ""

/-- The lines after the summary in the comment of an announcement. -/
def facts (p : Prototype) : String :=
  line (" * Endpoint ID: " ++ toString p.endpoint.toNat) ++
    (if p.arguments.isEmpty then ""
      else line (" * Arguments: " ++ ", ".intercalate p.arguments))

private theorem text_eq (p : Prototype) :
    p.text = p.opening ++ (p.remark ++ (p.facts ++ line " */")) ++ line (signature p.name ++ ";") := by
  obtain ⟨name, summary, endpoint, arguments⟩ := p
  cases summary <;> simp [text, comment, opening, remark, facts, String.append_assoc]

/-- The name and the arguments of an announcement hold no slash. -/
structure Plain (p : Prototype) : Prop where
  name : '/' ∉ p.name.toList
  arguments : ∀ a ∈ p.arguments, '/' ∉ a.toList

/-- The summary of an announcement, if there is one, is confined. -/
def Confined (p : Prototype) : Prop :=
  ∀ summary, p.summary = some summary → Dispatch.Confined summary

/-- What of the comment of an announcement is left when comments are removed. -/
def spilled (p : Prototype) : List Char :=
  (scan .comment (p.remark ++ (p.facts ++ line " */")).toList).1

variable {p : Prototype}

private theorem ended_remark (p : Prototype) : Text.Ended p.remark.toList := by
  unfold remark
  split
  · rw [String.toList_append]
    exact (ended_line _).append (ended_line _)
  · exact Text.ended_nil

private theorem ended_facts (p : Prototype) : Text.Ended p.facts.toList := by
  unfold facts
  rw [String.toList_append]
  refine (ended_line _).append ?_
  split
  · exact Text.ended_nil
  · exact ended_line _

private theorem scan_opening (plain : p.Plain) :
    scan .code p.opening.toList = (['\n'], .comment) := by
  have inner : '/' ∉ (line "" ++ line (" * " ++ p.name) ++ line " *").toList := by
    simp [line, plain.name]
  have shape : p.opening.toList =
      '\n' :: '/' :: '*' :: (line "" ++ line (" * " ++ p.name) ++ line " *").toList := by
    simp [opening, line]
  rw [shape, Text.scan_code_cons (by simp), scan, Text.scan_comment_of_plain inner]

private theorem plain_facts (plain : p.Plain) : '/' ∉ p.facts.toList := by
  have number : '/' ∉ Nat.toDigits 10 p.endpoint.toNat := by
    intro inside
    exact absurd (Number.isDigit_of_mem_toDigits inside) (by decide)
  have arguments : '/' ∉ [',', ' '].intercalate (p.arguments.map String.toList) := by
    intro inside
    obtain ⟨part, there, within⟩ := List.mem_flatten.mp inside
    rcases mem_of_mem_intersperse there with rfl | listed
    · exact absurd within (by decide)
    · obtain ⟨a, member, rfl⟩ := List.mem_map.mp listed
      exact plain.arguments a member within
  by_cases none : p.arguments = []
  · simp [facts, line, none, number]
  · simp [facts, line, none, number, arguments]

private theorem scan_closing (plain : p.Plain) (region : Region) :
    (scan region (p.facts ++ line " */").toList).2 = .code := by
  rw [String.toList_append, Text.scan_append (ended_facts p)]
  cases region with
  | code =>
    rw [Text.scan_code_of_plain (plain_facts plain)]
    rfl
  | comment =>
    rw [Text.scan_comment_of_plain (plain_facts plain)]
    rfl

private theorem scan_comment_closing (plain : p.Plain) :
    (scan .comment (p.facts ++ line " */").toList).1 = ['\n'] := by
  rw [String.toList_append, Text.scan_append (ended_facts p),
    Text.scan_comment_of_plain (plain_facts plain)]
  rfl

private theorem scan_closing_ne_nil (plain : p.Plain) (region : Region) :
    (scan region (p.facts ++ line " */").toList).1 ≠ [] := by
  refine Text.scan_ne_nil ?_ ?_ (scan_closing plain region)
  · rw [String.toList_append]
    exact (ended_facts p).append (ended_line _)
  · simp [line]

private theorem remark_of_summary {summary : String} (documented : p.summary = some summary) :
    p.remark = line (" * " ++ Text.trimmed summary) ++ line " *" := by
  rw [remark, documented]

private theorem scan_marked (summary : String) :
    scan .comment (line (" * " ++ Text.trimmed summary)).toList =
      scan .comment (line (Text.trimmed summary)).toList := by
  have shape : (line (" * " ++ Text.trimmed summary)).toList =
      ' ' :: '*' :: ' ' :: (line (Text.trimmed summary)).toList := by
    simp [line]
  rw [shape, Text.scan_comment_cons (by simp), Text.scan_comment_cons (by simp),
    Text.scan_comment_cons (by simp)]

private theorem spilled_of_confined (plain : p.Plain) (confined : p.Confined) :
    p.spilled = ['\n'] := by
  have inside : scan .comment p.remark.toList = ([], .comment) := by
    cases documented : p.summary with
    | none => rw [remark, documented]; rfl
    | some summary =>
      have whole := confined summary documented
      rw [Dispatch.Confined] at whole
      rw [remark_of_summary documented, String.toList_append, Text.scan_append (ended_line _),
        scan_marked, whole]
      rfl
  rw [spilled, String.toList_append, Text.scan_append (ended_remark p), inside]
  exact scan_comment_closing plain

private theorem spilled_bare (plain : p.Plain) : p.bare.spilled = ['\n'] :=
  spilled_of_confined ⟨plain.name, plain.arguments⟩ fun _ documented => nomatch documented

private theorem scan_line_ne_nil {summary : String} (free : ¬Dispatch.Confined summary) :
    (scan .comment (line (Text.trimmed summary)).toList).1 ≠ [] := by
  intro nothing
  apply free
  rw [Dispatch.Confined]
  cases region : (scan .comment (line (Text.trimmed summary)).toList).2 with
  | comment => exact Prod.ext nothing region
  | code => exact absurd nothing (Text.scan_ne_nil (ended_line _) (by simp [line]) region)

private theorem length_spilled (plain : p.Plain) (free : ¬p.Confined) : 1 < p.spilled.length := by
  obtain ⟨summary, documented, free⟩ : ∃ summary, p.summary = some summary ∧
      ¬Dispatch.Confined summary := by
    simpa [Confined] using free
  obtain ⟨left, region, scanned⟩ : ∃ left region,
      scan .comment (line (Text.trimmed summary)).toList = (left, region) := ⟨_, _, rfl⟩
  have first : left ≠ [] := by
    have filled := scan_line_ne_nil free
    rwa [scanned] at filled
  have last := scan_closing_ne_nil plain (scan region (line " *").toList).2
  have early : 0 < left.length := List.length_pos_iff.mpr first
  have late := List.length_pos_iff.mpr last
  rw [spilled, remark_of_summary documented, String.toList_append, String.toList_append,
    List.append_assoc, Text.scan_append (ended_line _), Text.scan_append (ended_line _), scan_marked,
    scanned, List.length_append, List.length_append]
  dsimp only
  omega

/-- What is left of an announcement when comments are removed. -/
def kept (p : Prototype) : List Char :=
  '\n' :: p.spilled ++ (line (signature p.name ++ ";")).toList

private theorem plain_signature (plain : p.Plain) :
    '/' ∉ (line (signature p.name ++ ";")).toList := by
  simp [line, signature, parameters, bufferName, lengthName, commandType, commandName, plain.name]

private theorem ended_opening (p : Prototype) : Text.Ended p.opening.toList := by
  rw [opening, String.toList_append]
  refine Text.Ended.append ?_ (ended_line _)
  rw [String.toList_append, String.toList_append]
  exact ((ended_line _).append (ended_line _)).append (ended_line _)

private theorem ended_body (p : Prototype) :
    Text.Ended (p.remark ++ (p.facts ++ line " */")).toList := by
  rw [String.toList_append, String.toList_append]
  exact (ended_remark p).append ((ended_facts p).append (ended_line _))

private theorem scan_body (plain : p.Plain) (region : Region) :
    (scan region (p.remark ++ (p.facts ++ line " */")).toList).2 = .code := by
  rw [String.toList_append, Text.scan_append (ended_remark p)]
  exact scan_closing plain _

theorem scan_text_region (plain : p.Plain) (region : Region) :
    (scan region p.text.toList).2 = .code := by
  rw [text_eq, String.toList_append, String.toList_append, List.append_assoc,
    Text.scan_append (ended_opening p), Text.scan_append (ended_body p), scan_body plain,
    Text.scan_code_of_plain (plain_signature plain)]

private theorem scan_text (plain : p.Plain) : scan .code p.text.toList = (p.kept, .code) := by
  refine Prod.ext ?_ (scan_text_region plain .code)
  rw [text_eq, String.toList_append, String.toList_append, List.append_assoc,
    Text.scan_append (ended_opening p), scan_opening plain, Text.scan_append (ended_body p),
    scan_body plain, Text.scan_code_of_plain (plain_signature plain)]
  rfl

theorem ended_text (p : Prototype) : Text.Ended p.text.toList := by
  rw [text_eq, String.toList_append, String.toList_append]
  exact ((ended_opening p).append (ended_body p)).append (ended_line _)

private theorem kept_bare_of_confined (plain : p.Plain) (confined : p.Confined) :
    p.bare.kept = p.kept := by
  rw [kept, kept, spilled_bare plain, spilled_of_confined plain confined]
  rfl

private theorem length_kept_bare (plain : p.Plain) :
    p.bare.kept.length ≤ p.kept.length ∧ (p.bare.kept.length = p.kept.length → p.Confined) := by
  by_cases confined : p.Confined
  · rw [kept_bare_of_confined plain confined]
    exact ⟨Nat.le_refl _, fun _ => confined⟩
  · have more := length_spilled plain confined
    have name : p.bare.name = p.name := rfl
    simp only [kept, spilled_bare plain, name, List.length_append, List.length_cons,
      List.length_nil]
    omega

end Prototype

private theorem length_flatMap_kept_bare {ps : List Prototype} (plain : ∀ p ∈ ps, p.Plain) :
    ((ps.map Prototype.bare).flatMap Prototype.kept).length ≤
      (ps.flatMap Prototype.kept).length := by
  induction ps with
  | nil => exact Nat.le_refl _
  | cons p rest ih =>
    obtain ⟨first, others⟩ := List.forall_mem_cons.mp plain
    have here := (Prototype.length_kept_bare first).1
    have later := ih others
    simp only [List.map_cons, List.flatMap_cons, List.length_append]
    omega

/-- Announcements leave what they would leave without summaries exactly when all summaries are
confined: a summary that is not can only add to what is left. -/
theorem flatMap_kept_iff {ps : List Prototype} (plain : ∀ p ∈ ps, p.Plain) :
    ps.flatMap Prototype.kept = (ps.map Prototype.bare).flatMap Prototype.kept ↔
      ∀ p ∈ ps, p.Confined := by
  induction ps with
  | nil => simp
  | cons p rest ih =>
    obtain ⟨first, others⟩ := List.forall_mem_cons.mp plain
    rw [List.map_cons, List.flatMap_cons, List.flatMap_cons, List.forall_mem_cons, ← ih others]
    obtain ⟨least, exact⟩ := Prototype.length_kept_bare first
    constructor
    · intro same
      have lengths := congrArg List.length same
      have later := length_flatMap_kept_bare others
      rw [List.length_append, List.length_append] at lengths
      have confined : p.Confined := exact (by omega)
      rw [Prototype.kept_bare_of_confined first confined] at same
      exact ⟨confined, List.append_cancel_left same⟩
    · rintro ⟨confined, same⟩
      rw [Prototype.kept_bare_of_confined first confined, same]

theorem scan_announcements {ps : List Prototype} (plain : ∀ p ∈ ps, p.Plain) :
    scan .code (String.join (ps.map (·.text))).toList = (ps.flatMap Prototype.kept, .code) := by
  induction ps with
  | nil => rfl
  | cons p rest ih =>
    obtain ⟨first, others⟩ := List.forall_mem_cons.mp plain
    rw [List.map_cons, String.join_cons, String.toList_append, Text.scan_append p.ended_text,
      Prototype.scan_text first, ih others]
    rfl

end DeviceLink.Dispatch
