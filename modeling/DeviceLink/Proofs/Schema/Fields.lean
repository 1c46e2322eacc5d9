import DeviceLink.Proofs.Schema.Grammar

/-!
What the readers of single fields find, and when they find nothing wrong: the value of a field does
not depend on the path in its issues, and a field has no issue exactly when it is as the grammar
says.
-/

set_option autoImplicit false
set_option relaxedAutoImplicit false

namespace DeviceLink

namespace Checked

variable {α β : Type}

@[simp] theorem value_pure (a : α) : (pure a : Checked α).value = a := rfl

@[simp] theorem issues_pure (a : α) : (pure a : Checked α).issues = [] := rfl

@[simp] theorem value_bind (x : Checked α) (f : α → Checked β) :
    (x >>= f).value = (f x.value).value := rfl

@[simp] theorem issues_bind (x : Checked α) (f : α → Checked β) :
    (x >>= f).issues = x.issues ++ (f x.value).issues := rfl

theorem bind_congr_value {x : Checked α} {f g : α → Checked β} (h : f x.value = g x.value) :
    x >>= f = x >>= g := by
  change Checked.mk (f x.value).value (x.issues ++ (f x.value).issues) = _
  rw [h]
  rfl

end Checked

namespace Json

theorem strings?_eq_some_iff {value : Json} {names : List String} :
    value.strings? = some names ↔ value = .array (names.map .string) := by
  have items (found : List Json) :
      found.mapM string? = some names ↔ found = names.map .string := by
    induction found generalizing names with
    | nil => cases names <;> simp
    | cons item rest ih =>
      cases names with
      | nil => cases item <;> simp [string?, Option.bind_eq_some_iff]
      | cons name names => cases item <;> simp [string?, Option.bind_eq_some_iff, ih, and_left_comm]
  cases value with
  | array found => simpa [strings?] using items found
  | null | bool | integer | real | string | object => simp [strings?]

end Json

namespace Schema

open Json (Members)

variable {members : Members} {key older path : String}

theorem get?_bind_string? : (Members.get? members key).bind Json.string? =
    text? members key := rfl

theorem text?_eq_some_iff {s : String} :
    text? members key = some s ↔ Members.get? members key = some (.string s) := by
  rw [text?]
  cases Members.get? members key with
  | none => simp
  | some value => cases value <;> simp [Json.string?]

@[simp] theorem value_readText : (readText members key path).value = text? members key := by
  rw [readText, text?]
  cases Members.get? members key with
  | none => rfl
  | some value => cases value <;> rfl

theorem issues_readText :
    (readText members key path).issues = [] ↔ OptionalText members key := by
  rw [readText, OptionalText]
  cases Members.get? members key with
  | none => simp
  | some value => cases value <;> simp

@[simp] theorem value_readName : (readName members path).value = text? members "name" := by
  rw [readName, text?]
  cases Members.get? members "name" with
  | none => rfl
  | some value => cases value <;> rfl

private theorem issues_readName :
    (readName members path).issues = [] ↔
      ∃ s, Members.get? members "name" = some (.string s) := by
  rw [readName]
  cases Members.get? members "name" with
  | none => simp
  | some value => cases value <;> simp

@[simp] theorem value_readDesignator :
    (readDesignator members key older path).value = designator? members key older := by
  rw [readDesignator, designator?]
  simp only [Checked.value_bind, value_readText]
  cases text? members key with
  | none => simp
  | some s => simp

theorem issues_readDesignator :
    (readDesignator members key older path).issues = [] ↔
      OptionalDesignator members key older := by
  rw [readDesignator, OptionalDesignator]
  simp only [Checked.issues_bind, value_readText, List.append_eq_nil_iff, issues_readText]
  cases text? members key with
  | none => simp [issues_readText]
  | some s => simp

private theorem value_readMetadata :
    (readMetadata members path).value =
      ⟨isExported members, (metadata members).filter fun member => member.1 != "export"⟩ := by
  simp only [readMetadata, Checked.value_bind, Checked.value_pure, readMetadataField,
    readExportField, isExported, metadata]
  cases Members.get? members "meta" with
  | none =>
    cases Members.get? members "export" with
    | none => rfl
    | some mark => cases mark <;> rfl
  | some value =>
    cases value <;> cases Members.get? members "export" with
    | none => rfl
    | some mark => cases mark <;> rfl

private theorem issues_readMetadata :
    (readMetadata members path).issues = [] ↔
      (∀ value, Members.get? members "meta" = some value →
        value = .null ∨ ∃ inner, value = .object inner) ∧
      ∀ value, Members.get? members "export" = some value →
        value = .null ∨ ∃ b, value = .bool b := by
  simp only [readMetadata, Checked.issues_bind, Checked.issues_pure, List.append_nil,
    List.append_eq_nil_iff]
  refine and_congr ?_ ?_
  · rw [readMetadataField]
    cases Members.get? members "meta" with
    | none => simp
    | some value => cases value <;> simp
  · rw [readExportField]
    cases Members.get? members "export" with
    | none => simp
    | some value => cases value <;> simp

def infoOf (members : Members) (name : String) : Info where
  name := name
  summary := text? members "summary"
  exported := isExported members
  extra := (metadata members).filter fun member => member.1 != "export"
  qualifier := text? members "func_attr"
  anchor := text? members "rst_target"

@[simp] theorem value_readInfo (name : String) :
    (readInfo members name path).value = infoOf members name := by
  simp only [readInfo, Checked.value_bind, Checked.value_pure, value_readText,
    value_readMetadata, infoOf]

theorem issues_header (fallback name : String) :
    (readName members fallback).issues ++ (readInfo members name path).issues = [] ↔
      Header members := by
  simp only [readInfo, Checked.issues_bind, Checked.issues_pure, List.append_nil,
    List.append_eq_nil_iff, issues_readName, issues_readText, issues_readMetadata]
  constructor
  · rintro ⟨named, summary, ⟨metadata, exported⟩, qualifier, anchor⟩
    exact ⟨named, summary, qualifier, anchor, metadata, exported⟩
  · intro h
    exact ⟨h.name, h.summary, ⟨h.metadata, h.exported⟩, h.qualifier, h.anchor⟩

private theorem duplicateIssues_eq_nil_iff (earlier names : List String) :
    duplicateIssues path earlier names = [] ↔ names.Nodup ∧ ∀ name ∈ names, name ∉ earlier := by
  induction names generalizing earlier with
  | nil => simp [duplicateIssues]
  | cons name rest ih =>
    rw [duplicateIssues]
    by_cases repeated : name ∈ earlier
    · simp [repeated]
    · simp only [List.contains_eq_mem, repeated, decide_false, Bool.false_eq_true, if_false, ih,
        List.nodup_cons, List.mem_append, List.mem_cons, List.not_mem_nil, or_false, not_or,
        forall_eq_or_imp, not_false_eq_true, true_and]
      constructor
      · rintro ⟨distinct, new⟩
        exact ⟨⟨fun member => (new name member).2 rfl, distinct⟩, fun n member => (new n member).1⟩
      · rintro ⟨⟨absent, distinct⟩, new⟩
        exact ⟨distinct, fun n member => ⟨new n member, fun same => absent (same ▸ member)⟩⟩

theorem issues_readNames :
    (readNames members key path).issues = [] ↔ DistinctTexts members key := by
  rw [readNames, DistinctTexts]
  cases Members.get? members key with
  | none => simp
  | some value =>
    simp only [Option.some.injEq, forall_eq']
    cases found : value.strings? with
    | none =>
      simp only [List.cons_ne_nil, false_iff, not_exists, not_and]
      intro names same
      rw [← Json.strings?_eq_some_iff, found] at same
      cases same
    | some names =>
      obtain rfl := Json.strings?_eq_some_iff.mp found
      simp only [duplicateIssues_eq_nil_iff, List.not_mem_nil, not_false_eq_true, implies_true,
        and_true]
      refine ⟨fun distinct => ⟨names, rfl, distinct⟩, ?_⟩
      rintro ⟨others, same, distinct⟩
      rw [← Json.strings?_eq_some_iff, found] at same
      exact Option.some.inj same ▸ distinct

theorem DistinctTexts.get?_eq_none_iff (h : DistinctTexts members key) :
    Members.get? members key = none ↔ texts? members key = none := by
  rw [texts?]
  cases found : Members.get? members key with
  | none => simp
  | some value =>
    obtain ⟨names, rfl, -⟩ := h value found
    simp [Json.strings?_eq_some_iff.mpr rfl]

theorem DistinctTexts.value_readNames (h : DistinctTexts members key) :
    (readNames members key path).value = texts? members key := by
  rw [readNames, texts?]
  cases found : Members.get? members key with
  | none => rfl
  | some value =>
    obtain ⟨names, rfl, -⟩ := h value found
    simp [Json.strings?_eq_some_iff.mpr rfl]

@[simp] theorem value_readUnit : (readUnit members path).value = measureUnit? members := by
  rw [readUnit, measureUnit?]
  simp only [Checked.value_bind, value_readText]
  cases text? members "unit" with
  | none => rfl
  | some s => cases parsed : Registry.standard.parse s <;> simp [parsed, Except.toOption]

theorem issues_readUnit : (readUnit members path).issues = [] ↔ OptionalUnit members := by
  rw [readUnit, OptionalUnit]
  simp only [Checked.issues_bind, value_readText, List.append_eq_nil_iff, issues_readText]
  refine and_congr_right fun _ => ?_
  cases text? members "unit" with
  | none => simp
  | some s => cases parsed : Registry.standard.parse s <;> simp [parsed]

end Schema

end DeviceLink
