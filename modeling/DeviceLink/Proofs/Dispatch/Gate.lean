import DeviceLink.Generation.Generator
import DeviceLink.Proofs.Dispatch.Scope
import DeviceLink.Proofs.Results

/-!
The validation as the gate of the generators. For a tree without violations every endpoint has a
dispatcher, so that the code generator refuses it only when its settings leave no room for a
payload, and the generator of the reference never does; a reader of the implementation finds the
dispatchers in its text (`generates_of_valid`).
-/

set_option autoImplicit false
set_option relaxedAutoImplicit false

namespace DeviceLink.Dispatch

open Text (ofLines OneLine)

variable {s : Settings} {t : Tree} {i : Implementation}

private theorem generate_eq_error_iff (h : t.Sound) (valid : t.Valid) {refusal : DispatchError} :
    generate s t = .error refusal ↔ s.maxPayload = 0 ∧ refusal = .noPayload := by
  rw [generate]
  by_cases none : s.maxPayload = 0
  · rw [if_pos none]
    constructor
    · intro same
      exact ⟨none, (Except.error.inj same).symm⟩
    · rintro ⟨-, rfl⟩
      rfl
  · obtain ⟨i, made⟩ := exists_implementation h valid s
    rw [if_neg none, made]
    constructor
    · intro same
      cases same
    · rintro ⟨zero, -⟩
      exact absurd zero none

/-- An implementation defines the dispatcher of the fingerprint and one for every endpoint. -/
structure DefinesEach (t : Tree) (i : Implementation) : Prop where
  /-- The endpoints have dispatchers in the order of the walk. -/
  paired : ∃ found, i.dispatchers = ofFingerprint :: found ∧
    List.Forall₂ (fun id d => ofPlace t id = .ok d ∧ d.name = t.functionName id) t.endpoints found
  /-- No two definitions have the same name. -/
  distinct : (i.dispatchers.map (·.name)).Nodup
  once : ∀ id ∈ t.endpoints, i.dispatchers.countP (·.name == t.functionName id) = 1
  /-- What is printed between the table and the helpers are these definitions, each with its first
  line and its block. -/
  text : ∃ before, i.text = before ++ ofLines (tableLines i.table) ++
    ofLines (i.dispatchers.flatMap definitionLines) ++
      (if i.withStrings then stringHelpersText else "")
  /-- A reader of the text finds one definition for the fingerprint and one for every endpoint, unless
  an include or a qualifier, which nobody checks, breaks a line into two. -/
  found : (∀ target ∈ i.includes, OneLine target) →
    (∀ d ∈ i.dispatchers, ∀ qualifier, d.qualifier = some qualifier →
      OneLine (Text.trimmed qualifier)) →
    definedNames i.text = hashFunction :: t.endpoints.map t.functionName

private theorem nodup_map_name_dispatchers (h : t.Sound) (valid : t.Valid)
    (made : implementation s t = .ok i) : (i.dispatchers.map (·.name)).Nodup := by
  rw [map_name_dispatchers made, List.nodup_cons]
  constructor
  · intro taken
    obtain ⟨id, inside, same⟩ := List.mem_map.mp taken
    exact valid.fingerprint id inside same
  · exact (List.nodup_map_iff_inj_on (Tree.nodup_endpoints h)).mpr valid.functions

private theorem legible_dispatchers (valid : t.Valid) (made : implementation s t = .ok i)
    {d : Dispatcher} (listed : d ∈ i.dispatchers)
    (qualifier : ∀ qualifier, d.qualifier = some qualifier → OneLine (Text.trimmed qualifier)) :
    d.Legible := by
  obtain ⟨found, dispatchers, -, paired⟩ := forall₂_dispatchers made
  rw [dispatchers] at listed
  rcases List.mem_cons.mp listed with rfl | endpoint
  · exact ⟨by decide, by decide, qualifier, by decide, by decide⟩
  · obtain ⟨k, there⟩ := List.mem_iff_getElem?.mp endpoint
    obtain ⟨id, -, placed⟩ := exists_getElem?_of_forall₂ paired.flip there
    exact (tidy_of_ofPlace valid placed).legible qualifier

private theorem oneLine_table (valid : t.Valid) (made : implementation s t = .ok i) :
    ∀ name ∈ i.table, OneLine name := by
  obtain ⟨-, -, tabled, -⟩ := forall₂_dispatchers made
  rw [tabled, table, List.forall_mem_cons]
  refine ⟨by decide, fun name listed => ?_⟩
  obtain ⟨id, -, rfl⟩ := List.mem_map.mp listed
  exact Identifier.oneLine_of_wellFormed (Tree.wellFormed_functionName valid id)

private theorem definesEach (h : t.Sound) (valid : t.Valid) (made : implementation s t = .ok i) :
    DefinesEach t i := by
  have distinct := nodup_map_name_dispatchers h valid made
  obtain ⟨found, listed, -, paired⟩ := forall₂_dispatchers made
  refine ⟨⟨found, listed, ?_⟩, distinct, ?_, ⟨ofLines (openingLines i), ?_⟩, ?_⟩
  · exact paired.imp fun id d here => ⟨here, name_ofPlace here⟩
  · intro id inside
    have named : t.functionName id ∈ i.dispatchers.map (·.name) := by
      rw [map_name_dispatchers made]
      exact List.mem_cons_of_mem _ (List.mem_map_of_mem inside)
    have once := List.count_eq_one_of_mem distinct named
    rwa [List.count, List.countP_map] at once
  · rw [text_implementation, Text.ofLines_append, Text.ofLines_append]
  · intro includes qualifiers
    rw [definedNames_text includes (oneLine_table valid made) fun d inside =>
      legible_dispatchers valid made inside (qualifiers d inside), map_name_dispatchers made]
    rfl

/-- On a tree without violations the code generator fails exactly when the greatest payload is
zero, and for no other reason. Otherwise it makes three files, the last of which defines one
dispatcher for each endpoint. The generator of the reference always makes its file. -/
theorem generates_of_valid (h : t.Reachable) (valid : t.violations = []) (s : Settings)
    (path : String) :
    ((∃ cause, (generator s).generate t = .error cause) ↔ s.maxPayload = 0) ∧
      (∀ refusal, generate s t = .error refusal → refusal = .noPayload) ∧
      (∀ id ∈ t.endpoints, ∃ d, ofPlace t id = .ok d) ∧
      (∀ files, (generator s).generate t = .ok files → ∃ i, implementation s t = .ok i ∧
        files = [⟨s.paths.enumerations, enumerationsText (enumerations t)⟩,
          ⟨s.paths.header, (header s t).text⟩, ⟨s.paths.implementation, i.text⟩] ∧
        DefinesEach t i) ∧
      (Reference.generator path).generate t = .ok [Reference.generate path t] := by
  have sound := h.sound
  have rules := (Tree.violations_eq_nil_iff sound).mp valid
  refine ⟨?_, ?_, fun id inside => exists_ofPlace sound rules inside, ?_, rfl⟩
  · constructor
    · rintro ⟨cause, failed⟩
      obtain ⟨refusal, refused, -⟩ := mapError_eq_error_iff.mp failed
      exact ((generate_eq_error_iff sound rules).mp refused).1
    · intro none
      refine ⟨DispatchError.noPayload.message, mapError_eq_error_iff.mpr ⟨.noPayload, ?_, rfl⟩⟩
      exact (generate_eq_error_iff sound rules).mpr ⟨none, rfl⟩
  · intro refusal refused
    exact ((generate_eq_error_iff sound rules).mp refused).2
  · intro files generated
    obtain ⟨i, made, same⟩ := files_of_generate (mapError_eq_ok_iff.mp generated)
    exact ⟨i, made, same, definesEach sound rules made⟩

/-- A tree with a string, a bit mask and an endpoint that can be called. -/
def kiosk : Tree :=
  (((Tree.ofRoot ⟨"kiosk", none, none, false, [], none, none⟩ true).afterAdd 0
    ⟨⟨"label", none, none, false, [], none, none⟩,
      .register ⟨.string, none, ⟨some "get_label", none⟩, 1⟩⟩).afterAdd 0
    ⟨⟨"doors", none, none, false, [], none, none⟩,
      .bitmask ⟨⟨["OPEN"], none⟩, ⟨some "get_doors", some "set_doors"⟩, 2⟩⟩).afterAdd 0
    ⟨⟨"sell", none, none, false, [], none, none⟩,
      .function ⟨"kiosk_sell", [⟨"amount", none, .uint16, none⟩], .bool, none, 3⟩⟩

theorem generates_of_valid_kiosk :
    kiosk.Reachable ∧ kiosk.violations = [] ∧
      (∃ cause, (generator { coolerSettings with maxPayload := 0 }).generate kiosk = .error cause) ∧
      ∃ files i, (generator coolerSettings).generate kiosk = .ok files ∧ files.length = 3 ∧
        implementation coolerSettings kiosk = .ok i ∧ DefinesEach kiosk i ∧
        definedNames i.text =
          ["avlos_get_hash", "avlos_kiosk_label", "avlos_kiosk_doors", "avlos_kiosk_sell"] := by
  have reachable : kiosk.Reachable := .add _ _ (.add _ _ (.add _ _ (.root _ _)))
  have valid : kiosk.violations = [] := by decide +kernel
  have generates := fun s => generates_of_valid reachable valid s "kiosk.rst"
  have plain : (implementation coolerSettings kiosk).toOption.map (fun i =>
      decide ((∀ target ∈ i.includes, OneLine target) ∧ ∀ d ∈ i.dispatchers, d.qualifier = none)) =
        some true := by
    decide +kernel
  have names : hashFunction :: kiosk.endpoints.map kiosk.functionName =
      ["avlos_get_hash", "avlos_kiosk_label", "avlos_kiosk_doors", "avlos_kiosk_sell"] := by
    decide +kernel
  refine ⟨reachable, valid, (generates _).1.mpr rfl, ?_⟩
  cases made : (generator coolerSettings).generate kiosk with
  | error cause => exact absurd ((generates coolerSettings).1.mp ⟨cause, made⟩) (by decide)
  | ok files =>
    obtain ⟨i, implemented, rfl, defines⟩ := (generates coolerSettings).2.2.2.1 files made
    simp only [implemented, Except.toOption, Option.map_some, Option.some.injEq,
      decide_eq_true_eq] at plain
    refine ⟨_, i, rfl, rfl, implemented, defines, names ▸ defines.found plain.1 ?_⟩
    intro d inside qualifier named
    rw [plain.2 d inside] at named
    cases named

end DeviceLink.Dispatch
