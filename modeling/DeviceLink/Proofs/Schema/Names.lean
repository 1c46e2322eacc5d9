import DeviceLink.Proofs.Schema.Acceptance
import DeviceLink.Proofs.Schema.Fields

/-!
The names in an accepted document. Every object of a well-formed document is well formed, and so the
options and the flags of a tree that was built have different names, and every option has a byte.
-/

set_option autoImplicit false
set_option relaxedAutoImplicit false

namespace DeviceLink.Schema

open Json (Members)

private theorem wellFormed_of_mem_items {items : List Json}
    (each : ∀ item ∈ items, ∀ around count, ∀ o ∈ occurrences around count item,
      WellFormed (.object o.members)) (parent count : Nat) {o : Occurrence}
    (inside : o ∈ itemOccurrences parent count items) : WellFormed (.object o.members) := by
  induction items generalizing count with
  | nil => simp [itemOccurrences] at inside
  | cons item rest ih =>
    rw [itemOccurrences, List.mem_append] at inside
    rcases inside with first | later
    · exact each item List.mem_cons_self _ _ o first
    · exact ih (fun other member => each other (List.mem_cons_of_mem _ member)) _ later

private theorem WellFormed.of_mem_occurrences {document : Json} (h : WellFormed document)
    (around : Option Nat) (count : Nat) :
    ∀ o ∈ occurrences around count document, WellFormed (.object o.members) := by
  induction h generalizing around count with
  | @endpoint members header leaf fields =>
    intro o inside
    rw [occurrences_endpoint leaf, List.mem_singleton] at inside
    rw [inside]
    exact .endpoint header leaf fields
  | @container members items header children each distinct ih =>
    intro o inside
    rw [occurrences_container children, List.mem_cons] at inside
    rcases inside with rfl | below
    · exact .container header children each distinct
    · exact wellFormed_of_mem_items ih count (count + 1) below

theorem Built.exists_wellFormed {document : Json} {t : Tree} (built : Built document t)
    (h : WellFormed document) {id : Nat} {e : Entity} (found : t.get? id = some e) :
    ∃ members, WellFormed (.object members) ∧ Depicts members e := by
  obtain ⟨o, listed, depicts⟩ := built.exists_occurrence found
  exact ⟨o.members, h.of_mem_occurrences none 0 o listed, depicts⟩

variable {members : Members} {names : List String}

private theorem nodup_of_texts? {key : String} (h : DistinctTexts members key)
    (found : texts? members key = some names) : names.Nodup := by
  obtain ⟨value, stored, read⟩ := Option.bind_eq_some_iff.mp found
  obtain ⟨names', same, distinct⟩ := h value stored
  obtain rfl : names' = names := by
    rw [same, Json.strings?_eq_some_iff.mpr rfl] at read
    exact Option.some.inj read
  exact distinct

theorem WellFormed.fields_of_depicts {e : Entity} (h : WellFormed (.object members))
    (depicts : Depicts members e) (leaf : e.isNode = false) : WellFormedFields members := by
  cases h with
  | endpoint header none fields => exact fields
  | container header children each distinct =>
    have container : isContainer members = true := by rw [isContainer, children, Option.isSome_some]
    have kind : e.kind = .node := by rw [depicts.kind, kindOf, if_pos container]
    simp [Entity.isNode, kind] at leaf

private theorem WellFormedFields.length_options (h : WellFormedFields members)
    (found : texts? members "options" = some names) : names.length ≤ 256 := by
  obtain ⟨value, stored, -⟩ := Option.bind_eq_some_iff.mp found
  rcases h.role with callable | holder
  · rw [callable.noOptions] at stored
    cases stored
  · cases holder.content with
    | typed t dataType known flags options =>
      rw [options] at stored
      cases stored
    | flagged flags untyped listed some options =>
      rw [options] at stored
      cases stored
    | chosen options untyped flags listed some few =>
      obtain rfl := Option.some.inj (listed.symm.trans found)
      exact few

variable {document : Json} {t : Tree} {id : Nat} {info : Info}

theorem Built.options (built : Built document t) (h : WellFormed document) {s : Selector}
    (found : t.get? id = some ⟨info, .selector s⟩) :
    s.options.names.Nodup ∧ s.options.names.length ≤ 256 := by
  obtain ⟨members, good, depicts⟩ := built.exists_wellFormed h found
  obtain ⟨listed, -⟩ : texts? members "options" = some s.options.names ∧ _ := depicts.body
  have fields := good.fields_of_depicts depicts rfl
  exact ⟨nodup_of_texts? fields.options listed, fields.length_options listed⟩

theorem Built.flags (built : Built document t) (h : WellFormed document) {b : Bitmask}
    (found : t.get? id = some ⟨info, .bitmask b⟩) :
    b.flags.names.Nodup ∧ b.flags.defaultName = none := by
  obtain ⟨members, good, depicts⟩ := built.exists_wellFormed h found
  obtain ⟨listed, plain, -⟩ : texts? members "flags" = some b.flags.names ∧
    b.flags.defaultName = none ∧ _ := depicts.body
  have fields := good.fields_of_depicts depicts rfl
  exact ⟨nodup_of_texts? fields.flags listed, plain⟩

end DeviceLink.Schema
