import DeviceLink.Proofs.Schema.Acceptance

/-!
What an accepted document and its tree have in common. The objects of the document stand in their
list as they are nested (`nested_objects`), and the walk of the tree goes through their entities in
the same order, each of which says what its object says as far as entities of its kind can.
-/

set_option autoImplicit false
set_option relaxedAutoImplicit false

namespace DeviceLink.Schema

open Json (Members)

/-- A container has an object among its children. -/
def Lists (members inner : Members) : Prop :=
  ∃ items, Members.get? members "remote_attributes" = some (.array items) ∧ .object inner ∈ items

/-- In a list of objects, of which the first has the number `count`, an object comes after the one
around it, which has it among its children. -/
def Inside (count : Nat) (found : List Occurrence) (k : Nat) (o : Occurrence) : Prop :=
  ∃ i c, i < k ∧ o.around = some (count + i) ∧ found[i]? = some c ∧ Lists c.members o.members

theorem Inside.append {count k : Nat} {found : List Occurrence} {o : Occurrence}
    (h : Inside count found k o) (after : List Occurrence) : Inside count (found ++ after) k o := by
  obtain ⟨i, c, before, around, stored, lists⟩ := h
  refine ⟨i, c, before, around, ?_, lists⟩
  rw [List.getElem?_append_left (List.getElem?_eq_some_iff.mp stored).1, stored]

private theorem Inside.prepend {count k : Nat} {found : List Occurrence} {o : Occurrence}
    (before : List Occurrence) (h : Inside (count + before.length) found k o) :
    Inside count (before ++ found) (before.length + k) o := by
  obtain ⟨i, c, earlier, around, stored, lists⟩ := h
  refine ⟨before.length + i, c, by omega, by rw [around, Nat.add_assoc], ?_, lists⟩
  rw [List.getElem?_append_right (Nat.le_add_right _ _), Nat.add_sub_cancel_left, stored]

/-- Every object of an item but the outermost one is inside an earlier one. -/
def WellNested (item : Json) : Prop :=
  ∀ around count k o, (occurrences around count item)[k]? = some o →
    (k = 0 ∧ o.around = around ∧ item = .object o.members) ∨
      Inside count (occurrences around count item) k o

private theorem inside_of_items {items : List Json} (each : ∀ item ∈ items, WellNested item)
    {q count k : Nat} {o : Occurrence} (found : (itemOccurrences q count items)[k]? = some o) :
    (o.around = some q ∧ .object o.members ∈ items) ∨
      Inside count (itemOccurrences q count items) k o := by
  induction items generalizing count k with
  | nil => simp [itemOccurrences] at found
  | cons item rest ih =>
    rw [itemOccurrences] at found ⊢
    by_cases early : k < (occurrences (some q) count item).length
    · rw [List.getElem?_append_left early] at found
      rcases each item (by simp) (some q) count k o found with ⟨-, around, same⟩ | inside
      · exact Or.inl ⟨around, by rw [same]; exact List.mem_cons_self⟩
      · exact Or.inr (inside.append _)
    · obtain ⟨j, rfl⟩ := Nat.exists_eq_add_of_le (Nat.le_of_not_lt early)
      rw [List.getElem?_append_right (Nat.le_add_right _ _), Nat.add_sub_cancel_left] at found
      rcases ih (fun item inside => each item (by simp [inside])) found with ⟨around, child⟩ | inside
      · exact Or.inl ⟨around, List.mem_cons_of_mem _ child⟩
      · exact Or.inr (inside.prepend _)

private theorem WellFormed.wellNested {item : Json} (h : WellFormed item) : WellNested item := by
  induction h with
  | endpoint header leaf fields =>
    intro around count k o found
    rw [occurrences_endpoint leaf] at found ⊢
    obtain ⟨rfl, rfl⟩ : k = 0 ∧ ⟨_, around⟩ = o := by
      simpa [List.getElem?_singleton] using found
    exact Or.inl ⟨rfl, rfl, rfl⟩
  | @container members items header children each distinct ih =>
    intro around count k o found
    rw [occurrences_container children] at found ⊢
    cases k with
    | zero =>
      obtain rfl : ⟨members, around⟩ = o := by simpa using found
      exact Or.inl ⟨rfl, rfl, rfl⟩
    | succ k =>
      refine Or.inr ?_
      rcases inside_of_items ih found with ⟨outer, child⟩ | inside
      · exact ⟨0, ⟨members, around⟩, Nat.succ_pos k, outer, rfl, items, children, child⟩
      · rw [Nat.add_comm k 1]
        exact inside.prepend [⟨members, around⟩]

/-- The objects of a well-formed document: the first one is without an object around it, and all
others come after the object around them, which has them among its children. -/
theorem nested_objects {document : Json} (h : WellFormed document) {k : Nat} {o : Occurrence}
    (found : (objects document)[k]? = some o) :
    (k = 0 ∧ o.around = none) ∨ Inside 0 (objects document) k o := by
  rcases h.wellNested none 0 k o found with ⟨first, around, -⟩ | inside
  · exact Or.inl ⟨first, around⟩
  · exact Or.inr inside

/-- A tree holds what a document says, object for object and entity for entity. -/
structure Mirrors (document : Json) (t : Tree) : Prop where
  /-- The walk goes through the objects in document order. Each of them is said by an entity, which
  stands under the entity of the object around it. -/
  entities : List.Forall₂
    (fun o id => ∃ e, t.get? id = some e ∧ Depicts o.members e ∧
      e.info.parent = o.around.bind (t.walk[·]?))
    (objects document) t.walk
  /-- No entity stands for two objects. -/
  once : t.walk.Nodup
  /-- There are no further entities. -/
  all : ∀ id, id ∈ t.walk ↔ id < t.size
  /-- Children come in the order of the walk. -/
  children : ∀ id, t.children id = t.walk.filter fun c => t.parent? c = some id
  /-- The root is the first object; any other one is a child in the object around it. -/
  nesting : ∀ k o, (objects document)[k]? = some o →
    (k = 0 ∧ o.around = none) ∨ Inside 0 (objects document) k o

/-- Nothing of an accepted document is lost, duplicated or moved, as far as entities have a field
for it. -/
theorem mirrors_of_build {document : Json} {withRootName : Bool} {t : Tree}
    (h : build document withRootName = .ok t) : Mirrors document t := by
  have built := built_of_build h
  have sound := built.reachable.sound
  have order := sound.walk_eq_range built.preordered
  refine ⟨?_, sound.nodup_walk, fun id => sound.mem_walk, ?_, ?_⟩
  · rw [order]
    refine List.forall₂_iff_get.mpr ⟨?_, fun k listed inRange => ?_⟩
    · rw [List.length_range, ← Tree.length_ledger, built.recorded.length_eq]
    · obtain ⟨e, found, record⟩ := built.exists_entity (List.getElem?_eq_getElem listed)
      simp only [List.get_eq_getElem, List.getElem_range]
      refine ⟨e, found, record.depicts, ?_⟩
      rw [record.parent]
      cases around : (objects document)[k].around with
      | none => rfl
      | some i =>
        have parent : t.parent? k = some i := by
          rw [Tree.parent?, found, Option.bind_some, record.parent, around]
        have earlier : i < t.size := (sound.lt_of_parent? parent).2.lt_size
        simp [earlier]
  · intro id
    rw [order, sound.children_eq_filter]
  · intro k o found
    exact nested_objects (isSchema_of_build h).wellFormed found

/-- A document in which an endpoint with options has a unit as well. -/
def voltageRanges : Json :=
  .object [("name", .string "tm"), ("remote_attributes", .array [
    .object [("name", .string "range"), ("options", .array [.string "low", .string "high"]),
      ("unit", .string "volt"), ("getter_name", .string "get_range")]])]

private theorem exists_build_voltageRanges : ∃ t, build voltageRanges false = .ok t := by
  have accepted : (build voltageRanges false).toOption.isSome = true := by decide +kernel
  cases answer : build voltageRanges false with
  | ok t => exact ⟨t, rfl⟩
  | error e => simp [answer, Except.toOption] at accepted

theorem mirrors_voltageRanges :
    ∃ t, build voltageRanges false = .ok t ∧ Mirrors voltageRanges t := by
  obtain ⟨t, built⟩ := exists_build_voltageRanges
  exact ⟨t, built, mirrors_of_build built⟩

/-- The unit beside the options is checked, but the entity has no field for it. -/
theorem unit_beside_options_is_dropped :
    ∃ t o id e, build voltageRanges false = .ok t ∧ (objects voltageRanges)[1]? = some o ∧
      t.walk[1]? = some id ∧ t.get? id = some e ∧ e.unit? ≠ measureUnit? o.members := by
  have read : ((objects voltageRanges)[1]?.map fun o => (measureUnit? o.members).isSome) =
      some true := by decide +kernel
  have kept : (build voltageRanges false).toOption.bind
      (fun t => (t.walk[1]?.bind t.get?).map fun e => e.unit?.isSome) = some false := by
    decide +kernel
  obtain ⟨o, listed, unit⟩ := Option.map_eq_some_iff.mp read
  obtain ⟨t, built⟩ := exists_build_voltageRanges
  rw [built] at kept
  obtain ⟨e, reached, missing⟩ := Option.map_eq_some_iff.mp kept
  obtain ⟨id, walked, found⟩ := Option.bind_eq_some_iff.mp reached
  refine ⟨t, o, id, e, built, listed, walked, found, fun same => ?_⟩
  simp [same, unit] at missing

end DeviceLink.Schema
