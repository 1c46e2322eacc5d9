import DeviceLink.Proofs.Device.Addressing
import DeviceLink.Proofs.Dispatch.Printed
import DeviceLink.Proofs.Lists
import DeviceLink.Proofs.Schema.Acceptance

/-!
Addresses and slots. The endpoints of a built tree have the addresses 1, 2, 3 and so on in the order
of the walk (`Tree.Dense`), so that every slot of the generated table holds the dispatcher of the
endpoint with that address, to which the host sends; the header and the implementation print the
slots in this order (`addresses_agree`).
-/

set_option autoImplicit false
set_option relaxedAutoImplicit false

namespace DeviceLink.Dispatch

open Text (ofLines)

variable {t : Tree} {id : Nat} {s : Settings}

private theorem name_ofEntity {function name : String} {e : Entity} {d : Dispatcher}
    (h : ofEntity function name e = .ok d) : d.name = function := by
  obtain ⟨info, body⟩ := e
  cases body with
  | node => cases h
  | register r =>
    simp only [ofEntity] at h
    split at h <;> exact congrArg Dispatcher.name (Except.ok.inj h).symm
  | function f =>
    simp only [ofEntity] at h
    cases statements : functionStatements f name with
    | error e => simp [statements, Except.map] at h
    | ok found =>
      rw [statements] at h
      exact congrArg Dispatcher.name (Except.ok.inj h).symm
  | selector | bitmask => exact congrArg Dispatcher.name (Except.ok.inj h).symm

theorem name_ofPlace {d : Dispatcher} (h : ofPlace t id = .ok d) : d.name = t.functionName id := by
  rw [ofPlace] at h
  split at h
  · exact name_ofEntity h
  · cases h

/-- What the units of a tree say about its endpoints agrees: they have the same slots, in the same
order, and every endpoint has the slot with its address. -/
structure Slots (s : Settings) (t : Tree) (i : Implementation) : Prop where
  length : i.table.length = t.endpoints.length + 1
  declared : (header s t).tableLength = i.table.length
  fingerprint : i.table[0]? = some hashFunction ∧ i.dispatchers[0]? = some ofFingerprint
  /-- The slot with the address of an endpoint holds the dispatcher of the endpoint. -/
  slot : ∀ id address, t.address? id = some address →
    i.table[address.toNat]? = some (t.functionName id) ∧
      ∃ d, ofPlace t id = .ok d ∧ i.dispatchers[address.toNat]? = some d
  /-- Every other slot is the slot of exactly one endpoint. -/
  owner : ∀ k, 0 < k → k < i.table.length → ∃! id, (t.address? id).map UInt16.toNat = some k
  prototypes : (header s t).prototypes.map (·.name) = i.table
  numbers : (header s t).prototypes.map (·.endpoint.toNat) = List.range i.table.length
  dispatchers : i.dispatchers.map (·.name) = i.table

private theorem forall₂_prototypes (h : t.Sound) :
    List.Forall₂ (fun id p => p.name = t.functionName id ∧ t.address? id = some p.endpoint)
      t.endpoints (t.endpoints.filterMap (prototypeAt? t)) := by
  have known : ∀ id ∈ t.endpoints, ∃ p, prototypeAt? t id = some p ∧
      p.name = t.functionName id ∧ t.address? id = some p.endpoint := by
    intro id inside
    obtain ⟨address, found⟩ := Option.isSome_iff_exists.mp ((Tree.mem_endpoints h).mp inside)
    obtain ⟨e, stored, same⟩ := Option.bind_eq_some_iff.mp found
    refine ⟨prototypeOf (t.functionName id) e, by rw [prototypeAt?, stored]; rfl, rfl, ?_⟩
    rw [found, prototypeOf, same]
    rfl
  have paired := forall₂_filterMap fun id inside => (known id inside).imp fun _ both => both.1
  refine (List.forall₂_iff_zip.mp paired).elim fun lengths each =>
    List.forall₂_iff_zip.mpr ⟨lengths, fun {id p} member => ?_⟩
  obtain ⟨q, found, right⟩ := known id (List.of_mem_zip member).1
  obtain rfl : q = p := Option.some.inj (found.symm.trans (each member))
  exact right

theorem forall₂_dispatchers {i : Implementation} (h : implementation s t = .ok i) :
    ∃ found, i.dispatchers = ofFingerprint :: found ∧ i.table = table t ∧
      List.Forall₂ (fun id d => ofPlace t id = .ok d) t.endpoints found := by
  rw [implementation, dispatchers] at h
  cases mapped : t.endpoints.mapM (ofPlace t) with
  | error e => simp [mapped, Except.map] at h
  | ok found =>
    rw [mapped] at h
    obtain rfl := Except.ok.inj h
    exact ⟨found, rfl, rfl, forall₂_of_mapM_eq_ok mapped⟩

private theorem slots_of_dense (dense : t.Dense) (sound : t.Sound) {i : Implementation}
    (h : implementation s t = .ok i) : Slots s t i := by
  obtain ⟨found, dispatched, tabled, paired⟩ := forall₂_dispatchers h
  have announced := forall₂_prototypes sound
  have length : i.table.length = t.endpoints.length + 1 := by
    rw [tabled, table, List.length_cons, List.length_map]
  refine ⟨length, length.symm, ⟨by rw [tabled]; rfl, by rw [dispatched]; rfl⟩, ?_, ?_, ?_, ?_, ?_⟩
  · intro id address same
    obtain ⟨k, number, stored⟩ := dense.exists_place sound same
    obtain ⟨d, there, made⟩ := exists_getElem?_of_forall₂ paired stored
    refine ⟨?_, d, made, ?_⟩
    · rw [tabled, table, number, List.getElem?_cons_succ, List.getElem?_map, stored]
      rfl
    · rw [dispatched, number, List.getElem?_cons_succ, there]
  · intro k positive inside
    obtain ⟨j, rfl⟩ := Nat.exists_eq_succ_of_ne_zero (Nat.ne_of_gt positive)
    have listed : j < t.endpoints.length := by omega
    have number (id : Nat) : t.endpoints[j]? = some id ↔
        (t.address? id).map UInt16.toNat = some (j + 1) := dense.getElem?_endpoints_iff sound
    refine ⟨t.endpoints[j], (number _).mp (List.getElem?_eq_getElem listed), fun id same => ?_⟩
    have stored := (number id).mpr same
    rw [List.getElem?_eq_getElem listed] at stored
    exact (Option.some.inj stored).symm
  · rw [tabled, table, header, List.map_cons]
    refine congrArg _ (map_eq_map_of_forall₂ announced fun id p both => both.1.symm).symm
  · have numbers : (t.endpoints.filterMap (prototypeAt? t)).map (·.endpoint.toNat) =
        List.range' 1 t.endpoints.length := by
      refine List.map_injective_iff.mpr (Option.some_injective Nat) ?_
      rw [← dense.listed, List.map_map]
      refine (map_eq_map_of_forall₂ announced fun id p both => ?_).symm
      rw [both.2]
      rfl
    rw [length, List.range_succ_eq_map, header, List.map_cons, numbers, List.range'_eq_map_range]
    refine congrArg _ (List.map_congr_left fun k _ => Nat.add_comm 1 k)
  · rw [tabled, table, dispatched, List.map_cons]
    refine congrArg _ (map_eq_map_of_forall₂ paired fun id d made => (name_ofPlace made).symm).symm

theorem files_of_generate {files : List GeneratedFile} (h : generate s t = .ok files) :
    ∃ i, implementation s t = .ok i ∧
      files = [⟨s.paths.enumerations, enumerationsText (enumerations t)⟩,
        ⟨s.paths.header, (header s t).text⟩, ⟨s.paths.implementation, i.text⟩] := by
  rw [generate] at h
  split at h
  · cases h
  · cases made : implementation s t with
    | error e => simp [made, bind, Except.bind] at h
    | ok i =>
      rw [made] at h
      exact ⟨i, rfl, (Except.ok.inj h).symm⟩

/-- What is printed of the slots: the header declares as many of them as the table has, and announces
the dispatchers in their order; the implementation lists their names and defines them. -/
structure PrintsSlots (s : Settings) (t : Tree) (i : Implementation) : Prop where
  header : ∃ before, (header s t).text = before ++
    ofLines (["", "extern " ++ tableHead i.table.length ++ ";"] ++
      (header s t).prototypes.flatMap prototypeLines)
  implementation : ∃ before after, i.text = before ++
    ofLines (tableLines i.table ++ i.dispatchers.flatMap definitionLines) ++ after

private theorem printsSlots {i : Implementation} (slots : Slots s t i) : PrintsSlots s t i := by
  constructor
  · rw [← slots.declared]
    exact exists_text_header_eq (header s t)
  · refine ⟨ofLines (openingLines i), if i.withStrings then stringHelpersText else "", ?_⟩
    rw [text_implementation, List.append_assoc, Text.ofLines_append]

/-- The addresses of an accepted document are 1, 2, 3 and so on in the order of the walk; the host
sends to them, and whatever code is generated for the tree has the endpoints in the slots with these
numbers, and prints these slots. -/
theorem addresses_agree {document : Json} {withRootName : Bool} {t : Tree}
    (h : Schema.build document withRootName = .ok t) :
    t.Dense ∧
      (∀ id address, t.address? id = some address → t.SpeaksTo id address) ∧
      ∀ s files, generate s t = .ok files →
        ∃ i, implementation s t = .ok i ∧ Slots s t i ∧ PrintsSlots s t i ∧
          files = [⟨s.paths.enumerations, enumerationsText (enumerations t)⟩,
            ⟨s.paths.header, (header s t).text⟩, ⟨s.paths.implementation, i.text⟩] := by
  have built := Schema.built_of_build h
  have dense := built.dense (Schema.isSchema_of_build h).addresses
  refine ⟨dense, fun id address found => Tree.speaksTo_of_address? found, ?_⟩
  intro s files generated
  obtain ⟨i, made, texts⟩ := files_of_generate generated
  have slots := slots_of_dense (s := s) dense built.reachable.sound made
  exact ⟨i, made, slots, printsSlots slots, texts⟩

def coolerDocument : Json :=
  .object [("name", .string "cooler"), ("remote_attributes", .array [
    .object [("name", .string "fan"), ("remote_attributes", .array [
      .object [("name", .string "speed"), ("dtype", .string "uint16"),
        ("getter_name", .string "fan_get_speed"), ("setter_name", .string "fan_set_speed")],
      .object [("name", .string "stop"), ("caller_name", .string "fan_stop"),
        ("arguments", .array [.object [("name", .string "delay"), ("dtype", .string "uint8")]])]])],
    .object [("name", .string "label"), ("dtype", .string "string"),
      ("getter_name", .string "get_label")]])]

def coolerSettings : Settings where
  paths := ⟨"enums.h", "endpoints.h", "endpoints.c"⟩

theorem addresses_agree_cooler :
    ∃ t files, Schema.build coolerDocument false = .ok t ∧
      generate coolerSettings t = .ok files ∧ t.Dense ∧
        ∃ i, implementation coolerSettings t = .ok i ∧ Slots coolerSettings t i ∧
          PrintsSlots coolerSettings t i ∧
          tableLines i.table =
            ["", "uint8_t (*const avlos_endpoints[4])(uint8_t * buffer, uint8_t * buffer_len, " ++
                "AvlosCommand cmd) = \x7b",
              "    &avlos_get_hash,", "    &avlos_fan_speed,", "    &avlos_fan_stop,",
              "    &avlos_label", "\x7d;"] := by
  have made : ((Schema.build coolerDocument false).toOption.bind
      fun t => (generate coolerSettings t).toOption.map fun _ => table t) =
        some ["avlos_get_hash", "avlos_fan_speed", "avlos_fan_stop", "avlos_label"] := by
    decide +kernel
  cases built : Schema.build coolerDocument false with
  | error e => simp [built, Except.toOption] at made
  | ok t =>
    cases generated : generate coolerSettings t with
    | error e => simp [built, generated, Except.toOption] at made
    | ok files =>
      obtain ⟨dense, -, units⟩ := addresses_agree built
      obtain ⟨i, implemented, slots, printed, -⟩ := units coolerSettings files generated
      refine ⟨t, files, rfl, generated, dense, i, implemented, slots, printed, ?_⟩
      obtain ⟨-, -, tabled, -⟩ := forall₂_dispatchers implemented
      simp only [built, generated, Except.toOption, Option.bind_some, Option.map_some,
        Option.some.injEq] at made
      rw [tabled, made]
      decide +kernel

end DeviceLink.Dispatch
