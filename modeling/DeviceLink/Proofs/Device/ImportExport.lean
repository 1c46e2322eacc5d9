import DeviceLink.Proofs.Device.Recovery
import DeviceLink.Proofs.Schema.Acceptance
import DeviceLink.Proofs.Validation.Validity

/-!
Imports undo exports. In a tree that was built from a document and breaks no rule, names and units
can be read from the texts of an export (`legible_of_built`), so an import of what one device exported
makes another device show the same values, whatever it held before (`import_restores_export`).
-/

set_option autoImplicit false
set_option relaxedAutoImplicit false

namespace DeviceLink

/-! Names that can be read. -/

namespace Tree

variable {t : Tree} {id : Nat} {info : Info}

private theorem Valid.nodup_enumerators (valid : t.Valid) (endpoint : id ∈ t.endpoints) :
    ((t.enumerators id).map (·.name)).Nodup :=
  (List.nodup_flatMap.mp valid.enumerators).1 id endpoint

private theorem Valid.nodup_options (sound : t.Sound) (valid : t.Valid) {s : Selector}
    (found : t.get? id = some ⟨info, .selector s⟩) :
    (s.options.names.take Options.capacity).Nodup := by
  have distinct := valid.nodup_enumerators ((mem_endpoints_iff sound).mpr ⟨_, found, rfl⟩)
  have names : (t.enumerators id).map (·.name) =
      (s.options.names.take Options.capacity).map (enumeratorName (t.enumeratorStem id)) := by
    rw [Tree.enumerators, found]
    exact map_name_optionEnumerators _ _
  rw [names] at distinct
  exact distinct.of_map _

private theorem Valid.nodup_flags (sound : t.Sound) (valid : t.Valid) {b : Bitmask}
    (found : t.get? id = some ⟨info, .bitmask b⟩) : b.flags.names.Nodup := by
  have distinct := valid.nodup_enumerators ((mem_endpoints_iff sound).mpr ⟨_, found, rfl⟩)
  have names : (t.enumerators id).map (·.name) =
      enumeratorName (t.enumeratorStem id) noFlagName ::
        b.flags.names.map (enumeratorName (t.enumeratorStem id)) := by
    rw [Tree.enumerators, found]
    exact congrArg (_ :: ·) (map_name_flags _ _)
  rw [names] at distinct
  exact (List.nodup_cons.mp distinct).2.of_map _

theorem legible_of_built {document : Json} (built : Schema.Built document t) (valid : t.Valid)
    {e : Entity} (found : t.get? id = some e) : e.body.Legible := by
  have sound := built.reachable.sound
  obtain ⟨o, -, depicts⟩ := built.exists_occurrence found
  have content := depicts.body
  obtain ⟨info, body⟩ := e
  cases body with
  | node | function => trivial
  | register r =>
    obtain ⟨-, unit, -⟩ := content
    refine ⟨(valid.complete id _ found).2, fun u here => ?_⟩
    rw [unit, Schema.measureUnit?] at here
    obtain ⟨source, -, read⟩ := Option.bind_eq_some_iff.mp here
    cases parsed : Registry.standard.parse source with
    | error e => simp [parsed, Except.toOption] at read
    | ok u' =>
      obtain rfl : u' = u := by simpa [parsed, Except.toOption] using read
      exact ⟨source, parsed⟩
  | selector s =>
    exact ⟨valid.nodup_options sound found, fun name inside =>
      (valid.members id _ found name inside).trimmed_eq⟩
  | bitmask b => exact ⟨valid.nodup_flags sound found, content.2.1⟩

variable {σ τ : Type} {link : Transport σ} {link' : Transport τ}

theorem run_read_eq_ok_iff (storage : link.Storage) {s : σ} (usable : storage.usable s) (id : Nat)
    (v : Value) : ((t.read id).run link s).1 = .ok v ↔ t.Shows (storage.stored s) id v := by
  rw [read, withEntity, Shows]
  cases found : t.get? id with
  | none => simp [Action.fail, Action.run]
  | some e => simpa using (storage.run_read usable (t.displayPath id) e).2.2 v

/-- An import of what one device exported comes to an end on another device with the same tree,
whatever that device held. Afterwards every exported endpoint is read there as the value that is read
on the first device, and no payload has changed at the address of anything else. -/
theorem import_restores_export (storage : link.Storage) (storage' : link'.Storage)
    {document : Json} {withRootName : Bool} (built : Schema.build document withRootName = .ok t)
    (valid : t.violations = [])
    (restorable : ∀ id e, t.get? id = some e → e.isSaved = true → e.Restorable)
    {s : σ} (usable : storage.usable s) {data : Json}
    (exported : ((t.exportValues rootId).run link s).1 = .ok data)
    (finite : ∀ id e v, t.get? id = some e → e.isSaved = true →
      ((t.read id).run link s).1 = .ok v → v.isFinite = true)
    {s' : τ} (usable' : storage'.usable s') :
    ∃ s'', (t.importEntity rootId data).run link' s' = (.ok (), s'') ∧ storage'.usable s'' ∧
      (∀ id e, t.get? id = some e → e.isSaved = true →
        ∃ v, ((t.read id).run link s).1 = .ok v ∧ ((t.read id).run link' s'').1 = .ok v) ∧
      ∀ address, (∀ id e, t.get? id = some e → e.isSaved = true → e.endpoint? ≠ some address) →
        storage'.stored s'' address = storage'.stored s' address := by
  have origin := Schema.built_of_build built
  have sound := origin.reachable.sound
  have rules := (violations_eq_nil_iff sound).mp valid
  have ready : t.Recoverable (storage.stored s) :=
    { apart := rules.addresses
      legible := fun id e found => legible_of_built origin rules found
      restorable := restorable
      finite := fun id e v found saved shows => finite id e v found saved
        ((run_read_eq_ok_iff storage usable id v).mpr ⟨e, found, shows⟩) }
  have run : (t.exportValues rootId).run link s =
      (.ok data, ((t.exportValues rootId).run link s).2) := Prod.ext exported rfl
  obtain ⟨r, s₁, inner, last⟩ := Action.run_bind_eq_ok.mp run
  obtain rfl : r.getD (.object []) = data := Except.ok.inj (congrArg Prod.fst last)
  obtain ⟨-, captured⟩ := captures_of_run storage sound rootId usable inner
  obtain ⟨root, found, node⟩ := sound.root.1
  obtain ⟨s'', imported, still, restored⟩ :=
    recovers_of_captures sound ready found node captured s' usable'
  refine ⟨s'', imported, still, fun id e found saved => ?_, fun address free => ?_⟩
  · have inside := mem_savedBelow_root sound found saved
    obtain ⟨v, shows⟩ := exists_shows_of_captures sound rootId captured inside
    exact ⟨v, (run_read_eq_ok_iff storage usable id v).mpr shows,
      (run_read_eq_ok_iff storage' still id v).mpr (restored.shown id inside v shows)⟩
  · refine restored.kept address fun id inside here => ?_
    obtain ⟨e, found, saved⟩ := exists_of_mem_savedBelow inside
    rw [address?, found] at here
    exact free id e found saved here

/-- A document with options, flags and, below a node, a number with a unit. -/
def fanDocument : Json :=
  .object [("name", .string "fan"), ("remote_attributes", .array [
    .object [("name", .string "mode"), ("options", .array [.string "off", .string "low",
        .string "high"]),
      ("getter_name", .string "get_mode"), ("setter_name", .string "set_mode"),
      ("meta", .object [("export", .bool true)])],
    .object [("name", .string "alarms"), ("flags", .array [.string "hot", .string "stalled"]),
      ("getter_name", .string "get_alarms"), ("setter_name", .string "set_alarms"),
      ("meta", .object [("export", .bool true)])],
    .object [("name", .string "motor"), ("remote_attributes", .array [
      .object [("name", .string "supply"), ("dtype", .string "float"), ("unit", .string "volt"),
        ("getter_name", .string "get_supply"), ("setter_name", .string "set_supply"),
        ("meta", .object [("export", .bool true)])]])]])]

def fan : MemoryLink where
  stored := [(1, [2]), (2, [3]), (3, [0, 0, 192, 63])]

def fanLink : Transport MemoryLink :=
  MemoryLink.transport .standardTimeout

theorem faultless_of_stored (stored : List (EndpointId × Wire.Payload)) :
    MemoryLink.Faultless { stored := stored } :=
  ⟨rfl, rfl, rfl, rfl, rfl⟩

/-- The voltage of the fan comes back on a device that held nothing. -/
theorem import_restores_export_fan :
    ∃ t data s, Schema.build fanDocument false = .ok t ∧ t.violations = [] ∧
      ((t.exportValues rootId).run fanLink fan).1 = .ok data ∧
      (t.importEntity rootId data).run fanLink {} = (.ok (), s) ∧
      ∃ v, ((t.read 4).run fanLink fan).1 = .ok v ∧ ((t.read 4).run fanLink s).1 = .ok v := by
  have facts : ((Schema.build fanDocument false).toOption.map fun t =>
      decide (t.violations = [] ∧ (∀ e ∈ t.entities, e.isSaved = true → e.Restorable) ∧
        ((t.exportValues rootId).run fanLink fan).1.toOption.isSome = true ∧
        (∀ id < t.size, ((t.read id).run fanLink fan).1.toOption.all Value.isFinite = true) ∧
        (t.get? 4).any Entity.isSaved = true)) = some true := by
    decide +kernel
  cases built : Schema.build fanDocument false with
  | error e => simp [built, Except.toOption] at facts
  | ok t =>
    rw [built] at facts
    obtain ⟨valid, restorable, exports, known, fourth⟩ :=
      of_decide_eq_true (Option.some.inj facts)
    have finite (id : Nat) (e : Entity) (v : Value) (found : t.get? id = some e)
        (_ : e.isSaved = true) (shown : ((t.read id).run fanLink fan).1 = .ok v) :
        v.isFinite = true := by
      have value := known id (lt_size_of_get? found)
      rwa [shown] at value
    cases exported : ((t.exportValues rootId).run fanLink fan).1 with
    | error e => simp [exported, Except.toOption] at exports
    | ok data =>
      obtain ⟨s, imported, -, same, -⟩ := import_restores_export
        (MemoryLink.storage .standardTimeout) (MemoryLink.storage .standardTimeout) built valid
        (fun id e found => restorable e (Array.mem_of_getElem? found)) (faultless_of_stored _)
        exported finite (faultless_of_stored [])
      cases found : t.get? 4 with
      | none => simp [found] at fourth
      | some e =>
        rw [found] at fourth
        exact ⟨t, data, s, rfl, valid, exported, imported, same 4 e found fourth⟩

end Tree

end DeviceLink
