import DeviceLink.Proofs.Device.Denotation
import DeviceLink.Proofs.Device.ImportExport
import DeviceLink.Proofs.Device.Inspections
import DeviceLink.Proofs.Schema.Names

/-!
Reading what was written. Over a transport with a store, the read after a write gives what the
written value denotes (`Tree.read_after_write`), for flags as far as they are among the first 64
(`Tree.last_flag_is_dropped`).
-/

set_option autoImplicit false
set_option relaxedAutoImplicit false

namespace DeviceLink

private theorem Entity.readable?_of_getter {e : Entity} (readable : e.access.getter.isSome = true) :
    e.readable? = e.endpoint? := by
  obtain ⟨info, body⟩ := e
  cases body with
  | node | function => simp [access] at readable
  | register | selector | bitmask => exact if_pos readable

namespace Tree

variable {t : Tree} {id : Nat} {e : Entity} {value : Value} {σ : Type} {link : Transport σ}
  {s s' : σ}

private theorem exists_message_of_run_write (found : t.get? id = some e)
    (written : (t.write id value).run link s = (.ok (), s')) :
    ∃ address payload,
      Endpoint.writeMessage (t.displayPath id) e value = .ok (address, payload) := by
  rw [write, withEntity, found] at written
  obtain ⟨⟨address, payload⟩, s₁, message, -⟩ := Action.run_bind_eq_ok.mp written
  exact ⟨address, payload, congrArg Prod.fst message⟩

/-- In a tree that is built from a document, a write of a value with a meaning that succeeds is
followed by a read that succeeds and gives what the value denotes. -/
theorem read_after_write {document : Json} {withRootName : Bool}
    (built : Schema.build document withRootName = .ok t) (storage : link.Storage)
    (usable : storage.usable s) (found : t.get? id = some e)
    (readable : e.access.getter.isSome = true) (meant : Meant e.body value)
    (written : (t.write id value).run link s = (.ok (), s')) :
    ∃ v, ((t.read id).run link s').1 = .ok v ∧ Denotes e.body value v := by
  obtain ⟨address, payload, message⟩ := exists_message_of_run_write found written
  have plain (b : Bitmask) (body : e.body = .bitmask b) : b.flags.defaultName = none := by
    obtain ⟨info, content⟩ := e
    obtain rfl : content = .bitmask b := body
    exact ((Schema.built_of_build built).flags (Schema.isSchema_of_build built).wellFormed found).2
  obtain ⟨filled, v, decoded, denoted⟩ := Endpoint.renders_of_meant meant plain message
  obtain ⟨s₁, run, still, stored⟩ := storage.run_write usable filled message
  obtain rfl : s₁ = s' := by
    rw [write, withEntity, found] at written
    exact congrArg Prod.snd (run.symm.trans written)
  have asked : e.readable? = some address := by
    rw [Entity.readable?_of_getter readable, Endpoint.endpoint?_of_writeMessage message]
  refine ⟨v, (run_read_eq_ok_iff storage still id v).mpr ⟨e, found, address, payload, ?_, ?_,
    decoded⟩, denoted⟩
  · exact Endpoint.readAddress_eq_ok_iff.mpr asked
  · rw [stored, Function.update_self]

private theorem meant_of_kind (selector : e.kind = .selector) : Meant e.body value := by
  obtain ⟨info, body⟩ := e
  cases body with
  | selector s => exact .selector s value
  | node | register | function | bitmask => simp [Entity.kind] at selector

def dialDocument : Json :=
  .object [("name", .string "dial"), ("remote_attributes", .array [
    .object [("name", .string "range"), ("options", .array [.string "low", .string "high"]),
      ("getter_name", .string "get_range"), ("setter_name", .string "set_range")]])]

/-- On a link that holds nothing yet, an option is chosen by its name and read again. -/
theorem read_after_write_dial :
    ∃ t e s v, Schema.build dialDocument false = .ok t ∧ t.get? 1 = some e ∧
      (t.write 1 (.scalar (.text "high"))).run (MemoryLink.transport .standardTimeout) {} =
        (.ok (), s) ∧
      ((t.read 1).run (MemoryLink.transport .standardTimeout) s).1 = .ok v ∧
        Denotes e.body (.scalar (.text "high")) v := by
  have facts : ((Schema.build dialDocument false).toOption.map fun t =>
      decide ((t.get? 1).any (fun e => e.kind = .selector && e.access.getter.isSome) = true ∧
        ((t.write 1 (.scalar (.text "high"))).run (MemoryLink.transport .standardTimeout)
          {}).1.toOption.isSome = true)) = some true := by
    decide +kernel
  cases built : Schema.build dialDocument false with
  | error e => simp [built, Except.toOption] at facts
  | ok t =>
    rw [built] at facts
    obtain ⟨first, accepted⟩ := of_decide_eq_true (Option.some.inj facts)
    cases found : t.get? 1 with
    | none => simp [found] at first
    | some e =>
      rw [found, Option.any_some, Bool.and_eq_true, decide_eq_true_eq] at first
      rcases written : (t.write 1 (.scalar (.text "high"))).run
        (MemoryLink.transport .standardTimeout) {} with ⟨error | ⟨⟩, s⟩
      · simp [written, Except.toOption] at accepted
      · obtain ⟨v, came, denoted⟩ := read_after_write built (MemoryLink.storage .standardTimeout)
          (faultless_of_stored []) found first.2 (meant_of_kind first.1) written
        exact ⟨t, e, s, v, rfl, found, written, came, denoted⟩

def signalDocument : Json :=
  .object [("name", .string "panel"), ("remote_attributes", .array [
    .object [("name", .string "signals"),
      ("flags", .array ((List.range 65).map fun i => .string ("f" ++ toString i))),
      ("getter_name", .string "get_signals"), ("setter_name", .string "set_signals")]])]

def flagNames (t : Tree) (id : Nat) : List String :=
  match t.get? id with
  | some ⟨_, .bitmask b⟩ => b.flags.names
  | _ => []

/-- The last of 65 flags is declared, but a write of its name sets nothing, and a read shows
nothing. -/
theorem last_flag_is_dropped :
    ∃ t s, Schema.build signalDocument false = .ok t ∧ "f64" ∈ t.flagNames 1 ∧
      (t.write 1 (.flags ["f64"])).run (MemoryLink.transport .standardTimeout) {} = (.ok (), s) ∧
        ((t.read 1).run (MemoryLink.transport .standardTimeout) s).1 = .ok (.flags []) := by
  have facts : ((Schema.build signalDocument false).toOption.map fun t =>
      decide ("f64" ∈ t.flagNames 1 ∧
        ((t.write 1 (.flags ["f64"])).run (MemoryLink.transport .standardTimeout)
          {}).1.toOption.isSome = true ∧
        ((t.read 1).run (MemoryLink.transport .standardTimeout)
          ((t.write 1 (.flags ["f64"])).run (MemoryLink.transport .standardTimeout)
            {}).2).1.toOption = some (.flags []))) = some true := by
    decide +kernel
  cases built : Schema.build signalDocument false with
  | error e => simp [built, Except.toOption] at facts
  | ok t =>
    rw [built] at facts
    obtain ⟨declared, accepted, lost⟩ := of_decide_eq_true (Option.some.inj facts)
    rcases written : (t.write 1 (.flags ["f64"])).run
      (MemoryLink.transport .standardTimeout) {} with ⟨error | ⟨⟩, s⟩
    · simp [written, Except.toOption] at accepted
    · rw [written] at lost
      cases came : ((t.read 1).run (MemoryLink.transport .standardTimeout) s).1 with
      | error error => simp [came, Except.toOption] at lost
      | ok v =>
        obtain rfl : v = .flags [] := by simpa [came, Except.toOption] using lost
        exact ⟨t, s, rfl, declared, written, came⟩

end Tree

end DeviceLink
