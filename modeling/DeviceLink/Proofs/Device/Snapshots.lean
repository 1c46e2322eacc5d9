import DeviceLink.Device.Snapshot
import DeviceLink.Proofs.Device.Restoring
import DeviceLink.Proofs.Device.Storage
import DeviceLink.Proofs.Json.Members
import DeviceLink.Proofs.Lists
import DeviceLink.Proofs.Tree.Descent

/-!
Exports over a store. An export that succeeds leaves the store as it is and holds the value of every
exported endpoint (`Tree.captures_of_run`).
-/

set_option autoImplicit false
set_option relaxedAutoImplicit false

namespace DeviceLink

/-! Entities whose values are in an export. -/

def Entity.isSaved (e : Entity) : Bool :=
  e.info.exported && !e.isNode && e.kind ≠ .function

theorem Entity.isNode_of_isSaved {e : Entity} (saved : e.isSaved = true) : e.isNode = false := by
  simp only [isSaved, Bool.and_eq_true, Bool.not_eq_true'] at saved
  exact saved.1.2

theorem Entity.isSaved_of_leaf {e : Entity} (leaf : e.isNode = false) :
    (e.info.exported && e.kind ≠ .function) = e.isSaved := by
  rw [isSaved, leaf, Bool.not_false, Bool.and_true]

namespace Tree

variable {t : Tree} {m : Memory}

/-- What reading the entity at a place gives when the stored payloads are the answers. -/
def Shows (t : Tree) (m : Memory) (id : Nat) (v : Value) : Prop :=
  ∃ e, t.get? id = some e ∧ Endpoint.Shows m (t.displayPath id) e v

/-- What an export of the stored payloads holds at a place and below. -/
inductive Captures (t : Tree) (m : Memory) : Nat → Option Json → Prop
  | node {id : Nat} {e : Entity} (part : Nat → Option Json) (found : t.get? id = some e)
      (node : e.isNode = true) : (∀ c ∈ e.children, Captures t m c (part c)) →
      Captures t m id (snapshotObject (e.children.map fun c => (part c).map (t.nameOf c, ·)))
  | saved {id : Nat} {e : Entity} {v : Value} (found : t.get? id = some e)
      (saved : e.isSaved = true) (shows : Endpoint.Shows m (t.displayPath id) e v) :
      Captures t m id (some v.toJson)
  | skipped {id : Nat} {e : Entity} (found : t.get? id = some e) (leaf : e.isNode = false)
      (plain : e.isSaved = false) : Captures t m id none

end Tree

/-! Exports. -/

namespace Action

variable {α β σ : Type} {link : Transport σ}

theorem forall₂_of_run_forEach {f : α → Action β} {l : List α} {bs : List β} {s s' : σ}
    {I : σ → Prop} {R : α → β → Prop} (start : I s)
    (step : ∀ a ∈ l, ∀ s b s', I s → (f a).run link s = (.ok b, s') → I s' ∧ R a b)
    (h : (forEach f l).run link s = (.ok bs, s')) : I s' ∧ List.Forall₂ R l bs := by
  induction l generalizing s bs with
  | nil =>
    obtain ⟨rfl, rfl⟩ : [] = bs ∧ s = s' := by simpa [forEach, done, run] using h
    exact ⟨start, .nil⟩
  | cons a rest ih =>
    obtain ⟨b, s₁, first, later⟩ := run_bind_eq_ok.mp h
    obtain ⟨bs', s₂, others, last⟩ := run_bind_eq_ok.mp later
    obtain ⟨rfl, rfl⟩ : b :: bs' = bs ∧ s₂ = s' := by simpa [done, run] using last
    obtain ⟨kept, given⟩ := step a (by simp) s b s₁ start first
    obtain ⟨still, more⟩ := ih kept (fun a inside => step a (by simp [inside])) others
    exact ⟨still, .cons given more⟩

end Action

namespace Tree

variable {t : Tree} {σ : Type} {link : Transport σ} (storage : link.Storage)

theorem children_eq {id : Nat} {e : Entity} (found : t.get? id = some e) :
    t.children id = e.children := by
  rw [children, found]

theorem children_of_leaf {id : Nat} {e : Entity} (found : t.get? id = some e)
    (leaf : e.isNode = false) : t.children id = [] := by
  rw [children_eq found]
  obtain ⟨info, body⟩ := e
  cases body with
  | node children => cases leaf
  | register | function | selector | bitmask => rfl

private theorem captures_of_endpoint {id : Nat} {e : Entity} (found : t.get? id = some e)
    (leaf : e.isNode = false) {s s' : σ} {r : Option Json} (usable : storage.usable s)
    (h : (exportEndpoint (t.displayPath id) e).run link s = (.ok r, s')) :
    (storage.usable s' ∧ storage.stored s' = storage.stored s) ∧
      Captures t (storage.stored s) id r := by
  rw [exportEndpoint, Entity.isSaved_of_leaf leaf] at h
  by_cases saved : e.isSaved = true
  · rw [if_pos saved] at h
    obtain ⟨v, s₁, inner, last⟩ := Action.run_bind_eq_ok.mp h
    obtain ⟨rfl, rfl⟩ : some v.toJson = r ∧ s₁ = s' := by
      simpa [pure, Action.done, Action.run] using last
    obtain ⟨still, same, shows⟩ := storage.run_read usable (t.displayPath id) e
    rw [inner] at still same shows
    exact ⟨⟨still, same⟩, .saved found saved ((shows v).mp rfl)⟩
  · rw [if_neg saved] at h
    obtain ⟨rfl, rfl⟩ : none = r ∧ s = s' := by simpa [pure, Action.done, Action.run] using h
    exact ⟨⟨usable, rfl⟩, .skipped found leaf (Bool.eq_false_of_not_eq_true saved)⟩

/-- An export that succeeds leaves the store as it is and holds what the store shows. -/
theorem captures_of_run (sound : t.Sound) (id : Nat) {s s' : σ} {r : Option Json}
    (usable : storage.usable s) (h : (t.exportEntity id).run link s = (.ok r, s')) :
    (storage.usable s' ∧ storage.stored s' = storage.stored s) ∧
      Captures t (storage.stored s) id r := by
  induction id using sound.descend generalizing s s' r with
  | step id ih =>
    rw [exportEntity, withEntity] at h
    cases found : t.get? id with
    | none => simp [found, Action.fail, Action.run] at h
    | some e =>
      simp only [found] at h
      have same := children_eq found
      by_cases node : e.isNode = true
      · rw [if_pos node] at h
        obtain ⟨members, s₁, loop, last⟩ := Action.run_bind_eq_ok.mp h
        obtain ⟨rfl, rfl⟩ : snapshotObject members = r ∧ s₁ = s' := by
          simpa [pure, Action.done, Action.run] using last
        have step (c : Nat) (child : c ∈ e.children) (s₁ : σ) (member : Option (String × Json))
            (s₂ : σ) (kept : storage.usable s₁ ∧ storage.stored s₁ = storage.stored s)
            (run : Action.run link (if id < c ∧ c < t.size then do
                let value ← t.exportEntity c
                return value.map (t.nameOf c, ·)
              else return none) s₁ = (.ok member, s₂)) :
            (storage.usable s₂ ∧ storage.stored s₂ = storage.stored s) ∧
              ∃ part, Captures t (storage.stored s) c part ∧
                part.map (t.nameOf c, ·) = member := by
          rw [← same] at child
          rw [if_pos (sound.bounds_of_mem_children child)] at run
          obtain ⟨part, s₃, inner, last⟩ := Action.run_bind_eq_ok.mp run
          obtain ⟨rfl, rfl⟩ : part.map (t.nameOf c, ·) = member ∧ s₃ = s₂ := by
            simpa [pure, Action.done, Action.run] using last
          obtain ⟨⟨usable₂, stored₂⟩, captured⟩ := ih c child kept.1 inner
          rw [kept.2] at stored₂ captured
          exact ⟨⟨usable₂, stored₂⟩, part, captured, rfl⟩
        obtain ⟨kept, parts⟩ := Action.forall₂_of_run_forEach ⟨usable, rfl⟩ step loop
        have distinct : e.children.Nodup := same ▸ sound.nodup_children id
        obtain ⟨member, rfl, given⟩ := exists_map_of_forall₂ distinct parts
        choose! part captured named using given
        rw [List.map_congr_left fun c child => (named c child).symm]
        exact ⟨kept, .node part found node captured⟩
      · rw [if_neg node] at h
        exact captures_of_endpoint storage found (Bool.eq_false_of_not_eq_true node) usable h

end Tree

end DeviceLink
