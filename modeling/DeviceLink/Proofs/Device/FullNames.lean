import DeviceLink.Device.Access
import DeviceLink.Proofs.Validation.Validity

/-!
Full names as addresses. Where no name is empty or has a dot in it, full names tell entities apart, and
without the name of the root they are the paths at which the device finds the entities
(`fullName_identifies`).
-/

set_option autoImplicit false
set_option relaxedAutoImplicit false

namespace DeviceLink

namespace Tree

variable {t : Tree} {id : Nat}

private theorem follow_eq_ok_iff {start : Nat} {names : List String} :
    t.follow start names = .ok id ↔ names.foldlM t.child? start = some id := by
  induction names generalizing start with
  | nil => simp [follow]
  | cons name rest ih =>
    rw [follow, childNamed, List.foldlM_cons]
    cases t.child? start name with
    | none => simp
    | some child => simpa using ih

theorem locate_eq_ok_iff {path : String} : t.locate path = .ok id ↔ t.resolve? path = some id :=
  follow_eq_ok_iff

private theorem expectKind_of_kind {e : Entity} (found : t.get? id = some e) :
    t.expectKind e.kind id = .ok id := by
  rw [expectKind, found]
  exact if_pos rfl

private theorem plainNames_of_valid (valid : t.Valid) : t.PlainNames := by
  intro id e found
  have word := (valid.names id e found).word
  constructor
  · intro empty
    obtain ⟨first, rest, spelled, -⟩ := word
    rw [empty] at spelled
    cases spelled
  · intro dotted
    exact absurd (word.isPart '.' dotted) (by decide)

/-- The names of valid trees are plain. Where names are plain, no two entities have the same full
name, and when it leaves out the name of the root, it is a path at which the entity is found, nodes
and callable endpoints also by way of the device. -/
theorem fullName_identifies (h : t.Reachable) :
    (t.violations = [] → t.PlainNames) ∧
      (t.PlainNames →
        (∀ a < t.size, ∀ b < t.size, t.fullName a = t.fullName b → a = b) ∧
        (t.withRootName = false → ∀ id e, t.get? id = some e →
          t.resolve? (t.fullName id) = some id ∧
            (e.kind = .node → t.nodeAt (t.fullName id) = .ok id) ∧
            (e.kind = .function → t.functionAt (t.fullName id) = .ok id))) := by
  have sound := h.sound
  refine ⟨?_, fun plain => ⟨?_, ?_⟩⟩
  · intro valid
    exact plainNames_of_valid ((violations_eq_nil_iff sound).mp valid)
  · intro a ha b hb same
    apply sound.pathNames_inj ha hb
    rw [← segments_fullName plain a, ← segments_fullName plain b, same]
  · intro short id e found
    obtain ⟨names, path, way⟩ := sound.exists_way id (lt_size_of_get? found)
    have resolved : t.resolve? (t.fullName id) = some id := by
      unfold resolve?
      rw [segments_fullName plain, path, sound.pathNames_root, short]
      exact way
    have located := locate_eq_ok_iff.mpr resolved
    refine ⟨resolved, ?_, ?_⟩
    · intro node
      rw [nodeAt, located, ← node]
      exact expectKind_of_kind found
    · intro callable
      rw [functionAt, located, ← callable]
      exact expectKind_of_kind found

theorem fullName_identifies_gate :
    gate.Reachable ∧ gate.violations = [] ∧ gate.PlainNames ∧ gate.withRootName = false ∧
      gate.nodeAt "motor" = .ok 1 ∧ gate.functionAt "motor.start" = .ok 2 ∧
      ∀ id < gate.size, gate.fullName id = "motor.start" → id = 2 := by
  have reachable : gate.Reachable := .add _ _ (.add _ _ (.root _ _))
  have valid : gate.violations = [] := by decide +kernel
  have plain := (fullName_identifies reachable).1 valid
  obtain ⟨distinct, found⟩ := (fullName_identifies reachable).2 plain
  have motor : gate.fullName 1 = "motor" := by decide +kernel
  have start : gate.fullName 2 = "motor.start" := by decide +kernel
  refine ⟨reachable, valid, plain, rfl, ?_, ?_, ?_⟩
  · rw [← motor]
    exact (found rfl 1 _ rfl).2.1 rfl
  · rw [← start]
    exact (found rfl 2 _ rfl).2.2 rfl
  · intro id inside same
    exact distinct id inside 2 (by decide) (same.trans start.symm)

end Tree

end DeviceLink
