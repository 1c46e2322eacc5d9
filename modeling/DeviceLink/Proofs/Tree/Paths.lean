import DeviceLink.Proofs.Text.Segments
import DeviceLink.Proofs.Tree.Descent
import DeviceLink.Tree.Names

/-!
The names on the way from the root to an entity. They lead back to it, one child after the other
(`Sound.exists_way`), and where no name is empty or has a dot in it the full name can be cut into them
again (`segments_fullName`).
-/

set_option autoImplicit false
set_option relaxedAutoImplicit false

namespace DeviceLink

namespace Tree

variable {t : Tree} {id : Nat}

/-- No name is empty, and none has a dot in it. -/
def PlainNames (t : Tree) : Prop :=
  ∀ id e, t.get? id = some e → e.name ≠ "" ∧ '.' ∉ e.name.toList

theorem nameOf_of_get? {e : Entity} (found : t.get? id = some e) : t.nameOf id = e.name := by
  rw [nameOf, found]

namespace Sound

theorem pathNames_root (h : t.Sound) :
    t.pathNames rootId = if t.withRootName then [t.rootName] else [] := by
  obtain ⟨e, found, -⟩ := h.root.1
  have top : e.info.parent = none := by simpa [parent?, found] using h.root.2
  rw [pathNames]
  simp only [found, top, rootName, nameOf]

theorem pathNames_child (h : t.Sound) {p : Nat} (parent : t.parent? id = some p) :
    t.pathNames id = t.pathNames p ++ [t.nameOf id] := by
  obtain ⟨e, found, above⟩ := Option.bind_eq_some_iff.mp parent
  have before := (h.lt_of_parent? parent).1
  rw [pathNames, nameOf]
  simp only [found, above, before, if_true]

theorem child?_eq_some_iff (h : t.Sound) {p c : Nat} {name : String} :
    t.child? p name = some c ↔ t.parent? c = some p ∧ t.nameOf c = name := by
  constructor
  · intro found
    have same := List.find?_some found
    exact ⟨h.owned p c (List.mem_of_find?_eq_some found), by simpa using same⟩
  · rintro ⟨parent, rfl⟩
    have member := h.mem_children_iff.mpr parent
    cases found : t.child? p (t.nameOf c) with
    | none => exact absurd (List.mem_map_of_mem member) ((child?_eq_none_iff t p _).mp found)
    | some c' =>
      have same : t.nameOf c' = t.nameOf c := by simpa using List.find?_some found
      have other := List.mem_of_find?_eq_some found
      rw [List.inj_on_of_nodup_map (h.distinct p) other member same]

theorem exists_way (h : t.Sound) (id : Nat) (inside : id < t.size) :
    ∃ names, t.pathNames id = t.pathNames rootId ++ names ∧
      names.foldlM t.child? rootId = some id := by
  induction id using Nat.strong_induction_on with
  | _ id ih =>
    by_cases root : id = rootId
    · subst root
      exact ⟨[], by rw [List.append_nil], rfl⟩
    · obtain ⟨p, parent, before, holder⟩ := h.rooted id inside root
      obtain ⟨names, path, way⟩ := ih p before holder.lt_size
      refine ⟨names ++ [t.nameOf id], ?_, ?_⟩
      · rw [h.pathNames_child parent, path, List.append_assoc]
      · have last : t.child? p (t.nameOf id) = some id := h.child?_eq_some_iff.mpr ⟨parent, rfl⟩
        rw [List.foldlM_append, way, Option.bind_eq_bind, Option.bind_some, List.foldlM_cons, last]
        rfl

theorem pathNames_inj (h : t.Sound) {a b : Nat} (ha : a < t.size) (hb : b < t.size)
    (same : t.pathNames a = t.pathNames b) : a = b := by
  obtain ⟨down, path, way⟩ := h.exists_way a ha
  obtain ⟨down', path', way'⟩ := h.exists_way b hb
  rw [path, path'] at same
  rw [List.append_cancel_left same, way'] at way
  exact (Option.some.inj way).symm

end Sound

theorem mem_pathNames {name : String} (inside : name ∈ t.pathNames id) :
    ∃ id' e, t.get? id' = some e ∧ e.name = name := by
  induction id using Nat.strong_induction_on with
  | _ id ih =>
    rw [pathNames] at inside
    cases found : t.get? id with
    | none => simp [found] at inside
    | some e =>
      have own (last : name = e.name) : ∃ id' e, t.get? id' = some e ∧ e.name = name :=
        ⟨id, e, found, last.symm⟩
      simp only [found] at inside
      cases above : e.info.parent with
      | none =>
        simp only [above] at inside
        split at inside
        · exact own (List.mem_singleton.mp inside)
        · exact absurd inside List.not_mem_nil
      | some p =>
        simp only [above] at inside
        split at inside
        · rename_i before
          rcases List.mem_append.mp inside with earlier | last
          · exact ih p before earlier
          · exact own (List.mem_singleton.mp last)
        · exact own (List.mem_singleton.mp inside)

theorem segments_fullName (plain : t.PlainNames) (id : Nat) :
    Text.segments '.' (t.fullName id) = t.pathNames id := by
  apply Text.segments_intercalate
  intro name inside
  obtain ⟨id', e, found, rfl⟩ := mem_pathNames inside
  exact plain id' e found

def gate : Tree :=
  ((ofRoot ⟨"gate", none, none, false, [], none, none⟩ false).afterAdd 0
    ⟨⟨"motor", none, none, false, [], none, none⟩, .node []⟩).afterAdd 1
    ⟨⟨"start", none, none, false, [], none, none⟩, .function ⟨"motor_start", [], .void, none, 1⟩⟩

end Tree

end DeviceLink
