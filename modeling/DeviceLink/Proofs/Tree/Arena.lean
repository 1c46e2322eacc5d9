import DeviceLink.Tree.Basic
import Mathlib.Data.List.Nodup

/-!
What additions do to the arena of a tree. Its ledger, the list of its entities without their
children, only grows at the end; the children of a place follow from the parents in it. `Sound` says
what every tree keeps that additions lead to, whatever is added and wherever (`Reachable.sound`).
-/

set_option autoImplicit false
set_option relaxedAutoImplicit false

namespace DeviceLink

/-- An entity without its children, which are all that later additions change of it. -/
def Entity.bare (e : Entity) : Entity :=
  { info := e.info
    body := match e.body with
      | .node _ => .node []
      | body => body }

namespace Entity

@[simp] theorem kind_bare (e : Entity) : e.bare.kind = e.kind := by
  obtain ⟨info, body⟩ := e
  cases body <;> rfl

@[simp] theorem isNode_bare (e : Entity) : e.bare.isNode = e.isNode := by
  simp only [isNode, kind_bare]

@[simp] theorem endpoint?_bare (e : Entity) : e.bare.endpoint? = e.endpoint? := by
  obtain ⟨info, body⟩ := e
  cases body <;> rfl

@[simp] theorem name_detached (e : Entity) (p : Nat) : (e.detached p).name = e.name := rfl

@[simp] theorem bare_detached (e : Entity) (p : Nat) : (e.detached p).bare = e.detached p := by
  obtain ⟨info, body⟩ := e
  cases body <;> rfl

@[simp] theorem children_detached (e : Entity) (p : Nat) : (e.detached p).children = [] := by
  obtain ⟨info, body⟩ := e
  cases body <;> rfl

@[simp] theorem endpoint?_detached (e : Entity) (p : Nat) :
    (e.detached p).endpoint? = e.endpoint? := by
  obtain ⟨info, body⟩ := e
  cases body <;> rfl

@[simp] theorem isNode_detached (e : Entity) (p : Nat) : (e.detached p).isNode = e.isNode := by
  obtain ⟨info, body⟩ := e
  cases body <;> rfl

@[simp] theorem bare_withChild (e : Entity) (c : Nat) : (e.withChild c).bare = e.bare := by
  obtain ⟨info, body⟩ := e
  cases body <;> rfl

@[simp] theorem info_withChild (e : Entity) (c : Nat) : (e.withChild c).info = e.info := by
  obtain ⟨info, body⟩ := e
  cases body <;> rfl

private theorem children_withChild {e : Entity} (h : e.isNode = true) (c : Nat) :
    (e.withChild c).children = e.children ++ [c] := by
  obtain ⟨info, body⟩ := e
  cases body with
  | node children => rfl
  | register | function | selector | bitmask => simp [isNode, kind] at h

end Entity

namespace Tree

/-- The entities in the order of their places, each without its children. -/
def ledger (t : Tree) : List Entity :=
  t.entities.toList.map Entity.bare

/-- Some node stands at the place. -/
def HoldsNode (t : Tree) (id : Nat) : Prop :=
  ∃ e, t.get? id = some e ∧ e.isNode = true

@[simp] theorem length_ledger (t : Tree) : t.ledger.length = t.size := by
  simp [ledger, size]

theorem getElem?_ledger (t : Tree) (id : Nat) : t.ledger[id]? = (t.get? id).map Entity.bare := by
  simp [ledger, get?]

private theorem parent?_eq (t : Tree) (id : Nat) :
    t.parent? id = t.ledger[id]?.bind (·.info.parent) := by
  rw [getElem?_ledger, parent?]
  cases t.get? id <;> rfl

private theorem nameOf_eq (t : Tree) (id : Nat) :
    t.nameOf id = (t.ledger[id]?.map Entity.name).getD "" := by
  rw [getElem?_ledger, nameOf]
  cases t.get? id <;> rfl

private theorem holdsNode_iff (t : Tree) (id : Nat) :
    t.HoldsNode id ↔ ∃ e, t.ledger[id]? = some e ∧ e.isNode = true := by
  rw [getElem?_ledger, HoldsNode]
  cases t.get? id <;> simp

theorem lt_size_of_get? {t : Tree} {id : Nat} {e : Entity} (h : t.get? id = some e) :
    id < t.size :=
  (Array.getElem?_eq_some_iff.mp h).1

theorem exists_get? {t : Tree} {id : Nat} (h : id < t.size) : ∃ e, t.get? id = some e :=
  ⟨t.entities[id], Array.getElem?_eq_getElem h⟩

theorem children_of_size_le {t : Tree} {id : Nat} (h : t.size ≤ id) : t.children id = [] := by
  have missing : t.get? id = none := Array.getElem?_eq_none h
  simp only [children, missing]

theorem HoldsNode.lt_size {t : Tree} {id : Nat} (h : t.HoldsNode id) : id < t.size := by
  obtain ⟨e, found, -⟩ := h
  exact lt_size_of_get? found

theorem lt_size_of_parent? {t : Tree} {id p : Nat} (h : t.parent? id = some p) : id < t.size := by
  obtain ⟨e, found, -⟩ := Option.bind_eq_some_iff.mp h
  exact lt_size_of_get? found

/-! What stays when the ledger grows. -/

theorem parent?_of_prefix {t t' : Tree} (grown : t.ledger <+: t'.ledger) {id p : Nat}
    (h : t.parent? id = some p) : t'.parent? id = some p := by
  obtain ⟨added, same⟩ := grown
  have inside : id < t.ledger.length := by simpa using lt_size_of_parent? h
  rwa [parent?_eq, ← same, List.getElem?_append_left inside, ← parent?_eq]

theorem HoldsNode.of_prefix {t t' : Tree} (grown : t.ledger <+: t'.ledger) {id : Nat}
    (h : t.HoldsNode id) : t'.HoldsNode id := by
  obtain ⟨added, same⟩ := grown
  have inside : id < t.ledger.length := by simpa using h.lt_size
  rw [holdsNode_iff] at h ⊢
  rwa [← same, List.getElem?_append_left inside]

/-! What one addition changes. -/

theorem get?_attach (t : Tree) (p : Nat) (e : Entity) (id : Nat) :
    (t.attach p e).get? id =
      if id = t.size then some (e.detached p)
      else if id = p then (t.get? id).map (·.withChild t.size) else t.get? id := by
  obtain ⟨entities, hash, withRootName⟩ := t
  simp only [attach, get?, size, Array.getElem?_push, Array.size_modify, Array.getElem?_modify]
  by_cases last : id = entities.size
  · simp only [last, if_true]
  · simp only [last, if_false, eq_comm (a := p)]

@[simp] theorem size_attach (t : Tree) (p : Nat) (e : Entity) :
    (t.attach p e).size = t.size + 1 := by
  obtain ⟨entities, hash, withRootName⟩ := t
  simp [attach, size]

@[simp] theorem ledger_attach (t : Tree) (p : Nat) (e : Entity) :
    (t.attach p e).ledger = t.ledger ++ [e.detached p] := by
  apply List.ext_getElem?
  intro id
  rw [getElem?_ledger, get?_attach, List.getElem?_append, length_ledger, getElem?_ledger]
  by_cases last : id = t.size
  · simp [last]
  · by_cases before : id < t.size
    · simp only [last, before, if_true, if_false]
      split
      · cases t.get? id <;> simp
      · rfl
    · have beyond : t.get? id = none := Array.getElem?_eq_none (by simpa [size] using before)
      have far : id - t.size ≠ 0 := by omega
      simp [last, before, beyond, far]

theorem parent?_attach (t : Tree) (p : Nat) (e : Entity) (id : Nat) :
    (t.attach p e).parent? id = if id = t.size then some p else t.parent? id := by
  rw [parent?, get?_attach, parent?]
  split
  · rfl
  · split
    · cases t.get? id <;> simp
    · rfl

theorem nameOf_attach (t : Tree) (p : Nat) (e : Entity) (id : Nat) :
    (t.attach p e).nameOf id = if id = t.size then e.name else t.nameOf id := by
  rw [nameOf_eq, nameOf_eq, ledger_attach, List.getElem?_append, length_ledger]
  by_cases last : id = t.size
  · simp [last]
  · by_cases before : id < t.size
    · simp [last, before]
    · have far : id - t.size ≠ 0 := by omega
      simp [last, before, far]

private theorem HoldsNode.attach {t : Tree} {id : Nat} (h : t.HoldsNode id) (p : Nat) (e : Entity) :
    (t.attach p e).HoldsNode id := by
  refine h.of_prefix ?_
  rw [ledger_attach]
  exact List.prefix_append _ _

theorem holdsNode_attach_size (t : Tree) (p : Nat) {e : Entity} (node : e.isNode = true) :
    (t.attach p e).HoldsNode t.size := by
  refine (holdsNode_iff _ _).mpr ⟨e.detached p, ?_, ?_⟩
  · rw [ledger_attach, ← length_ledger, List.getElem?_concat_length]
  · rw [Entity.isNode_detached, node]

theorem children_attach {t : Tree} {p : Nat} (h : t.HoldsNode p) (e : Entity) (id : Nat) :
    (t.attach p e).children id = if id = p then t.children id ++ [t.size] else t.children id := by
  obtain ⟨q, found, node⟩ := h
  have below : p < t.size := lt_size_of_get? found
  simp only [children, get?_attach]
  by_cases last : id = t.size
  · have beyond : t.get? t.size = none := Array.getElem?_eq_none (Nat.le_refl _)
    have other : t.size ≠ p := by omega
    simp [last, other, beyond]
  · simp only [last, if_false]
    by_cases same : id = p
    · simp [same, found, Entity.children_withChild node]
    · simp [same]

/-- The arena invariant. Entity 0 is a node without a parent, and every other entity has an earlier
node as its parent. A node lists exactly its children, each of them once and in increasing order,
and no two of them have the same name. -/
structure Sound (t : Tree) : Prop where
  root : t.HoldsNode rootId ∧ t.parent? rootId = none
  rooted : ∀ id < t.size, id ≠ rootId → ∃ p, t.parent? id = some p ∧ p < id ∧ t.HoldsNode p
  listed : ∀ id p, t.parent? id = some p → (t.children p).count id = 1
  owned : ∀ p, ∀ c ∈ t.children p, t.parent? c = some p
  increasing : ∀ p, (t.children p).Pairwise (· < ·)
  distinct : ∀ p, (t.childNames p).Nodup

theorem sound_ofRoot (info : Info) (withRootName : Bool) :
    (ofRoot info withRootName).Sound := by
  have lonely (id : Nat) : (ofRoot info withRootName).parent? id = none := by
    cases id <;> rfl
  have childless (id : Nat) : (ofRoot info withRootName).children id = [] := by
    cases id <;> rfl
  have single : (ofRoot info withRootName).size = 1 := rfl
  refine ⟨⟨⟨_, rfl, rfl⟩, rfl⟩, ?_, ?_, ?_, ?_, ?_⟩
  · intro id inside other
    simp only [rootId] at other
    omega
  · intro id p parent
    simp [lonely] at parent
  · intro p c member
    simp [childless] at member
  · simp [childless]
  · simp [childNames, childless]

theorem Sound.size_pos {t : Tree} (h : t.Sound) : 0 < t.size :=
  h.root.1.lt_size

theorem Sound.lt_of_parent? {t : Tree} (h : t.Sound) {id p : Nat} (parent : t.parent? id = some p) :
    p < id ∧ t.HoldsNode p := by
  have other : id ≠ rootId := by
    rintro rfl
    simp [h.root.2] at parent
  obtain ⟨q, found, before, node⟩ := h.rooted id (lt_size_of_parent? parent) other
  obtain rfl : q = p := Option.some.inj (found.symm.trans parent)
  exact ⟨before, node⟩

theorem Sound.mem_children_iff {t : Tree} (h : t.Sound) {c p : Nat} :
    c ∈ t.children p ↔ t.parent? c = some p := by
  refine ⟨h.owned p c, fun parent => ?_⟩
  exact List.count_pos_iff.mp (by simp [h.listed c p parent])

theorem Sound.bounds_of_mem_children {t : Tree} (h : t.Sound) {c p : Nat}
    (member : c ∈ t.children p) : p < c ∧ c < t.size :=
  ⟨(h.lt_of_parent? (h.owned p c member)).1, lt_size_of_parent? (h.owned p c member)⟩

theorem Sound.childNames_attach {t : Tree} (h : t.Sound) {p : Nat} (node : t.HoldsNode p)
    (e : Entity) (id : Nat) :
    (t.attach p e).childNames id =
      if id = p then t.childNames id ++ [e.name] else t.childNames id := by
  have kept : (t.children id).map (t.attach p e).nameOf = t.childNames id := by
    refine List.map_congr_left fun c member => ?_
    rw [nameOf_attach, if_neg (Nat.ne_of_lt (h.bounds_of_mem_children member).2)]
  have newest : (t.attach p e).nameOf t.size = e.name := by rw [nameOf_attach, if_pos rfl]
  rw [childNames, children_attach node]
  split
  · rw [List.map_append, kept, List.map_singleton, newest]
  · exact kept

theorem Sound.attach {t : Tree} (h : t.Sound) {p : Nat} (node : t.HoldsNode p) {e : Entity}
    (fresh : e.name ∉ t.childNames p) : (t.attach p e).Sound := by
  have inside : p < t.size := node.lt_size
  have parents (id : Nat) := parent?_attach t p e id
  have lists (id : Nat) := children_attach node e id
  have olds (q : Nat) : ∀ c ∈ t.children q, c < t.size :=
    fun c member => (h.bounds_of_mem_children member).2
  refine ⟨⟨h.root.1.attach p e, ?_⟩, ?_, ?_, ?_, ?_, ?_⟩
  · rw [parents, if_neg (show rootId ≠ t.size from Nat.ne_of_lt h.size_pos)]
    exact h.root.2
  · intro id below other
    rw [size_attach] at below
    by_cases last : id = t.size
    · exact ⟨p, by rw [parents, if_pos last], by omega, node.attach p e⟩
    · obtain ⟨q, found, before, holder⟩ := h.rooted id (by omega) other
      exact ⟨q, by rw [parents, if_neg last, found], before, holder.attach p e⟩
  · intro id q parent
    rw [parents] at parent
    rw [lists]
    by_cases last : id = t.size
    · obtain rfl : p = q := by simpa [last] using parent
      have absent : t.size ∉ t.children p := fun member => Nat.lt_irrefl _ (olds p _ member)
      simp [last, List.count_eq_zero.mpr absent]
    · rw [if_neg last] at parent
      have other : t.size ≠ id := fun same => last same.symm
      split
      · simp [h.listed id q parent, other]
      · exact h.listed id q parent
  · intro q c member
    rw [lists] at member
    rw [parents]
    split at member
    · rename_i same
      rcases List.mem_append.mp member with old | new
      · rw [if_neg (Nat.ne_of_lt (olds q c old)), h.owned q c old]
      · rw [if_pos (List.mem_singleton.mp new), same]
    · rw [if_neg (Nat.ne_of_lt (olds q c member)), h.owned q c member]
  · intro q
    rw [lists]
    split
    · refine List.pairwise_append.mpr ⟨h.increasing q, List.pairwise_singleton _ _, ?_⟩
      intro c old new last
      rw [List.mem_singleton.mp last]
      exact olds q c old
    · exact h.increasing q
  · intro q
    rw [h.childNames_attach node]
    split
    · rename_i same
      refine List.nodup_append.mpr ⟨h.distinct q, List.nodup_singleton _, ?_⟩
      rintro name old other new rfl
      exact fresh (List.mem_singleton.mp new ▸ same ▸ old)
    · exact h.distinct q

theorem child?_eq_none_iff (t : Tree) (p : Nat) (name : String) :
    t.child? p name = none ↔ name ∉ t.childNames p := by
  simp only [child?, childNames, List.find?_eq_none, List.mem_map, beq_iff_eq]
  exact ⟨fun h ⟨c, member, same⟩ => h c member same, fun h c member same => h ⟨c, member, same⟩⟩

theorem refusal?_eq_none_iff (t : Tree) (p : Nat) (name : String) :
    t.refusal? p name = none ↔ t.HoldsNode p ∧ name ∉ t.childNames p := by
  rw [← child?_eq_none_iff, refusal?, HoldsNode]
  cases t.get? p with
  | none => simp
  | some e => cases node : e.isNode <;> simp [node]

/-- The tree after a call of `add`, which may refuse the entity. -/
def afterAdd (t : Tree) (p : Nat) (e : Entity) : Tree :=
  match t.add p e with
  | .ok (_, grown) => grown
  | .error _ => t

theorem afterAdd_of_error {t : Tree} {p : Nat} {e : Entity} {error : AddError}
    (h : t.add p e = .error error) : t.afterAdd p e = t := by
  simp only [afterAdd, h]

theorem afterAdd_eq (t : Tree) (p : Nat) (e : Entity) :
    t.afterAdd p e = if t.refusal? p e.name = none then t.attach p e else t := by
  simp only [afterAdd, add]
  cases t.refusal? p e.name <;> simp

private theorem Sound.afterAdd {t : Tree} (h : t.Sound) (p : Nat) (e : Entity) :
    (t.afterAdd p e).Sound := by
  rw [afterAdd_eq]
  split
  · rename_i accepted
    obtain ⟨node, fresh⟩ := (refusal?_eq_none_iff t p e.name).mp accepted
    exact h.attach node fresh
  · exact h

/-- The trees that come from a root by calls of `add`, accepted or refused, and by setting the
fingerprint. -/
inductive Reachable : Tree → Prop
  | root (info : Info) (withRootName : Bool) : Reachable (ofRoot info withRootName)
  | add {t : Tree} (p : Nat) (e : Entity) : Reachable t → Reachable (t.afterAdd p e)
  | mark {t : Tree} (hash : UInt32) : Reachable t → Reachable { t with hash := hash }

theorem Reachable.attach {t : Tree} (h : t.Reachable) {p : Nat} {e : Entity}
    (accepted : t.refusal? p e.name = none) : (t.attach p e).Reachable := by
  have grown := Reachable.add p e h
  rwa [afterAdd_eq, if_pos accepted] at grown

/-- The invariant holds however a tree has come about. -/
theorem Reachable.sound {t : Tree} (h : t.Reachable) : t.Sound := by
  induction h with
  | root info withRootName => exact sound_ofRoot info withRootName
  | add p e _ ih => exact ih.afterAdd p e
  | mark hash _ ih => exact ⟨ih.root, ih.rooted, ih.listed, ih.owned, ih.increasing, ih.distinct⟩

end Tree

end DeviceLink
