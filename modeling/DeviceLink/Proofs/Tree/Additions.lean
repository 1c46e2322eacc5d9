import DeviceLink.Proofs.Tree.Paths
import DeviceLink.Proofs.Tree.Traversal
import DeviceLink.Tree.Names

/-!
What an addition leaves as it is. The new place comes into the walk behind the last place below its
parent (`Sound.walk_attach`), and nothing else of the walk moves. What is known of the earlier
places and the paths that lead to them stay (`Extends`), after one addition and after any number of
them (`Reachable.extends_afterCalls`).
-/

set_option autoImplicit false
set_option relaxedAutoImplicit false

namespace DeviceLink.Tree

variable {t t' : Tree} {p : Nat} {e : Entity}

/-- An addition that is not refused adds to a node, under a name that none of its children has. -/
structure Accepts (t : Tree) (p : Nat) (e : Entity) : Prop where
  node : t.HoldsNode p
  fresh : e.name ∉ t.childNames p

private theorem accepts_of_refusal? (h : t.refusal? p e.name = none) : t.Accepts p e :=
  ⟨((refusal?_eq_none_iff t p e.name).mp h).1, ((refusal?_eq_none_iff t p e.name).mp h).2⟩

/-! The walk. -/

namespace Sound

private theorem attached (h : t.Sound) (accepts : t.Accepts p e) : (t.attach p e).Sound :=
  h.attach accepts.node accepts.fresh

private theorem subtree_attach_size (h : t.Sound) (accepts : t.Accepts p e) :
    (t.attach p e).subtree t.size = [t.size] := by
  have childless : t.children t.size = [] := children_of_size_le (Nat.le_refl _)
  have other : t.size ≠ p := (Nat.ne_of_lt accepts.node.lt_size).symm
  rw [(h.attached accepts).subtree_eq, children_attach accepts.node, if_neg other, childless]
  rfl

private theorem subtree_attach_of_notMem (h : t.Sound) (accepts : t.Accepts p e) (x : Nat)
    (outside : p ∉ t.subtree x) : (t.attach p e).subtree x = t.subtree x := by
  induction x using h.descend with
  | step x ih =>
    have other : x ≠ p := by
      rintro rfl
      exact outside (h.self_mem_subtree x)
    rw [(h.attached accepts).subtree_eq, h.subtree_eq, children_attach accepts.node, if_neg other]
    refine congrArg (x :: ·) (List.flatMap_congr fun c child => ?_)
    exact ih c child fun within => outside (h.mem_subtree_of_child child within)

private theorem subtree_attach_parent (h : t.Sound) (accepts : t.Accepts p e) :
    (t.attach p e).subtree p = t.subtree p ++ [t.size] := by
  have below (c : Nat) (child : c ∈ t.children p) :
      (t.attach p e).subtree c = t.subtree c := by
    refine h.subtree_attach_of_notMem accepts c fun inside => ?_
    have back := h.le_of_below (h.mem_subtree.mp inside)
    have forward := (h.bounds_of_mem_children child).1
    omega
  rw [(h.attached accepts).subtree_eq, h.subtree_eq, children_attach accepts.node, if_pos rfl,
    List.flatMap_append, List.flatMap_congr below, List.flatMap_singleton,
    h.subtree_attach_size accepts, List.cons_append]

private theorem subtree_attach_of_mem (h : t.Sound) (accepts : t.Accepts p e) (x : Nat)
    (inside : p ∈ t.subtree x) :
    ∃ before after, t.subtree x = before ++ t.subtree p ++ after ∧
      (t.attach p e).subtree x = before ++ t.subtree p ++ t.size :: after := by
  induction x using h.descend with
  | step x ih =>
    by_cases same : x = p
    · subst same
      exact ⟨[], [], by simp, by simp [h.subtree_attach_parent accepts]⟩
    · have here := inside
      rw [h.subtree_eq, List.mem_cons, List.mem_flatMap] at here
      obtain ⟨c, child, within⟩ := here.resolve_left (Ne.symm same)
      obtain ⟨before, after, old, new⟩ := ih c child within
      -- Of the children only `c` has the parent below it, so the others stay.
      obtain ⟨left, right, split⟩ := List.append_of_mem child
      have others (d : Nat) (sibling : d ∈ t.children x) (differ : d ≠ c) :
          (t.attach p e).subtree d = t.subtree d :=
        h.subtree_attach_of_notMem accepts d
          (h.notMem_subtree_sibling child sibling differ within)
      have distinct := h.nodup_children x
      rw [split, List.nodup_append, List.nodup_cons] at distinct
      obtain ⟨-, ⟨notRight, -⟩, apart⟩ := distinct
      rw [split] at others
      have lefts (d : Nat) (member : d ∈ left) : (t.attach p e).subtree d = t.subtree d :=
        others d (by simp [member]) (apart d member c List.mem_cons_self)
      have rights (d : Nat) (member : d ∈ right) : (t.attach p e).subtree d = t.subtree d :=
        others d (by simp [member]) fun same => notRight (same ▸ member)
      refine ⟨x :: left.flatMap t.subtree ++ before, after ++ right.flatMap t.subtree, ?_, ?_⟩
      · rw [h.subtree_eq, split]
        simp [old]
      · rw [(h.attached accepts).subtree_eq, children_attach accepts.node, if_neg same, split]
        simp [new, List.flatMap_congr lefts, List.flatMap_congr rights]

/-- The new place follows the last place below its parent in the walk. -/
theorem walk_attach (h : t.Sound) (accepts : t.Accepts p e) :
    ∃ before after, t.walk = before ++ t.subtree p ++ after ∧
      (t.attach p e).walk = before ++ t.subtree p ++ t.size :: after :=
  h.subtree_attach_of_mem accepts rootId (h.mem_walk.mpr accepts.node.lt_size)

end Sound

/-! What is known of the earlier places. -/

/-- What is known of a place, but for its children, is the same in two trees. -/
structure Alike (t t' : Tree) (id : Nat) : Prop where
  name : t'.nameOf id = t.nameOf id
  kind : (t'.get? id).map Entity.kind = (t.get? id).map Entity.kind
  parent : t'.parent? id = t.parent? id
  pathNames : t'.pathNames id = t.pathNames id
  fullName : t'.fullName id = t.fullName id
  address : (t'.get? id).bind Entity.endpoint? = (t.get? id).bind Entity.endpoint?
  enumerators : t'.enumerators id = t.enumerators id

/-- A tree has all that another one has, at the same places and under the same paths. Children and
the walk have the old places in the old order. -/
structure Extends (t t' : Tree) : Prop where
  size : t.size ≤ t'.size
  alike : ∀ id < t.size, t.Alike t' id
  children : ∀ id, t.children id <+: t'.children id
  resolved : ∀ path id, t.resolve? path = some id → t'.resolve? path = some id
  walk : t.walk.Sublist t'.walk

theorem Alike.refl (t : Tree) (id : Nat) : t.Alike t id :=
  ⟨rfl, rfl, rfl, rfl, rfl, rfl, rfl⟩

theorem Alike.trans {t'' : Tree} {id : Nat} (h : t.Alike t' id) (h' : t'.Alike t'' id) :
    t.Alike t'' id :=
  ⟨h'.name.trans h.name, h'.kind.trans h.kind, h'.parent.trans h.parent,
    h'.pathNames.trans h.pathNames, h'.fullName.trans h.fullName, h'.address.trans h.address,
    h'.enumerators.trans h.enumerators⟩

theorem Extends.refl (t : Tree) : t.Extends t :=
  ⟨Nat.le_refl _, fun id _ => .refl t id, fun _ => List.prefix_refl _, fun _ _ found => found,
    List.Sublist.refl _⟩

theorem Extends.trans {t'' : Tree} (h : t.Extends t') (h' : t'.Extends t'') :
    t.Extends t'' where
  size := Nat.le_trans h.size h'.size
  alike id inside := (h.alike id inside).trans (h'.alike id (Nat.lt_of_lt_of_le inside h.size))
  children id := (h.children id).trans (h'.children id)
  resolved path id found := h'.resolved path id (h.resolved path id found)
  walk := h.walk.trans h'.walk

namespace Sound

private theorem pathNames_attach (h : t.Sound) (accepts : t.Accepts p e) (id : Nat)
    (inside : id < t.size) : (t.attach p e).pathNames id = t.pathNames id := by
  have grown := h.attached accepts
  have names (x : Nat) (below : x < t.size) : (t.attach p e).nameOf x = t.nameOf x := by
    rw [nameOf_attach, if_neg (Nat.ne_of_lt below)]
  have setting : (t.attach p e).withRootName = t.withRootName := rfl
  induction id using Nat.strong_induction_on with
  | _ id ih =>
    by_cases root : id = rootId
    · rw [root, grown.pathNames_root, h.pathNames_root, setting, rootName, rootName,
        names rootId h.size_pos]
    · obtain ⟨q, parent, before, holder⟩ := h.rooted id inside root
      have parent' : (t.attach p e).parent? id = some q := by
        rw [parent?_attach, if_neg (Nat.ne_of_lt inside), parent]
      rw [grown.pathNames_child parent', h.pathNames_child parent, ih q before holder.lt_size,
        names id inside]

private theorem pathNames_attach_size (h : t.Sound) (accepts : t.Accepts p e) :
    (t.attach p e).pathNames t.size = t.pathNames p ++ [e.name] := by
  have parent : (t.attach p e).parent? t.size = some p := by rw [parent?_attach, if_pos rfl]
  rw [(h.attached accepts).pathNames_child parent,
    h.pathNames_attach accepts p accepts.node.lt_size, nameOf_attach, if_pos rfl]

private theorem alike_attach (h : t.Sound) (accepts : t.Accepts p e) (id : Nat)
    (inside : id < t.size) : t.Alike (t.attach p e) id := by
  have earlier : id ≠ t.size := Nat.ne_of_lt inside
  have names := h.pathNames_attach accepts id inside
  have full : (t.attach p e).fullName id = t.fullName id := by rw [fullName, fullName, names]
  have bare : ((t.attach p e).get? id).map Entity.bare = (t.get? id).map Entity.bare := by
    rw [← getElem?_ledger, ← getElem?_ledger, ledger_attach, List.getElem?_append_left]
    rwa [length_ledger]
  refine ⟨?_, ?_, ?_, names, full, ?_, ?_⟩
  · rw [nameOf_attach, if_neg earlier]
  · have kinds := congrArg (Option.map Entity.kind) bare
    simpa only [Option.map_map, Function.comp_def, Entity.kind_bare] using kinds
  · rw [parent?_attach, if_neg earlier]
  · have addresses := congrArg (Option.bind · Entity.endpoint?) bare
    simpa only [Option.bind_map, Function.comp_def, Entity.endpoint?_bare] using addresses
  · have stem : (t.attach p e).enumeratorStem id = t.enumeratorStem id := by
      rw [enumeratorStem, enumeratorStem, underscoredName, underscoredName, full]
    rw [enumerators, enumerators, get?_attach, if_neg earlier, stem]
    by_cases same : id = p
    · rw [if_pos same]
      cases t.get? id with
      | none => rfl
      | some x =>
        obtain ⟨info, body⟩ := x
        cases body <;> rfl
    · rw [if_neg same]

private theorem child?_attach (h : t.Sound) (accepts : t.Accepts p e) {id c : Nat} {name : String}
    (found : t.child? id name = some c) : (t.attach p e).child? id name = some c := by
  obtain ⟨parent, named⟩ := h.child?_eq_some_iff.mp found
  have earlier : c ≠ t.size := Nat.ne_of_lt (lt_size_of_parent? parent)
  refine (h.attached accepts).child?_eq_some_iff.mpr ⟨?_, ?_⟩
  · rw [parent?_attach, if_neg earlier, parent]
  · rw [nameOf_attach, if_neg earlier, named]

private theorem resolve?_attach (h : t.Sound) (accepts : t.Accepts p e) {path : String} {id : Nat}
    (found : t.resolve? path = some id) : (t.attach p e).resolve? path = some id := by
  rw [resolve?] at found ⊢
  generalize Text.segments '.' path = names at found ⊢
  generalize rootId = start at found ⊢
  induction names generalizing start with
  | nil => exact found
  | cons name rest ih =>
    rw [List.foldlM_cons] at found ⊢
    obtain ⟨c, child, later⟩ := Option.bind_eq_some_iff.mp found
    rw [h.child?_attach accepts child]
    exact ih c later

private theorem extends_attach (h : t.Sound) (accepts : t.Accepts p e) :
    t.Extends (t.attach p e) where
  size := by simp
  alike := h.alike_attach accepts
  children id := by
    rw [children_attach accepts.node]
    split
    · exact List.prefix_append _ _
    · exact List.prefix_refl _
  resolved _ _ := h.resolve?_attach accepts
  walk := by
    obtain ⟨before, after, old, new⟩ := h.walk_attach accepts
    rw [old, new]
    exact (List.sublist_cons_self _ _).append_left _

end Sound

private theorem Reachable.extends_afterAdd (h : t.Reachable) (p : Nat) (e : Entity) :
    t.Extends (t.afterAdd p e) := by
  rw [afterAdd_eq]
  split
  · rename_i accepted
    exact h.sound.extends_attach (accepts_of_refusal? accepted)
  · exact .refl t

theorem Reachable.extends_afterCalls (h : t.Reachable) (calls : List (Nat × Entity)) :
    t.Extends (t.afterCalls calls) := by
  induction calls generalizing t with
  | nil => exact .refl t
  | cons call rest ih => exact (h.extends_afterAdd call.1 call.2).trans (ih (.add call.1 call.2 h))

private theorem attach_of_add {id : Nat} (h : t.add p e = .ok (id, t')) :
    t.Accepts p e ∧ id = t.size ∧ t' = t.attach p e := by
  rw [add] at h
  cases refused : t.refusal? p e.name with
  | some error => simp [refused] at h
  | none =>
    rw [refused] at h
    obtain ⟨rfl, rfl⟩ := Prod.mk.inj (Except.ok.inj h)
    exact ⟨accepts_of_refusal? refused, rfl, rfl⟩

/-- A place that is added comes into the walk right behind the last place below its parent. It is
the last child of its parent and has its name behind the names of the parent. What is known of the
earlier places stays as it was, but for the one child more, and so do the paths that lead to
them. -/
theorem addition_extends (h : t.Reachable) {id : Nat} (added : t.add p e = .ok (id, t')) :
    (∃ before after, t.walk = before ++ t.subtree p ++ after ∧
      t'.walk = before ++ t.subtree p ++ id :: after) ∧
    (∀ x < t.size, t.Alike t' x) ∧
    (∀ x, t'.children x = if x = p then t.children x ++ [id] else t.children x) ∧
    (∀ path x, t.resolve? path = some x → t'.resolve? path = some x) ∧
    t'.pathNames id = t.pathNames p ++ [e.name] := by
  obtain ⟨accepts, rfl, rfl⟩ := attach_of_add added
  have sound := h.sound
  refine ⟨sound.walk_attach accepts, sound.alike_attach accepts, ?_, ?_, ?_⟩
  · intro x
    exact children_attach accepts.node e x
  · intro path x
    exact sound.resolve?_attach accepts
  · exact sound.pathNames_attach_size accepts

def litGate : Tree :=
  gate.afterAdd 0 ⟨⟨"light", none, none, false, [], none, none⟩, .node []⟩

theorem addition_extends_litGate :
    litGate.Reachable ∧ litGate.walk = [0, 1, 2, 3] ∧
      ∃ t', litGate.add 1 ⟨⟨"stop", none, none, false, [], none, none⟩,
          .function ⟨"motor_stop", [], .void, none, 1⟩⟩ = .ok (4, t') ∧
        t'.walk = [0, 1, 2, 4, 3] ∧ t'.children 1 = [2, 4] ∧
        t'.resolve? "motor.start" = some 2 ∧ t'.pathNames 4 = ["motor", "stop"] := by
  have reachable : litGate.Reachable := .add _ _ (.add _ _ (.add _ _ (.root _ _)))
  have walk : litGate.walk = [0, 1, 2, 3] := by decide +kernel
  obtain ⟨⟨before, after, old, new⟩, -, children, resolved, names⟩ := addition_extends reachable
    (show litGate.add 1 ⟨⟨"stop", none, none, false, [], none, none⟩,
      .function ⟨"motor_stop", [], .void, none, 1⟩⟩ = .ok (4, _) from rfl)
  refine ⟨reachable, walk, _, rfl, ?_, ?_, ?_, ?_⟩
  · have below : litGate.subtree 1 = [1, 2] := by decide +kernel
    rw [walk, below] at old
    rw [new, below]
    rcases before with _ | ⟨a, _ | ⟨b, rest⟩⟩
    · simp at old
    · simp_all
    · have again : [2, 3] = rest ++ [1, 2] ++ after := (List.cons.inj (List.cons.inj old).2).2
      have motor : 1 ∈ [2, 3] := by simp [again]
      simp at motor
  · exact children 1
  · exact resolved "motor.start" 2 (by decide +kernel)
  · have motor : litGate.pathNames 1 = ["motor"] := by decide +kernel
    rw [names, motor]
    rfl

end DeviceLink.Tree
