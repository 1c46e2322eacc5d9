import DeviceLink.Proofs.Tree.Arena
import Mathlib.Data.List.Sort

/-!
Descent in a tree: which places lie below another one, and how the walk lists them. The walk of a
sound tree has every place once (`Sound.nodup_walk`, `Sound.mem_walk`), and what lies below a place
stands together in it (`Sound.subtree_infix_walk`). Where every place is added below a parent of the
place before, the walk is the order of the places (`Sound.walk_eq_range`).
-/

set_option autoImplicit false
set_option relaxedAutoImplicit false

namespace DeviceLink.Tree

/-- Going from parent to parent leads from the first place to the second, which may be the same. -/
inductive Below (t : Tree) : Nat → Nat → Prop
  | refl (id : Nat) : Below t id id
  | step {id p a : Nat} : t.parent? id = some p → Below t p a → Below t id a

variable {t : Tree}

theorem Below.of_parent? {c p : Nat} (h : t.parent? c = some p) : t.Below c p :=
  .step h (.refl p)

theorem Below.trans {a b c : Nat} (h : t.Below a b) (h' : t.Below b c) : t.Below a c := by
  induction h with
  | refl => exact h'
  | step parent _ ih => exact .step parent (ih h')

private theorem Below.comparable {x a b : Nat} (ha : t.Below x a) (hb : t.Below x b) :
    t.Below a b ∨ t.Below b a := by
  induction ha with
  | refl => exact Or.inl hb
  | @step x p a parent above ih =>
    cases hb with
    | refl => exact Or.inr (.step parent above)
    | step other rest =>
      obtain rfl := Option.some.inj (parent.symm.trans other)
      exact ih rest

theorem Below.mono {t' : Tree}
    (keep : ∀ id p, t.parent? id = some p → t'.parent? id = some p)
    {a b : Nat} (h : t.Below a b) : t'.Below a b := by
  induction h with
  | refl id => exact .refl id
  | step parent _ ih => exact .step (keep _ _ parent) ih

namespace Sound

theorem le_of_below (h : t.Sound) {a b : Nat} (below : t.Below a b) : b ≤ a := by
  induction below with
  | refl => exact Nat.le_refl _
  | step parent _ ih => exact Nat.le_trans ih (Nat.le_of_lt (h.lt_of_parent? parent).1)

private theorem below_root (h : t.Sound) (id : Nat) (inside : id < t.size) : t.Below id rootId := by
  induction id using Nat.strong_induction_on with
  | _ id ih =>
    by_cases root : id = rootId
    · rw [root]
      exact .refl _
    · obtain ⟨p, parent, before, holder⟩ := h.rooted id inside root
      exact .step parent (ih p before holder.lt_size)

private theorem eq_of_siblings_below (h : t.Sound) {a b p : Nat} (ha : t.parent? a = some p)
    (hb : t.parent? b = some p) (below : t.Below a b) : a = b := by
  cases below with
  | refl => rfl
  | step parent rest =>
    obtain rfl := Option.some.inj (ha.symm.trans parent)
    have forward := h.le_of_below rest
    have back := (h.lt_of_parent? hb).1
    omega

theorem subtree_eq (h : t.Sound) (id : Nat) :
    t.subtree id = id :: (t.children id).flatMap t.subtree := by
  rw [subtree]
  congr 1
  rw [List.flatMap_def, List.flatMap_def]
  refine congrArg List.flatten (List.map_congr_left fun c member => ?_)
  exact if_pos (h.bounds_of_mem_children member)

theorem descend (h : t.Sound) {P : Nat → Prop} (step : ∀ id, (∀ c ∈ t.children id, P c) → P id)
    (id : Nat) : P id := by
  induction left : t.size - id using Nat.strong_induction_on generalizing id with
  | _ left ih =>
    refine step id fun c member => ih (t.size - c) ?_ c rfl
    have bounds := h.bounds_of_mem_children member
    omega

theorem self_mem_subtree (h : t.Sound) (id : Nat) : id ∈ t.subtree id := by
  rw [h.subtree_eq]
  exact List.mem_cons_self

private theorem subtree_infix (h : t.Sound) {x id : Nat} (inside : x ∈ t.subtree id) :
    t.subtree x <:+: t.subtree id := by
  induction id using h.descend with
  | step id ih =>
    rw [h.subtree_eq, List.mem_cons, List.mem_flatMap] at inside
    rcases inside with rfl | ⟨c, child, within⟩
    · exact List.infix_refl _
    · rw [h.subtree_eq id]
      have here : t.subtree c <:+: ((t.children id).map t.subtree).flatten :=
        List.infix_of_mem_flatten (List.mem_map_of_mem child)
      rw [← List.flatMap_def] at here
      exact ((ih c child within).trans here).trans (List.suffix_cons _ _).isInfix

theorem mem_subtree_of_child (h : t.Sound) {top c id : Nat} (child : c ∈ t.children top)
    (inside : id ∈ t.subtree c) : id ∈ t.subtree top := by
  rw [h.subtree_eq top]
  exact List.mem_cons_of_mem top (List.mem_flatMap.mpr ⟨c, child, inside⟩)

private theorem mem_subtree_of_mem_children (h : t.Sound) {c p id : Nat} (member : c ∈ t.children p)
    (inside : p ∈ t.subtree id) : c ∈ t.subtree id :=
  (h.subtree_infix inside).subset (h.mem_subtree_of_child member (h.self_mem_subtree c))

theorem mem_subtree (h : t.Sound) {x id : Nat} : x ∈ t.subtree id ↔ t.Below x id := by
  constructor
  · intro inside
    induction id using h.descend with
    | step id ih =>
      rw [h.subtree_eq, List.mem_cons, List.mem_flatMap] at inside
      rcases inside with rfl | ⟨c, child, within⟩
      · exact .refl _
      · exact (ih c child within).trans (.of_parent? (h.owned id c child))
  · intro below
    induction below with
    | refl id => exact h.self_mem_subtree id
    | step parent _ ih => exact h.mem_subtree_of_mem_children (h.mem_children_iff.mpr parent) ih

theorem notMem_subtree_sibling (h : t.Sound) {top c x id : Nat} (first : c ∈ t.children top)
    (other : x ∈ t.children top) (differ : x ≠ c) (inside : id ∈ t.subtree c) :
    id ∉ t.subtree x := by
  intro again
  have pc := h.owned top c first
  have px := h.owned top x other
  rcases (h.mem_subtree.mp again).comparable (h.mem_subtree.mp inside) with below | below
  · exact differ (h.eq_of_siblings_below px pc below)
  · exact differ (h.eq_of_siblings_below pc px below).symm

theorem nodup_children (h : t.Sound) (id : Nat) : (t.children id).Nodup :=
  (h.increasing id).imp Nat.ne_of_lt

theorem nodup_subtree (h : t.Sound) (id : Nat) : (t.subtree id).Nodup := by
  induction id using h.descend with
  | step id ih =>
    rw [h.subtree_eq, List.nodup_cons]
    refine ⟨fun again => ?_, List.nodup_flatMap.mpr ⟨ih, ?_⟩⟩
    · obtain ⟨c, child, within⟩ := List.mem_flatMap.mp again
      have back := h.le_of_below (h.mem_subtree.mp within)
      have forward := (h.bounds_of_mem_children child).1
      omega
    · refine (h.nodup_children id).imp_of_mem fun {a b} ha hb differ x inA inB => ?_
      exact h.notMem_subtree_sibling hb ha differ inB inA

theorem mem_walk (h : t.Sound) {id : Nat} : id ∈ t.walk ↔ id < t.size := by
  refine ⟨fun member => ?_, fun inside => h.mem_subtree.mpr (h.below_root id inside)⟩
  cases h.mem_subtree.mp member with
  | refl => exact h.size_pos
  | step parent _ => exact lt_size_of_parent? parent

theorem nodup_walk (h : t.Sound) : t.walk.Nodup :=
  h.nodup_subtree rootId

theorem walk_perm (h : t.Sound) : t.walk.Perm (List.range t.size) :=
  (List.perm_ext_iff_of_nodup h.nodup_walk List.nodup_range).mpr fun id => by
    rw [h.mem_walk, List.mem_range]

theorem length_walk (h : t.Sound) : t.walk.length = t.size := by
  rw [h.walk_perm.length_eq, List.length_range]

theorem subtree_infix_walk (h : t.Sound) {id : Nat} (inside : id < t.size) :
    t.subtree id <:+: t.walk :=
  h.subtree_infix (h.mem_walk.mpr inside)

theorem parent_before_child (h : t.Sound) {c p : Nat} (parent : t.parent? c = some p) :
    [p, c].Sublist t.walk := by
  have member := h.mem_children_iff.mpr parent
  have rest : [c].Sublist ((t.children p).flatMap t.subtree) :=
    List.singleton_sublist.mpr (List.mem_flatMap.mpr ⟨c, member, h.self_mem_subtree c⟩)
  have own : [p, c].Sublist (t.subtree p) := by
    rw [h.subtree_eq]
    exact rest.cons_cons p
  exact own.trans (h.subtree_infix_walk (h.lt_of_parent? parent).2.lt_size).sublist

theorem children_eq_filter (h : t.Sound) (id : Nat) :
    t.children id = (List.range t.size).filter fun c => t.parent? c = some id := by
  have right : ((List.range t.size).filter fun c => t.parent? c = some id).Pairwise (· < ·) :=
    List.pairwise_lt_range.filter _
  refine (h.increasing id).eq_of_mem_iff right fun c => ?_
  simp only [List.mem_filter, List.mem_range, decide_eq_true_eq, h.mem_children_iff]
  exact ⟨fun parent => ⟨lt_size_of_parent? parent, parent⟩, fun both => both.2⟩

end Sound

/-- Every place after the root has a parent that the place before it lies below. -/
def Preordered (t : Tree) : Prop :=
  ∀ id p, t.parent? (id + 1) = some p → t.Below id p

theorem Preordered.attach (order : t.Preordered) {q : Nat} (opened : t.Below (t.size - 1) q)
    (e : Entity) : (t.attach q e).Preordered := by
  have keep (id p : Nat) (h : t.parent? id = some p) : (t.attach q e).parent? id = some p :=
    parent?_of_prefix (by simp) h
  intro id p parent
  rw [parent?_attach] at parent
  split at parent
  · rename_i last
    obtain rfl := Option.some.inj parent
    obtain rfl : id = t.size - 1 := by omega
    exact opened.mono keep
  · exact (order id p parent).mono keep

theorem Preordered.mark (order : t.Preordered) (hash : UInt32) :
    ({ t with hash := hash } : Tree).Preordered := by
  have keep (id p : Nat) (h : t.parent? id = some p) :
      ({ t with hash := hash } : Tree).parent? id = some p := h
  intro id p parent
  exact (order id p parent).mono keep

private theorem Preordered.below_of_between (order : t.Preordered) {a x y : Nat}
    (below : t.Below y a) (lower : a ≤ x) (upper : x ≤ y) : t.Below x a := by
  induction y with
  | zero =>
    obtain rfl : x = 0 := by omega
    exact below
  | succ y ih =>
    by_cases last : x = y + 1
    · rwa [last]
    · cases below with
      | refl => exact absurd (Nat.le_antisymm upper lower) last
      | step parent rest => exact ih ((order y _ parent).trans rest) (by omega)

namespace Sound

private theorem subtree_increasing (h : t.Sound) (order : t.Preordered) (id : Nat) :
    (t.subtree id).Pairwise (· < ·) := by
  induction id using h.descend with
  | step id ih =>
    rw [h.subtree_eq]
    refine List.pairwise_cons.mpr ⟨fun x inside => ?_, ?_⟩
    · obtain ⟨c, child, within⟩ := List.mem_flatMap.mp inside
      have back := h.le_of_below (h.mem_subtree.mp within)
      have forward := (h.bounds_of_mem_children child).1
      omega
    · refine List.pairwise_flatMap.mpr ⟨ih, ?_⟩
      refine (h.increasing id).imp_of_mem fun {a b} ha hb less x inA y inB => ?_
      have belowA := h.mem_subtree.mp inA
      have back := h.le_of_below (h.mem_subtree.mp inB)
      by_contra late
      have crossing : t.Below b a :=
        order.below_of_between belowA (Nat.le_of_lt less) (by omega)
      have same := h.eq_of_siblings_below (h.owned id b hb) (h.owned id a ha) crossing
      omega

/-- The walk of a tree in preorder is the order of its places. -/
theorem walk_eq_range (h : t.Sound) (order : t.Preordered) :
    t.walk = List.range t.size := by
  refine (h.subtree_increasing order rootId).eq_of_mem_iff List.pairwise_lt_range fun id => ?_
  rw [List.mem_range]
  exact h.mem_walk

end Sound

end DeviceLink.Tree
