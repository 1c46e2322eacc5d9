import DeviceLink.Proofs.Tree.Descent
import Mathlib.Logic.Function.Iterate

/-!
The walk and the climb as loops without any test of the places that they meet. `Traversal.next`
keeps a stack of places to visit, `Climb.next` goes from parent to parent. In a sound tree both
loops stop, meet no place outside the arena, and come to what `walk` and `pathNames` say.
-/

set_option autoImplicit false
set_option relaxedAutoImplicit false

namespace DeviceLink.Tree

/-- A traversal under way: the places on the stack, the topmost first, and those visited so far. -/
structure Traversal where
  pending : List Nat
  visited : List Nat

namespace Traversal

def start : Traversal := ⟨[rootId], []⟩

/-- One round: the topmost place is visited, and its children take its place on the stack. -/
def next (t : Tree) (s : Traversal) : Traversal :=
  match s.pending with
  | [] => s
  | id :: rest => ⟨t.children id ++ rest, s.visited ++ [id]⟩

/-- Everything that a traversal has visited or will still come to. -/
def whole (t : Tree) (s : Traversal) : List Nat :=
  s.visited ++ s.pending.flatMap t.subtree

variable {t : Tree}

private theorem whole_next (h : t.Sound) (s : Traversal) : (s.next t).whole t = s.whole t := by
  obtain ⟨pending, visited⟩ := s
  cases pending with
  | nil => rfl
  | cons id rest =>
    simp only [next, whole, List.flatMap_cons, List.flatMap_append]
    rw [h.subtree_eq id]
    simp only [List.append_assoc, List.cons_append, List.nil_append]

private theorem length_visited_next {s : Traversal} (more : s.pending ≠ []) :
    (s.next t).visited.length = s.visited.length + 1 := by
  obtain ⟨pending, visited⟩ := s
  cases pending with
  | nil => exact absurd rfl more
  | cons id rest => simp only [next, List.length_append, List.length_singleton]

private theorem whole_iterate (h : t.Sound) (k : Nat) : ((next t)^[k] start).whole t = t.walk := by
  induction k with
  | zero => simp only [Function.iterate_zero, id_eq, whole, start, walk, List.nil_append,
      List.flatMap_cons, List.flatMap_nil, List.append_nil]
  | succ k ih => rw [Function.iterate_succ_apply', whole_next h, ih]

private theorem pending_eq_nil_iff (h : t.Sound) {s : Traversal} (whole : s.whole t = t.walk) :
    s.pending = [] ↔ s.visited.length = t.size := by
  have total : s.visited.length + (s.pending.flatMap t.subtree).length = t.size := by
    rw [← h.length_walk, ← whole, Traversal.whole, List.length_append]
  constructor
  · intro done
    simpa only [done, List.flatMap_nil, List.length_nil, Nat.add_zero] using total
  · intro full
    cases pending : s.pending with
    | nil => rfl
    | cons id rest =>
      rw [pending, List.flatMap_cons, h.subtree_eq id, List.length_append,
        List.length_cons] at total
      omega

private theorem length_visited_iterate (h : t.Sound) {k : Nat} (bound : k ≤ t.size) :
    ((next t)^[k] start).visited.length = k := by
  induction k with
  | zero => rfl
  | succ k ih =>
    have so := ih (Nat.le_of_succ_le bound)
    have more : ((next t)^[k] start).pending ≠ [] := by
      intro done
      have full := (pending_eq_nil_iff h (whole_iterate h k)).mp done
      omega
    rw [Function.iterate_succ_apply', length_visited_next more, so]

private theorem visited_iterate (h : t.Sound) {k : Nat} (bound : k ≤ t.size) :
    ((next t)^[k] start).visited = t.walk.take k := by
  have front : ((next t)^[k] start).visited <+: t.walk := by
    rw [← whole_iterate h k]
    exact List.prefix_append _ _
  rw [List.prefix_iff_eq_take.mp front, length_visited_iterate h bound]

private theorem pending_iterate_eq_nil_iff (h : t.Sound) {k : Nat} (bound : k ≤ t.size) :
    ((next t)^[k] start).pending = [] ↔ k = t.size := by
  rw [pending_eq_nil_iff h (whole_iterate h k), length_visited_iterate h bound]

private theorem lt_size_of_mem_pending (h : t.Sound) (k : Nat) :
    ∀ id ∈ ((next t)^[k] start).pending, id < t.size := by
  intro id member
  have later : id ∈ ((next t)^[k] start).whole t := by
    rw [whole, List.mem_append, List.mem_flatMap]
    exact Or.inr ⟨id, member, h.self_mem_subtree id⟩
  rwa [whole_iterate h, h.mem_walk] at later

end Traversal

/-- A climb under way: the place to look at, if any, and the names met so far, the lowest first. -/
structure Climb where
  current : Option Nat
  names : List String

namespace Climb

/-- One round: the name of the place is noted, unless it is that of a root that is to be left out,
and the parent is the place to look at next. An unknown place ends the climb. -/
def next (t : Tree) (s : Climb) : Climb :=
  match s.current with
  | none => s
  | some id =>
    match t.get? id with
    | none => ⟨none, s.names⟩
    | some e =>
      let named := e.info.parent.isSome || t.withRootName
      ⟨e.info.parent, if named then s.names ++ [e.name] else s.names⟩

variable {t : Tree}

private theorem reaches_top (h : t.Sound) (id : Nat) (inside : id < t.size) (names : List String) :
    ∃ rounds ≤ id + 1,
      (next t)^[rounds] ⟨some id, names⟩ = ⟨none, names ++ (t.pathNames id).reverse⟩ ∧
        ∀ k < rounds, ∃ c < t.size, ((next t)^[k] ⟨some id, names⟩).current = some c := by
  induction id using Nat.strong_induction_on generalizing names with
  | _ id ih =>
    obtain ⟨e, found⟩ := exists_get? inside
    cases above : e.info.parent with
    | none =>
      refine ⟨1, by omega, ?_, ?_⟩
      · rw [Function.iterate_one, pathNames]
        cases whole : t.withRootName <;> simp [next, found, above, whole]
      · intro k first
        obtain rfl : k = 0 := by omega
        exact ⟨id, inside, rfl⟩
    | some p =>
      have parent : t.parent? id = some p := by
        simp only [parent?, found, Option.bind_some, above]
      obtain ⟨before, holder⟩ := h.lt_of_parent? parent
      have step : next t ⟨some id, names⟩ = ⟨some p, names ++ [e.name]⟩ := by
        simp [next, found, above]
      have path : t.pathNames id = t.pathNames p ++ [e.name] := by
        rw [pathNames]
        simp only [found, above, before, if_true]
      obtain ⟨rounds, few, top, way⟩ := ih p before holder.lt_size (names ++ [e.name])
      refine ⟨rounds + 1, by omega, ?_, ?_⟩
      · rw [Function.iterate_succ_apply, step, top, path]
        simp only [List.reverse_append, List.reverse_singleton, List.singleton_append,
          List.append_assoc]
      · intro k early
        cases k with
        | zero => exact ⟨id, inside, rfl⟩
        | succ k =>
          rw [Function.iterate_succ_apply, step]
          exact way k (by omega)

private theorem ends_at_unknown {id : Nat} (unknown : t.size ≤ id) :
    next t ⟨some id, []⟩ = ⟨none, (t.pathNames id).reverse⟩ := by
  have missing : t.get? id = none := Array.getElem?_eq_none unknown
  rw [pathNames]
  simp only [next, missing, List.reverse_nil]

private theorem ends (h : t.Sound) (id : Nat) :
    ∃ rounds ≤ id + 1,
      (next t)^[rounds] ⟨some id, []⟩ = ⟨none, (t.pathNames id).reverse⟩ ∧
        (id < t.size → ∀ k < rounds, ∃ c < t.size, ((next t)^[k] ⟨some id, []⟩).current = some c) := by
  by_cases inside : id < t.size
  · obtain ⟨rounds, few, top, way⟩ := reaches_top h id inside []
    exact ⟨rounds, few, top, fun _ => way⟩
  · exact ⟨1, by omega, ends_at_unknown (Nat.le_of_not_lt inside), fun known => absurd known inside⟩

end Climb

/-- The tree after a sequence of calls of `add`, each with a parent and an entity. -/
def afterCalls (t : Tree) (calls : List (Nat × Entity)) : Tree :=
  calls.foldl (fun grown call => grown.afterAdd call.1 call.2) t

private theorem Reachable.afterCalls {t : Tree} (h : t.Reachable) (calls : List (Nat × Entity)) :
    (t.afterCalls calls).Reachable := by
  induction calls generalizing t with
  | nil => exact h
  | cons call rest ih => exact ih (.add call.1 call.2 h)

/-- Whatever is added to a root, and wherever, the arena stays sound and a refused entity changes
nothing. So the loops of the walk and of the climb end inside the arena, and the walk has every
place once, parents before their children and everything below a place together. -/
theorem arena_of_calls (info : Info) (withRootName : Bool) (calls : List (Nat × Entity)) :
    let t := (ofRoot info withRootName).afterCalls calls
    t.Sound ∧
      (∀ p, ∀ c ∈ t.children p, p < c ∧ c < t.size) ∧
      (∀ p e error, t.add p e = .error error → t.afterAdd p e = t) ∧
      (∀ k ≤ t.size,
        ((Traversal.next t)^[k] .start).visited = t.walk.take k ∧
          (((Traversal.next t)^[k] .start).pending = [] ↔ k = t.size) ∧
          ∀ id ∈ ((Traversal.next t)^[k] .start).pending, id < t.size) ∧
      (∀ id, ∃ rounds ≤ id + 1,
        (Climb.next t)^[rounds] ⟨some id, []⟩ = ⟨none, (t.pathNames id).reverse⟩ ∧
          (id < t.size →
            ∀ k < rounds, ∃ c < t.size, ((Climb.next t)^[k] ⟨some id, []⟩).current = some c)) ∧
      t.walk.Perm (List.range t.size) ∧
      (∀ c p, t.parent? c = some p → [p, c].Sublist t.walk) ∧
      ∀ id < t.size, t.subtree id <:+: t.walk ∧ ∀ x, x ∈ t.subtree id ↔ t.Below x id := by
  intro t
  have h : t.Sound := ((Reachable.root info withRootName).afterCalls calls).sound
  refine ⟨h, ?_, ?_, ?_, Climb.ends h, h.walk_perm, ?_, ?_⟩
  · intro p c member
    exact h.bounds_of_mem_children member
  · intro p e error refused
    exact afterAdd_of_error refused
  · intro k bound
    exact ⟨Traversal.visited_iterate h bound, Traversal.pending_iterate_eq_nil_iff h bound,
      Traversal.lt_size_of_mem_pending h k⟩
  · intro c p parent
    exact h.parent_before_child parent
  · intro id inside
    exact ⟨h.subtree_infix_walk inside, fun x => h.mem_subtree⟩

end DeviceLink.Tree
