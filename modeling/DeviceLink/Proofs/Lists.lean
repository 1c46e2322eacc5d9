import Mathlib.Data.List.Forall2
import Mathlib.Logic.Function.Basic

/-!
Lists that go together member by member: how they come about, and what holds of them at each place
and as a whole.
-/

set_option autoImplicit false
set_option relaxedAutoImplicit false

namespace DeviceLink

variable {ε α β γ : Type} {R : α → β → Prop}

theorem forall₂_of_mapM_eq_ok {f : α → Except ε β} {l : List α} {found : List β}
    (h : l.mapM f = .ok found) : List.Forall₂ (fun a b => f a = .ok b) l found := by
  induction l generalizing found with
  | nil =>
    obtain rfl : [] = found := Except.ok.inj h
    exact .nil
  | cons a rest ih =>
    rw [List.mapM_cons] at h
    cases first : f a with
    | error e => simp [first, bind, Except.bind] at h
    | ok b =>
      cases others : rest.mapM f with
      | error e => simp [first, others, bind, Except.bind] at h
      | ok more =>
        simp only [first, others, bind, Except.bind, pure, Except.pure, Except.ok.injEq] at h
        subst h
        exact .cons first (ih others)

theorem exists_mapM_eq_ok {f : α → Except ε β} {l : List α} (h : ∀ a ∈ l, ∃ b, f a = .ok b) :
    ∃ found, l.mapM f = .ok found := by
  induction l with
  | nil => exact ⟨[], rfl⟩
  | cons a rest ih =>
    obtain ⟨b, first⟩ := h a (by simp)
    obtain ⟨more, others⟩ := ih fun a inside => h a (by simp [inside])
    refine ⟨b :: more, ?_⟩
    rw [List.mapM_cons, first, others]
    rfl

theorem forall₂_filterMap {f : α → Option β} {l : List α} (h : ∀ a ∈ l, ∃ b, f a = some b) :
    List.Forall₂ (fun a b => f a = some b) l (l.filterMap f) := by
  induction l with
  | nil => exact .nil
  | cons a rest ih =>
    obtain ⟨b, value⟩ := h a (by simp)
    rw [List.filterMap_cons, value]
    exact .cons value (ih fun a inside => h a (by simp [inside]))

theorem map_eq_map_of_forall₂ {f : α → γ} {g : β → γ} {l : List α} {l' : List β}
    (h : List.Forall₂ R l l') (same : ∀ a b, R a b → f a = g b) : l.map f = l'.map g := by
  induction h with
  | nil => rfl
  | cons first _ ih => rw [List.map_cons, List.map_cons, same _ _ first, ih]

theorem exists_getElem?_of_forall₂ {l : List α} {l' : List β} (h : List.Forall₂ R l l') {k : Nat}
    {a : α} (found : l[k]? = some a) : ∃ b, l'[k]? = some b ∧ R a b := by
  obtain ⟨inside, rfl⟩ := List.getElem?_eq_some_iff.mp found
  have there : k < l'.length := by rwa [← h.length_eq]
  exact ⟨l'[k], List.getElem?_eq_getElem there, h.get inside there⟩

theorem exists_map_of_forall₂ [Inhabited β] [DecidableEq α] {l : List α} {l' : List β}
    (distinct : l.Nodup) (h : List.Forall₂ R l l') :
    ∃ f : α → β, l' = l.map f ∧ ∀ a ∈ l, R a (f a) := by
  induction h with
  | nil => exact ⟨fun _ => default, rfl, by simp⟩
  | @cons a b rest rest' first _ ih =>
    obtain ⟨fresh, others⟩ := List.nodup_cons.mp distinct
    obtain ⟨f, rfl, later⟩ := ih others
    refine ⟨Function.update f a b, ?_, fun x inside => ?_⟩
    · rw [List.map_cons, Function.update_self]
      refine congrArg (b :: ·) (List.map_congr_left fun x inside => ?_)
      have other : x ≠ a := ne_of_mem_of_not_mem inside fresh
      rw [Function.update_of_ne other]
    · rcases List.mem_cons.mp inside with rfl | inside
      · rw [Function.update_self]
        exact first
      · have other : x ≠ a := ne_of_mem_of_not_mem inside fresh
        rw [Function.update_of_ne other]
        exact later x inside

theorem flatMap_filterMap (f : α → Option β) (g : β → List γ) (l : List α) :
    (l.filterMap f).flatMap g = l.flatMap fun a => ((f a).map g).getD [] := by
  induction l with
  | nil => rfl
  | cons a rest ih =>
    rw [List.filterMap_cons, List.flatMap_cons]
    cases f a with
    | none => exact ih
    | some b => rw [List.flatMap_cons, ih]; rfl

theorem mem_of_mem_intersperse {separator a : α} {l : List α}
    (h : a ∈ l.intersperse separator) : a = separator ∨ a ∈ l := by
  obtain ⟨k, inside, rfl⟩ := List.mem_iff_getElem.mp h
  rw [List.getElem_intersperse]
  split
  · exact Or.inr (List.getElem_mem _)
  · exact Or.inl rfl

theorem mem_intersperse_of_mem (separator : α) {a : α} {l : List α} (h : a ∈ l) :
    a ∈ l.intersperse separator := by
  obtain ⟨k, inside, rfl⟩ := List.mem_iff_getElem.mp h
  rw [List.getElem_eq_getElem_intersperse_two_mul]
  exact List.getElem_mem _

theorem findSome?_reverse_range {f : Nat → Option β} {b : β} {n k : Nat} (inside : k < n)
    (found : f k = some b) (last : ∀ j, k < j → j < n → f j = none) :
    (List.range n).reverse.findSome? f = some b := by
  induction n with
  | zero => exact absurd inside (Nat.not_lt_zero k)
  | succ n ih =>
    rw [List.range_succ, List.reverse_append, List.reverse_singleton, List.singleton_append,
      List.findSome?_cons]
    rcases Nat.lt_succ_iff_lt_or_eq.mp inside with earlier | rfl
    · rw [last n earlier (Nat.lt_succ_self n)]
      exact ih earlier fun j after before => last j after (Nat.lt_succ_of_lt before)
    · rw [found]

theorem filterMap_range_getElem? (f : α → Option β) (l : List α) :
    (List.range l.length).filterMap (fun i => l[i]?.bind f) = l.filterMap f := by
  induction l with
  | nil => rfl
  | cons a rest ih =>
    rw [List.length_cons, List.range_succ_eq_map, List.filterMap_cons, List.filterMap_map,
      List.filterMap_cons, ← ih]
    rfl

end DeviceLink
