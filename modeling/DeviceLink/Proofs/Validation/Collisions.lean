import DeviceLink.Validation.Report
import Mathlib.Data.List.Nodup

/-!
Checks that run through a list and remember what they have seen. Such a check judges every entry by
the entries before it (`judged`), and reports one collision for each entry whose key an earlier one
has, naming the owner of the first of them (`collisions_eq_judged`, `addressViolations_eq_judged`).
-/

set_option autoImplicit false
set_option relaxedAutoImplicit false

namespace DeviceLink

section Judging

variable {α β : Type}

/-- What comes of judging each entry of a list by the entries before it. -/
def judged (judge : List α → α → Option β) (l : List α) : List β :=
  (List.range l.length).filterMap fun k => l[k]?.bind (judge (l.take k))

@[simp] theorem judged_nil (judge : List α → α → Option β) : judged judge [] = [] := rfl

private theorem judged_cons (judge : List α → α → Option β) (a : α) (rest : List α) :
    judged judge (a :: rest) =
      (judge [] a).toList ++ judged (fun earlier => judge (a :: earlier)) rest := by
  rw [judged, List.length_cons, List.range_succ_eq_map, List.filterMap_cons, List.filterMap_map]
  cases first : judge [] a <;> simp [first, judged, Function.comp_def]

private theorem judged_eq_nil_iff (judge : List α → α → Option β) (l : List α) :
    judged judge l = [] ↔ ∀ k a, l[k]? = some a → judge (l.take k) a = none := by
  simp only [judged, List.filterMap_eq_nil_iff, List.mem_range, Option.bind_eq_none_iff]
  constructor
  · intro h k a found
    exact h k (List.getElem?_eq_some_iff.mp found).1 a found
  · intro h k _ a found
    exact h k a found

theorem mem_judged_iff {judge : List α → α → Option β} {l : List α} {b : β} :
    b ∈ judged judge l ↔
      ∃ earlier a later, l = earlier ++ a :: later ∧ judge earlier a = some b := by
  induction l generalizing judge with
  | nil => simp
  | cons first rest ih =>
    rw [judged_cons, List.mem_append, Option.mem_toList, ih]
    constructor
    · rintro (here | ⟨earlier, a, later, rfl, there⟩)
      · exact ⟨[], first, rest, rfl, here⟩
      · exact ⟨first :: earlier, a, later, rfl, there⟩
    · rintro ⟨earlier, a, later, same, there⟩
      cases earlier with
      | nil =>
        obtain ⟨rfl, -⟩ := List.cons.inj same
        exact .inl there
      | cons head tail =>
        obtain ⟨rfl, rfl⟩ := List.cons.inj same
        exact .inr ⟨tail, a, later, rfl, there⟩

theorem judged_map {γ : Type} (f : α → γ) (judge : List γ → γ → Option β) (l : List α) :
    judged judge (l.map f) = judged (fun earlier a => judge (earlier.map f) (f a)) l := by
  induction l generalizing judge with
  | nil => rfl
  | cons a rest ih => rw [List.map_cons, judged_cons, judged_cons, ih]; rfl

private theorem nodup_iff_not_mem_take (l : List α) :
    l.Nodup ↔ ∀ k a, l[k]? = some a → a ∉ l.take k := by
  rw [List.nodup_iff_pairwise_ne, List.pairwise_iff_getElem]
  constructor
  · intro h k a found again
    obtain ⟨inside, rfl⟩ := List.getElem?_eq_some_iff.mp found
    obtain ⟨i, before, same⟩ := List.mem_take_iff_getElem.mp again
    exact h i k (by omega) inside (by omega) same
  · intro h i j inside inside' before same
    refine h j l[j] (List.getElem?_eq_getElem inside') ?_
    exact List.mem_take_iff_getElem.mpr ⟨i, by omega, same⟩

private theorem judged_eq_nil_iff_nodup {κ : Type} {judge : List α → α → Option β} {key : α → κ}
    {Allowed : α → Prop}
    (accepts : ∀ earlier a, judge earlier a = none ↔ Allowed a ∧ key a ∉ earlier.map key)
    (l : List α) : judged judge l = [] ↔ (∀ a ∈ l, Allowed a) ∧ (l.map key).Nodup := by
  simp only [judged_eq_nil_iff, nodup_iff_not_mem_take, accepts, List.map_take,
    List.getElem?_map, Option.map_eq_some_iff]
  constructor
  · intro h
    refine ⟨fun a inside => ?_, fun k x found => ?_⟩
    · obtain ⟨k, there⟩ := List.mem_iff_getElem?.mp inside
      exact (h k a there).1
    · obtain ⟨a, there, rfl⟩ := found
      exact (h k a there).2
  · rintro ⟨allowed, distinct⟩ k a found
    exact ⟨allowed a (List.mem_of_getElem? found), distinct k (key a) ⟨a, found, rfl⟩⟩

end Judging

section Owners

variable {κ ω : Type} [BEq κ]

def ownerOf? (entries : List (κ × ω)) (key : κ) : Option ω :=
  (entries.find? (·.1 == key)).map (·.2)

private theorem ownerOf?_append (l l' : List (κ × ω)) (key : κ) :
    ownerOf? (l ++ l') key = (ownerOf? l key).or (ownerOf? l' key) := by
  rw [ownerOf?, List.find?_append, ownerOf?, ownerOf?]
  cases l.find? (·.1 == key) <;> rfl

theorem ownerOf?_cons (entry : κ × ω) (l : List (κ × ω)) (key : κ) :
    ownerOf? (entry :: l) key = if entry.1 == key then some entry.2 else ownerOf? l key := by
  rw [ownerOf?, List.find?_cons]
  cases entry.1 == key <;> rfl

private theorem ownerOf?_singleton (entry : κ × ω) (key : κ) :
    ownerOf? [entry] key = if entry.1 == key then some entry.2 else none :=
  ownerOf?_cons entry [] key

variable [LawfulBEq κ]

private theorem ownerOf?_eq_none_iff (entries : List (κ × ω)) (key : κ) :
    ownerOf? entries key = none ↔ key ∉ entries.map Prod.fst := by
  simp only [ownerOf?, Option.map_eq_none_iff, List.find?_eq_none, beq_iff_eq, List.mem_map]
  exact ⟨fun h ⟨entry, inside, same⟩ => h entry inside same,
    fun h entry inside same => h ⟨entry, inside, same⟩⟩

variable {seen earlier : List (κ × ω)} {key : κ}

private theorem ownerOf?_remember (owner : ω) {k : κ} (known : ownerOf? seen k = ownerOf? earlier k)
    (fresh : ownerOf? seen key = none) :
    ownerOf? ((key, owner) :: seen) k = ownerOf? (earlier ++ [(key, owner)]) k := by
  rw [ownerOf?_cons, ownerOf?_append, ownerOf?_singleton, ← known]
  by_cases same : key = k
  · subst same
    simp [fresh]
  · simp [same]

private theorem ownerOf?_repeat (owner : ω) {first : ω} {k : κ}
    (known : ownerOf? seen k = ownerOf? earlier k) (found : ownerOf? seen key = some first) :
    ownerOf? seen k = ownerOf? (earlier ++ [(key, owner)]) k := by
  rw [ownerOf?_append, ownerOf?_singleton, ← known]
  by_cases same : key = k
  · subst same
    simp [found]
  · simp [same]

end Owners

namespace Tree

variable {report : String → String → String → Violation} {t : Tree}

def collision? (report : String → String → String → Violation) (earlier : List (String × String))
    (entry : String × String) : Option Violation :=
  (ownerOf? earlier entry.1).map (report entry.1 entry.2)

private theorem collisions_eq_judged_from {seen earlier : List (String × String)}
    (known : ∀ name, ownerOf? seen name = ownerOf? earlier name) (l : List (String × String)) :
    collisions report seen l =
      judged (fun before => collision? report (earlier ++ before)) l := by
  induction l generalizing seen earlier with
  | nil => rfl
  | cons entry rest ih =>
    obtain ⟨name, owner⟩ := entry
    rw [collisions, judged_cons, List.append_nil, collision?, ← known]
    cases found : seen.find? (·.1 == name) with
    | some first =>
      have owned : ownerOf? seen name = some first.2 := by rw [ownerOf?, found]; rfl
      dsimp only
      rw [ih fun k => ownerOf?_repeat owner (known k) owned, owned]
      simp only [List.append_assoc, List.singleton_append, Option.map_some, Option.toList_some]
    | none =>
      have fresh : ownerOf? seen name = none := by rw [ownerOf?, found]; rfl
      dsimp only
      rw [ih fun k => ownerOf?_remember owner (known k) fresh, fresh]
      simp only [List.append_assoc, List.singleton_append, Option.map_none, Option.toList_none,
        List.nil_append]

/-- Each name is judged by those before it and by the names that are taken from the start. -/
theorem collisions_eq_judged (taken l : List (String × String)) :
    collisions report taken l = judged (fun before => collision? report (taken ++ before)) l :=
  collisions_eq_judged_from (fun _ => rfl) l

theorem collision?_eq_none_iff (report : String → String → String → Violation)
    (earlier : List (String × String)) (entry : String × String) :
    collision? report earlier entry = none ↔ entry.1 ∉ earlier.map Prod.fst := by
  rw [collision?, Option.map_eq_none_iff, ownerOf?_eq_none_iff]

theorem collisions_eq_nil_iff (taken l : List (String × String)) :
    collisions report taken l = [] ↔
      (∀ entry ∈ l, entry.1 ∉ taken.map Prod.fst) ∧ (l.map Prod.fst).Nodup := by
  rw [collisions_eq_judged]
  refine judged_eq_nil_iff_nodup (fun earlier entry => ?_) l
  rw [collision?_eq_none_iff, List.map_append, List.mem_append, not_or]

/-- The addresses of some endpoints, each with the name of its endpoint. -/
def addressEntries (t : Tree) (ids : List Nat) : List (EndpointId × String) :=
  ids.filterMap fun id => ((t.get? id).bind Entity.endpoint?).map (·, t.fullName id)

/-- The violation of an address: it is the reserved one, or an entry before it has it. -/
def addressViolation? (earlier : List (EndpointId × String)) (entry : EndpointId × String) :
    Option Violation :=
  if entry.1 = hashEndpoint then some (.reservedEndpoint entry.1 entry.2)
  else (ownerOf? earlier entry.1).map (.duplicateEndpoint entry.1 entry.2)

private theorem addressViolations_eq_judged_from {seen earlier : List (EndpointId × String)}
    (known : ∀ a, a ≠ hashEndpoint → ownerOf? seen a = ownerOf? earlier a) (ids : List Nat) :
    t.addressViolations seen ids =
      judged (fun before => addressViolation? (earlier ++ before)) (t.addressEntries ids) := by
  induction ids generalizing seen earlier with
  | nil => rfl
  | cons id rest ih =>
    rw [addressViolations, addressEntries, List.filterMap_cons]
    cases address : (t.get? id).bind Entity.endpoint? with
    | none => exact ih known
    | some a =>
      dsimp only [Option.map_some]
      rw [judged_cons, List.append_nil, addressViolation?]
      by_cases reserved : a = hashEndpoint
      · -- The reserved address is not remembered: an owner of it is never asked for.
        have still (b : EndpointId) (other : b ≠ hashEndpoint) :
            ownerOf? seen b = ownerOf? (earlier ++ [(a, t.fullName id)]) b := by
          have differ : ¬ a = b := fun same => other (same ▸ reserved)
          rw [ownerOf?_append, ownerOf?_singleton, ← known b other]
          simp [differ]
        rw [if_pos reserved, if_pos reserved, Option.toList_some, List.singleton_append, ih still]
        simp only [List.append_assoc, List.singleton_append, addressEntries]
      · rw [if_neg reserved, if_neg reserved, ← known a reserved]
        cases found : seen.find? (·.1 == a) with
        | some first =>
          have owned : ownerOf? seen a = some first.2 := by rw [ownerOf?, found]; rfl
          dsimp only
          rw [ih fun b other => ownerOf?_repeat (t.fullName id) (known b other) owned, owned]
          simp only [List.append_assoc, List.singleton_append, Option.map_some,
            Option.toList_some, addressEntries]
        | none =>
          have fresh : ownerOf? seen a = none := by rw [ownerOf?, found]; rfl
          dsimp only
          rw [ih fun b other => ownerOf?_remember (t.fullName id) (known b other) fresh, fresh]
          simp only [List.append_assoc, List.singleton_append, Option.map_none,
            Option.toList_none, List.nil_append, addressEntries]

theorem endpointViolations_eq_judged (t : Tree) :
    t.endpointViolations = judged addressViolation? (t.addressEntries t.endpoints) :=
  addressViolations_eq_judged_from (fun _ _ => rfl) t.endpoints

theorem addressViolation?_eq_none_iff (earlier : List (EndpointId × String))
    (entry : EndpointId × String) :
    addressViolation? earlier entry = none ↔
      entry.1 ≠ hashEndpoint ∧ entry.1 ∉ earlier.map Prod.fst := by
  rw [addressViolation?]
  by_cases reserved : entry.1 = hashEndpoint
  · simp [reserved]
  · simp only [reserved, if_false, Option.map_eq_none_iff, ownerOf?_eq_none_iff, ne_eq,
      not_false_eq_true, true_and]

theorem endpointViolations_eq_nil_iff (t : Tree) :
    t.endpointViolations = [] ↔
      (∀ entry ∈ t.addressEntries t.endpoints, entry.1 ≠ hashEndpoint) ∧
        ((t.addressEntries t.endpoints).map Prod.fst).Nodup := by
  rw [endpointViolations_eq_judged]
  exact judged_eq_nil_iff_nodup addressViolation?_eq_none_iff _

end Tree

end DeviceLink
