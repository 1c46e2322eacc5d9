import DeviceLink.Proofs.Schema.Advance
import DeviceLink.Proofs.Schema.FaultyDrafts

/-!
What becomes of the objects of a document, faulty or not. An object is skipped, refused because its
name is taken, added, or dropped for want of an address (`Outcome`); from this follows which names
are taken under a node after its children (`mem_childNames_buildItems_iff`) and which duplicates are
reported on the way (`Outcome.duplicate_mem_iff`).
-/

set_option autoImplicit false
set_option relaxedAutoImplicit false

namespace DeviceLink.Schema

open Json (Members)

/-- An object that takes its name among its siblings if the name is free: a container, or an
endpoint whose fields give one. -/
inductive Offers : Json → String → Prop
  | container {members : Members} {name : String} : text? members "name" = some name →
      isContainer members = true → Offers (.object members) name
  | endpoint {members : Members} {name : String} : text? members "name" = some name →
      isContainer members = false → Complete members → Offers (.object members) name

/-- No address was missing so far. -/
def Progress.Room (p : Progress) : Prop :=
  ∀ issue ∈ p.issues.toList, issue.problem ≠ .tooManyEndpoints

/-- A state in which the children of a container can be built. -/
structure Progress.Standing (p : Progress) (parent : Option Nat) : Prop where
  reachable : p.tree.Reachable
  holds : ∀ q, parent = some q → p.tree.HoldsNode q

/-- What becomes of an object with some issues of its own: it is not added, or refused because its
name is taken, or added, or there is no address for it. -/
inductive Outcome (p : Progress) (parent : Option Nat) (path : String) (members : Members)
    (own : List Issue) : Option Nat → Progress → Prop
  | skipped {p' : Progress} : (∀ q, parent = some q → ∀ name, ¬ Offers (.object members) name) →
      p'.tree = p.tree → p'.issues.toList = p.issues.toList ++ own →
      Outcome p parent path members own none p'
  | refused {p' : Progress} {q : Nat} {name : String} : parent = some q →
      Offers (.object members) name → name ∈ p.tree.childNames q → p'.tree = p.tree →
      p'.issues.toList = p.issues.toList ++ own ++ [⟨joinPath path name, .duplicateName name⟩] →
      Outcome p parent path members own none p'
  | added {p' : Progress} {q : Nat} {e : Entity} : parent = some q →
      Offers (.object members) e.name → e.name ∉ p.tree.childNames q →
      (isContainer members = true → e.isNode = true) →
      p'.tree = p.tree.attach q e → p'.issues.toList = p.issues.toList ++ own →
      Outcome p parent path members own (some p.tree.size) p'
  | full {p' : Progress} : p'.tree = p.tree → ¬ p'.Room → Outcome p parent path members own none p'

/-- An object repeats a name that is taken under its parent. -/
def Again (p : Progress) (parent : Option Nat) (item : Json) (name : String) : Prop :=
  ∃ q, parent = some q ∧ Offers item name ∧ name ∈ p.tree.childNames q

variable {p p' : Progress} {parent id : Option Nat} {q r : Nat} {path place name other : String}
  {index : Nat} {members : Members} {item children : Json} {own : List Issue}

private theorem Offers.name_eq (h : Offers item name) : nameOf? item = some name := by
  cases h with
  | container named => exact named
  | endpoint named => exact named

theorem Offers.unique (h : Offers item name) (h' : Offers item other) : name = other :=
  Option.some.inj (h.name_eq.symm.trans h'.name_eq)

private theorem Offers.pathOf_eq (h : Offers (.object members) name) :
    pathOf path index members = joinPath path name := by
  have named : text? members "name" = some name := h.name_eq
  rw [pathOf, named]

theorem isContainer_of_get? (found : Members.get? members "remote_attributes" = some children) :
    isContainer members = true := by
  rw [isContainer, found, Option.isSome_some]

theorem isContainer_eq_false_iff :
    isContainer members = false ↔ Members.get? members "remote_attributes" = none := by
  rw [isContainer, Option.isSome_eq_false_iff, Option.isNone_iff_eq_none]

namespace Progress

theorem Advance.room (h : p.Advance p') (room : p'.Room) : p.Room :=
  fun issue inside => room issue (h.issues.subset inside)

private theorem Advance.size_le (h : p.Advance p') : p.tree.size ≤ p'.tree.size := by
  simpa only [Tree.length_ledger] using h.ledger.length_le

theorem Standing.advance (h : p.Standing parent) (forward : p.Advance p') : p'.Standing parent :=
  ⟨forward.reachable h.reachable,
    fun q around => Tree.HoldsNode.of_prefix forward.ledger (h.holds q around)⟩

theorem duplicate_mem_report_iff {issues : List Issue} :
    ⟨place, .duplicateName name⟩ ∈ (p.report issues).issues.toList ↔
      ⟨place, .duplicateName name⟩ ∈ p.issues.toList ∨ ⟨place, .duplicateName name⟩ ∈ issues := by
  simp [report]

end Progress

/-! What an outcome changes. -/

namespace Outcome

private theorem of_reported {p₁ : Progress} (h : Outcome p₁ parent path members [] id p')
    (tree : p₁.tree = p.tree) (issues : p₁.issues.toList = p.issues.toList ++ own) :
    Outcome p parent path members own id p' := by
  cases h with
  | skipped silent same later =>
    exact .skipped silent (same.trans tree) (by rw [later, issues, List.append_nil])
  | refused around offers taken same later =>
    exact .refused around offers (tree ▸ taken) (same.trans tree)
      (by rw [later, issues, List.append_nil])
  | added around offers free node same later =>
    rw [tree]
    exact .added around offers (tree ▸ free) node (by rw [same, tree])
      (by rw [later, issues, List.append_nil])
  | full same crowded => exact .full (same.trans tree) crowded

private theorem childNames_of_ne (h : Outcome p parent path members own id p')
    (standing : p.Standing parent) (elsewhere : parent ≠ some r) :
    p'.tree.childNames r = p.tree.childNames r := by
  cases h with
  | skipped _ same | refused _ _ _ same | full same => rw [same]
  | @added _ q e around _ _ _ same =>
    have other : r ≠ q := fun here => elsewhere (here ▸ around)
    rw [same, standing.reachable.sound.childNames_attach (standing.holds q around), if_neg other]

private theorem mem_childNames_iff (h : Outcome p (some q) path members own id p')
    (standing : p.Standing (some q)) (room : p'.Room) (name : String) :
    name ∈ p'.tree.childNames q ↔
      name ∈ p.tree.childNames q ∨ Offers (.object members) name := by
  cases h with
  | skipped silent same => simp [same, silent q rfl]
  | full same crowded => exact absurd room crowded
  | @refused _ _ other around offers taken same =>
    obtain rfl := Option.some.inj around
    rw [same]
    refine (or_iff_left_of_imp fun again => ?_).symm
    rwa [again.unique offers]
  | @added _ _ e around offers free node same =>
    obtain rfl := Option.some.inj around
    have single : name = e.name ↔ Offers (.object members) name :=
      ⟨fun same => same ▸ offers, fun again => again.unique offers⟩
    rw [same, standing.reachable.sound.childNames_attach (standing.holds q rfl), if_pos rfl,
      List.mem_append, List.mem_singleton, single]

/-- Behind the object's own issues there is a report exactly when it repeats a name. -/
theorem duplicate_mem_iff (h : Outcome p parent path members own id p') (room : p'.Room) :
    ⟨place, .duplicateName name⟩ ∈ p'.issues.toList ↔
      ⟨place, .duplicateName name⟩ ∈ p.issues.toList ∨ ⟨place, .duplicateName name⟩ ∈ own ∨
        place = joinPath path name ∧ Again p parent (.object members) name := by
  rw [← or_assoc, ← List.mem_append]
  cases h with
  | skipped silent same later =>
    have first : ¬ Again p parent (.object members) name :=
      fun ⟨q, around, offers, _⟩ => silent q around _ offers
    simp [later, first]
  | full same crowded => exact absurd room crowded
  | @refused _ q other around offers taken same later =>
    rw [later, List.mem_append, List.mem_singleton, Issue.mk.injEq, Problem.duplicateName.injEq]
    refine or_congr_right ⟨?_, ?_⟩
    · rintro ⟨rfl, rfl⟩
      exact ⟨rfl, q, around, offers, taken⟩
    · rintro ⟨rfl, -, -, offers', -⟩
      obtain rfl := offers'.unique offers
      exact ⟨rfl, rfl⟩
  | @added _ q e around offers free node same later =>
    have first : ¬ Again p parent (.object members) name := by
      rintro ⟨q', around', offers', taken⟩
      obtain rfl := Option.some.inj (around'.symm.trans around)
      obtain rfl := offers'.unique offers
      exact free taken
    simp [later, first]

theorem isSome (h : Outcome p (some q) path members own id p') (room : p'.Room)
    (offers : Offers (.object members) name) (free : name ∉ p.tree.childNames q) :
    ∃ r, id = some r := by
  cases h with
  | added => exact ⟨_, rfl⟩
  | full _ crowded => exact absurd room crowded
  | skipped silent => exact absurd offers (silent q rfl name)
  | refused around offers' taken =>
    obtain rfl := Option.some.inj around
    obtain rfl := offers'.unique offers
    exact absurd taken free

private theorem opened (h : Outcome p parent path members own (some r) p')
    (standing : p.Standing parent) (kind : isContainer members = true) :
    r = p.tree.size ∧ p'.tree.HoldsNode r ∧ p'.tree.childNames r = [] ∧
      ∃ q name, parent = some q ∧ text? members "name" = some name ∧
        name ∉ p.tree.childNames q := by
  cases h with
  | @added _ q e around offers free node same =>
    have holds := standing.holds q around
    have beyond : p.tree.children p.tree.size = [] := Tree.children_of_size_le (Nat.le_refl _)
    refine ⟨rfl, ?_, ?_, q, e.name, around, offers.name_eq, free⟩
    · rw [same]
      exact Tree.holdsNode_attach_size _ _ (node kind)
    · rw [same, standing.reachable.sound.childNames_attach holds,
        if_neg (Nat.ne_of_gt holds.lt_size), Tree.childNames, beyond, List.map_nil]

end Outcome

/-! The outcome for each kind of object. -/

private theorem refusal?_of_holdsNode {t : Tree} (holds : t.HoldsNode q) (name : String) :
    (name ∉ t.childNames q ∧ t.refusal? q name = none) ∨
      (name ∈ t.childNames q ∧ ∃ error, t.refusal? q name = some error ∧
        Progress.problemOf name error = .duplicateName name) := by
  by_cases taken : name ∈ t.childNames q
  · refine Or.inr ⟨taken, ?_⟩
    obtain ⟨e, found, node⟩ := holds
    have known : (t.child? q name).isSome = true := by
      rw [Option.isSome_iff_ne_none, ne_eq, Tree.child?_eq_none_iff, not_not]
      exact taken
    exact ⟨.duplicateName (t.displayPath q) name, by simp [Tree.refusal?, found, node, known], rfl⟩
  · exact Or.inl ⟨taken, (Tree.refusal?_eq_none_iff t q name).mpr ⟨holds, taken⟩⟩

private theorem outcome_add {e : Entity} (holds : p.tree.HoldsNode q)
    (offers : Offers (.object members) e.name)
    (node : isContainer members = true → e.isNode = true) :
    Outcome p (some q) path members [] (p.add q e (joinPath path e.name)).1
      (p.add q e (joinPath path e.name)).2 := by
  rcases refusal?_of_holdsNode holds e.name with ⟨free, accepted⟩ | ⟨taken, error, refused, problem⟩
  · rw [Progress.add_of_accepted accepted]
    exact .added rfl offers free node rfl (List.append_nil _).symm
  · rw [Progress.add_of_refused refused, problem]
    exact .refused rfl offers taken rfl (by simp [Progress.report])

def enter (p : Progress) (parent : Option Nat) (path : String) (index : Nat) (members : Members) :
    Option Nat × Progress :=
  match parent, text? members "name" with
  | some q, some name =>
    (p.report (headerIssues path index members)).add q ⟨infoOf members name, .node []⟩
      (pathOf path index members)
  | _, _ => (none, p.report (headerIssues path index members))

theorem buildItem_enter (found : Members.get? members "remote_attributes" = some children) :
    buildItem p parent path index (.object members) =
      buildChildren (enter p parent path index members).2 (enter p parent path index members).1
        (pathOf path index members) children := by
  rw [buildItem_container found]
  unfold enter
  cases parent with
  | none => rfl
  | some q => cases text? members "name" <;> rfl

private theorem advance_enter : p.Advance (enter p parent path index members).2 := by
  have headed := p.advance_report (headerIssues path index members)
  unfold enter
  split
  · exact headed.trans (Progress.advance_add _ _ _ _)
  · exact headed

theorem outcome_enter (path : String) (index : Nat) (standing : p.Standing parent)
    (found : Members.get? members "remote_attributes" = some children) :
    Outcome p parent path members (headerIssues path index members)
      (enter p parent path index members).1 (enter p parent path index members).2 := by
  have headed : (p.report (headerIssues path index members)).issues.toList =
      p.issues.toList ++ headerIssues path index members := by simp [Progress.report]
  unfold enter
  split
  · rename_i q name named
    have offers : Offers (.object members) name := .container named (isContainer_of_get? found)
    rw [offers.pathOf_eq]
    exact (outcome_add (p := p.report (headerIssues path index members))
      (e := ⟨infoOf members name, .node []⟩) (standing.holds q rfl) offers fun _ => rfl).of_reported
      rfl headed
  · rename_i nameless
    refine .skipped (fun q around name offers => ?_) rfl headed
    exact nameless q name around offers.name_eq

def leafIssues (path : String) (index : Nat) (members : Members) : List Issue :=
  headerIssues path index members ++ (readDraft members (pathOf path index members)).issues

theorem duplicate_not_mem_headerIssues :
    ⟨place, .duplicateName name⟩ ∉ headerIssues path index members := by
  simp [headerIssues, duplicate_not_mem_readName, duplicate_not_mem_readInfo]

theorem duplicate_mem_leafIssues_iff :
    ⟨place, .duplicateName name⟩ ∈ leafIssues path index members ↔
      place = joinPath (pathOf path index members) name ∧
        (RepeatsMember members name ∨ RepeatsArgument members name) := by
  rw [leafIssues, List.mem_append, or_iff_right duplicate_not_mem_headerIssues,
    duplicate_mem_readDraft_iff]

theorem outcome_leaf (path : String) (index : Nat) (standing : p.Standing parent)
    (leaf : Members.get? members "remote_attributes" = none) :
    ∃ id, Outcome p parent path members (leafIssues path index members) id
      (buildItem p parent path index (.object members)) := by
  have kind : isContainer members = false := isContainer_eq_false_iff.mpr leaf
  rw [buildItem_endpoint leaf]
  dsimp only
  generalize read : (p.report (headerIssues path index members)).report
    (readDraft members (pathOf path index members)).issues = p₁
  have tree : p₁.tree = p.tree := by rw [← read]; rfl
  have issues : p₁.issues.toList = p.issues.toList ++ leafIssues path index members := by
    simp [← read, Progress.report, leafIssues]
  have complete := isSome_readDraft_iff members (pathOf path index members)
  cases given : (readDraft members (pathOf path index members)).value with
  | none =>
    rw [given, Option.isSome_none, Bool.false_eq_true, false_iff] at complete
    refine ⟨none, .skipped (fun q around name offers => ?_) tree issues⟩
    cases offers with
    | container _ other => simp [kind] at other
    | endpoint _ _ whole => exact complete whole
  | some draft =>
    have whole : Complete members := complete.mp (by rw [given]; rfl)
    simp only [Option.elim_some, Progress.addDraft, Allocator.take]
    by_cases left : p₁.allocator.next < Allocator.capacity
    · simp only [if_pos left]
      cases parent with
      | none => exact ⟨none, .skipped (by simp) tree issues⟩
      | some q =>
        cases named : text? members "name" with
        | none =>
          refine ⟨none, .skipped (fun q around name offers => ?_) tree issues⟩
          cases named.symm.trans offers.name_eq
        | some name =>
          have offers : Offers (.object members) name := .endpoint named kind whole
          have vacuous : isContainer members = true →
              Entity.isNode ⟨infoOf members name, draft (UInt16.ofNat p₁.allocator.next)⟩ =
                true := by
            simp [kind]
          rw [offers.pathOf_eq]
          exact ⟨_, (outcome_add (p := { p₁ with allocator := ⟨p₁.allocator.next + 1⟩ })
            (tree ▸ standing.holds q rfl) offers vacuous).of_reported tree issues⟩
    · rw [if_neg left]
      refine ⟨none, .full tree fun room => ?_⟩
      exact room ⟨pathOf path index members, .tooManyEndpoints⟩ (by simp [Progress.report]) rfl

/-! The names under one node. -/

theorem opened_of_enter (standing : p.Standing parent)
    (found : Members.get? members "remote_attributes" = some children)
    (inside : (enter p parent path index members).1 = some r) :
    r = p.tree.size ∧ (enter p parent path index members).2.tree.HoldsNode r ∧
      (enter p parent path index members).2.tree.childNames r = [] ∧
      ∃ q name, parent = some q ∧ text? members "name" = some name ∧
        name ∉ p.tree.childNames q := by
  have outcome := outcome_enter path index standing found
  rw [inside] at outcome
  exact outcome.opened standing (isContainer_of_get? found)

theorem standing_enter (standing : p.Standing parent)
    (found : Members.get? members "remote_attributes" = some children) :
    (enter p parent path index members).2.Standing (enter p parent path index members).1 :=
  ⟨advance_enter.reachable standing.reachable,
    fun _ inside => (opened_of_enter standing found inside).2.1⟩

private theorem enter_ne_some (standing : p.Standing parent)
    (found : Members.get? members "remote_attributes" = some children) (inside : r < p.tree.size) :
    (enter p parent path index members).1 ≠ some r :=
  fun here => Nat.ne_of_lt inside (opened_of_enter standing found here).1

/-- The build of an item leaves the names under other nodes as they are. -/
def SparesOthers (item : Json) : Prop :=
  ∀ (p : Progress) (parent : Option Nat) (path : String) (index : Nat), p.Standing parent →
    ∀ r < p.tree.size, parent ≠ some r →
      (buildItem p parent path index item).tree.childNames r = p.tree.childNames r

private theorem sparesOthers_items {items : List Json} (each : ∀ item ∈ items, SparesOthers item)
    (standing : p.Standing parent) (inside : r < p.tree.size) (elsewhere : parent ≠ some r) :
    (buildItems p parent path index items).tree.childNames r = p.tree.childNames r := by
  induction items generalizing p index with
  | nil => rw [buildItems]
  | cons item rest ih =>
    have forward := advance_buildItem item p parent path index
    rw [buildItems, ih (fun i later => each i (List.mem_cons_of_mem _ later))
      (standing.advance forward) (Nat.lt_of_lt_of_le inside forward.size_le)]
    exact each item List.mem_cons_self p parent path index standing r inside elsewhere

private theorem sparesOthers_children
    (each : ∀ items, children = .array items → ∀ item ∈ items, SparesOthers item)
    (standing : p.Standing parent) (inside : r < p.tree.size) (elsewhere : parent ≠ some r) :
    (buildChildren p parent path children).tree.childNames r = p.tree.childNames r := by
  cases children with
  | array items =>
    rw [buildChildren]
    exact sparesOthers_items (each items rfl) standing inside elsewhere
  | null | bool | integer | real | string | object =>
    rw [buildChildren]
    · rfl
    · simp

private theorem sparesOthers (item : Json) : SparesOthers item := by
  induction item using document_induction with
  | other item missing =>
    intro p parent path index _ r _ _
    rw [buildItem_of_members?_eq_none missing]
    rfl
  | object members ih =>
    intro p parent path index standing r inside elsewhere
    cases found : Members.get? members "remote_attributes" with
    | some children =>
      have before := (outcome_enter path index standing found).childNames_of_ne standing elsewhere
      rw [buildItem_enter found, ← before]
      exact sparesOthers_children (fun items same => ih items (same ▸ found))
        (standing_enter standing found) (Nat.lt_of_lt_of_le inside advance_enter.size_le)
        (enter_ne_some standing found inside)
    | none =>
      obtain ⟨id, outcome⟩ := outcome_leaf path index standing found
      exact outcome.childNames_of_ne standing elsewhere

private theorem mem_childNames_buildItem_iff (standing : p.Standing (some q))
    (room : (buildItem p (some q) path index item).Room) :
    name ∈ (buildItem p (some q) path index item).tree.childNames q ↔
      name ∈ p.tree.childNames q ∨ Offers item name := by
  have inside := (standing.holds q rfl).lt_size
  cases item with
  | null | bool | integer | real | string | array =>
    rw [buildItem_of_members?_eq_none rfl, or_iff_left nofun]
    rfl
  | object members =>
    cases found : Members.get? members "remote_attributes" with
    | some children =>
      have forward := advance_buildChildren children (enter p (some q) path index members).2
        (enter p (some q) path index members).1 (pathOf path index members)
      rw [buildItem_enter found] at room ⊢
      rw [sparesOthers_children (fun _ _ item _ => sparesOthers item)
          (standing_enter standing found) (Nat.lt_of_lt_of_le inside advance_enter.size_le)
          (enter_ne_some standing found inside),
        (outcome_enter path index standing found).mem_childNames_iff standing (forward.room room)]
    | none =>
      obtain ⟨id, outcome⟩ := outcome_leaf path index standing found
      exact outcome.mem_childNames_iff standing room name

theorem mem_childNames_buildItems_iff {items : List Json} (standing : p.Standing (some q))
    (room : (buildItems p (some q) path index items).Room) :
    name ∈ (buildItems p (some q) path index items).tree.childNames q ↔
      name ∈ p.tree.childNames q ∨ ∃ item ∈ items, Offers item name := by
  induction items generalizing p index with
  | nil => simp [buildItems]
  | cons item rest ih =>
    rw [buildItems] at room ⊢
    have first := (advance_buildItems rest _ (some q) path (index + 1)).room room
    rw [ih (standing.advance (advance_buildItem item p (some q) path index)) room,
      mem_childNames_buildItem_iff standing first, List.exists_mem_cons_iff, or_assoc]

theorem duplicate_mem_of_again (standing : p.Standing parent)
    (room : (buildItem p parent path index item).Room) (again : Again p parent item name) :
    ⟨joinPath path name, .duplicateName name⟩ ∈
      (buildItem p parent path index item).issues.toList := by
  obtain ⟨-, -, offers, -⟩ := id again
  obtain ⟨members, rfl⟩ : ∃ members, item = .object members := by cases offers <;> exact ⟨_, rfl⟩
  cases found : Members.get? members "remote_attributes" with
  | some children =>
    rw [buildItem_enter found] at room ⊢
    have forward := advance_buildChildren children (enter p parent path index members).2
      (enter p parent path index members).1 (pathOf path index members)
    refine forward.issues.subset ?_
    rw [(outcome_enter path index standing found).duplicate_mem_iff (forward.room room)]
    exact Or.inr (Or.inr ⟨rfl, again⟩)
  | none =>
    obtain ⟨id, outcome⟩ := outcome_leaf path index standing found
    exact (outcome.duplicate_mem_iff room).mpr (Or.inr (Or.inr ⟨rfl, again⟩))

theorem duplicate_mem_of_leaf (standing : p.Standing parent) (kind : isContainer members = false)
    (room : (buildItem p parent path index (.object members)).Room)
    (repeated : RepeatsMember members name ∨ RepeatsArgument members name) :
    ⟨joinPath (pathOf path index members) name, .duplicateName name⟩ ∈
      (buildItem p parent path index (.object members)).issues.toList := by
  obtain ⟨id, outcome⟩ := outcome_leaf path index standing (isContainer_eq_false_iff.mp kind)
  refine (outcome.duplicate_mem_iff room).mpr (Or.inr (Or.inl ?_))
  exact duplicate_mem_leafIssues_iff.mpr ⟨rfl, repeated⟩

end DeviceLink.Schema
