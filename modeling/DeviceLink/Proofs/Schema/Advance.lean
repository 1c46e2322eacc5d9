import DeviceLink.Proofs.Schema.Drafts

/-!
What every part of a build does, with or without a parent and whatever it reads: issues and entities
are only added at the end, the tree stays one that additions lead to, and addresses are given out in
increasing order until they are used up (`advance_buildItem`).
-/

set_option autoImplicit false
set_option relaxedAutoImplicit false

namespace DeviceLink.Schema

open Json (Members)

namespace Progress

/-- One state of a build follows another one. -/
structure Advance (p p' : Progress) : Prop where
  issues : p.issues.toList <+: p'.issues.toList
  ledger : p.tree.ledger <+: p'.tree.ledger
  reachable : p.tree.Reachable → p'.tree.Reachable
  next : p.allocator.next ≤ p'.allocator.next
  bounded : p.allocator.next ≤ Allocator.capacity → p'.allocator.next ≤ Allocator.capacity

namespace Advance

theorem refl (p : Progress) : p.Advance p :=
  ⟨List.prefix_refl _, List.prefix_refl _, id, Nat.le_refl _, id⟩

theorem trans {p p' p'' : Progress} (h : p.Advance p') (h' : p'.Advance p'') : p.Advance p'' :=
  ⟨h.issues.trans h'.issues, h.ledger.trans h'.ledger, h'.reachable ∘ h.reachable,
    Nat.le_trans h.next h'.next, h'.bounded ∘ h.bounded⟩

theorem clean {p p' : Progress} (h : p.Advance p') (spotless : p'.issues = #[]) : p.issues = #[] := by
  have before := h.issues
  rw [spotless, List.prefix_nil] at before
  exact Array.toList_eq_nil_iff.mp before

end Advance

@[simp] theorem report_nil (p : Progress) : p.report [] = p := by
  obtain ⟨tree, allocator, issues⟩ := p
  simp [report]

theorem issues_report_eq_empty {p : Progress} {issues : List Issue} :
    (p.report issues).issues = #[] ↔ p.issues = #[] ∧ issues = [] := by
  simp [report]

theorem advance_report (p : Progress) (issues : List Issue) : p.Advance (p.report issues) := by
  refine ⟨?_, List.prefix_refl _, id, Nat.le_refl _, id⟩
  rw [report, Array.toList_append]
  exact List.prefix_append _ _

theorem add_of_accepted {p : Progress} {q : Nat} {e : Entity} {path : String}
    (accepted : p.tree.refusal? q e.name = none) :
    p.add q e path = (some p.tree.size, { p with tree := p.tree.attach q e }) := by
  obtain ⟨tree, allocator, issues⟩ := p
  simp only [add, accepted]

theorem add_of_refused {p : Progress} {q : Nat} {e : Entity} {path : String} {error : AddError}
    (refused : p.tree.refusal? q e.name = some error) :
    p.add q e path = (none, p.report [⟨path, problemOf e.name error⟩]) := by
  simp only [add, refused]

theorem advance_add (p : Progress) (q : Nat) (e : Entity) (path : String) :
    p.Advance (p.add q e path).2 := by
  cases answer : p.tree.refusal? q e.name with
  | some error =>
    rw [add_of_refused answer]
    exact p.advance_report _
  | none =>
    rw [add_of_accepted answer]
    refine ⟨List.prefix_refl _, ?_, fun h => h.attach answer, Nat.le_refl _, id⟩
    rw [Tree.ledger_attach]
    exact List.prefix_append _ _

theorem advance_addDraft (p : Progress) (parent : Option Nat) (named : Bool) (info : Info)
    (draft : Draft) (path : String) : p.Advance (p.addDraft parent named info draft path) := by
  rw [addDraft, Allocator.take]
  by_cases left : p.allocator.next < Allocator.capacity
  · have taken : p.Advance { p with allocator := ⟨p.allocator.next + 1⟩ } :=
      ⟨List.prefix_refl _, List.prefix_refl _, id, Nat.le_succ _, fun _ => left⟩
    rw [if_pos left]
    cases parent with
    | none => exact taken
    | some q =>
      cases named with
      | false => exact taken
      | true => exact taken.trans (advance_add _ q _ path)
  · rw [if_neg left]
    exact p.advance_report _

end Progress

variable {p : Progress} {parent : Option Nat} {path : String} {index : Nat} {members : Members}

def pathOf (parentPath : String) (index : Nat) (members : Members) : String :=
  match text? members "name" with
  | some name => joinPath parentPath name
  | none => itemPath parentPath index

def headerIssues (parentPath : String) (index : Nat) (members : Members) : List Issue :=
  (readName members (itemPath parentPath index)).issues ++
    (readInfo members ((text? members "name").getD "") (pathOf parentPath index members)).issues

theorem headerIssues_eq_nil_iff : headerIssues path index members = [] ↔ Header members :=
  issues_header _ _

theorem buildItem_of_members?_eq_none {item : Json} (h : item.members? = none) :
    buildItem p parent path index item =
      p.report [⟨itemPath path index, .invalidField "remote_attributes" "a list of mappings"⟩] := by
  cases item with
  | object members => cases h
  | null | bool | integer | real | string | array =>
    rw [buildItem]
    simp

theorem buildItem_container {children : Json}
    (found : Members.get? members "remote_attributes" = some children) :
    buildItem p parent path index (.object members) =
      match parent, text? members "name" with
      | some q, some name =>
        let added := (p.report (headerIssues path index members)).add q
          ⟨infoOf members name, .node []⟩ (pathOf path index members)
        buildChildren added.2 added.1 (pathOf path index members) children
      | _, _ =>
        buildChildren (p.report (headerIssues path index members)) none
          (pathOf path index members) children := by
  rw [buildItem]
  simp only [value_readName, value_readInfo]
  split
  · rename_i value stored
    obtain rfl := Option.some.inj (stored.symm.trans found)
    cases parent <;> cases named : text? members "name" <;>
      simp only [headerIssues, pathOf, named, Option.getD_some, Option.getD_none]
  · rename_i missing
    simp [missing] at found

theorem buildItem_endpoint (leaf : Members.get? members "remote_attributes" = none) :
    buildItem p parent path index (.object members) =
      let draft := readDraft members (pathOf path index members)
      let p := (p.report (headerIssues path index members)).report draft.issues
      draft.value.elim p fun draft =>
        p.addDraft parent (text? members "name").isSome
          (infoOf members ((text? members "name").getD "")) draft (pathOf path index members) := by
  rw [buildItem]
  simp only [value_readName, value_readInfo]
  split
  · rename_i value stored
    simp [stored] at leaf
  · cases named : text? members "name" with
    | none =>
      simp only [headerIssues, pathOf, named, Option.getD_none]
      cases (readDraft members (itemPath path index)).value <;> rfl
    | some name =>
      simp only [headerIssues, pathOf, named, Option.getD_some]
      cases (readDraft members (joinPath path name)).value <;> rfl

private theorem advance_items {items : List Json}
    (each : ∀ item ∈ items, ∀ (p : Progress) (parent : Option Nat) (path : String) (index : Nat),
      p.Advance (buildItem p parent path index item)) :
    p.Advance (buildItems p parent path index items) := by
  induction items generalizing p index with
  | nil =>
    rw [buildItems]
    exact .refl p
  | cons item rest ih =>
    rw [buildItems]
    exact (each item (by simp) p parent path index).trans
      (ih fun item inside => each item (by simp [inside]))

private theorem advance_children {children : Json}
    (each : ∀ items, children = .array items → ∀ item ∈ items,
      ∀ (p : Progress) (parent : Option Nat) (path : String) (index : Nat),
        p.Advance (buildItem p parent path index item)) :
    p.Advance (buildChildren p parent path children) := by
  cases children with
  | array items =>
    rw [buildChildren]
    exact advance_items (each items rfl)
  | null | bool | integer | real | string | object =>
    rw [buildChildren]
    · exact p.advance_report _
    · simp

/-- A build only goes forward, whatever the item is. -/
theorem advance_buildItem (item : Json) (p : Progress) (parent : Option Nat) (path : String)
    (index : Nat) : p.Advance (buildItem p parent path index item) := by
  induction item using document_induction generalizing p parent path index with
  | other item missing =>
    rw [buildItem_of_members?_eq_none missing]
    exact p.advance_report _
  | object members ih =>
    have headed := p.advance_report (headerIssues path index members)
    cases found : Members.get? members "remote_attributes" with
    | some children =>
      have deeper (p : Progress) (parent : Option Nat) (path : String) :
          p.Advance (buildChildren p parent path children) :=
        advance_children fun items same item inside p parent path index =>
          ih items (same ▸ found) item inside p parent path index
      rw [buildItem_container found]
      split
      · exact (headed.trans (Progress.advance_add _ _ _ _)).trans (deeper _ _ _)
      · exact headed.trans (deeper _ _ _)
    | none =>
      rw [buildItem_endpoint found]
      dsimp only
      have read := headed.trans
        (Progress.advance_report _ (readDraft members (pathOf path index members)).issues)
      cases (readDraft members (pathOf path index members)).value with
      | none => exact read
      | some draft => exact read.trans (Progress.advance_addDraft _ _ _ _ _ _)

theorem advance_buildItems (items : List Json) (p : Progress) (parent : Option Nat) (path : String)
    (index : Nat) : p.Advance (buildItems p parent path index items) :=
  advance_items fun item _ => advance_buildItem item

theorem advance_buildChildren (children : Json) (p : Progress) (parent : Option Nat)
    (path : String) : p.Advance (buildChildren p parent path children) :=
  advance_children fun _ _ item _ => advance_buildItem item

end DeviceLink.Schema
