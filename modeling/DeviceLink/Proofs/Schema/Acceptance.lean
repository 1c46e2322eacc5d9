import DeviceLink.Proofs.Lists
import DeviceLink.Proofs.Schema.Growth
import DeviceLink.Proofs.Tree.Endpoints

/-!
Which documents are accepted. An item whose build leaves no issue is well formed, and there was room
for its objects (`wellFormed_of_clean`); so a document is accepted exactly when it is a schema, and
then its tree has what the document says (`built_of_build`).
-/

set_option autoImplicit false
set_option relaxedAutoImplicit false

namespace DeviceLink.Schema

open Json (Members)
open Progress (Grown Ready)

variable {members : Members} {p : Progress} {q : Nat} {path : String} {index : Nat}

/-- A build without issues has read a well-formed item that there was room for. -/
def CleanOnlyIfWellFormed (item : Json) : Prop :=
  ∀ (p : Progress) (q : Nat) (path : String) (index : Nat), p.tree.Reachable →
    p.tree.HoldsNode q → p.allocator.next ≤ Allocator.capacity →
    (buildItem p (some q) path index item).issues = #[] →
    WellFormed item ∧ p.Ready q (occurrences (some q) p.tree.size item) (nameOf? item).toList

private theorem WellFormed.exists_nameOf? {item : Json} (h : WellFormed item) :
    ∃ name, nameOf? item = some name := by
  cases h with
  | container header => exact header.exists_text?
  | endpoint header => exact header.exists_text?

private theorem wellFormed_of_clean_items {items : List Json}
    (each : ∀ item ∈ items, CleanOnlyIfWellFormed item) (reachable : p.tree.Reachable)
    (holds : p.tree.HoldsNode q) (bounded : p.allocator.next ≤ Allocator.capacity)
    (clean : (buildItems p (some q) path index items).issues = #[]) :
    (∀ item ∈ items, WellFormed item) ∧ (items.map nameOf?).Nodup ∧
      p.Ready q (itemOccurrences q p.tree.size items) (items.filterMap nameOf?) := by
  induction items generalizing p index with
  | nil =>
    refine ⟨by simp, by simp, reachable, holds, by simp, ?_⟩
    simpa [itemOccurrences, endpointCount] using bounded
  | cons item rest ih =>
    rw [buildItems] at clean
    have before := (advance_buildItems rest _ (some q) path (index + 1)).clean clean
    obtain ⟨formed, ready⟩ := each item (by simp) p q path index reachable holds bounded before
    -- What the first item has added is known by now: its name is taken for the others.
    have grown := grown_of_wellFormed formed p q path index ready
    obtain ⟨others, distinct, later⟩ := ih (fun item inside => each item (by simp [inside]))
      (grown.advance.reachable reachable) (holds.of_prefix grown.advance.ledger)
      (grown.advance.bounded bounded) clean
    obtain ⟨name, named⟩ := formed.exists_nameOf?
    have listed : (item :: rest).filterMap nameOf? = name :: rest.filterMap nameOf? := by
      rw [List.filterMap_cons, named]
    have taken := grown.childNames q holds.lt_size
    rw [if_pos rfl, named, Option.toList_some] at taken
    refine ⟨List.forall_mem_cons.mpr ⟨formed, others⟩, ?_, reachable, holds, ?_, ?_⟩
    · rw [List.map_cons, List.nodup_cons]
      refine ⟨fun again => ?_, distinct⟩
      obtain ⟨other, inside, same⟩ := List.mem_map.mp again
      have repeated : name ∈ rest.filterMap nameOf? :=
        List.mem_filterMap.mpr ⟨other, inside, same.trans named⟩
      refine later.fresh name repeated ?_
      rw [taken]
      exact List.mem_append_right _ List.mem_cons_self
    · rw [listed]
      refine List.forall_mem_cons.mpr ⟨ready.fresh name (by simp [named]), ?_⟩
      intro other inside old
      refine later.fresh other inside ?_
      rw [taken]
      exact List.mem_append_left _ old
    · have room := later.room
      rw [grown.next, grown.size] at room
      rw [itemOccurrences, endpointCount_append]
      omega

private theorem array_of_clean {parent : Option Nat} {children : Json}
    (clean : (buildChildren p parent path children).issues = #[]) :
    ∃ items, children = .array items := by
  cases children with
  | array items => exact ⟨items, rfl⟩
  | null | bool | integer | real | string | object =>
    rw [buildChildren, Progress.issues_report_eq_empty] at clean
    · cases clean.2
    · simp

private theorem container_of_clean {children : Json}
    (found : Members.get? members "remote_attributes" = some children)
    (clean : (buildItem p (some q) path index (.object members)).issues = #[]) :
    ∃ name items, Header members ∧ text? members "name" = some name ∧ children = .array items ∧
      p.tree.refusal? q name = none ∧
      (buildItems { p with tree := p.tree.attach q ⟨infoOf members name, .node []⟩ }
        (some p.tree.size) (pathOf path index members) 0 items).issues = #[] := by
  rw [buildItem_container found] at clean
  have headed : (p.report (headerIssues path index members)).issues = #[] := by
    split at clean
    · exact ((Progress.advance_add _ _ _ _).trans (advance_buildChildren _ _ _ _)).clean clean
    · exact (advance_buildChildren _ _ _ _).clean clean
  obtain ⟨-, fine⟩ := Progress.issues_report_eq_empty.mp headed
  have header := headerIssues_eq_nil_iff.mp fine
  obtain ⟨name, named⟩ := header.exists_text?
  rw [named, fine, Progress.report_nil] at clean
  dsimp only at clean
  cases answer : p.tree.refusal? q name with
  | some error =>
    rw [Progress.add_of_refused (e := ⟨infoOf members name, .node []⟩) answer] at clean
    have refused := (advance_buildChildren _ _ _ _).clean clean
    cases (Progress.issues_report_eq_empty.mp refused).2
  | none =>
    rw [Progress.add_of_accepted (e := ⟨infoOf members name, .node []⟩) answer] at clean
    obtain ⟨items, rfl⟩ := array_of_clean clean
    rw [buildChildren] at clean
    exact ⟨name, items, header, named, rfl, answer, clean⟩

private theorem endpoint_of_clean (leaf : Members.get? members "remote_attributes" = none)
    (clean : (buildItem p (some q) path index (.object members)).issues = #[]) :
    ∃ name, Header members ∧ text? members "name" = some name ∧ WellFormedFields members ∧
      p.tree.refusal? q name = none ∧ p.allocator.next < Allocator.capacity := by
  rw [buildItem_endpoint leaf] at clean
  dsimp only at clean
  have read : ((p.report (headerIssues path index members)).report
      (readDraft members (pathOf path index members)).issues).issues = #[] := by
    cases drafted : (readDraft members (pathOf path index members)).value with
    | none =>
      rw [drafted] at clean
      exact clean
    | some draft =>
      rw [drafted] at clean
      exact (Progress.advance_addDraft _ _ _ _ _ _).clean clean
  obtain ⟨headed, formed⟩ := Progress.issues_report_eq_empty.mp read
  obtain ⟨-, fine⟩ := Progress.issues_report_eq_empty.mp headed
  have header := headerIssues_eq_nil_iff.mp fine
  have fields := issues_readDraft.mp formed
  have endpoint : isContainer members = false := by simp [isContainer, leaf]
  obtain ⟨name, named⟩ := header.exists_text?
  obtain ⟨draft, drafted, -⟩ :=
    draft_of_wellFormedFields (pathOf path index members) fields endpoint
  simp only [drafted, Option.elim_some, fine, formed, Progress.report_nil, named,
    Option.isSome_some, Option.getD_some, Progress.addDraft, Allocator.take] at clean
  refine ⟨name, header, named, fields, ?_⟩
  by_cases room : p.allocator.next < Allocator.capacity
  · refine ⟨?_, room⟩
    rw [if_pos room] at clean
    dsimp only at clean
    cases answer : p.tree.refusal? q name with
    | none => rfl
    | some error =>
      rw [Progress.add_of_refused (by exact answer)] at clean
      cases (Progress.issues_report_eq_empty.mp clean).2
  · rw [if_neg room] at clean
    cases (Progress.issues_report_eq_empty.mp clean).2

theorem wellFormed_of_clean (item : Json) : CleanOnlyIfWellFormed item := by
  induction item using document_induction with
  | other item missing =>
    intro p q path index _ _ _ clean
    rw [buildItem_of_members?_eq_none missing, Progress.issues_report_eq_empty] at clean
    cases clean.2
  | object members ih =>
    intro p q path index reachable holds bounded clean
    cases found : Members.get? members "remote_attributes" with
    | some children =>
      obtain ⟨name, items, header, named, rfl, accepted, deeper⟩ := container_of_clean found clean
      have kind : isContainer members = true := by simp [isContainer, found]
      have single : nameOf? (.object members) = some name := named
      obtain ⟨-, fresh⟩ := (Tree.refusal?_eq_none_iff _ _ _).mp accepted
      let p₁ : Progress :=
        { p with tree := p.tree.attach q ⟨infoOf members name, .node []⟩ }
      obtain ⟨each, distinct, ready⟩ := wellFormed_of_clean_items (p := p₁) (ih items found)
        (reachable.attach accepted) (Tree.holdsNode_attach_size _ _ rfl) bounded deeper
      refine ⟨.container header found each distinct, reachable, holds, ?_, ?_⟩
      · simpa [single] using fresh
      · have room := ready.room
        rw [Tree.size_attach] at room
        rw [occurrences_container found, endpointCount, List.countP_cons, kind]
        exact room
    | none =>
      obtain ⟨name, header, named, fields, accepted, room⟩ := endpoint_of_clean found clean
      have kind : isContainer members = false := by simp [isContainer, found]
      have single : nameOf? (.object members) = some name := named
      obtain ⟨-, fresh⟩ := (Tree.refusal?_eq_none_iff _ _ _).mp accepted
      refine ⟨.endpoint header found fields, reachable, holds, ?_, ?_⟩
      · simpa [single] using fresh
      · rw [occurrences_endpoint found, endpointCount, List.countP_cons, kind]
        exact room

private theorem buildRoot_of_container {name : String} {items : List Json} (header : Header members)
    (named : text? members "name" = some name)
    (found : Members.get? members "remote_attributes" = some (.array items)) (withRootName : Bool) :
    buildRoot members withRootName =
      buildItems { tree := .ofRoot (infoOf members name) withRootName } (some Tree.rootId) name 0
        items := by
  have clean : (readName members "").issues ++ (readInfo members name name).issues = [] :=
    (issues_header _ _).mpr header
  simp only [buildRoot, value_readName, value_readInfo, named, Option.getD_some, clean, found,
    buildChildren]

private theorem container_of_clean_root {withRootName : Bool}
    (clean : (buildRoot members withRootName).issues = #[]) :
    ∃ name items, Header members ∧ text? members "name" = some name ∧
      Members.get? members "remote_attributes" = some (.array items) := by
  simp only [buildRoot, value_readName, value_readInfo] at clean
  cases found : Members.get? members "remote_attributes" with
  | none =>
    rw [found] at clean
    cases (Progress.issues_report_eq_empty.mp clean).2
  | some children =>
    rw [found] at clean
    have headed := (advance_buildChildren _ _ _ _).clean clean
    have header : Header members := (issues_header _ _).mp (by simpa using headed)
    obtain ⟨name, named⟩ := header.exists_text?
    obtain ⟨items, rfl⟩ := array_of_clean clean
    exact ⟨name, items, header, named, rfl⟩

/-- The tree has an entity for every object, in document order, and its endpoints have consecutive
addresses. -/
structure Built (document : Json) (t : Tree) : Prop where
  reachable : t.Reachable
  preordered : t.Preordered
  recorded : List.Forall₂ Recorded (objects document) t.ledger
  addresses : t.ledger.filterMap Entity.endpoint? =
    addressesFrom 1 (endpointCount (objects document))

private theorem ready_ofRoot (info : Info) (withRootName : Bool) {found : List Occurrence}
    {names : List String} (few : endpointCount found ≤ 65535) :
    Progress.Ready { tree := .ofRoot info withRootName } Tree.rootId found names := by
  refine ⟨.root _ _, (Tree.sound_ofRoot _ _).root.1, ?_, ?_⟩
  · intro name _ taken
    cases taken
  · have capacity : Allocator.capacity = 65536 := rfl
    dsimp only
    omega

private theorem preordered_ofRoot (info : Info) (withRootName : Bool) :
    (Tree.ofRoot info withRootName).Preordered := by
  intro id p parent
  cases parent

private theorem built_of_isSchema {document : Json} (h : IsSchema document) (withRootName : Bool) :
    ∃ t, build document withRootName = .ok t ∧ Built document t := by
  obtain ⟨formed, ⟨members, rfl, kind⟩, few⟩ := h
  cases formed with
  | endpoint header leaf => simp [isContainer, leaf] at kind
  | @container _ items header children each distinct =>
    obtain ⟨name, named⟩ := header.exists_text?
    have listed : objects (.object members) =
        ⟨members, none⟩ :: itemOccurrences 0 1 items := occurrences_container children
    rw [listed, endpointCount, List.countP_cons, kind] at few
    let p : Progress := { tree := .ofRoot (infoOf members name) withRootName }
    have ready : p.Ready Tree.rootId (itemOccurrences 0 1 items) (items.filterMap nameOf?) :=
      ready_ofRoot _ _ few
    have grown : p.Grown Tree.rootId (itemOccurrences 0 1 items) (items.filterMap nameOf?)
        (buildItems p (some Tree.rootId) name 0 items) :=
      grown_of_items name 0 (fun item inside => grown_of_wellFormed (each item inside)) distinct ready
    have clean : (buildRoot members withRootName).issues.isEmpty = true := by
      rw [buildRoot_of_container header named children, grown.issues]
      rfl
    refine ⟨_, by rw [build, if_pos clean], ?_⟩
    rw [buildRoot_of_container header named children]
    obtain ⟨added, ledger, record, addresses⟩ := grown.recorded
    have root : Recorded ⟨members, none⟩ ⟨infoOf members name, .node []⟩ :=
      ⟨rfl, depicts_infoOf named (by simp [kindOf, kind, Entity.kind]) trivial⟩
    refine ⟨.mark _ (grown.advance.reachable ready.reachable), ?_, ?_, ?_⟩
    · exact (grown.order (preordered_ofRoot _ _) (.refl _)).1.mark _
    · rw [listed]
      change List.Forall₂ _ _ (buildItems p (some Tree.rootId) name 0 items).tree.ledger
      rw [ledger]
      exact .cons root record
    · rw [listed, endpointCount, List.countP_cons, kind]
      change (buildItems p (some Tree.rootId) name 0 items).tree.ledger.filterMap _ = _
      rw [ledger]
      exact addresses

theorem isSchema_of_build {document : Json} {withRootName : Bool} {t : Tree}
    (h : build document withRootName = .ok t) : IsSchema document := by
  cases document with
  | null | bool | integer | real | string | array => simp [build] at h
  | object members =>
    have clean : (buildRoot members withRootName).issues = #[] := by
      rw [build] at h
      split at h
      · rename_i spotless
        simpa using spotless
      · cases h
    obtain ⟨name, items, header, named, found⟩ := container_of_clean_root clean
    have kind : isContainer members = true := by simp [isContainer, found]
    rw [buildRoot_of_container header named found] at clean
    let p : Progress := { tree := .ofRoot (infoOf members name) withRootName }
    have first : 1 ≤ Allocator.capacity := by decide
    obtain ⟨each, distinct, ready⟩ := wellFormed_of_clean_items (p := p)
      (fun item _ => wellFormed_of_clean item) (.root _ _) (Tree.sound_ofRoot _ _).root.1
      first clean
    refine ⟨.container header found each distinct, ⟨members, rfl, kind⟩, ?_⟩
    have room : 1 + endpointCount (itemOccurrences 0 1 items) ≤ 65536 := ready.room
    rw [objects, occurrences_container found, endpointCount, List.countP_cons, kind]
    rw [endpointCount] at room
    simp only [Bool.not_true, Bool.false_eq_true, if_false, Nat.zero_add]
    omega

theorem built_of_build {document : Json} {withRootName : Bool} {t : Tree}
    (h : build document withRootName = .ok t) : Built document t := by
  obtain ⟨t', same, built⟩ := built_of_isSchema (isSchema_of_build h) withRootName
  obtain rfl : t' = t := Except.ok.inj (same.symm.trans h)
  exact built

theorem Built.exists_entity {document : Json} {t : Tree} (h : Built document t) {k : Nat}
    {o : Occurrence} (listed : (objects document)[k]? = some o) :
    ∃ e, t.get? k = some e ∧ Recorded o e := by
  obtain ⟨bare, stored, record⟩ := exists_getElem?_of_forall₂ h.recorded listed
  rw [Tree.getElem?_ledger] at stored
  obtain ⟨e, found, rfl⟩ := Option.map_eq_some_iff.mp stored
  exact ⟨e, found, record.parent, record.depicts.of_bare⟩

theorem Built.exists_occurrence {document : Json} {t : Tree} (h : Built document t) {id : Nat}
    {e : Entity} (found : t.get? id = some e) :
    ∃ o ∈ objects document, Depicts o.members e := by
  have inside : id < (objects document).length := by
    rw [h.recorded.length_eq, Tree.length_ledger]
    exact Tree.lt_size_of_get? found
  have listed := List.getElem?_eq_getElem inside
  obtain ⟨e', found', record⟩ := h.exists_entity listed
  obtain rfl := Option.some.inj (found'.symm.trans found)
  exact ⟨_, List.mem_of_getElem? listed, record.depicts⟩

/-! Addresses. -/

private theorem toNat_addressesFrom {count : Nat} (few : count ≤ 65535) :
    (addressesFrom 1 count).map UInt16.toNat = List.range' 1 count := by
  rw [addressesFrom, List.map_map]
  conv => rhs; rw [← List.map_id (List.range' 1 count)]
  refine List.map_congr_left fun n inside => ?_
  have bounds := List.mem_range'_1.mp inside
  exact UInt16.toNat_ofNat_of_lt' (show n < 65536 by omega)

theorem Built.dense {document : Json} {t : Tree} (h : Built document t)
    (few : endpointCount (objects document) ≤ 65535) : t.Dense := by
  have listed := Tree.map_address?_endpoints h.reachable.sound h.preordered
  rw [h.addresses] at listed
  have count : t.endpoints.length = endpointCount (objects document) := by
    have lengths := congrArg List.length listed
    simpa [addressesFrom] using lengths
  refine ⟨by rwa [count], ?_⟩
  rw [count, ← toNat_addressesFrom few, List.map_map]
  have numbers := congrArg (List.map (Option.map UInt16.toNat)) listed
  rw [List.map_map, List.map_map] at numbers
  exact numbers

/-- Exactly the schemas are accepted, and whatever else a document is, at least one issue says what
is wrong with it. -/
theorem accepted_iff_isSchema (document : Json) (withRootName : Bool) :
    ((∃ t, build document withRootName = .ok t) ↔ IsSchema document) ∧
      (¬ IsSchema document →
        ∃ e, build document withRootName = .error e ∧ e.issues ≠ []) := by
  have accepted : (∃ t, build document withRootName = .ok t) ↔ IsSchema document := by
    constructor
    · rintro ⟨t, h⟩
      exact isSchema_of_build h
    · intro h
      obtain ⟨t, same, -⟩ := built_of_isSchema h withRootName
      exact ⟨t, same⟩
  refine ⟨accepted, fun other => ?_⟩
  cases answer : build document withRootName with
  | ok t => exact absurd (accepted.mp ⟨t, answer⟩) other
  | error e =>
    refine ⟨e, rfl, ?_⟩
    cases document with
    | null | bool | integer | real | string | array =>
      cases answer
      simp
    | object members =>
      rw [build] at answer
      split at answer
      · cases answer
      · rename_i faulty
        cases answer
        simpa using faulty

end DeviceLink.Schema
