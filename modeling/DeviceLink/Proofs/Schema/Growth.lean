import DeviceLink.Proofs.Schema.Advance
import DeviceLink.Proofs.Schema.Depiction
import DeviceLink.Proofs.Tree.Descent

/-!
What a build without issues adds to a tree. `Grown` says it of any part of a build: the ledger gets
one entity for each object, in document order, and the endpoints among them get the next addresses.
Well-formed items for which there is room under their parent grow the tree in this way
(`grown_of_wellFormed`).
-/

set_option autoImplicit false
set_option relaxedAutoImplicit false

namespace DeviceLink.Schema

open Json (Members)

variable {members : Members} {path : String} {index : Nat}

/-- An entity of the ledger stands for an object of a document. -/
structure Recorded (o : Occurrence) (e : Entity) : Prop where
  parent : e.info.parent = o.around
  depicts : Depicts o.members e

def addressesFrom (next count : Nat) : List EndpointId :=
  (List.range' next count).map UInt16.ofNat

private theorem addressesFrom_add (next a b : Nat) :
    addressesFrom next (a + b) = addressesFrom next a ++ addressesFrom (next + a) b := by
  rw [addressesFrom, ← List.range'_append_1, List.map_append]
  rfl

theorem endpointCount_append (a b : List Occurrence) :
    endpointCount (a ++ b) = endpointCount a + endpointCount b :=
  List.countP_append

theorem occurrences_container {around : Option Nat} {count : Nat} {items : List Json}
    (found : Members.get? members "remote_attributes" = some (.array items)) :
    occurrences around count (.object members) =
      ⟨members, around⟩ :: itemOccurrences count (count + 1) items := by
  rw [occurrences]
  congr 1
  split
  · rename_i value stored
    obtain rfl := Option.some.inj (stored.symm.trans found)
    rw [childOccurrences]
  · rename_i missing
    simp [missing] at found

theorem occurrences_endpoint {around : Option Nat} {count : Nat}
    (leaf : Members.get? members "remote_attributes" = none) :
    occurrences around count (.object members) = [⟨members, around⟩] := by
  rw [occurrences]
  congr 1
  split
  · rename_i value stored
    simp [stored] at leaf
  · rfl

namespace Progress

/-- There is room under a node for some objects whose outermost ones have the given names. -/
structure Ready (p : Progress) (q : Nat) (found : List Occurrence) (names : List String) :
    Prop where
  reachable : p.tree.Reachable
  holds : p.tree.HoldsNode q
  fresh : ∀ name ∈ names, name ∉ p.tree.childNames q
  room : p.allocator.next + endpointCount found ≤ Allocator.capacity

/-- Some objects have been added under a node, the outermost ones with the given names. If the node
was open at the end of the preorder, it still is. -/
structure Grown (p : Progress) (q : Nat) (found : List Occurrence) (names : List String)
    (p' : Progress) : Prop where
  advance : p.Advance p'
  issues : p'.issues = p.issues
  next : p'.allocator.next = p.allocator.next + endpointCount found
  recorded : ∃ added, p'.tree.ledger = p.tree.ledger ++ added ∧ List.Forall₂ Recorded found added ∧
    added.filterMap Entity.endpoint? = addressesFrom p.allocator.next (endpointCount found)
  childNames : ∀ r < p.tree.size,
    p'.tree.childNames r = p.tree.childNames r ++ if r = q then names else []
  order : p.tree.Preordered → p.tree.Below (p.tree.size - 1) q →
    p'.tree.Preordered ∧ p'.tree.Below (p'.tree.size - 1) q

namespace Grown

variable {p p' p'' : Progress} {q : Nat} {found others : List Occurrence} {names more : List String}

theorem size (h : p.Grown q found names p') : p'.tree.size = p.tree.size + found.length := by
  obtain ⟨added, grown, record, -⟩ := h.recorded
  rw [← Tree.length_ledger, grown, List.length_append, Tree.length_ledger, record.length_eq]

theorem refl (p : Progress) (q : Nat) : p.Grown q [] [] p where
  advance := .refl p
  issues := rfl
  next := rfl
  recorded := ⟨[], (List.append_nil _).symm, .nil, rfl⟩
  childNames := by simp
  order preorder opened := ⟨preorder, opened⟩

private theorem recorded_trans {r : Nat} (h : p.Grown q found names p')
    (h' : p'.Grown r others more p'') :
    ∃ added, p''.tree.ledger = p.tree.ledger ++ added ∧
      List.Forall₂ Recorded (found ++ others) added ∧
      added.filterMap Entity.endpoint? =
        addressesFrom p.allocator.next (endpointCount (found ++ others)) := by
  obtain ⟨first, ledger, record, addresses⟩ := h.recorded
  obtain ⟨second, ledger', record', addresses'⟩ := h'.recorded
  refine ⟨first ++ second, ?_, List.rel_append record record', ?_⟩
  · rw [ledger', ledger, List.append_assoc]
  · rw [List.filterMap_append, addresses, addresses', h.next, endpointCount_append,
      addressesFrom_add]

theorem trans (h : p.Grown q found names p') (h' : p'.Grown q others more p'') :
    p.Grown q (found ++ others) (names ++ more) p'' where
  advance := h.advance.trans h'.advance
  issues := h'.issues.trans h.issues
  next := by rw [h'.next, h.next, endpointCount_append, Nat.add_assoc]
  recorded := recorded_trans h h'
  childNames r inside := by
    have later : r < p'.tree.size := by
      rw [h.size]
      omega
    rw [h'.childNames r later, h.childNames r inside]
    split <;> simp
  order preorder opened := by
    obtain ⟨preorder', opened'⟩ := h.order preorder opened
    exact h'.order preorder' opened'

private theorem nest (h : p.Grown q found names p') (single : found.length = 1)
    (parent : p'.tree.parent? p.tree.size = some q) (h' : p'.Grown p.tree.size others more p'') :
    p.Grown q (found ++ others) names p'' where
  advance := h.advance.trans h'.advance
  issues := h'.issues.trans h.issues
  next := by rw [h'.next, h.next, endpointCount_append, Nat.add_assoc]
  recorded := recorded_trans h h'
  childNames r inside := by
    have later : r < p'.tree.size := by
      rw [h.size]
      omega
    rw [h'.childNames r later, h.childNames r inside, if_neg (Nat.ne_of_lt inside),
      List.append_nil]
  order preorder opened := by
    have newest : p'.tree.size - 1 = p.tree.size := by
      rw [h.size, single, Nat.add_sub_cancel]
    -- The node that was added last is open until its own objects have all been added.
    have self : p'.tree.Below (p'.tree.size - 1) p.tree.size := by
      rw [newest]
      exact .refl _
    obtain ⟨preorder', opened'⟩ := h'.order (h.order preorder opened).1 self
    exact ⟨preorder', opened'.trans (.of_parent? (Tree.parent?_of_prefix h'.advance.ledger parent))⟩

end Grown

private theorem grown_attach {p p' : Progress} {q : Nat} {e : Entity} (reachable : p.tree.Reachable)
    (accepted : p.tree.refusal? q e.name = none) (depicts : Depicts members e)
    (advance : p.Advance p') (tree : p'.tree = p.tree.attach q e) (issues : p'.issues = p.issues)
    (next : p'.allocator.next = p.allocator.next + endpointCount [⟨members, some q⟩])
    (address : e.endpoint?.toList =
      addressesFrom p.allocator.next (endpointCount [⟨members, some q⟩])) :
    p.Grown q [⟨members, some q⟩] [e.name] p' where
  advance := advance
  issues := issues
  next := next
  recorded := by
    refine ⟨[e.detached q], ?_, .cons ⟨rfl, depicts.detached q⟩ .nil, ?_⟩
    · rw [tree, Tree.ledger_attach]
    · rw [← address, ← Entity.endpoint?_detached e q, List.filterMap_cons]
      cases Entity.endpoint? (e.detached q) <;> rfl
  childNames r _ := by
    obtain ⟨node, -⟩ := (Tree.refusal?_eq_none_iff _ _ _).mp accepted
    rw [tree, reachable.sound.childNames_attach node]
    split <;> simp
  order preorder opened := by
    rw [tree]
    refine ⟨preorder.attach opened e, .of_parent? ?_⟩
    rw [Tree.size_attach, Nat.add_sub_cancel, Tree.parent?_attach, if_pos rfl]

end Progress

open Progress (Grown Ready)

variable {p : Progress} {q : Nat}

theorem Header.exists_text? (h : Header members) : ∃ name, text? members "name" = some name := by
  obtain ⟨name, found⟩ := h.name
  exact ⟨name, text?_eq_some_iff.mpr found⟩

theorem depicts_infoOf {name : String} {body : Body} (named : text? members "name" = some name)
    (kind : Entity.kind ⟨infoOf members name, body⟩ = kindOf members)
    (content : DepictsBody members body) : Depicts members ⟨infoOf members name, body⟩ :=
  ⟨named, kind, rfl, rfl, rfl, rfl, rfl, content⟩

private theorem buildItem_of_container {name : String} {items : List Json} (header : Header members)
    (named : text? members "name" = some name)
    (found : Members.get? members "remote_attributes" = some (.array items))
    (accepted : p.tree.refusal? q name = none) :
    buildItem p (some q) path index (.object members) =
      buildItems { p with tree := p.tree.attach q ⟨infoOf members name, .node []⟩ }
        (some p.tree.size) (pathOf path index members) 0 items := by
  have clean : headerIssues path index members = [] := headerIssues_eq_nil_iff.mpr header
  rw [buildItem_container found, named, clean, Progress.report_nil]
  dsimp only
  rw [Progress.add_of_accepted accepted, buildChildren]

private theorem buildItem_of_endpoint (path : String) (index : Nat) {name : String}
    (header : Header members) (named : text? members "name" = some name)
    (leaf : Members.get? members "remote_attributes" = none) (fields : WellFormedFields members)
    (accepted : p.tree.refusal? q name = none) (room : p.allocator.next < Allocator.capacity) :
    ∃ body, DepictsBody members body ∧
      Entity.kind ⟨infoOf members name, body⟩ = kindOf members ∧
      Entity.endpoint? ⟨infoOf members name, body⟩ = some (UInt16.ofNat p.allocator.next) ∧
      buildItem p (some q) path index (.object members) =
        { p with
          tree := p.tree.attach q ⟨infoOf members name, body⟩
          allocator := ⟨p.allocator.next + 1⟩ } := by
  have clean : headerIssues path index members = [] := headerIssues_eq_nil_iff.mpr header
  have endpoint : isContainer members = false := by simp [isContainer, leaf]
  obtain ⟨draft, read, described⟩ :=
    draft_of_wellFormedFields (pathOf path index members) fields endpoint
  obtain ⟨content, kind, address⟩ := described (infoOf members name) (UInt16.ofNat p.allocator.next)
  refine ⟨draft (UInt16.ofNat p.allocator.next), content, kind, address, ?_⟩
  rw [buildItem_endpoint leaf, named, clean, Progress.report_nil]
  simp only [issues_readDraft.mpr fields, Progress.report_nil, read, Option.elim_some,
    Progress.addDraft, Allocator.take, if_pos room, Option.isSome_some, Option.getD_some]
  rw [Progress.add_of_accepted accepted]

/-- The build of a well-formed item adds its objects, if there is room for them. -/
def Grows (item : Json) : Prop :=
  ∀ (p : Progress) (q : Nat) (path : String) (index : Nat),
    p.Ready q (occurrences (some q) p.tree.size item) (nameOf? item).toList →
    p.Grown q (occurrences (some q) p.tree.size item) (nameOf? item).toList
      (buildItem p (some q) path index item)

private theorem Progress.Ready.rest {item : Json} {items : List Json} {p' : Progress}
    (h : p.Ready q (itemOccurrences q p.tree.size (item :: items))
      ((item :: items).filterMap nameOf?))
    (distinct : ((item :: items).map nameOf?).Nodup)
    (grown : p.Grown q (occurrences (some q) p.tree.size item) (nameOf? item).toList p') :
    p'.Ready q (itemOccurrences q p'.tree.size items) (items.filterMap nameOf?) := by
  have holds := h.holds
  refine ⟨grown.advance.reachable h.reachable, holds.of_prefix grown.advance.ledger, ?_, ?_⟩
  · intro name later taken
    rw [grown.childNames q holds.lt_size, if_pos rfl] at taken
    rcases List.mem_append.mp taken with old | new
    · refine h.fresh name ?_ old
      rw [List.filterMap_cons]
      split
      · exact later
      · exact List.mem_cons_of_mem _ later
    · obtain ⟨other, inside, same⟩ := List.mem_filterMap.mp later
      rw [List.map_cons, List.nodup_cons] at distinct
      refine distinct.1 (List.mem_map.mpr ⟨other, inside, ?_⟩)
      rw [same, Option.mem_toList.mp new]
  · have room := h.room
    rw [itemOccurrences, endpointCount_append] at room
    rw [grown.next, grown.size]
    omega

theorem grown_of_items (path : String) (index : Nat) {items : List Json}
    (each : ∀ item ∈ items, Grows item)
    (distinct : (items.map nameOf?).Nodup)
    (ready : p.Ready q (itemOccurrences q p.tree.size items) (items.filterMap nameOf?)) :
    p.Grown q (itemOccurrences q p.tree.size items) (items.filterMap nameOf?)
      (buildItems p (some q) path index items) := by
  induction items generalizing p index with
  | nil =>
    rw [buildItems, itemOccurrences]
    exact .refl p q
  | cons item rest ih =>
    have first : p.Grown q (occurrences (some q) p.tree.size item) (nameOf? item).toList
        (buildItem p (some q) path index item) := by
      refine each item (by simp) p q path index ⟨ready.reachable, ready.holds, ?_, ?_⟩
      · intro name named
        refine ready.fresh name ?_
        rw [List.filterMap_cons, Option.mem_toList.mp named]
        exact List.mem_cons_self
      · have room := ready.room
        rw [itemOccurrences, endpointCount_append] at room
        omega
    have others := ih (index + 1) (fun item inside => each item (by simp [inside]))
      (List.nodup_cons.mp distinct).2 (ready.rest distinct first)
    have names : (item :: rest).filterMap nameOf? =
        (nameOf? item).toList ++ rest.filterMap nameOf? := by
      rw [List.filterMap_cons]
      cases nameOf? item <;> rfl
    rw [buildItems, itemOccurrences, names, ← first.size]
    exact first.trans others

private theorem Progress.Ready.accepted {found : List Occurrence} {name : String}
    (h : p.Ready q found (nameOf? (.object members)).toList)
    (named : text? members "name" = some name) : p.tree.refusal? q name = none := by
  have single : nameOf? (.object members) = some name := named
  exact (Tree.refusal?_eq_none_iff _ _ _).mpr ⟨h.holds, h.fresh name (by simp [single])⟩

private theorem grows_of_container {items : List Json} (header : Header members)
    (children : Members.get? members "remote_attributes" = some (.array items))
    (each : ∀ item ∈ items, Grows item) (distinct : (items.map nameOf?).Nodup) :
    Grows (.object members) := by
  intro p q path index ready
  obtain ⟨name, named⟩ := header.exists_text?
  have kind : isContainer members = true := by simp [isContainer, children]
  have single : nameOf? (.object members) = some name := named
  have accepted := ready.accepted named
  have uncounted : endpointCount [⟨members, some q⟩] = 0 := by simp [endpointCount, kind]
  have room := ready.room
  rw [occurrences_container children] at room ⊢
  rw [← List.singleton_append, endpointCount_append, uncounted, Nat.zero_add] at room
  rw [buildItem_of_container header named children accepted, single, ← List.singleton_append]
  let e : Entity := ⟨infoOf members name, .node []⟩
  let p₁ : Progress := { p with tree := p.tree.attach q e }
  have first : p.Grown q [⟨members, some q⟩] [name] p₁ := by
    refine Progress.grown_attach (e := e) ready.reachable accepted ?_ ?_ rfl rfl ?_ ?_
    · exact depicts_infoOf named (by simp [kindOf, kind, Entity.kind]) trivial
    · have step := p.advance_add q e (pathOf path index members)
      rwa [Progress.add_of_accepted accepted] at step
    · rw [uncounted, Nat.add_zero]
    · rw [uncounted]
      rfl
  -- The new node has no children yet, so that no name is taken under it.
  have inner : p₁.Ready p.tree.size (itemOccurrences p.tree.size p₁.tree.size items)
      (items.filterMap nameOf?) := by
    refine ⟨first.advance.reachable ready.reachable, Tree.holdsNode_attach_size _ _ rfl, ?_, ?_⟩
    · intro child _ taken
      have beyond : p.tree.children p.tree.size = [] := Tree.children_of_size_le (Nat.le_refl _)
      rw [ready.reachable.sound.childNames_attach ready.holds,
        if_neg (Nat.ne_of_gt ready.holds.lt_size), Tree.childNames, beyond] at taken
      cases taken
    · rw [first.next, uncounted, Nat.add_zero, first.size]
      exact room
  have deeper := grown_of_items (pathOf path index members) 0 each distinct inner
  rw [first.size] at deeper
  refine first.nest rfl ?_ deeper
  exact (Tree.parent?_attach _ _ _ _).trans (if_pos rfl)

private theorem grows_of_endpoint (header : Header members)
    (leaf : Members.get? members "remote_attributes" = none)
    (fields : WellFormedFields members) : Grows (.object members) := by
  intro p q path index ready
  obtain ⟨name, named⟩ := header.exists_text?
  have kind : isContainer members = false := by simp [isContainer, leaf]
  have single : nameOf? (.object members) = some name := named
  have accepted := ready.accepted named
  have counted : endpointCount [⟨members, some q⟩] = 1 := by simp [endpointCount, kind]
  have room := ready.room
  rw [occurrences_endpoint leaf] at room ⊢
  rw [counted] at room
  obtain ⟨body, content, sort, address, built⟩ :=
    buildItem_of_endpoint path index header named leaf fields accepted room
  have forward := advance_buildItem (.object members) p (some q) path index
  rw [built] at forward ⊢
  rw [single]
  refine Progress.grown_attach (e := ⟨infoOf members name, body⟩) ready.reachable accepted
    (depicts_infoOf named sort content) forward rfl rfl ?_ ?_
  · rw [counted]
  · rw [counted, address]
    rfl

/-- Well-formed items grow the tree by exactly their objects. -/
theorem grown_of_wellFormed {item : Json} (h : WellFormed item) : Grows item := by
  induction h with
  | container header children _ distinct ih => exact grows_of_container header children ih distinct
  | endpoint header leaf fields => exact grows_of_endpoint header leaf fields

end DeviceLink.Schema
