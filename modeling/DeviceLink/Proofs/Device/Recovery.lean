import DeviceLink.Proofs.Device.Snapshots

/-!
What an import of an export does. It comes to an end, every exported endpoint shows what it showed on
the exporting device, and no payload is changed at another address.
-/

set_option autoImplicit false
set_option relaxedAutoImplicit false

namespace DeviceLink

namespace Tree

variable {t : Tree} {m before between after : Memory}

/-! Stores that show the values of another store. -/

/-- Places show what they show in the store `m`, and no payload is changed at another address. -/
structure Restored (t : Tree) (m before after : Memory) (places : List Nat) : Prop where
  shown : ∀ x ∈ places, ∀ v, t.Shows m x v → t.Shows after x v
  kept : ∀ address, (∀ x ∈ places, t.address? x ≠ some address) → after address = before address

theorem Shows.congr {x : Nat} {v : Value} (h : t.Shows before x v)
    (same : ∀ address, t.address? x = some address → after address = before address) :
    t.Shows after x v := by
  obtain ⟨e, found, address, payload, reached, stored, decoded⟩ := h
  have here : t.address? x = some address := by
    rw [address?, found]
    exact Endpoint.endpoint?_of_readAddress reached
  exact ⟨e, found, address, payload, reached, (same address here).trans stored, decoded⟩

theorem Restored.refl (t : Tree) (m before : Memory) : t.Restored m before before [] where
  shown _ inside := absurd inside List.not_mem_nil
  kept _ _ := rfl

theorem Restored.append
    (apart : ∀ id id' a, t.address? id = some a → t.address? id' = some a → id = id')
    {places more : List Nat} (h : t.Restored m before between places)
    (h' : t.Restored m between after more) : t.Restored m before after (places ++ more) where
  shown x inside v shows := by
    by_cases again : x ∈ more
    · exact h'.shown x again v shows
    · have earlier := (List.mem_append.mp inside).resolve_right again
      refine (h.shown x earlier v shows).congr fun address here => h'.kept address ?_
      intro y other there
      exact again (apart x y address here there ▸ other)
  kept address free := by
    rw [h'.kept address fun x inside => free x (List.mem_append_right _ inside),
      h.kept address fun x inside => free x (List.mem_append_left _ inside)]

/-! The places of an export. -/

def isSavedAt (t : Tree) (id : Nat) : Bool :=
  (t.get? id).any Entity.isSaved

def savedBelow (t : Tree) (id : Nat) : List Nat :=
  (t.subtree id).filter t.isSavedAt

variable {id : Nat} {e : Entity}

theorem savedBelow_node (sound : t.Sound) (found : t.get? id = some e) (node : e.isNode = true) :
    t.savedBelow id = e.children.flatMap t.savedBelow := by
  have plain : t.isSavedAt id = false := by
    rw [isSavedAt, found, Option.any_some, Entity.isSaved, node]
    simp
  rw [savedBelow, sound.subtree_eq, children_eq found, List.filter_cons, plain,
    List.filter_flatMap]
  rfl

theorem savedBelow_leaf (sound : t.Sound) (found : t.get? id = some e) (leaf : e.isNode = false) :
    t.savedBelow id = if e.isSaved then [id] else [] := by
  have here : t.isSavedAt id = e.isSaved := by rw [isSavedAt, found, Option.any_some]
  rw [savedBelow, sound.subtree_eq, children_of_leaf found leaf, List.filter_cons, here]
  rfl

theorem mem_savedBelow_root (sound : t.Sound) (found : t.get? id = some e)
    (saved : e.isSaved = true) : id ∈ t.savedBelow rootId := by
  refine List.mem_filter.mpr ⟨sound.mem_walk.mpr (lt_size_of_get? found), ?_⟩
  rw [isSavedAt, found, Option.any_some, saved]

theorem exists_of_mem_savedBelow (inside : id ∈ t.savedBelow rootId) :
    ∃ e, t.get? id = some e ∧ e.isSaved = true := by
  have saved := (List.mem_filter.mp inside).2
  rw [isSavedAt] at saved
  cases found : t.get? id with
  | none => simp [found] at saved
  | some e => exact ⟨e, rfl, by simpa [found] using saved⟩

theorem exists_shows_of_captures (sound : t.Sound) (id : Nat) {r : Option Json}
    (captured : Captures t m id r) {x : Nat} (inside : x ∈ t.savedBelow id) :
    ∃ v, t.Shows m x v := by
  induction id using sound.descend generalizing r with
  | step id ih =>
    cases captured with
    | @node _ e part found node each =>
      rw [savedBelow_node sound found node, List.mem_flatMap] at inside
      obtain ⟨c, child, within⟩ := inside
      exact ih c (by rwa [children_eq found]) (each c child) within
    | @saved _ e v found saved shows =>
      rw [savedBelow_leaf sound found (Entity.isNode_of_isSaved saved), if_pos saved] at inside
      obtain rfl := List.mem_singleton.mp inside
      exact ⟨v, e, found, shows⟩
    | @skipped _ e found leaf plain =>
      rw [savedBelow_leaf sound found leaf, plain] at inside
      exact absurd inside List.not_mem_nil

/-! Objects of parts. -/

variable {children : List Nat} {name : Nat → String} {part : Nat → Option Json}

def partMembers (children : List Nat) (name : Nat → String) (part : Nat → Option Json) :
    Json.Members :=
  children.filterMap fun c => (part c).map (name c, ·)

private theorem partMembers_cons (c : Nat) : partMembers (c :: children) name part =
    match part c with
    | some value => (name c, value) :: partMembers children name part
    | none => partMembers children name part := by
  rw [partMembers, List.filterMap_cons]
  cases part c <;> rfl

private theorem keys_partMembers_sublist :
    ((partMembers children name part).map (·.1)).Sublist (children.map name) := by
  induction children with
  | nil => exact List.Sublist.refl _
  | cons c rest ih =>
    rw [partMembers_cons]
    cases part c with
    | none => exact ih.cons _
    | some value => exact ih.cons_cons _

private theorem get?_partMembers (distinct : (children.map name).Nodup) {c : Nat}
    (child : c ∈ children) :
    Json.Members.get? (partMembers children name part) (name c) = part c := by
  induction children with
  | nil => exact absurd child List.not_mem_nil
  | cons first rest ih =>
    obtain ⟨fresh, others⟩ := List.nodup_cons.mp distinct
    rw [partMembers_cons]
    rcases List.mem_cons.mp child with rfl | later
    · cases value : part c with
      | none =>
        exact Json.get?_eq_none fun inside => fresh (keys_partMembers_sublist.subset inside)
      | some value => exact (Json.get?_cons _ _ _).trans (if_pos rfl)
    · have other : name first ≠ name c := fun same =>
        fresh (same ▸ List.mem_map_of_mem later)
      cases part first with
      | none => exact ih others later
      | some value => exact (Json.get?_cons _ _ _).trans ((if_neg other).trans (ih others later))

theorem snapshotObject_map (part : Nat → Option Json) (distinct : (children.map name).Nodup) :
    (snapshotObject (children.map fun c => (part c).map (name c, ·)) = none ∧
        ∀ c ∈ children, part c = none) ∨
      ∃ members, snapshotObject (children.map fun c => (part c).map (name c, ·)) =
          some (.object members) ∧
        ∀ c ∈ children, Json.Members.get? members (name c) = part c := by
  have parts : (children.map fun c => (part c).map (name c, ·)).filterMap id =
      partMembers children name part := List.filterMap_map
  rw [snapshotObject, parts]
  cases listed : partMembers children name part with
  | nil =>
    refine Or.inl ⟨rfl, fun c child => ?_⟩
    have value : Json.Members.get? (partMembers children name part) (name c) = part c :=
      get?_partMembers distinct child
    rw [← value, listed]
    rfl
  | cons member rest =>
    refine Or.inr ⟨_, rfl, fun c child => ?_⟩
    have keys : ((member :: rest).map (·.1)).Nodup :=
      listed ▸ distinct.sublist keys_partMembers_sublist
    rw [Json.get?_foldl_insert keys, ← listed, get?_partMembers distinct child]
    exact Option.or_none

/-! Imports. -/

variable {σ : Type} {link : Transport σ} (storage : link.Storage)

/-- An action comes to an end and restores places from a store. -/
def Recovers (t : Tree) (m : Memory) (places : List Nat) (a : Action Unit) : Prop :=
  ∀ s, storage.usable s → ∃ s', a.run link s = (.ok (), s') ∧ storage.usable s' ∧
    t.Restored m (storage.stored s) (storage.stored s') places

variable {storage}

private theorem recovers_pure (t : Tree) (m : Memory) : Recovers storage t m [] (pure ()) := by
  intro s usable
  exact ⟨s, rfl, usable, .refl t m _⟩

private theorem exists_run_forEach
    (apart : ∀ id id' a, t.address? id = some a → t.address? id' = some a → id = id')
    {f : Nat → Action Unit} {places : Nat → List Nat}
    (step : ∀ c ∈ children, Recovers storage t m (places c) (f c)) {s : σ}
    (usable : storage.usable s) :
    ∃ bs s', (Action.forEach f children).run link s = (.ok bs, s') ∧ storage.usable s' ∧
      t.Restored m (storage.stored s) (storage.stored s') (children.flatMap places) := by
  induction children generalizing s with
  | nil => exact ⟨[], s, rfl, usable, .refl t m _⟩
  | cons c rest ih =>
    obtain ⟨s₁, first, usable₁, restored₁⟩ := step c List.mem_cons_self s usable
    obtain ⟨bs, s₂, others, usable₂, restored₂⟩ :=
      ih (fun c inside => step c (List.mem_cons_of_mem _ inside)) usable₁
    refine ⟨() :: bs, s₂, ?_, usable₂, restored₁.append apart restored₂⟩
    exact Action.run_bind_eq_ok.mpr ⟨(), s₁, first,
      Action.run_bind_eq_ok.mpr ⟨bs, s₂, others, rfl⟩⟩

private theorem recovers_forEach
    (apart : ∀ id id' a, t.address? id = some a → t.address? id' = some a → id = id')
    {f : Nat → Action Unit} {places : Nat → List Nat}
    (step : ∀ c ∈ children, Recovers storage t m (places c) (f c)) :
    Recovers storage t m (children.flatMap places)
      (do let _ ← Action.forEach f children; return ()) := by
  intro s usable
  obtain ⟨bs, s', run, still, restored⟩ := exists_run_forEach apart step usable
  exact ⟨s', Action.run_bind_eq_ok.mpr ⟨bs, s', run, rfl⟩, still, restored⟩

private theorem recovers_endpoint (found : t.get? id = some e) (saved : e.isSaved = true)
    (legible : e.body.Legible) (restorable : e.Restorable) {v : Value}
    (shows : Endpoint.Shows m (t.displayPath id) e v) (finite : v.isFinite = true) :
    Recovers storage t m [id] (importEndpoint (t.displayPath id) e v.toJson) := by
  intro s usable
  obtain ⟨asked, payload, reached, stored, decoded⟩ := shows
  obtain ⟨value, address, payload', read, message, filled, again⟩ :=
    Endpoint.exists_message_of_decodeValue legible restorable decoded finite
  obtain ⟨s', run, still, written⟩ := storage.run_write usable filled message
  have target := Endpoint.endpoint?_of_writeMessage message
  have same : asked = address :=
    Option.some.inj ((Endpoint.endpoint?_of_readAddress reached).symm.trans target)
  refine ⟨s', ?_, still, ?_, ?_⟩
  · rw [importEndpoint, Entity.isSaved_of_leaf (Entity.isNode_of_isSaved saved), if_pos saved]
    exact Action.run_bind_eq_ok.mpr ⟨value, s, by rw [read]; rfl, run⟩
  · intro x here v' ⟨e', found', shows'⟩
    obtain rfl := List.mem_singleton.mp here
    obtain rfl := Option.some.inj (found.symm.trans found')
    obtain rfl := shows'.unique ⟨asked, payload, reached, stored, decoded⟩
    refine ⟨e, found, asked, payload', reached, ?_, again⟩
    rw [written, same, Function.update_self]
  · intro other free
    have place : t.address? id = some address := by rw [address?, found]; exact target
    have apart : other ≠ address := by
      rintro rfl
      exact free id (List.mem_singleton_self id) place
    rw [written, Function.update_of_ne apart]

/-- What a tree needs so that imports undo exports of a store: different addresses, and at every
exported endpoint a finite value that can be written back. -/
structure Recoverable (t : Tree) (m : Memory) : Prop where
  apart : ∀ id id' a, t.address? id = some a → t.address? id' = some a → id = id'
  legible : ∀ id e, t.get? id = some e → e.body.Legible
  restorable : ∀ id e, t.get? id = some e → e.isSaved = true → e.Restorable
  finite : ∀ id e v, t.get? id = some e → e.isSaved = true →
    Endpoint.Shows m (t.displayPath id) e v → v.isFinite = true

/-- The part of an export at a place restores the place and all below; without one there is nothing
to restore. -/
def PartRecovers (storage : link.Storage) (t : Tree) (m : Memory) (id : Nat) :
    Option Json → Prop
  | none => t.savedBelow id = []
  | some data => Recovers storage t m (t.savedBelow id) (t.importEntity id data)

private theorem recovers_node (part : Nat → Option Json) (sound : t.Sound) (ready : t.Recoverable m)
    (found : t.get? id = some e) (node : e.isNode = true) {members : Json.Members}
    (parts : ∀ c ∈ e.children, Json.Members.get? members (t.nameOf c) = part c)
    (each : ∀ c ∈ e.children, PartRecovers storage t m c (part c)) :
    Recovers storage t m (t.savedBelow id) (t.importEntity id (.object members)) := by
  rw [savedBelow_node sound found node, importEntity, withEntity, found]
  simp only [node, if_true]
  refine recovers_forEach ready.apart fun c child => ?_
  have bounds : id < c ∧ c < t.size :=
    sound.bounds_of_mem_children (by rwa [children_eq found])
  have inner := each c child
  rw [if_pos bounds, parts c child]
  cases value : part c with
  | none =>
    rw [value, PartRecovers] at inner
    rw [inner]
    exact recovers_pure t m
  | some data =>
    rw [value] at inner
    exact inner

private theorem partRecovers_of_captures (storage : link.Storage) (sound : t.Sound)
    (ready : t.Recoverable m) (id : Nat) {r : Option Json} (captured : Captures t m id r) :
    PartRecovers storage t m id r := by
  induction id using sound.descend generalizing r with
  | step id ih =>
    cases captured with
    | @node _ e part found node each =>
      have same := children_eq found
      have inner : ∀ c ∈ e.children, PartRecovers storage t m c (part c) := fun c child =>
        ih c (by rwa [same]) (each c child)
      have distinct : (e.children.map t.nameOf).Nodup := same ▸ sound.distinct id
      rcases snapshotObject_map part distinct with ⟨nothing, parts⟩ | ⟨members, object, parts⟩
      · rw [nothing, PartRecovers, savedBelow_node sound found node, List.flatMap_eq_nil_iff]
        intro c child
        have bare := inner c child
        rwa [parts c child, PartRecovers] at bare
      · rw [object]
        exact recovers_node part sound ready found node parts inner
    | @saved _ e v found saved shows =>
      have leaf := Entity.isNode_of_isSaved saved
      rw [PartRecovers, savedBelow_leaf sound found leaf, if_pos saved, importEntity, withEntity,
        found]
      simp only [leaf, Bool.false_eq_true, if_false]
      exact recovers_endpoint found saved (ready.legible id e found)
        (ready.restorable id e found saved) shows (ready.finite id e v found saved shows)
    | @skipped _ e found leaf plain =>
      rw [PartRecovers, savedBelow_leaf sound found leaf, plain]
      rfl

theorem recovers_of_captures (sound : t.Sound) (ready : t.Recoverable m)
    (found : t.get? id = some e) (node : e.isNode = true) {r : Option Json}
    (captured : Captures t m id r) :
    Recovers storage t m (t.savedBelow id) (t.importEntity id (r.getD (.object []))) := by
  have whole := partRecovers_of_captures storage sound ready id captured
  cases r with
  | some data => exact whole
  | none =>
    rw [PartRecovers, savedBelow_node sound found node, List.flatMap_eq_nil_iff] at whole
    exact recovers_node (fun _ => none) sound ready found node (fun _ _ => rfl) whole

end Tree

end DeviceLink
