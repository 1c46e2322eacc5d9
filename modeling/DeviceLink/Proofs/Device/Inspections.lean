import DeviceLink.Device.Listing
import DeviceLink.Proofs.Device.Requests
import DeviceLink.Proofs.Device.Snapshots

/-!
Inspections: what only looks at a device. Reads, listings, exports and the question for the
fingerprint send empty payloads only, to endpoints with a value and a getter, although an empty
payload calls a function without arguments. A listing asks each endpoint that it shows exactly once,
whatever the answers are (`Tree.inspects`).
-/

set_option autoImplicit false
set_option relaxedAutoImplicit false

namespace DeviceLink

open Wire (Payload)

def Entity.readable? (e : Entity) : Option EndpointId :=
  match e.body with
  | .register r => if r.access.getter.isSome then some r.endpoint else none
  | .selector s => if s.access.getter.isSome then some s.endpoint else none
  | .bitmask b => if b.access.getter.isSome then some b.endpoint else none
  | .node _ | .function _ => none

private theorem Entity.readable?_of_isNode {e : Entity} (node : e.isNode = true) :
    e.readable? = none := by
  obtain ⟨info, body⟩ := e
  cases body <;> simp_all [isNode, kind, readable?]

def questions (addresses : List EndpointId) : List (EndpointId × Payload) :=
  addresses.map fun address => (address, [])

/-! Actions that never fail and ask the same whatever happens. -/

namespace Action

variable {α β σ : Type} {link : Transport σ}

/-- Whatever the state of a transport is, an action comes to a value and sends the requests for the
values at some addresses in order, and nothing else. -/
def Polls (link : Transport σ) (addresses : List EndpointId) (a : Action α) : Prop :=
  ∀ s, (∃ value, (a.run link s).1 = .ok value) ∧
    sendings (a.trace link s) = questions addresses

private theorem polls_done (value : α) : (done value).Polls link [] :=
  fun _ => ⟨⟨value, rfl⟩, rfl⟩

theorem Polls.bind {a : Action α} {f : α → Action β} {first later : List EndpointId}
    (h : a.Polls link first) (h' : ∀ value, (f value).Polls link later) :
    (a >>= f).Polls link (first ++ later) := by
  intro s
  obtain ⟨⟨value, came⟩, asked⟩ := h s
  rw [run_bind, trace_bind, sendings_append, asked]
  rcases run : a.run link s with ⟨result, s₁⟩
  obtain rfl : result = .ok value := by rw [← came, run]
  obtain ⟨comes, rest⟩ := h' value s₁
  exact ⟨comes, by rw [rest, questions, questions, questions, List.map_append]⟩

theorem Polls.map {a : Action α} {addresses : List EndpointId} (h : a.Polls link addresses)
    (f : α → β) : (a >>= fun value => done (f value)).Polls link addresses := by
  have both := h.bind fun value => polls_done (f value)
  rwa [List.append_nil] at both

private theorem polls_attempt {a : Action α} {addresses : List EndpointId}
    (h : ∀ s, sendings (a.trace link s) = questions addresses) :
    a.attempt.Polls link addresses := by
  intro s
  rw [run_attempt, trace_attempt]
  exact ⟨⟨_, rfl⟩, h s⟩

private theorem polls_forEach {f : α → Action β} {asked : α → List EndpointId} {l : List α}
    (h : ∀ a ∈ l, (f a).Polls link (asked a)) : (forEach f l).Polls link (l.flatMap asked) := by
  induction l with
  | nil => exact polls_done []
  | cons a rest ih =>
    have first := h a List.mem_cons_self
    have others := ih fun b inside => h b (List.mem_cons_of_mem a inside)
    exact first.bind fun b => others.map fun bs => b :: bs

end Action

/-! Actions that ask for values only. -/

namespace Action

variable {α β σ : Type} {link : Transport σ} {allowed : EndpointId → Prop}

/-- Whatever the state of a transport is, an action sends nothing but requests for the values at
allowed addresses. -/
def Asks (link : Transport σ) (allowed : EndpointId → Prop) (a : Action α) : Prop :=
  ∀ s, ∀ sent ∈ sendings (a.trace link s), sent.2 = [] ∧ allowed sent.1

private theorem asks_finish (result : Except DeviceError α) :
    (finish result).Asks link allowed := by
  intro s sent inside
  simp [sendings] at inside

theorem Asks.bind {a : Action α} {f : α → Action β} (h : a.Asks link allowed)
    (h' : ∀ value, (f value).Asks link allowed) : (a >>= f).Asks link allowed := by
  intro s sent inside
  rw [trace_bind, sendings_append, List.mem_append] at inside
  rcases inside with first | later
  · exact h s sent first
  · rcases run : a.run link s with ⟨error | value, s₁⟩
    · simp [run, sendings] at later
    · rw [run] at later
      exact h' value s₁ sent later

private theorem asks_forEach {f : α → Action β} {l : List α}
    (h : ∀ a ∈ l, (f a).Asks link allowed) : (forEach f l).Asks link allowed := by
  induction l with
  | nil => exact asks_finish _
  | cons a rest ih =>
    have others := ih fun b inside => h b (List.mem_cons_of_mem a inside)
    exact (h a List.mem_cons_self).bind fun b => others.bind fun bs => asks_finish _

private theorem Polls.asks {a : Action α} {addresses : List EndpointId} (h : a.Polls link addresses)
    (each : ∀ address ∈ addresses, allowed address) : a.Asks link allowed := by
  intro s sent inside
  rw [(h s).2, questions, List.mem_map] at inside
  obtain ⟨address, listed, rfl⟩ := inside
  exact ⟨rfl, each address listed⟩

end Action

namespace Action

variable {α σ : Type} {link : Transport σ}

private theorem sendings_exchange (endpoint : EndpointId) (payload : Payload)
    (meaning : Payload → Except DeviceError α) (s : σ) :
    sendings ((exchange endpoint payload >>= fun answer =>
      ofExcept (meaning answer)).trace link s) = [(endpoint, payload)] := by
  rcases exchange_cases rfl link s with
    ⟨error, s', -, trace⟩ | ⟨error, s', -, trace⟩ | ⟨answer, s', -, trace⟩ <;>
  · rw [trace]
    rfl

end Action

namespace Endpoint

open DeviceLink.Action (polls_done polls_attempt)

variable {e : Entity} {σ : Type} {link : Transport σ}

theorem readAddress_eq_ok_iff {path : String} {address : EndpointId} :
    readAddress path e = .ok address ↔ e.readable? = some address := by
  obtain ⟨info, body⟩ := e
  cases body with
  | node children => simp [readAddress, Entity.readable?]
  | function f => simp [readAddress, Entity.readable?]
  | register r =>
    simp only [readAddress, Entity.readable?]
    split <;> simp
  | selector s =>
    simp only [readAddress, Entity.readable?]
    split <;> simp
  | bitmask b =>
    simp only [readAddress, Entity.readable?]
    split <;> simp

private theorem sendings_read (path : String) (e : Entity) (s : σ) :
    sendings ((read path e).trace link s) = questions e.readable?.toList := by
  rw [read]
  cases reached : readAddress path e with
  | error error =>
    have hidden : e.readable? = none := by
      refine Option.eq_none_iff_forall_ne_some.mpr fun address readable => ?_
      rw [readAddress_eq_ok_iff.mpr readable] at reached
      cases reached
    rw [hidden]
    rfl
  | ok address =>
    rw [readAddress_eq_ok_iff.mp reached]
    exact Action.sendings_exchange address [] (decodeValue path e) s

private theorem polls_readingText (path : String) (e : Entity) :
    (Tree.readingText path e).Polls link e.readable?.toList := by
  have shown : (Tree.readingText path e).Polls link (e.readable?.toList ++ []) := by
    refine (polls_attempt (sendings_read path e)).bind fun result => ?_
    cases result <;> exact polls_done _
  rwa [List.append_nil] at shown

private theorem polls_endpointLine (indent path : String) (leaf : e.isNode = false) :
    (Tree.endpointLine indent path e).Polls link e.readable?.toList := by
  have shown : (Tree.readingText path e).Polls link e.readable?.toList := polls_readingText path e
  obtain ⟨info, body⟩ := e
  cases body with
  | node children => simp [Entity.isNode, Entity.kind] at leaf
  | function f => exact polls_done _
  | register r => exact shown.map _
  | selector s => exact shown.map _
  | bitmask b => exact shown.map _

end Endpoint

namespace Tree

open DeviceLink.Action (polls_done polls_forEach asks_finish asks_forEach)

variable {t : Tree} {id : Nat} {σ : Type} {link : Transport σ}

def readable? (t : Tree) (id : Nat) : Option EndpointId :=
  (t.get? id).bind Entity.readable?

/-- How many steps lead from a place up to the root. -/
def level (t : Tree) (id : Nat) : Nat :=
  match t.parent? id with
  | none => 0
  | some p => if p < id then t.level p + 1 else 0
termination_by id

def isWithin (t : Tree) (id depth other : Nat) : Bool :=
  t.level id < t.level other && t.level other ≤ t.level id + depth

/-- The addresses of the values that can be read below a place, at most so many levels deep, in the
order of the walk. -/
def readableBelow (t : Tree) (id depth : Nat) : List EndpointId :=
  ((t.subtree id).filter (t.isWithin id depth)).filterMap t.readable?

private theorem Sound.level_eq (h : t.Sound) {c p : Nat} (parent : t.parent? c = some p) :
    t.level c = t.level p + 1 := by
  rw [level, parent]
  exact if_pos (h.lt_of_parent? parent).1

private theorem Sound.level_le_of_below (h : t.Sound) {a b : Nat} (below : t.Below a b) :
    t.level b ≤ t.level a := by
  induction below with
  | refl => exact Nat.le_refl _
  | step parent _ ih =>
    rw [h.level_eq parent]
    exact Nat.le_succ_of_le ih

private theorem readableBelow_zero (t : Tree) (id : Nat) : t.readableBelow id 0 = [] := by
  have nothing : (t.subtree id).filter (t.isWithin id 0) = [] := by
    refine List.filter_eq_nil_iff.mpr fun x _ => ?_
    simp only [isWithin, Bool.and_eq_true, decide_eq_true_eq]
    omega
  rw [readableBelow, nothing, List.filterMap_nil]

private theorem Sound.readableBelow_succ (h : t.Sound) (id depth : Nat) :
    t.readableBelow id (depth + 1) =
    (t.children id).flatMap fun c => (t.readable? c).toList ++ t.readableBelow c depth := by
  have self (x : Nat) (depth : Nat) : t.isWithin x depth x = false := by
    simp [isWithin]
  rw [readableBelow, h.subtree_eq, List.filter_cons_of_neg (by simp [self]), List.filter_flatMap,
    List.filterMap_flatMap, List.flatMap_def, List.flatMap_def]
  refine congrArg List.flatten (List.map_congr_left fun c child => ?_)
  have next : t.level c = t.level id + 1 := h.level_eq (h.owned id c child)
  have here : t.isWithin id (depth + 1) c = true := by
    simp only [isWithin, Bool.and_eq_true, decide_eq_true_eq]
    omega
  -- All that is strictly below the child is deeper than it, so that only the lower bounds differ.
  have deeper : ((t.children c).flatMap t.subtree).filter (t.isWithin id (depth + 1)) =
      ((t.children c).flatMap t.subtree).filter (t.isWithin c depth) := by
    refine List.filter_congr fun x inside => ?_
    obtain ⟨c', child', within⟩ := List.mem_flatMap.mp inside
    have below := h.level_le_of_below (h.mem_subtree.mp within)
    have further : t.level c' = t.level c + 1 := h.level_eq (h.owned c c' child')
    rw [Bool.eq_iff_iff]
    simp only [isWithin, Bool.and_eq_true, decide_eq_true_eq]
    omega
  rw [readableBelow, h.subtree_eq c, List.filter_cons_of_pos here,
    List.filter_cons_of_neg (by simp [self]), deeper]
  cases shown : t.readable? c with
  | none => rw [List.filterMap_cons_none shown, Option.toList_none, List.nil_append]
  | some address => rw [List.filterMap_cons_some shown, Option.toList_some, List.singleton_append]

private theorem readable?_eq {e : Entity} (found : t.get? id = some e) :
    t.readable? id = e.readable? := by
  rw [readable?, found, Option.bind_some]

private theorem Sound.readableBelow_of_leaf (h : t.Sound) {e : Entity} (found : t.get? id = some e)
    (leaf : e.isNode = false) (depth : Nat) : t.readableBelow id depth = [] := by
  cases depth with
  | zero => exact t.readableBelow_zero id
  | succ depth => rw [h.readableBelow_succ, children_of_leaf found leaf, List.flatMap_nil]

private theorem Sound.polls_listing (h : t.Sound) (indent : String) (depth id : Nat) :
    (t.listing indent depth id).Polls link (t.readableBelow id depth) := by
  induction depth generalizing indent id with
  | zero =>
    rw [listing, readableBelow_zero]
    exact polls_done _
  | succ depth ih =>
    rw [listing, h.readableBelow_succ]
    refine (polls_forEach fun c child => ?_).map _
    obtain ⟨e, found⟩ := exists_get? (h.bounds_of_mem_children child).2
    rw [withEntity, found, readable?_eq found]
    -- A node is not asked itself, and an endpoint has nothing below it to ask.
    by_cases node : e.isNode = true
    · simp only [node, if_true]
      rw [Entity.readable?_of_isNode node, Option.toList_none, List.nil_append]
      exact (ih (indent ++ "  ") c).map _
    · have leaf := Bool.eq_false_of_not_eq_true node
      simp only [leaf, Bool.false_eq_true, if_false]
      rw [h.readableBelow_of_leaf found leaf, List.append_nil]
      exact Endpoint.polls_endpointLine indent (t.displayPath c) leaf

/-- The addresses of the values that can be read somewhere in a tree. -/
def Readable (t : Tree) (address : EndpointId) : Prop :=
  ∃ id, t.readable? id = some address

private theorem asks_read (id : Nat) : (t.read id).Asks link t.Readable := by
  rw [read, withEntity]
  cases found : t.get? id with
  | none => exact asks_finish _
  | some e =>
    intro s sent inside
    rw [Endpoint.sendings_read, questions, List.mem_map] at inside
    obtain ⟨address, listed, rfl⟩ := inside
    exact ⟨rfl, id, by rw [readable?_eq found, Option.mem_toList.mp listed]⟩

private theorem asks_member (id : Nat) : (t.member id).Asks link t.Readable := by
  cases found : t.get? id with
  | none =>
    rw [member, withEntity, found]
    exact asks_finish _
  | some e =>
    rw [member_eq found]
    cases e.kind with
    | node => exact asks_finish _
    | function => exact asks_finish _
    | register | selector | bitmask => exact (asks_read id).bind fun v => asks_finish _

private theorem asks_exportEntity (h : t.Sound) (id : Nat) :
    (t.exportEntity id).Asks link t.Readable := by
  induction id using h.descend with
  | step id ih =>
    have asked : (t.read id).Asks link t.Readable := asks_read id
    rw [exportEntity, withEntity]
    rw [read, withEntity] at asked
    cases found : t.get? id with
    | none => exact asks_finish _
    | some e =>
      simp only [found] at asked
      have same := children_eq found
      by_cases node : e.isNode = true
      · simp only [node, if_true]
        refine (asks_forEach fun c child => ?_).bind fun members => asks_finish _
        rw [← same] at child
        rw [if_pos (h.bounds_of_mem_children child)]
        exact (ih c child).bind fun value => asks_finish _
      · have leaf := Bool.eq_false_of_not_eq_true node
        simp only [leaf, Bool.false_eq_true, if_false, exportEndpoint]
        split
        · exact asked.bind fun v => asks_finish _
        · exact asks_finish _

private theorem asks_memberOf (found : Except DeviceError Nat) :
    (Action.ofExcept found >>= t.member).Asks link t.Readable :=
  (asks_finish found).bind fun id => asks_member id

/-- Messages that only ask for values: each one is an empty payload to the address of a value that
can be read. None goes to a function that shares its address with nothing else. -/
structure OnlyAsks (t : Tree) (trace : List Message) : Prop where
  empty : ∀ sent ∈ sendings trace, sent.2 = []
  readable : ∀ sent ∈ sendings trace, t.Readable sent.1
  spared : ∀ id e, t.get? id = some e → e.kind = .function →
    (∀ other, t.address? other = t.address? id → other = id) →
    ∀ sent ∈ sendings trace, t.address? id ≠ some sent.1

private theorem address?_of_readable? {address : EndpointId} (h : t.readable? id = some address) :
    t.address? id = some address ∧ ∀ e, t.get? id = some e → e.kind ≠ .function := by
  obtain ⟨⟨info, body⟩, found, shown⟩ := Option.bind_eq_some_iff.mp h
  rw [address?, found]
  cases body with
  | node children => simp [Entity.readable?] at shown
  | function f => simp [Entity.readable?] at shown
  | register | selector | bitmask =>
    simp_all [Entity.readable?, Entity.endpoint?, Entity.kind]

private theorem onlyAsks_of_asks {α : Type} {a : Action α} (h : a.Asks link t.Readable) (s : σ) :
    t.OnlyAsks (a.trace link s) where
  empty sent inside := (h s sent inside).1
  readable sent inside := (h s sent inside).2
  spared id e found function alone sent inside same := by
    obtain ⟨other, shown⟩ := (h s sent inside).2
    obtain ⟨there, valued⟩ := address?_of_readable? shown
    obtain rfl := alone other (there.trans same.symm)
    exact valued e found function

/-- What only looks at a device asks for values and does nothing else. A listing asks exactly for
the values below its node, down to its depth, and always comes to an end. -/
structure Inspects (t : Tree) (link : Transport σ) (s : σ) : Prop where
  get : ∀ path, t.OnlyAsks ((t.get path).trace link s)
  getNamed : ∀ id name, t.OnlyAsks ((t.getNamed id name).trace link s)
  readNamed : ∀ id name, t.OnlyAsks ((t.readNamed id name).trace link s)
  nodeText : ∀ id, t.OnlyAsks ((t.nodeText id).trace link s)
  exportValues : ∀ id, t.OnlyAsks ((t.exportValues id).trace link s)
  listing : ∀ indent depth id, t.OnlyAsks ((t.listing indent depth id).trace link s)
  exact_listing : ∀ indent depth id,
    (∃ text, ((t.listing indent depth id).run link s).1 = .ok text) ∧
      sendings ((t.listing indent depth id).trace link s) = questions (t.readableBelow id depth)
  deviceHash : sendings (deviceHash.trace link s) = questions [hashEndpoint]
  checkHash : sendings (t.checkHash.trace link s) = questions [hashEndpoint]

/-- Reads, listings and exports never act on a device, however the tree has come about and whatever
the device answers. -/
theorem inspects {t : Tree} (h : t.Reachable) {σ : Type} (link : Transport σ) (s : σ) :
    t.Inspects link s := by
  have asks_listing (indent : String) (depth id : Nat) :
      (t.listing indent depth id).Asks link t.Readable := by
    refine (h.sound.polls_listing indent depth id).asks fun address listed => ?_
    obtain ⟨x, -, shown⟩ := List.mem_filterMap.mp listed
    exact ⟨x, shown⟩
  have asked : sendings (deviceHash.trace link s) = questions [hashEndpoint] :=
    Action.sendings_exchange hashEndpoint [] hashOf s
  exact {
    get := fun path => onlyAsks_of_asks (asks_memberOf (t.childAt path)) s
    getNamed := fun id name => onlyAsks_of_asks (asks_memberOf (t.childNamed id name)) s
    readNamed := fun id name => by
      have one : (t.readNamed id name).Asks link t.Readable :=
        (asks_finish (t.childNamed id name)).bind fun child => asks_read child
      exact onlyAsks_of_asks one s
    nodeText := fun id => onlyAsks_of_asks (asks_listing "" textDepth id) s
    exportValues := fun id => by
      have all : (t.exportValues id).Asks link t.Readable :=
        (asks_exportEntity h.sound id).bind fun data => asks_finish _
      exact onlyAsks_of_asks all s
    listing := fun indent depth id => onlyAsks_of_asks (asks_listing indent depth id) s
    exact_listing := fun indent depth id => h.sound.polls_listing indent depth id s
    deviceHash := asked
    checkHash := by
      rw [checkHash, Action.trace_bind, sendings_append, asked]
      rcases deviceHash.run link s with ⟨error | hash, s'⟩
      · rfl
      · by_cases same : hash = t.hash
        · simp only [same, if_true]
          rfl
        · simp only [same, if_false]
          rfl }

/-- A tree with a node, which holds a value and a function without arguments. -/
def cabinet : Tree :=
  (((ofRoot { name := "cabinet" } false).afterAdd rootId
        ⟨{ name := "motor" }, .node []⟩).afterAdd 1
      ⟨{ name := "speed", exported := true }, .register
        { dataType := .uint8, access := { getter := some "get_speed" }, endpoint := 1 }⟩).afterAdd 1
    ⟨{ name := "stop" }, .function { caller := "motor_stop", endpoint := 2 }⟩

/-- On a link that never heard of it, the whole text of the tree asks for the one value, and does
not call the function. -/
theorem inspects_cabinet : cabinet.Inspects (MemoryLink.transport .standardTimeout) {} ∧
    sendings ((cabinet.nodeText rootId).trace (MemoryLink.transport .standardTimeout) {}) =
      [(1, [])] := by
  have reachable : cabinet.Reachable := .add _ _ (.add _ _ (.add _ _ (.root _ _)))
  have harmless := inspects reachable (MemoryLink.transport .standardTimeout) {}
  refine ⟨harmless, ?_⟩
  have shown : cabinet.readableBelow rootId textDepth = [1] := by decide +kernel
  rw [nodeText, (harmless.exact_listing "" textDepth rootId).2, shown]
  rfl

end Tree

end DeviceLink
