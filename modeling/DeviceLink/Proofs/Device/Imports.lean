import DeviceLink.Proofs.Device.ExportedTexts

/-!
Imports, place by place. Whatever the data is, an import goes through the places below a node in the
order of the walk and does one task at each of them (`Tree.Sound.importEntity_eq_inOrder`). Tasks in
order are done up to the first one that is refused, by the host or by the transport
(`Action.ends_inOrder`). So an import writes to the exported endpoints that are named in the data,
in their order and up to the first failure, and exchanges no other message
(`Tree.import_confined`).
-/

set_option autoImplicit false
set_option relaxedAutoImplicit false

namespace DeviceLink

open Wire (Payload)

/-! Tasks in order. -/

/-- What there is to do in one step of a sequence. -/
inductive Task where
  | idle
  | refusal (error : DeviceError)
  | message (endpoint : EndpointId) (payload : Payload)

def Task.ofExcept : Except DeviceError (EndpointId × Payload) → Task
  | .ok (endpoint, payload) => message endpoint payload
  | .error error => refusal error

namespace Action

variable {α β γ σ : Type}

def perform : Task → Action Unit
  | .idle => done ()
  | .refusal error => fail error
  | .message endpoint payload => tell endpoint payload

/-- An action for each member of a list, in order, for the messages alone. -/
def inOrder (f : α → Action Unit) : List α → Action Unit
  | [] => done ()
  | a :: rest => f a >>= fun _ => inOrder f rest

private theorem andThen_done (a : Action α) : a.andThen done = a := by
  induction a with
  | finish result => cases result <;> rfl
  | send endpoint payload next ih => exact congrArg (send endpoint payload) (funext ih)
  | receive endpoint next ih => exact congrArg (receive endpoint) (funext ih)

private theorem andThen_assoc (a : Action α) (f : α → Action β) (g : β → Action γ) :
    (a.andThen f).andThen g = a.andThen fun value => (f value).andThen g := by
  induction a with
  | finish result => cases result <;> rfl
  | send endpoint payload next ih => exact congrArg (send endpoint payload) (funext ih)
  | receive endpoint next ih => exact congrArg (receive endpoint) (funext ih)

instance : LawfulMonad Action :=
  .mk' Action andThen_done (fun _ _ => rfl) andThen_assoc

private theorem inOrder_append (f : α → Action Unit) (l l' : List α) :
    inOrder f (l ++ l') = inOrder f l >>= fun _ => inOrder f l' := by
  induction l with
  | nil => rfl
  | cons a rest ih => rw [List.cons_append, inOrder, inOrder, ih, bind_assoc]

private theorem inOrder_flatMap (f : β → Action Unit) (g : α → List β) (l : List α) :
    inOrder f (l.flatMap g) = inOrder (fun a => inOrder f (g a)) l := by
  induction l with
  | nil => rfl
  | cons a rest ih => rw [List.flatMap_cons, inOrder_append, inOrder, ih]

private theorem inOrder_congr {f g : α → Action Unit} {l : List α} (h : ∀ a ∈ l, f a = g a) :
    inOrder f l = inOrder g l := by
  induction l with
  | nil => rfl
  | cons a rest ih =>
    rw [inOrder, inOrder, h a List.mem_cons_self,
      ih fun b inside => h b (List.mem_cons_of_mem a inside)]

private theorem inOrder_done (l : List α) : inOrder (fun _ => done ()) l = done () := by
  induction l with
  | nil => rfl
  | cons a rest ih => exact ih

private theorem forEach_bind_done (f : α → Action Unit) (l : List α) :
    (forEach f l >>= fun _ => done ()) = inOrder f l := by
  induction l with
  | nil => rfl
  | cons a rest ih =>
    rw [inOrder, ← ih]
    change (f a >>= fun b => forEach f rest >>= fun bs => done (b :: bs)) >>= _ = _
    rw [bind_assoc]
    exact congrArg (f a >>= ·) (funext fun b => bind_assoc _ _ _)

/-- The messages of tasks that are all done. -/
inductive Taken (task : α → Task) : List α → List Message → Prop
  | nil : Taken task [] []
  | idle {a : α} {rest : List α} {trace : List Message} : task a = .idle →
      Taken task rest trace → Taken task (a :: rest) trace
  | sent {a : α} {rest : List α} {endpoint : EndpointId} {payload : Payload}
      {trace : List Message} : task a = .message endpoint payload → Taken task rest trace →
      Taken task (a :: rest) (.sent endpoint payload (.ok ()) :: trace)

/-- How tasks in order end, with the result and the messages. Either all of them are done, or one of
them fails on the host, or its message is not taken. Those before it are done, and no message comes
after it. -/
inductive Ends (task : α → Task) (l : List α) : Except DeviceError Unit → List Message → Prop
  | through {trace : List Message} : Taken task l trace → Ends task l (.ok ()) trace
  | refused {front back : List α} {a : α} {error : DeviceError} {trace : List Message} :
      l = front ++ a :: back → Taken task front trace → task a = .refusal error →
      Ends task l (.error error) trace
  | unsent {front back : List α} {a : α} {endpoint : EndpointId} {payload : Payload}
      {cause : TransportError} {trace : List Message} : l = front ++ a :: back →
      Taken task front trace → task a = .message endpoint payload →
      Ends task l (.error (.transport cause)) (trace ++ [.sent endpoint payload (.error cause)])

variable {task : α → Task} {a : α} {rest : List α} {result : Except DeviceError Unit}
  {trace : List Message}

private theorem Ends.cons_idle (here : task a = .idle) (h : Ends task rest result trace) :
    Ends task (a :: rest) result trace := by
  cases h with
  | through taken => exact .through (.idle here taken)
  | refused split taken own => exact .refused (congrArg (a :: ·) split) (.idle here taken) own
  | unsent split taken own => exact .unsent (congrArg (a :: ·) split) (.idle here taken) own

private theorem Ends.cons_sent {endpoint : EndpointId} {payload : Payload}
    (here : task a = .message endpoint payload) (h : Ends task rest result trace) :
    Ends task (a :: rest) result (.sent endpoint payload (.ok ()) :: trace) := by
  cases h with
  | through taken => exact .through (.sent here taken)
  | refused split taken own => exact .refused (congrArg (a :: ·) split) (.sent here taken) own
  | unsent split taken own => exact .unsent (congrArg (a :: ·) split) (.sent here taken) own

/-- Over any transport, tasks in order are done up to the first one that fails. -/
theorem ends_inOrder (task : α → Task) (l : List α) (link : Transport σ) (s : σ) :
    Ends task l ((inOrder (fun a => perform (task a)) l).run link s).1
      ((inOrder (fun a => perform (task a)) l).trace link s) := by
  induction l generalizing s with
  | nil => exact .through .nil
  | cons a rest ih =>
    rw [inOrder]
    cases own : task a with
    | idle => exact (ih s).cons_idle own
    | refusal error => exact .refused (List.nil_append _).symm .nil own
    | message endpoint payload =>
      rw [run_bind, trace_bind, perform, tell, run, trace_send]
      rcases link.send endpoint payload s with ⟨cause | ⟨⟩, s₁⟩
      · exact .unsent (List.nil_append _).symm .nil own
      · exact (ih s₁).cons_sent own

private theorem Taken.forall₂ {l : List α} (h : Taken task l trace) {p : α → Bool}
    (quiet : ∀ a, task a = .idle → p a = false)
    (loud : ∀ a endpoint payload, task a = .message endpoint payload → p a = true) :
    List.Forall₂ (fun a message => ∃ endpoint payload, task a = .message endpoint payload ∧
      message = .sent endpoint payload (.ok ())) (l.filter p) trace := by
  induction h with
  | nil => exact .nil
  | idle here _ ih =>
    rw [List.filter_cons_of_neg (by simp [quiet _ here])]
    exact ih
  | sent here _ ih =>
    rw [List.filter_cons_of_pos (loud _ _ _ here)]
    exact .cons ⟨_, _, here, rfl⟩ ih

end Action

/-! Data for the places below a node. -/

private theorem Json.behind?_singleton (members : Json.Members) (name : String) :
    (Json.object members).behind? [name] = Json.Members.get? members name := by
  rw [behind?]
  cases Members.get? members name with
  | none => rfl
  | some value => cases value <;> rfl

private theorem Json.behind?_cons_eq_bind (data : Json) (name : String) (names : List String) :
    data.behind? (name :: names) = (data.behind? [name]).bind (·.behind? names) := by
  cases data with
  | null | bool | integer | real | string | array => rfl
  | object members =>
    rw [behind?_singleton]
    rfl

namespace Tree

variable {t : Tree} {top c x : Nat} {names : List String} {data : Json}

def namesBelow (t : Tree) (top x : Nat) : List String :=
  (t.pathNames x).drop (t.pathNames top).length

/-- What the data for a place holds for one below it. -/
def dataFor? (t : Tree) (top : Nat) (data : Json) (x : Nat) : Option Json :=
  data.behind? (t.namesBelow top x)

private theorem namesBelow_self (t : Tree) (top : Nat) : t.namesBelow top top = [] :=
  List.drop_length

private theorem dataFor?_self (t : Tree) (top : Nat) (data : Json) :
    t.dataFor? top data top = some data := by
  rw [dataFor?, namesBelow_self]
  cases data <;> rfl

namespace Sound

private theorem pathNames_prefix_of_below (h : t.Sound) (below : t.Below x c) :
    t.pathNames c <+: t.pathNames x := by
  induction below with
  | refl => exact List.prefix_refl _
  | step parent _ ih =>
    rw [h.pathNames_child parent]
    exact ih.trans (List.prefix_append _ _)

private theorem namesBelow_child (h : t.Sound) (child : c ∈ t.children top)
    (inside : x ∈ t.subtree c) : t.namesBelow top x = t.nameOf c :: t.namesBelow c x := by
  obtain ⟨rest, path⟩ := h.pathNames_prefix_of_below (h.mem_subtree.mp inside)
  rw [namesBelow, namesBelow, ← path, List.drop_left, h.pathNames_child (h.owned top c child),
    List.append_assoc, List.drop_left]
  rfl

private theorem dataFor?_child (h : t.Sound) (child : c ∈ t.children top) (inside : x ∈ t.subtree c)
    (data : Json) :
    t.dataFor? top data x = (data.behind? [t.nameOf c]).bind (t.dataFor? c · x) := by
  rw [dataFor?, h.namesBelow_child child inside, Json.behind?_cons_eq_bind]
  rfl

private theorem follow_eq_ok_iff (h : t.Sound) :
    t.follow top names = .ok x ↔ x ∈ t.subtree top ∧ names = t.namesBelow top x := by
  constructor
  · intro way
    refine ⟨h.mem_subtree_of_follow way, ?_⟩
    induction names generalizing top with
    | nil =>
      obtain rfl := Except.ok.inj way
      exact (t.namesBelow_self top).symm
    | cons name rest ih =>
      obtain ⟨c, child, later⟩ := follow_cons_iff.mp way
      obtain ⟨member, named⟩ := mem_children_of_child? child
      rw [h.namesBelow_child member (h.mem_subtree_of_follow later), named, ← ih later]
  · rintro ⟨inside, rfl⟩
    induction top using h.descend with
    | step top ih =>
      rw [h.subtree_eq, List.mem_cons, List.mem_flatMap] at inside
      rcases inside with rfl | ⟨c, child, within⟩
      · rw [namesBelow_self]
        rfl
      · rw [h.namesBelow_child child within]
        have found : t.child? top (t.nameOf c) = some c :=
          h.child?_eq_some_iff.mpr ⟨h.owned top c child, rfl⟩
        exact follow_cons_iff.mpr ⟨c, found, ih c child within⟩

end Sound

/-! The task at one place. -/

def importMessage (path : String) (e : Entity) (data : Json) :
    Except DeviceError (EndpointId × Payload) := do
  let value ← Endpoint.valueOfJson path e data
  Endpoint.writeMessage path e value

/-- What an import does about an entity itself, with the data for it. A node must have an object,
and an exported endpoint gets a message. -/
def importTask (path : String) (e : Entity) (data : Json) : Task :=
  if e.isNode then
    match data with
    | .object _ => .idle
    | data => .refusal (.invalidValue path data.text)
  else if e.isSaved then .ofExcept (importMessage path e data)
  else .idle

/-- What an import into a place does at one below it. -/
def taskAt (t : Tree) (top : Nat) (data : Json) (x : Nat) : Task :=
  match t.get? x, t.dataFor? top data x with
  | some e, some value => importTask (t.displayPath x) e value
  | _, _ => .idle

/-- Whether a place is an exported endpoint that is named in the data. -/
def isNamedAt (t : Tree) (top : Nat) (data : Json) (x : Nat) : Bool :=
  t.isSavedAt x && (t.dataFor? top data x).isSome

/-- The exported endpoints below a place that are named in the data, in the order of the walk. -/
def namedBelow (t : Tree) (top : Nat) (data : Json) : List Nat :=
  (t.subtree top).filter (t.isNamedAt top data)

variable {e : Entity} {path : String}

private theorem perform_ofExcept (result : Except DeviceError (EndpointId × Payload)) :
    Action.perform (.ofExcept result) =
      Action.ofExcept result >>= fun message => .tell message.1 message.2 := by
  cases result <;> rfl

private theorem importEndpoint_eq_perform (leaf : e.isNode = false) (data : Json) :
    importEndpoint path e data = .perform (importTask path e data) := by
  rw [importEndpoint, Entity.isSaved_of_leaf leaf]
  simp only [importTask, leaf, Bool.false_eq_true, if_false]
  split
  · rw [perform_ofExcept, importMessage]
    cases Endpoint.valueOfJson path e data <;> rfl
  · rfl

private theorem taskAt_self (found : t.get? x = some e) (data : Json) :
    t.taskAt x data x = importTask (t.displayPath x) e data := by
  rw [taskAt, found, dataFor?_self]

private theorem taskAt_of_none (missing : t.dataFor? top data x = none) :
    t.taskAt top data x = .idle := by
  rw [taskAt, missing]
  cases t.get? x <;> rfl

namespace Sound

private theorem taskAt_child (h : t.Sound) (child : c ∈ t.children top) (inside : x ∈ t.subtree c)
    {value : Json} (named : data.behind? [t.nameOf c] = some value) :
    t.taskAt top data x = t.taskAt c value x := by
  rw [taskAt, taskAt, h.dataFor?_child child inside, named, Option.bind_some]

private theorem importMember_eq_inOrder (h : t.Sound) (members : Json.Members)
    (child : c ∈ t.children top)
    (below : ∀ value, t.importEntity c value =
      .inOrder (fun x => .perform (t.taskAt c value x)) (t.subtree c)) :
    t.importMember members c =
      .inOrder (fun x => .perform (t.taskAt top (.object members) x)) (t.subtree c) := by
  have here := Json.behind?_singleton members (t.nameOf c)
  rw [importMember]
  cases named : Json.Members.get? members (t.nameOf c) with
  | none =>
    rw [named] at here
    have idle : ∀ x ∈ t.subtree c,
        Action.perform (t.taskAt top (.object members) x) = .done () := by
      intro x inside
      rw [taskAt_of_none (by rw [h.dataFor?_child child inside, here, Option.bind_none])]
      rfl
    rw [Action.inOrder_congr idle, Action.inOrder_done]
  | some value =>
    rw [named] at here
    change t.importEntity c value = _
    rw [below value]
    exact Action.inOrder_congr fun x inside =>
      congrArg Action.perform (h.taskAt_child child inside here).symm

theorem importEntity_eq_inOrder (h : t.Sound) (inside : top < t.size) (data : Json) :
    t.importEntity top data =
      .inOrder (fun x => .perform (t.taskAt top data x)) (t.subtree top) := by
  induction top using h.descend generalizing data with
  | step top ih =>
    obtain ⟨e, found⟩ := exists_get? inside
    rw [h.subtree_eq, Action.inOrder, taskAt_self found]
    by_cases node : e.isNode = true
    · simp only [importTask, node, if_true]
      -- The data for a node either ends the import or is made of the data for the children.
      cases data with
      | null | bool | integer | real | string | array =>
        rw [importEntity, withEntity, found]
        simp only [node, if_true]
        rfl
      | object members =>
        rw [h.importEntity_node ⟨e, found, node⟩, Action.forEach_bind_done,
          Action.inOrder_flatMap]
        change _ = Action.inOrder _ (t.children top)
        exact Action.inOrder_congr fun c child =>
          h.importMember_eq_inOrder members child (ih c child (h.bounds_of_mem_children child).2)
    · have leaf := Bool.eq_false_of_not_eq_true node
      rw [children_of_leaf found leaf, importEntity, withEntity, found]
      simp only [leaf, Bool.false_eq_true, if_false]
      rw [importEndpoint_eq_perform leaf]
      exact (bind_pure _).symm

end Sound

/-! What an import sends. -/

/-- A message to the address of a place, with what the data has for the place. -/
def Conveys (t : Tree) (top : Nat) (data : Json) (outcome : Except TransportError Unit) (x : Nat)
    (message : Message) : Prop :=
  ∃ e value endpoint payload, t.get? x = some e ∧ t.dataFor? top data x = some value ∧
    importMessage (t.displayPath x) e value = .ok (endpoint, payload) ∧
    e.endpoint? = some endpoint ∧ message = .sent endpoint payload outcome

/-- The end of an import that fails at a place. The endpoints before it that are named in the data
have their messages. The place itself is refused on the host, or its message is the last one and is
not taken. -/
def FailsAt (t : Tree) (top : Nat) (data : Json) (front : List Nat) (x : Nat) (error : DeviceError)
    (trace : List Message) : Prop :=
  ∃ before,
    List.Forall₂ (t.Conveys top data (.ok ())) (front.filter (t.isNamedAt top data)) before ∧
    (t.taskAt top data x = .refusal error ∧ trace = before ∨
      ∃ cause last, t.isNamedAt top data x = true ∧ t.Conveys top data (.error cause) x last ∧
        error = .transport cause ∧ trace = before ++ [last])

private theorem isNamedAt_iff : t.isNamedAt top data x = true ↔
    ∃ e value, t.get? x = some e ∧ e.isSaved = true ∧ t.dataFor? top data x = some value := by
  rw [isNamedAt, isSavedAt, Bool.and_eq_true]
  cases t.get? x <;> cases t.dataFor? top data x <;> simp

private theorem taskAt_of_isNamedAt (named : t.isNamedAt top data x = true) : ∃ e value,
    t.get? x = some e ∧ t.dataFor? top data x = some value ∧
      t.taskAt top data x = .ofExcept (importMessage (t.displayPath x) e value) := by
  obtain ⟨e, value, found, saved, data⟩ := isNamedAt_iff.mp named
  refine ⟨e, value, found, data, ?_⟩
  rw [taskAt, found, data]
  simp only [importTask, Entity.isNode_of_isSaved saved, saved, if_true, Bool.false_eq_true,
    if_false]

private theorem isNamedAt_of_idle (idle : t.taskAt top data x = .idle) :
    t.isNamedAt top data x = false := by
  refine Bool.eq_false_of_not_eq_true fun named => ?_
  obtain ⟨e, value, -, -, task⟩ := taskAt_of_isNamedAt named
  rw [idle] at task
  cases written : importMessage (t.displayPath x) e value <;> simp [written, Task.ofExcept] at task

private theorem isNamedAt_of_message {endpoint : EndpointId} {payload : Payload}
    (task : t.taskAt top data x = .message endpoint payload) :
    t.isNamedAt top data x = true := by
  rw [taskAt] at task
  split at task
  · rename_i e value found held
    refine isNamedAt_iff.mpr ⟨e, value, found, ?_, held⟩
    by_contra plain
    by_cases node : e.isNode = true
    · cases value <;> simp [importTask, node] at task
    · simp [importTask, node, plain] at task
  · cases task

private theorem endpoint?_of_importMessage {endpoint : EndpointId} {payload : Payload}
    (h : importMessage path e data = .ok (endpoint, payload)) : e.endpoint? = some endpoint := by
  obtain ⟨value, -, written⟩ := bind_eq_ok_iff.mp h
  exact Endpoint.endpoint?_of_writeMessage written

private theorem conveys_of_task {endpoint : EndpointId} {payload : Payload}
    (task : t.taskAt top data x = .message endpoint payload)
    (outcome : Except TransportError Unit) :
    t.Conveys top data outcome x (.sent endpoint payload outcome) := by
  obtain ⟨e, value, found, data, written⟩ := taskAt_of_isNamedAt (isNamedAt_of_message task)
  rw [task] at written
  cases message : importMessage (t.displayPath x) e value with
  | error error => simp [message, Task.ofExcept] at written
  | ok pair =>
    rw [message] at written
    obtain ⟨rfl, rfl⟩ := Task.message.inj written
    exact ⟨e, value, _, _, found, data, message, endpoint?_of_importMessage message, rfl⟩

private theorem conveys_of_taken {l : List Nat} {trace : List Message}
    (taken : Action.Taken (t.taskAt top data) l trace) :
    List.Forall₂ (t.Conveys top data (.ok ())) (l.filter (t.isNamedAt top data)) trace := by
  have messages := taken.forall₂ (fun _ => isNamedAt_of_idle) fun _ _ _ => isNamedAt_of_message
  refine messages.imp ?_
  rintro x _ ⟨endpoint, payload, task, rfl⟩
  exact conveys_of_task task (.ok ())

private theorem Sound.mem_namedBelow (h : t.Sound) : x ∈ t.namedBelow top data ↔
    t.isSavedAt x = true ∧
      ∃ names value, t.follow top names = .ok x ∧ data.behind? names = some value := by
  rw [namedBelow, List.mem_filter, isNamedAt, Bool.and_eq_true, Option.isSome_iff_exists]
  constructor
  · rintro ⟨inside, saved, value, held⟩
    exact ⟨saved, _, value, h.follow_eq_ok_iff.mpr ⟨inside, rfl⟩, held⟩
  · rintro ⟨saved, names, value, way, held⟩
    obtain ⟨inside, rfl⟩ := h.follow_eq_ok_iff.mp way
    exact ⟨inside, saved, value, held⟩

variable {σ : Type}

/-- An import sends and does nothing else. Whatever the data for a node is, and over whatever
transport, it sends to exported endpoints whose chain of names is there in the data: in the order of
the walk, to each of them at most once, and only what the data has for it. If it succeeds, it has
sent to all of them; after the first failure it sends nothing. -/
theorem import_confined (h : t.Reachable) (node : t.HoldsNode top) (data : Json)
    (link : Transport σ) (s : σ) :
    ((t.namedBelow top data).Sublist (t.subtree top) ∧ (t.namedBelow top data).Nodup ∧
      ∀ x, x ∈ t.namedBelow top data ↔ t.isSavedAt x = true ∧
        ∃ names value, t.follow top names = .ok x ∧ data.behind? names = some value) ∧
    (∃ reached, reached <+: t.namedBelow top data ∧
      List.Forall₂ (fun x message => ∃ outcome, t.Conveys top data outcome x message) reached
        ((t.importEntity top data).trace link s)) ∧
    (((t.importEntity top data).run link s).1 = .ok () →
      List.Forall₂ (t.Conveys top data (.ok ())) (t.namedBelow top data)
        ((t.importEntity top data).trace link s)) ∧
    ∀ error, ((t.importEntity top data).run link s).1 = .error error →
      ∃ front x back, t.subtree top = front ++ x :: back ∧
        t.FailsAt top data front x error ((t.importEntity top data).trace link s) := by
  have sound := h.sound
  refine ⟨⟨List.filter_sublist, ?_, fun x => sound.mem_namedBelow⟩, ?_⟩
  · exact (sound.nodup_subtree top).filter _
  have ends := Action.ends_inOrder (t.taskAt top data) (t.subtree top) link s
  rw [← sound.importEntity_eq_inOrder node.lt_size data] at ends
  generalize ((t.importEntity top data).run link s).1 = result,
    (t.importEntity top data).trace link s = trace at ends ⊢
  have loosen {reached : List Nat} {trace : List Message}
      (told : List.Forall₂ (t.Conveys top data (.ok ())) reached trace) :
      List.Forall₂ (fun x message => ∃ outcome, t.Conveys top data outcome x message) reached
        trace :=
    told.imp fun x message conveys => ⟨_, conveys⟩
  cases ends with
  | through taken =>
    have told := conveys_of_taken taken
    refine ⟨⟨_, List.prefix_refl _, loosen told⟩, fun _ => told, ?_⟩
    intro error failed
    cases failed
  | @refused front back x error trace split taken own =>
    have told := conveys_of_taken taken
    refine ⟨⟨front.filter (t.isNamedAt top data), ?_, loosen told⟩, ?_, ?_⟩
    · rw [namedBelow, split, List.filter_append]
      exact List.prefix_append _ _
    · intro ok
      cases ok
    · intro _ failed
      obtain rfl := Except.error.inj failed
      exact ⟨front, x, back, split, trace, told, .inl ⟨own, rfl⟩⟩
  | @unsent front back x endpoint payload cause before split taken own =>
    have told := conveys_of_taken taken
    have here := isNamedAt_of_message own
    have last := conveys_of_task own (.error cause)
    refine ⟨⟨front.filter (t.isNamedAt top data) ++ [x], ?_, ?_⟩, ?_, ?_⟩
    · rw [namedBelow, split, List.filter_append, List.filter_cons_of_pos here]
      exact ⟨_, by rw [List.append_assoc, List.singleton_append]⟩
    · exact List.rel_append (loosen told) (.cons ⟨_, last⟩ .nil)
    · intro ok
      cases ok
    · intro _ failed
      obtain rfl := Except.error.inj failed
      exact ⟨front, x, back, split, before, told, .inr ⟨cause, _, here, last, rfl, rfl⟩⟩

/-- A press with a motor, and with flags behind it. Of the motor only the speed is a value of
exports. -/
def press : Tree :=
  (((((ofRoot ⟨"press", none, none, false, [], none, none⟩ false).afterAdd 0
    ⟨⟨"motor", none, none, false, [], none, none⟩, .node []⟩).afterAdd 1
    ⟨⟨"speed", none, none, true, [], none, none⟩,
      .register ⟨.uint8, none, ⟨none, some "set_speed"⟩, 1⟩⟩).afterAdd 1
    ⟨⟨"start", none, none, true, [], none, none⟩,
      .function ⟨"motor_start", [], .void, none, 2⟩⟩).afterAdd 1
    ⟨⟨"load", none, none, false, [], none, none⟩,
      .register ⟨.uint8, none, ⟨none, some "set_load"⟩, 3⟩⟩).afterAdd 0
    ⟨⟨"alarms", none, none, true, [], none, none⟩,
      .bitmask ⟨⟨["hot", "jammed"], none⟩, ⟨none, some "set_alarms"⟩, 4⟩⟩

/-- Data for all places of the press and for one that it does not have. -/
def pressData : Json :=
  .object [("alarms", .integer 3), ("motor", .object [("speed", .integer 7),
    ("start", .integer 1), ("load", .integer 2), ("torque", .integer 5)])]

def brokenLink : MemoryLink where
  sendFaults := [(4, "broken")]

theorem import_confined_press :
    press.Reachable ∧ press.HoldsNode 0 ∧ press.namedBelow 0 pressData = [2, 5] ∧
      ((press.importEntity 0 pressData).run (MemoryLink.transport .standardTimeout) {}).1 = .ok () ∧
      List.Forall₂ (press.Conveys 0 pressData (.ok ())) [2, 5]
        ((press.importEntity 0 pressData).trace (MemoryLink.transport .standardTimeout) {}) ∧
      ((press.importEntity 0 pressData).run (MemoryLink.transport .standardTimeout) brokenLink).1 =
        .error (.transport (.io "broken")) ∧
      ∃ front x back, press.subtree 0 = front ++ x :: back ∧
        press.FailsAt 0 pressData front x (.transport (.io "broken"))
          ((press.importEntity 0 pressData).trace (MemoryLink.transport .standardTimeout)
            brokenLink) := by
  have reachable : press.Reachable :=
    .add _ _ (.add _ _ (.add _ _ (.add _ _ (.add _ _ (.root _ _)))))
  have node : press.HoldsNode 0 := ⟨_, rfl, rfl⟩
  have named : press.namedBelow 0 pressData = [2, 5] := by decide +kernel
  have done : ((press.importEntity 0 pressData).run
      (MemoryLink.transport .standardTimeout) {}).1 = .ok () := by
    decide +kernel
  have failed : ((press.importEntity 0 pressData).run
      (MemoryLink.transport .standardTimeout) brokenLink).1 =
        .error (.transport (.io "broken")) := by
    decide +kernel
  obtain ⟨-, -, whole, -⟩ := import_confined reachable node pressData
    (MemoryLink.transport .standardTimeout) {}
  obtain ⟨-, -, -, stops⟩ := import_confined reachable node pressData
    (MemoryLink.transport .standardTimeout) brokenLink
  rw [named] at whole
  exact ⟨reachable, node, named, done, whole done, failed, stops _ failed⟩

end Tree

end DeviceLink
