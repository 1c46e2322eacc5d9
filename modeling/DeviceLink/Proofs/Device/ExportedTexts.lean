import DeviceLink.Proofs.Device.EmptyPayloads
import DeviceLink.Proofs.Device.Exchanges
import DeviceLink.Proofs.Device.Recovery
import DeviceLink.Proofs.Schema.Acceptance

/-!
Texts in an export. An export asks an endpoint with a text once and holds the text of the answer
under its names, whatever blanks are in it. An import of such a value sends to the endpoint once, and
what it sends is the text without the blanks at its ends (`Tree.export_import_text`), so that a text
comes back as it was just where it has no such blanks (`Tree.export_import_blank`).
-/

set_option autoImplicit false
set_option relaxedAutoImplicit false

namespace DeviceLink

open Wire (Payload)

/-! The messages at one address. -/

def Message.address : Message → EndpointId
  | sent address _ _ => address
  | received address _ _ => address

namespace Action

variable {α β σ : Type} {link : Transport σ} {address : EndpointId} {s : σ}

/-- The messages of an action that go to an address or come from it. -/
def traceAt (link : Transport σ) (address : EndpointId) (a : Action α) (s : σ) : List Message :=
  (a.trace link s).filter (·.address = address)

private theorem traceAt_bind (a : Action α) (f : α → Action β) : (a >>= f).traceAt link address s =
    a.traceAt link address s ++ match a.run link s with
      | (.ok value, s') => (f value).traceAt link address s'
      | (.error _, _) => [] := by
  rw [traceAt, trace_bind, List.filter_append, ← traceAt]
  congr 1
  rcases a.run link s with ⟨error | value, s'⟩ <;> rfl

private theorem traceAt_bind_done (a : Action α) (f : α → β) :
    (a >>= fun value => done (f value)).traceAt link address s = a.traceAt link address s := by
  rw [traceAt, trace_bind_done, traceAt]

/-- Whatever the state of a transport is, an action has no message at an address. -/
def Spares (link : Transport σ) (address : EndpointId) (a : Action α) : Prop :=
  ∀ s, a.traceAt link address s = []

private theorem spares_finish (result : Except DeviceError α) :
    (finish result).Spares link address :=
  fun _ => rfl

theorem Spares.bind {a : Action α} {f : α → Action β} (h : a.Spares link address)
    (h' : ∀ value, (f value).Spares link address) : (a >>= f).Spares link address := by
  intro s
  rw [traceAt_bind, h s, List.nil_append]
  rcases a.run link s with ⟨error | value, s'⟩
  · rfl
  · exact h' value s'

private theorem spares_forEach {f : α → Action β} {l : List α}
    (h : ∀ a ∈ l, (f a).Spares link address) : (forEach f l).Spares link address := by
  induction l with
  | nil => exact spares_finish _
  | cons a rest ih =>
    have others := ih fun b inside => h b (List.mem_cons_of_mem a inside)
    exact (h a List.mem_cons_self).bind fun b => others.bind fun bs => spares_finish _

private theorem run_bind_of_error {a : Action α} {f : α → Action β} {error : DeviceError}
    (h : (a.run link s).1 = .error error) : ((a >>= f).run link s).1 = .error error := by
  rw [run_bind]
  rcases run : a.run link s with ⟨result, s₁⟩
  obtain rfl : result = .error error := by rw [← h, run]
  rfl

private theorem forEach_congr {f g : α → Action β} {l : List α} (h : ∀ a ∈ l, f a = g a) :
    forEach f l = forEach g l := by
  induction l with
  | nil => rfl
  | cons a rest ih =>
    rw [forEach, forEach, h a List.mem_cons_self,
      ih fun b inside => h b (List.mem_cons_of_mem a inside)]

private theorem spares_of_conducts {a : Action α} {target : Option EndpointId} {hears : Bool}
    (h : ∀ s, a.Conducts link s target hears) (other : target ≠ some address) :
    a.Spares link address := by
  intro s
  have elsewhere {endpoint : EndpointId} (there : target = some endpoint) :
      ¬ endpoint = address := by
    rintro rfl
    exact other there
  have requested := h s
  rw [Conducts] at requested
  rw [traceAt]
  generalize (a.run link s).1 = result, (a.run link s).2 = after, a.trace link s = messages
    at requested ⊢
  cases requested with
  | refused error => rfl
  | unsent payload error s' there => simp [Message.address, elsewhere there]
  | told payload value s' there => simp [Message.address, elsewhere there]
  | unanswered payload error s' there => simp [Message.address, elsewhere there]
  | answered payload answer result s' there => simp [Message.address, elsewhere there]

/-- What becomes of one step of a loop, from the state in which the loop gets to it. -/
structure Focused (link : Transport σ) (address : EndpointId) (f : α → Action β) (l : List α)
    (c : α) (s s₁ : σ) : Prop where
  messages : (forEach f l).traceAt link address s = (f c).traceAt link address s₁
  value : ∀ bs, ((forEach f l).run link s).1 = .ok bs →
    ∃ b, ((f c).run link s₁).1 = .ok b ∧ (c, b) ∈ l.zip bs
  failure : ∀ error, ((f c).run link s₁).1 = .error error →
    ((forEach f l).run link s).1 = .error error

private theorem forEach_focus {f : α → Action β} {l : List α} {c : α} (inside : c ∈ l)
    (distinct : l.Nodup) (others : ∀ x ∈ l, x ≠ c → (f x).Spares link address) (s : σ) :
    (∃ x ∈ l, x ≠ c ∧ ∃ s₁ error, ((f x).run link s₁).1 = .error error ∧
      ((forEach f l).run link s).1 = .error error ∧ (forEach f l).traceAt link address s = []) ∨
    ∃ s₁, Focused link address f l c s s₁ := by
  induction l generalizing s with
  | nil => exact absurd inside List.not_mem_nil
  | cons a rest ih =>
    obtain ⟨fresh, distinct⟩ := List.nodup_cons.mp distinct
    have step : forEach f (a :: rest) =
        f a >>= fun b => forEach f rest >>= fun bs => done (b :: bs) := rfl
    by_cases here : a = c
    · subst here
      refine .inr ⟨s, ?_, fun bs came => ?_, fun error failed => ?_⟩
      · have later : (forEach f rest).Spares link address := spares_forEach fun x member =>
          others x (List.mem_cons_of_mem a member) (ne_of_mem_of_not_mem member fresh)
        rw [step, traceAt_bind]
        rcases (f a).run link s with ⟨error | b, s₁⟩
        · exact List.append_nil _
        · simp only [traceAt_bind_done, later s₁, List.append_nil]
      · obtain ⟨b, s₁, first, more⟩ := run_bind_eq_ok.mp (Prod.ext came rfl)
        obtain ⟨bs', s₂, -, last⟩ := run_bind_eq_ok.mp more
        obtain rfl : b :: bs' = bs := Except.ok.inj (congrArg Prod.fst last)
        exact ⟨b, congrArg Prod.fst first, List.mem_cons_self⟩
      · rw [step, run_bind_of_error failed]
    · have later : c ∈ rest := (List.mem_cons.mp inside).resolve_left (Ne.symm here)
      have quiet := others a List.mem_cons_self here s
      rcases first : (f a).run link s with ⟨error | b, s₁⟩
      · have failed : ((f a).run link s).1 = .error error := congrArg Prod.fst first
        refine .inl ⟨a, List.mem_cons_self, here, s, error, failed, ?_, ?_⟩
        · rw [step, run_bind_of_error failed]
        · rw [step, traceAt_bind, quiet, first]
          rfl
      · have onward : (forEach f (a :: rest)).run link s =
            (forEach f rest >>= fun bs => done (b :: bs)).run link s₁ := by
          rw [step, run_bind, first]
        have messages : (forEach f (a :: rest)).traceAt link address s =
            (forEach f rest).traceAt link address s₁ := by
          rw [step, traceAt_bind, quiet, first, List.nil_append]
          exact traceAt_bind_done _ _
        rw [messages, onward]
        rcases ih later distinct (fun x member => others x (List.mem_cons_of_mem a member)) s₁ with
          ⟨x, member, off, s₂, error, failed, ended, silent⟩ | ⟨s₂, focused⟩
        · exact .inl ⟨x, List.mem_cons_of_mem a member, off, s₂, error, failed,
            run_bind_of_error ended, silent⟩
        · refine .inr ⟨s₂, messages.trans focused.messages, fun bs came => ?_,
            fun error failed => ?_⟩
          · rw [onward] at came
            obtain ⟨bs', s₃, run, last⟩ := run_bind_eq_ok.mp (Prod.ext came rfl)
            obtain rfl : b :: bs' = bs := Except.ok.inj (congrArg Prod.fst last)
            obtain ⟨b', value, listed⟩ := focused.value bs' (congrArg Prod.fst run)
            exact ⟨b', value, List.mem_cons_of_mem _ listed⟩
          · rw [onward]
            exact run_bind_of_error (focused.failure error failed)

/-- Whatever the state of a transport is, an action comes to a value. -/
def Completes (link : Transport σ) (a : Action α) : Prop :=
  ∀ s, ∃ value, (a.run link s).1 = .ok value

private theorem completes_done (value : α) : (done value).Completes link :=
  fun _ => ⟨value, rfl⟩

theorem Completes.bind {a : Action α} {f : α → Action β} (h : a.Completes link)
    (h' : ∀ value, (f value).Completes link) : (a >>= f).Completes link := by
  intro s
  obtain ⟨value, came⟩ := h s
  rw [run_bind]
  rcases run : a.run link s with ⟨result, s₁⟩
  obtain rfl : result = .ok value := by rw [← came, run]
  exact h' value s₁

private theorem completes_forEach {f : α → Action β} {l : List α}
    (h : ∀ a ∈ l, (f a).Completes link) : (forEach f l).Completes link := by
  induction l with
  | nil => exact completes_done []
  | cons a rest ih =>
    have others := ih fun b inside => h b (List.mem_cons_of_mem a inside)
    exact (h a List.mem_cons_self).bind fun b => others.bind fun bs => completes_done _

end Action

/-- An entity is exported, holds a text, and can be read and written. -/
structure Entity.ExportsText (e : Entity) (r : Register) : Prop where
  body : e.body = .register r
  exported : e.info.exported = true
  string : r.dataType = .string
  readable : r.access.getter.isSome = true
  writable : r.access.setter.isSome = true

private theorem Entity.ExportsText.isSaved {e : Entity} {r : Register} (h : e.ExportsText r) :
    e.isSaved = true := by
  simp [Entity.isSaved, Entity.isNode, Entity.kind, h.body, h.exported]

/-! Ways through a tree and through a snapshot. -/

/-- The value behind names in objects within objects. -/
def Json.behind? : Json → List String → Option Json
  | data, [] => some data
  | .object members, name :: rest => (Members.get? members name).bind (·.behind? rest)
  | _, _ :: _ => none

namespace Tree

open DeviceLink.Action (Spares)

variable {t : Tree} {σ : Type} {link : Transport σ} {top id c : Nat} {name : String}
  {names : List String} {address : EndpointId}

theorem follow_cons_iff : t.follow top (name :: names) = .ok id ↔
    ∃ c, t.child? top name = some c ∧ t.follow c names = .ok id := by
  rw [follow, childNamed]
  cases t.child? top name <;> simp

theorem mem_children_of_child? (h : t.child? top name = some c) :
    c ∈ t.children top ∧ t.nameOf c = name :=
  ⟨List.mem_of_find?_eq_some h, by simpa using List.find?_some h⟩

theorem Sound.mem_subtree_of_follow (h : t.Sound) (way : t.follow top names = .ok id) :
    id ∈ t.subtree top := by
  induction names generalizing top with
  | nil =>
    obtain rfl := Except.ok.inj way
    exact h.self_mem_subtree top
  | cons name rest ih =>
    obtain ⟨c, child, later⟩ := follow_cons_iff.mp way
    exact h.mem_subtree_of_child (mem_children_of_child? child).1 (ih later)

def exportMember (t : Tree) (c : Nat) : Action (Option (String × Json)) :=
  t.exportEntity c >>= fun value => Action.done (value.map (t.nameOf c, ·))

def importMember (t : Tree) (members : Json.Members) (c : Nat) : Action Unit :=
  match Json.Members.get? members (t.nameOf c) with
  | some value => t.importEntity c value
  | none => Action.done ()

private theorem Sound.exportEntity_node (h : t.Sound) (node : t.HoldsNode top) :
    t.exportEntity top = Action.forEach t.exportMember (t.children top) >>= fun members =>
      Action.done (snapshotObject members) := by
  obtain ⟨e, found, node⟩ := node
  rw [exportEntity, withEntity, found]
  simp only [node, if_true]
  rw [← children_eq found, Action.forEach_congr fun c child =>
    if_pos (h.bounds_of_mem_children child)]
  rfl

theorem Sound.importEntity_node (h : t.Sound) (node : t.HoldsNode top) (members : Json.Members) :
    t.importEntity top (.object members) =
      Action.forEach (t.importMember members) (t.children top) >>= fun _ => Action.done () := by
  obtain ⟨e, found, node⟩ := node
  rw [importEntity, withEntity, found]
  simp only [node, if_true]
  rw [← children_eq found, Action.forEach_congr fun c child =>
    if_pos (h.bounds_of_mem_children child)]
  rfl

/-- A place has an address, and no other place has it. -/
def Owns (t : Tree) (id : Nat) (address : EndpointId) : Prop :=
  ∀ x, t.address? x = some address ↔ x = id

private theorem Sound.spares_exportEntity (h : t.Sound) (owns : t.Owns id address) (x : Nat)
    (outside : id ∉ t.subtree x) : (t.exportEntity x).Spares link address := by
  induction x using h.descend with
  | step x ih =>
    have elsewhere : t.address? x ≠ some address := fun here =>
      outside ((owns x).mp here ▸ h.self_mem_subtree x)
    by_cases node : t.HoldsNode x
    · rw [h.exportEntity_node node]
      refine (Action.spares_forEach fun c child => ?_).bind fun members => Action.spares_finish _
      have apart : id ∉ t.subtree c := fun within =>
        outside (h.mem_subtree_of_child child within)
      exact (ih c child apart).bind fun value => Action.spares_finish _
    · rw [exportEntity, withEntity]
      cases found : t.get? x with
      | none => exact Action.spares_finish _
      | some e =>
        have leaf : e.isNode = false := Bool.eq_false_of_not_eq_true fun is => node ⟨e, found, is⟩
        rw [address?, found] at elsewhere
        have asked : (Endpoint.read (t.displayPath x) e).Spares link address :=
          Action.spares_of_conducts (fun s => Endpoint.conducts_read _) elsewhere
        simp only [leaf, Bool.false_eq_true, if_false, exportEndpoint]
        split
        · exact asked.bind fun v => Action.spares_finish _
        · exact Action.spares_finish _

private theorem Sound.spares_importEntity (h : t.Sound) (owns : t.Owns id address) (x : Nat)
    (outside : id ∉ t.subtree x) (data : Json) :
    (t.importEntity x data).Spares link address := by
  induction x using h.descend generalizing data with
  | step x ih =>
    have elsewhere : t.address? x ≠ some address := fun here =>
      outside ((owns x).mp here ▸ h.self_mem_subtree x)
    cases found : t.get? x with
    | none =>
      rw [importEntity, withEntity, found]
      exact Action.spares_finish _
    | some e =>
      by_cases node : e.isNode = true
      · cases data with
        | null | bool | integer | real | string | array =>
          rw [importEntity, withEntity, found]
          simp only [node, if_true]
          exact Action.spares_finish _
        | object members =>
          rw [h.importEntity_node ⟨e, found, node⟩]
          refine (Action.spares_forEach fun c child => ?_).bind fun _ => Action.spares_finish _
          rw [importMember]
          split
          · exact ih c child (fun within => outside (h.mem_subtree_of_child child within)) _
          · exact Action.spares_finish _
      · have leaf := Bool.eq_false_of_not_eq_true node
        rw [address?, found] at elsewhere
        rw [importEntity, withEntity, found]
        simp only [leaf, Bool.false_eq_true, if_false, importEndpoint]
        split
        · exact Action.spares_of_conducts (fun s => Action.conducts_ofExcept_bind fun value _ =>
            Endpoint.conducts_write _ value) elsewhere
        · exact Action.spares_finish _

/-! An endpoint with a text. -/

variable {e : Entity} {r : Register}

private theorem exists_text_of_read (found : t.get? id = some e) (holds : e.ExportsText r) {s : σ}
    {v : Value} (came : ((t.read id).run link s).1 = .ok v) :
    ∃ payload text, Wire.decode .string payload = .ok (.text text) ∧ v = .scalar (.text text) ∧
      (t.read id).trace link s = [.sent r.endpoint [] (.ok ()),
        .received r.endpoint link.timeout (.ok payload)] := by
  have reached : e.readable? = some r.endpoint := by
    rw [Entity.readable?, holds.body]
    exact if_pos holds.readable
  obtain ⟨payload, decoded, messages⟩ :=
    (Action.run_exchange_eq_ok_iff (read_eq_exchange found reached)).mp came
  obtain ⟨scalar, bytes, rfl⟩ := (Endpoint.decodeValue_register holds.body).mp decoded
  rw [holds.string] at bytes
  obtain ⟨text, rfl⟩ : ∃ text, scalar = .text text := by
    change Wire.decodeText payload = .ok scalar at bytes
    rw [Wire.decodeText] at bytes
    split at bytes
    · exact ⟨_, (Except.ok.inj bytes).symm⟩
    · cases bytes
  refine ⟨payload, text, bytes, ?_, messages⟩
  cases r.unit <;> rfl

private theorem exportEntity_endpoint (found : t.get? id = some e) (holds : e.ExportsText r) :
    t.exportEntity id = t.read id >>= fun v => Action.done (some v.toJson) := by
  have leaf := Entity.isNode_of_isSaved holds.isSaved
  rw [exportEntity, withEntity, read, withEntity, found]
  simp only [leaf, Bool.false_eq_true, if_false]
  rw [exportEndpoint, Entity.isSaved_of_leaf leaf, if_pos holds.isSaved]
  rfl

private theorem importEntity_text (found : t.get? id = some e) (holds : e.ExportsText r)
    (text : String) : t.importEntity id (.string text) =
      .tell r.endpoint (Text.trimmed text).toUTF8.toList := by
  have leaf := Entity.isNode_of_isSaved holds.isSaved
  have value : Endpoint.valueOfJson (t.displayPath id) e (.string text) =
      .ok (.scalar (.text (Text.trimmed text))) := by
    show Endpoint.valueOfText (t.displayPath id) e text = _
    rw [Endpoint.valueOfText, holds.body]
    simp [holds.string, DataType.isString]
  have message : Endpoint.writeMessage (t.displayPath id) e
      (.scalar (.text (Text.trimmed text))) =
        .ok (r.endpoint, (Text.trimmed text).toUTF8.toList) := by
    refine Endpoint.writeMessage_eq_ok_iff.mpr ⟨.string, .text (Text.trimmed text), ?_, ?_, rfl⟩
    · rw [Endpoint.writeAddress, holds.body]
      exact if_pos holds.writable
    · rw [Endpoint.writtenScalar, holds.body, ← holds.string]
      rfl
  rw [importEntity, withEntity, found]
  simp only [leaf, Bool.false_eq_true, if_false]
  rw [importEndpoint, Entity.isSaved_of_leaf leaf, if_pos holds.isSaved, value]
  show Endpoint.write (t.displayPath id) e (.scalar (.text (Text.trimmed text))) = _
  rw [Endpoint.write, message]
  rfl

/-! Along a way. -/

private theorem eq_of_mem_zip_map {α β : Type} {f : α → β} {l : List α} {a : α} {b : β}
    (h : (a, b) ∈ l.zip (l.map f)) : f a = b := by
  induction l with
  | nil => cases h
  | cons first rest ih =>
    rcases List.mem_cons.mp h with same | later
    · obtain ⟨rfl, rfl⟩ := Prod.mk.inj same
      rfl
    · exact ih later

private theorem Sound.exportEntity_way (h : t.Sound) (found : t.get? id = some e)
    (holds : e.ExportsText r) (owns : t.Owns id r.endpoint) (way : t.follow top names = .ok id)
    {s : σ} {result : Option Json} (came : ((t.exportEntity top).run link s).1 = .ok result) :
    ∃ payload text data, Wire.decode .string payload = .ok (.text text) ∧ result = some data ∧
      data.behind? names = some (.string text) ∧
      (t.exportEntity top).traceAt link r.endpoint s = [.sent r.endpoint [] (.ok ()),
        .received r.endpoint link.timeout (.ok payload)] := by
  induction names generalizing top s result with
  | nil =>
    obtain rfl := Except.ok.inj way
    rw [exportEntity_endpoint found holds] at came ⊢
    obtain ⟨v, s₁, asked, last⟩ := Action.run_bind_eq_ok.mp (Prod.ext came rfl)
    obtain rfl : some v.toJson = result := Except.ok.inj (congrArg Prod.fst last)
    obtain ⟨payload, text, decoded, rfl, messages⟩ :=
      exists_text_of_read found holds (congrArg Prod.fst asked)
    refine ⟨payload, text, .string text, decoded, rfl, rfl, ?_⟩
    rw [Action.traceAt_bind_done, Action.traceAt, messages]
    simp [Message.address]
  | cons name rest ih =>
    obtain ⟨c, child, later⟩ := follow_cons_iff.mp way
    obtain ⟨member, named⟩ := mem_children_of_child? child
    have node : t.HoldsNode top := (h.lt_of_parent? (h.owned top c member)).2
    have below : id ∈ t.subtree c := h.mem_subtree_of_follow later
    rw [h.exportEntity_node node] at came ⊢
    obtain ⟨members, s₁, loop, last⟩ := Action.run_bind_eq_ok.mp (Prod.ext came rfl)
    obtain rfl : snapshotObject members = result := Except.ok.inj (congrArg Prod.fst last)
    -- Every member is the export of its child under its name.
    have parts : List.Forall₂ (fun x m => ∃ part : Option Json, part.map (t.nameOf x, ·) = m)
        (t.children top) members :=
      (Action.forall₂_of_run_forEach (I := fun _ => True) trivial
        (fun x _ s₁ m s₂ _ run => by
          obtain ⟨part, s₃, -, last⟩ := Action.run_bind_eq_ok.mp run
          exact ⟨trivial, part, Except.ok.inj (congrArg Prod.fst last)⟩) loop).2
    obtain ⟨member', rfl, given⟩ := exists_map_of_forall₂ (h.nodup_children top) parts
    choose! part labelled using given
    have others (x : Nat) (child : x ∈ t.children top) (differ : x ≠ c) :
        (t.exportMember x).Spares link r.endpoint :=
      (h.spares_exportEntity owns x (h.notMem_subtree_sibling member child differ below)).bind
        fun _ => Action.spares_finish _
    rcases Action.forEach_focus member (h.nodup_children top) others s with
      ⟨x, -, -, s₂, error, -, failed, -⟩ | ⟨s₂, focused⟩
    · rw [loop] at failed
      cases failed
    · obtain ⟨b, value, listed⟩ := focused.value _ (congrArg Prod.fst loop)
      obtain ⟨own, s₃, inner, last⟩ := Action.run_bind_eq_ok.mp (Prod.ext value rfl)
      obtain rfl : own.map (t.nameOf c, ·) = b := Except.ok.inj (congrArg Prod.fst last)
      obtain ⟨payload, text, data, decoded, rfl, held, messages⟩ :=
        ih later (congrArg Prod.fst inner)
      have here : part c = some data := by
        have entry := labelled c member
        rw [eq_of_mem_zip_map listed] at entry
        obtain ⟨_, found, rest⟩ := Option.map_eq_some_iff.mp entry
        rw [found, (Prod.mk.inj rest).2]
      refine ⟨payload, text, ?_⟩
      rw [List.map_congr_left fun x child => (labelled x child).symm]
      rcases snapshotObject_map part (h.distinct top) with ⟨-, bare⟩ | ⟨kept, object, parts⟩
      · rw [bare c member] at here
        cases here
      · refine ⟨.object kept, decoded, object, ?_, ?_⟩
        · rw [Json.behind?, ← named, parts c member, here]
          exact held
        · rw [Action.traceAt_bind_done, focused.messages, exportMember, Action.traceAt_bind_done]
          exact messages

private theorem behind?_cons {data : Json} {text : String}
    (held : data.behind? (name :: names) = some (.string text)) :
    ∃ members inner, data = .object members ∧ Json.Members.get? members name = some inner ∧
      inner.behind? names = some (.string text) := by
  cases data with
  | null | bool | integer | real | string | array => cases held
  | object members =>
    obtain ⟨inner, there, rest⟩ := Option.bind_eq_some_iff.mp held
    exact ⟨members, inner, rfl, there, rest⟩

/-- What an import of a text at the end of a way does at the address of the text: it sends the text
without the blanks at its ends once, or nothing, because another part of the tree has failed before. -/
def Delivers (t : Tree) (link : Transport σ) (s : σ) (top id : Nat) (address : EndpointId)
    (data : Json) (text : String) : Prop :=
  (∃ outcome, (t.importEntity top data).traceAt link address s =
    [.sent address (Text.trimmed text).toUTF8.toList outcome]) ∨
  (t.importEntity top data).traceAt link address s = [] ∧
    ∃ x ∈ t.subtree top, id ∉ t.subtree x ∧ ∃ value s₁ error,
      ((t.importEntity x value).run link s₁).1 = .error error ∧
        ((t.importEntity top data).run link s).1 = .error error

private theorem Sound.importEntity_way (h : t.Sound) (found : t.get? id = some e)
    (holds : e.ExportsText r) (owns : t.Owns id r.endpoint) (way : t.follow top names = .ok id)
    {data : Json} {text : String} (held : data.behind? names = some (.string text)) (s : σ) :
    t.Delivers link s top id r.endpoint data text := by
  induction names generalizing top data s with
  | nil =>
    obtain rfl := Except.ok.inj way
    obtain rfl := Option.some.inj held
    refine .inl ⟨(link.send r.endpoint (Text.trimmed text).toUTF8.toList s).1, ?_⟩
    rw [importEntity_text found holds, Action.traceAt, Action.tell, Action.trace_send]
    rcases link.send r.endpoint (Text.trimmed text).toUTF8.toList s with ⟨error | ⟨⟩, s₁⟩ <;>
      exact List.filter_cons_of_pos (by simp [Message.address])
  | cons name rest ih =>
    obtain ⟨c, child, later⟩ := follow_cons_iff.mp way
    obtain ⟨member, named⟩ := mem_children_of_child? child
    obtain ⟨members, inner, rfl, there, within⟩ := behind?_cons held
    have node : t.HoldsNode top := (h.lt_of_parent? (h.owned top c member)).2
    have below : id ∈ t.subtree c := h.mem_subtree_of_follow later
    have own : t.importMember members c = t.importEntity c inner := by
      rw [importMember, named, there]
    have apart (x : Nat) (child : x ∈ t.children top) (differ : x ≠ c) : id ∉ t.subtree x :=
      h.notMem_subtree_sibling member child differ below
    have others (x : Nat) (child : x ∈ t.children top) (differ : x ≠ c) :
        (t.importMember members x).Spares link r.endpoint := by
      rw [importMember]
      split
      · exact h.spares_importEntity owns x (apart x child differ) _
      · exact Action.spares_finish _
    rw [Delivers, h.importEntity_node node, Action.traceAt_bind_done]
    rcases Action.forEach_focus member (h.nodup_children top) others s with
      ⟨x, child, differ, s₁, error, failed, ended, silent⟩ | ⟨s₁, focused⟩
    · obtain ⟨value, imported⟩ : ∃ value, t.importMember members x = t.importEntity x value := by
        rw [importMember] at failed ⊢
        split at failed
        · exact ⟨_, rfl⟩
        · cases failed
      rw [imported] at failed
      exact .inr ⟨silent, x, h.mem_subtree_of_child child (h.self_mem_subtree x),
        apart x child differ, value, s₁, error, failed, Action.run_bind_of_error ended⟩
    · rw [focused.messages, own]
      rcases ih later within s₁ with sent | ⟨silent, x, inside, off, value, s₂, error, failed, ended⟩
      · exact .inl sent
      · refine .inr ⟨silent, x, h.mem_subtree_of_child member inside, off, value, s₂, error, failed,
          Action.run_bind_of_error (focused.failure error ?_)⟩
        rw [own]
        exact ended

/-! Exports that come to an end. -/

private theorem Sound.completes_exportEntity (h : t.Sound) (inside : top < t.size)
    (reads : ∀ x ∈ t.savedBelow top, (t.read x).Completes link) :
    (t.exportEntity top).Completes link := by
  induction top using h.descend with
  | step top ih =>
    obtain ⟨e, found⟩ := exists_get? inside
    by_cases node : e.isNode = true
    · rw [h.exportEntity_node ⟨e, found, node⟩]
      rw [savedBelow_node h found node, ← children_eq found] at reads
      refine (Action.completes_forEach fun c child => ?_).bind fun _ => Action.completes_done _
      have bounds := h.bounds_of_mem_children child
      have below := ih c child bounds.2 fun x saved =>
        reads x (List.mem_flatMap.mpr ⟨c, child, saved⟩)
      exact below.bind fun _ => Action.completes_done _
    · have leaf := Bool.eq_false_of_not_eq_true node
      rw [savedBelow_leaf h found leaf] at reads
      rw [exportEntity, withEntity, found]
      simp only [leaf, Bool.false_eq_true, if_false]
      rw [exportEndpoint, Entity.isSaved_of_leaf leaf]
      by_cases saved : e.isSaved = true
      · have asked := reads top (by simp [saved])
        rw [read, withEntity, found] at asked
        rw [if_pos saved]
        exact asked.bind fun v => Action.completes_done _
      · rw [if_neg saved]
        exact Action.completes_done _

private theorem lt_size_of_follow (found : t.get? id = some e) (way : t.follow top names = .ok id) :
    top < t.size := by
  cases names with
  | nil =>
    obtain rfl := Except.ok.inj way
    exact lt_size_of_get? found
  | cons name rest =>
    obtain ⟨c, child, -⟩ := follow_cons_iff.mp way
    by_contra outside
    have childless := children_of_size_le (Nat.le_of_not_lt outside)
    have member := (mem_children_of_child? child).1
    rw [childless] at member
    exact absurd member List.not_mem_nil

private theorem owns_of_build {document : Json} {withRootName : Bool}
    (built : Schema.build document withRootName = .ok t) (here : t.address? id = some address) :
    t.Owns id address := by
  have origin := Schema.built_of_build built
  have sound := origin.reachable.sound
  have dense := origin.dense (Schema.isSchema_of_build built).addresses
  intro x
  constructor
  · intro there
    obtain ⟨k, number, stored⟩ := dense.exists_place sound here
    obtain ⟨k', number', stored'⟩ := dense.exists_place sound there
    obtain rfl : k = k' := by omega
    exact Option.some.inj (stored'.symm.trans stored)
  · rintro rfl
    exact here

/-- The text at the end of a way in an export, and what an import makes of it. The export comes to a
value if the exported endpoints can be read. It then has asked for the text once and holds it just as
the answer had it; but whatever transport an import of the export goes over, what it sends for the
text has lost the blanks at the ends, and these are the bytes of the text only where it has none. -/
theorem export_import_text {document : Json} {withRootName : Bool}
    (built : Schema.build document withRootName = .ok t) (found : t.get? id = some e)
    (holds : e.ExportsText r) (way : t.follow top names = .ok id) (link : Transport σ) :
    ((∀ x ∈ t.savedBelow top, (t.read x).Completes link) → (t.exportValues top).Completes link) ∧
    ∀ s data, ((t.exportValues top).run link s).1 = .ok data →
      ∃ payload text, Wire.decode .string payload = .ok (.text text) ∧
        (t.exportValues top).traceAt link r.endpoint s = [.sent r.endpoint [] (.ok ()),
          .received r.endpoint link.timeout (.ok payload)] ∧
        data.behind? names = some (.string text) ∧
        (∀ {τ : Type} (link' : Transport τ) (s' : τ),
          t.Delivers link' s' top id r.endpoint data text) ∧
        ((Text.trimmed text).toUTF8.toList = text.toUTF8.toList ↔ Text.trimmed text = text) := by
  have sound := (Schema.built_of_build built).reachable.sound
  have owns : t.Owns id r.endpoint := by
    refine owns_of_build built ?_
    rw [address?, found, Option.bind_some, Entity.endpoint?, holds.body]
  constructor
  · intro reads
    have whole := sound.completes_exportEntity (lt_size_of_follow found way) reads
    exact whole.bind fun _ => Action.completes_done _
  · intro s data came
    obtain ⟨result, s₁, inner, last⟩ := Action.run_bind_eq_ok.mp (Prod.ext came rfl)
    obtain rfl : result.getD (.object []) = data := Except.ok.inj (congrArg Prod.fst last)
    obtain ⟨payload, text, data, decoded, rfl, held, messages⟩ :=
      sound.exportEntity_way found holds owns way (congrArg Prod.fst inner)
    refine ⟨payload, text, decoded, ?_, held, fun link' s' => ?_, Text.octets_inj⟩
    · rw [exportValues]
      exact (Action.traceAt_bind_done _ _).trans messages
    · exact sound.importEntity_way found holds owns way held s'

def tagDocument : Json :=
  .object [("name", .string "tag"), ("remote_attributes", .array [
    .object [("name", .string "label"), ("dtype", .string "string"),
      ("getter_name", .string "get_label"), ("setter_name", .string "set_label"),
      ("meta", .object [("export", .bool true)])]])]

def tagLink : Transport MemoryLink :=
  MemoryLink.transport .standardTimeout

def tagWith (octets : Payload) : MemoryLink :=
  { stored := [(1, octets)] }

/-- A label without blanks is delivered as it is. -/
theorem export_import_text_tag :
    ∃ t data, Schema.build tagDocument false = .ok t ∧
      ((t.exportValues rootId).run tagLink (tagWith [97, 98])).1 = .ok data ∧
      data.behind? ["label"] = some (.string "ab") ∧
      t.Delivers tagLink {} rootId 1 1 data "ab" := by
  have facts : ((Schema.build tagDocument false).toOption.map fun t =>
      decide ((t.follow rootId ["label"]).toOption = some 1 ∧
        (t.get? 1).any (fun e => decide (e.kind = .register ∧ e.info.exported = true ∧
          e.wireType? = some .string ∧ e.access.getter.isSome = true ∧
          e.access.setter.isSome = true ∧ e.endpoint? = some 1)) = true ∧
        (((t.exportValues rootId).run tagLink (tagWith [97, 98])).1.toOption.bind
          fun data => (data.behind? ["label"]).bind Json.string?) = some "ab")) = some true := by
    decide +kernel
  cases built : Schema.build tagDocument false with
  | error e => simp [built, Except.toOption] at facts
  | ok t =>
    rw [built] at facts
    obtain ⟨way, place, exported⟩ := of_decide_eq_true (Option.some.inj facts)
    obtain ⟨data, came, held⟩ := Option.bind_eq_some_iff.mp exported
    have came := toOption_eq_some_iff.mp came
    obtain ⟨⟨info, body⟩, found, fit⟩ := (Option.any_eq_true _ _).mp place
    obtain ⟨kind, marked, string, readable, writable, address⟩ := of_decide_eq_true fit
    cases body with
    | node | function | selector | bitmask => cases kind
    | register r =>
      have string : r.dataType = .string := Option.some.inj string
      have address : r.endpoint = 1 := Option.some.inj address
      obtain ⟨-, exports⟩ := export_import_text built found
        ⟨rfl, marked, string, readable, writable⟩ (toOption_eq_some_iff.mp way) tagLink
      obtain ⟨payload, text, -, -, kept, delivers, -⟩ := exports _ data came
      rw [kept] at held
      obtain rfl : text = "ab" := Option.some.inj held
      exact ⟨t, data, rfl, came, kept, address ▸ delivers tagLink {}⟩

/-- No rule is broken, and the blank at the front of a label is in the export; but the import sends
the label without it. -/
theorem export_import_blank :
    ∃ t data s, Schema.build tagDocument false = .ok t ∧ t.violations = [] ∧
      Wire.decode .string [32, 97] = .ok (.text " a") ∧
      ((t.exportValues rootId).run tagLink (tagWith [32, 97])).1 = .ok data ∧
      (data.behind? ["label"]).bind Json.string? = some " a" ∧
      (t.importEntity rootId data).run tagLink {} = (.ok (), s) ∧
      s.sent = [(1, [97])] ∧ " a".toUTF8.toList = [32, 97] := by
  have facts : ((Schema.build tagDocument false).toOption.map fun t =>
      decide (t.violations = [] ∧
        (Wire.decode .string [32, 97]).toOption = some (.text " a") ∧
        ((t.exportValues rootId).run tagLink (tagWith [32, 97])).1.toOption.any (fun data =>
          decide ((data.behind? ["label"]).bind Json.string? = some " a" ∧
            ((t.importEntity rootId data).run tagLink {}).1.toOption = some () ∧
            ((t.importEntity rootId data).run tagLink {}).2.sent = [(1, [97])])) = true ∧
        " a".toUTF8.toList = [32, 97])) = some true := by
    decide +kernel
  cases built : Schema.build tagDocument false with
  | error e => simp [built, Except.toOption] at facts
  | ok t =>
    rw [built] at facts
    obtain ⟨valid, decoded, exported, octets⟩ := of_decide_eq_true (Option.some.inj facts)
    obtain ⟨data, came, imported⟩ := (Option.any_eq_true _ _).mp exported
    obtain ⟨held, ended, sent⟩ := of_decide_eq_true imported
    exact ⟨t, data, _, rfl, valid, toOption_eq_some_iff.mp decoded, toOption_eq_some_iff.mp came,
      held, Prod.ext (toOption_eq_some_iff.mp ended) rfl, sent, octets⟩

end Tree

end DeviceLink
