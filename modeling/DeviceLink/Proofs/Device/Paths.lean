import DeviceLink.Proofs.Device.FullNames
import DeviceLink.Proofs.Results

/-!
Paths as the device and the tree understand them. The tree walks along all parts of a path that are
not empty; the device walks to a node along the parts before the last dot and then looks for a child
with the name after it. Both ways end at the same entity (`childAt_eq_ok_iff`), and where there is
none they stop at the same name (`exists_impasse`), which the device finds out without a message.
-/

set_option autoImplicit false
set_option relaxedAutoImplicit false

namespace DeviceLink

namespace Tree

variable {t : Tree} {id : Nat} {path : String}

private theorem segments_splitPath (named : (splitPath path).2 ≠ "") :
    Text.segments '.' path = Text.segments '.' (splitPath path).1 ++ [(splitPath path).2] := by
  rcases Text.splitLast?_spec '.' path with
    ⟨undotted, plain⟩ | ⟨before, behind, dotted, shape, plain⟩
  · rw [splitPath, undotted, Option.getD_none] at named ⊢
    exact Text.segments_of_plain named plain
  · rw [splitPath, dotted, Option.getD_some] at named ⊢
    rw [shape, Text.segments_append_separator, Text.segments_of_plain named plain]

/-! Kinds. -/

private theorem expectKind_eq_ok_iff {kind : Kind} {found : Nat} :
    t.expectKind kind id = .ok found ↔
      id = found ∧ ∃ e, t.get? id = some e ∧ e.kind = kind := by
  rw [expectKind]
  cases t.get? id with
  | none => simp
  | some e => by_cases same : e.kind = kind <;> simp [same]

private theorem nodeAt_eq_ok_iff : t.nodeAt path = .ok id ↔ t.resolve? path = some id ∧
    t.HoldsNode id := by
  have node (e : Entity) : e.kind = .node ↔ e.isNode = true := by simp [Entity.isNode]
  rw [nodeAt, bind_eq_ok_iff]
  simp only [locate_eq_ok_iff, expectKind_eq_ok_iff, HoldsNode, node]
  constructor
  · rintro ⟨_, resolved, rfl, holds⟩
    exact ⟨resolved, holds⟩
  · rintro ⟨resolved, holds⟩
    exact ⟨id, resolved, rfl, holds⟩

private theorem functionAt_eq_ok_iff : t.functionAt path = .ok id ↔
    t.resolve? path = some id ∧ ∃ e, t.get? id = some e ∧ e.kind = .function := by
  rw [functionAt, bind_eq_ok_iff]
  simp only [locate_eq_ok_iff, expectKind_eq_ok_iff]
  constructor
  · rintro ⟨_, resolved, rfl, callable⟩
    exact ⟨resolved, callable⟩
  · rintro ⟨resolved, callable⟩
    exact ⟨id, resolved, rfl, callable⟩

private theorem childNamed_eq_ok_iff {parent : Nat} {name : String} :
    t.childNamed parent name = .ok id ↔ t.child? parent name = some id := by
  rw [childNamed]
  cases t.child? parent name <;> simp

private theorem childAt_eq (t : Tree) (path : String) : t.childAt path =
    (t.nodeAt (splitPath path).1 >>= fun parent => t.childNamed parent (splitPath path).2) := rfl

/-- A path with a name at its end leads the device to the entity that it leads to in the tree. -/
theorem childAt_eq_ok_iff (h : t.Sound) (named : (splitPath path).2 ≠ "") :
    t.childAt path = .ok id ↔ t.resolve? path = some id := by
  have parts : t.resolve? path = (t.resolve? (splitPath path).1).bind
      fun parent => t.child? parent (splitPath path).2 := by
    rw [resolve?, segments_splitPath named, List.foldlM_append, resolve?]
    simp only [List.foldlM_cons, List.foldlM_nil, bind_pure]
    rfl
  rw [childAt_eq, bind_eq_ok_iff, parts, Option.bind_eq_some_iff]
  simp only [nodeAt_eq_ok_iff, childNamed_eq_ok_iff]
  constructor
  · rintro ⟨parent, ⟨resolved, -⟩, child⟩
    exact ⟨parent, resolved, child⟩
  · rintro ⟨parent, resolved, child⟩
    -- Only nodes have children.
    have above := (h.child?_eq_some_iff.mp child).1
    exact ⟨parent, ⟨resolved, (h.lt_of_parent? above).2⟩, child⟩

/-! Ways that stop before their end. -/

/-- A way along names stops at an entity that has no child with the next name. -/
structure Impasse (t : Tree) (names : List String) (id : Nat) (name : String)
    (rest : List String) : Prop where
  way : ∃ done, names = done ++ name :: rest ∧ done.foldlM t.child? rootId = some id
  missing : t.child? id name = none

private theorem follow_of_missing {start : Nat} {done rest : List String} {name : String}
    (way : done.foldlM t.child? start = some id) (missing : t.child? id name = none) :
    t.follow start (done ++ name :: rest) = .error (t.missing id name) := by
  induction done generalizing start with
  | nil =>
    obtain rfl : start = id := Option.some.inj way
    simp only [List.nil_append, follow, childNamed, missing]
  | cons first more ih =>
    rw [List.foldlM_cons] at way
    obtain ⟨next, child, onward⟩ := Option.bind_eq_some_iff.mp way
    simp only [List.cons_append, follow, childNamed, child]
    exact ih onward

private theorem exists_stop {start : Nat} {names : List String}
    (lost : names.foldlM t.child? start = none) :
    ∃ done name rest id, names = done ++ name :: rest ∧
      done.foldlM t.child? start = some id ∧ t.child? id name = none := by
  induction names generalizing start with
  | nil => cases lost
  | cons first more ih =>
    rw [List.foldlM_cons] at lost
    cases child : t.child? start first with
    | none => exact ⟨[], first, more, start, rfl, rfl, child⟩
    | some next =>
      rw [child] at lost
      obtain ⟨done, name, rest, id, same, way, missing⟩ := ih lost
      refine ⟨first :: done, name, rest, id, by rw [same, List.cons_append], ?_, missing⟩
      rw [List.foldlM_cons, child]
      exact way

theorem exists_impasse (lost : t.resolve? path = none) :
    ∃ id name rest, t.Impasse (Text.segments '.' path) id name rest := by
  obtain ⟨done, name, rest, id, same, way, missing⟩ := exists_stop lost
  exact ⟨id, name, rest, ⟨done, same, way⟩, missing⟩

namespace Impasse

variable {names rest : List String} {name : String}

private theorem locate (h : t.Impasse (Text.segments '.' path) id name rest) :
    t.locate path = .error (t.missing id name) := by
  obtain ⟨done, same, way⟩ := h.way
  rw [Tree.locate, same]
  exact follow_of_missing way h.missing

private theorem of_append_singleton {last next : String}
    (h : t.Impasse (names ++ [last]) id name (next :: rest)) :
    t.Impasse names id name (next :: rest).dropLast := by
  obtain ⟨done, same, way⟩ := h.way
  refine ⟨⟨done, ?_, way⟩, h.missing⟩
  have cut := congrArg List.dropLast same
  rw [List.dropLast_concat, List.dropLast_append_of_ne_nil (List.cons_ne_nil _ _)] at cut
  exact cut

private theorem of_last {last : String} (h : t.Impasse (names ++ [last]) id name []) :
    name = last ∧ names.foldlM t.child? rootId = some id := by
  obtain ⟨done, same, way⟩ := h.way
  obtain ⟨rfl, ends⟩ := List.append_inj' same rfl
  exact ⟨(List.cons.inj ends).1.symm, way⟩

end Impasse

/-- The failure to get further than an entity on the way to a child: the last name before the child
must be that of a node, and every name must be there. -/
def impasseError (t : Tree) (id : Nat) (name : String) (rest : List String) : DeviceError :=
  match rest, t.get? id with
  | [], some e =>
    if e.isEndpoint then Endpoint.wrongKind (t.displayPath id) e Kind.node.name
    else t.missing id name
  | _, _ => t.missing id name

private theorem lt_size_of_foldlM (h : t.Sound) {start : Nat} {names : List String}
    (inside : start < t.size) (way : names.foldlM t.child? start = some id) : id < t.size := by
  induction names generalizing start with
  | nil =>
    obtain rfl : start = id := Option.some.inj way
    exact inside
  | cons name rest ih =>
    rw [List.foldlM_cons] at way
    obtain ⟨next, child, onward⟩ := Option.bind_eq_some_iff.mp way
    exact ih (lt_size_of_parent? (h.child?_eq_some_iff.mp child).1) onward

private theorem childAt_of_impasse (h : t.Sound) {name : String} {rest : List String}
    (stuck : t.Impasse (Text.segments '.' path) id name rest)
    (named : (splitPath path).2 ≠ "") :
    t.childAt path = .error (t.impasseError id name rest) := by
  rw [segments_splitPath named] at stuck
  cases rest with
  | cons next rest =>
    have lost := stuck.of_append_singleton.locate
    simp only [childAt_eq, nodeAt, lost, impasseError, bind, Except.bind]
  | nil =>
    obtain ⟨rfl, way⟩ := stuck.of_last
    have located := locate_eq_ok_iff.mpr way
    obtain ⟨e, found⟩ := exists_get? (lt_size_of_foldlM h h.size_pos way)
    by_cases kind : e.kind = .node
    · have node : e.isEndpoint = false := by simp [Entity.isEndpoint, Entity.isNode, kind]
      simp only [childAt_eq, nodeAt, located, expectKind, found, kind, childNamed, stuck.missing,
        impasseError, node, bind, Except.bind, if_true, Bool.false_eq_true, if_false]
    · have endpoint : e.isEndpoint = true := by simp [Entity.isEndpoint, Entity.isNode, kind]
      simp only [childAt_eq, nodeAt, located, expectKind, found, kind, impasseError, endpoint, bind,
        Except.bind, if_true, if_false]

private theorem Impasse.resolve?_eq_none {name : String} {rest : List String}
    (h : t.Impasse (Text.segments '.' path) id name rest) : t.resolve? path = none := by
  rw [Option.eq_none_iff_forall_ne_some]
  intro found resolved
  have located := locate_eq_ok_iff.mpr resolved
  rw [h.locate] at located
  cases located

/-- A path that ends with a name means one entity to all who use it. Reading and writing go to the
entity that the tree finds at the path, and nodes and callable endpoints are found where the tree
finds an entity of that kind. Where it finds none, the way along the path has an impasse, and all
four fail there without a message: the missing name is told, or that an endpoint stands where the
last name asks for a node. Parts that are empty make no difference. -/
theorem access_follows_resolution (h : t.Reachable) (named : (splitPath path).2 ≠ "") :
    (∀ id, (t.childAt path = .ok id ↔ t.resolve? path = some id) ∧
      (t.nodeAt path = .ok id ↔ t.resolve? path = some id ∧ t.HoldsNode id) ∧
      (t.functionAt path = .ok id ↔
        t.resolve? path = some id ∧ ∃ e, t.get? id = some e ∧ e.kind = .function)) ∧
    (∀ id, t.resolve? path = some id →
      t.get path = t.member id ∧ ∀ value, t.set path value = t.write id value) ∧
    (t.resolve? path = none ↔ ∃ id name rest, t.Impasse (Text.segments '.' path) id name rest) ∧
    (∀ id name rest, t.Impasse (Text.segments '.' path) id name rest →
      t.nodeAt path = .error (t.missing id name) ∧
      t.functionAt path = .error (t.missing id name) ∧
      t.get path = .fail (t.impasseError id name rest) ∧
      ∀ value, t.set path value = .fail (t.impasseError id name rest)) ∧
    ∀ path', Text.segments '.' path' = Text.segments '.' path → (splitPath path').2 ≠ "" →
      t.nodeAt path' = t.nodeAt path ∧ t.functionAt path' = t.functionAt path ∧
      t.get path' = t.get path ∧ ∀ value, t.set path' value = t.set path value := by
  have sound := h.sound
  refine ⟨fun id => ⟨childAt_eq_ok_iff sound named, nodeAt_eq_ok_iff, functionAt_eq_ok_iff⟩,
    ?_, ⟨exists_impasse, ?_⟩, ?_, ?_⟩
  · intro id resolved
    have reached := (childAt_eq_ok_iff sound named).mpr resolved
    rw [get, reached]
    refine ⟨rfl, fun value => ?_⟩
    rw [set, reached]
    rfl
  · rintro ⟨id, name, rest, stuck⟩
    exact stuck.resolve?_eq_none
  · intro id name rest stuck
    have lost := childAt_of_impasse sound stuck named
    refine ⟨by rw [nodeAt, stuck.locate]; rfl, by rw [functionAt, stuck.locate]; rfl,
      by rw [get, lost]; rfl, fun value => by rw [set, lost]; rfl⟩
  · intro path' same named'
    have parts := same
    rw [segments_splitPath named, segments_splitPath named'] at parts
    obtain ⟨before, last⟩ := List.append_inj' parts rfl
    have located : t.locate path' = t.locate path := by rw [locate, same, locate]
    have above : t.nodeAt (splitPath path').1 = t.nodeAt (splitPath path).1 := by
      rw [nodeAt, locate, before, nodeAt, locate]
    have child : t.childAt path' = t.childAt path := by
      rw [childAt_eq, above, List.singleton_inj.mp last, ← childAt_eq]
    refine ⟨by rw [nodeAt, located, nodeAt], by rw [functionAt, located, functionAt],
      by rw [get, child, get], fun value => by rw [set, child, set]⟩

/-- The name that is asked of a callable endpoint is missing for a search of nodes, and for a read the
endpoint is no node; more dots lead to the same endpoint. -/
theorem access_follows_resolution_gate :
    gate.Reachable ∧ (splitPath "motor.start.speed").2 ≠ "" ∧ (splitPath ".motor..start").2 ≠ "" ∧
      gate.nodeAt "motor.start.speed" = .error (.missing "motor.start" "speed") ∧
      gate.get "motor.start.speed" = .fail (.wrongKind "motor.start" .function "node") ∧
      gate.get ".motor..start" = gate.member 2 := by
  have reachable : gate.Reachable := .add _ _ (.add _ _ (.root _ _))
  have named : (splitPath "motor.start.speed").2 ≠ "" := by decide +kernel
  have named' : (splitPath ".motor..start").2 ≠ "" := by decide +kernel
  have stuck : gate.Impasse (Text.segments '.' "motor.start.speed") 2 "speed" [] :=
    ⟨⟨["motor", "start"], by decide +kernel, by decide +kernel⟩, by decide +kernel⟩
  have display : gate.displayPath 2 = "motor.start" := by decide +kernel
  obtain ⟨-, -, -, stops, -⟩ := access_follows_resolution reachable named
  obtain ⟨node, -, read, -⟩ := stops 2 "speed" [] stuck
  obtain ⟨-, acts, -⟩ := access_follows_resolution reachable named'
  refine ⟨reachable, named, named', ?_, ?_, (acts 2 (by decide +kernel)).1⟩
  · rw [node, missing, display]
  · rw [read, ← display]
    rfl

end Tree

end DeviceLink
