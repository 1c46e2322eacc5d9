import DeviceLink.Proofs.Results
import DeviceLink.Proofs.Schema.Names
import DeviceLink.Proofs.Validation.Validity

/-!
What the building of a tree leaves for the validation to find. An accepted document has already been
checked for most of what the validation looks for, so that of its rules for addresses, arguments,
enumerators and complete endpoints only a few can still be broken: a caller without a name, a result
that is a string, and a flag that is called like the enumerator for no flag at all
(`leftovers_of_build`).
-/

set_option autoImplicit false
set_option relaxedAutoImplicit false

namespace DeviceLink

namespace Tree

variable {t : Tree} {id : Nat}

/-! Arguments. -/

private theorem argumentViolations_of_nodup {path caller : String} {earlier names : List String}
    (fresh : (earlier ++ names).Nodup) :
    argumentViolations path caller earlier names = names.flatMap fun name =>
      if dispatcherNames.contains name || name == caller then
        [.shadowing name (path ++ "." ++ name)] else [] := by
  induction names generalizing earlier with
  | nil => rfl
  | cons name rest ih =>
    have new : name ∉ earlier := fun again =>
      (List.nodup_append.mp fresh).2.2 name again name List.mem_cons_self rfl
    have unknown : earlier.contains name = false := by simpa using new
    rw [List.append_cons] at fresh
    rw [argumentViolations, List.flatMap_cons, ih fresh, unknown]
    rfl

/-! Enumerators. -/

private theorem enumeratorName_injective (stem : String) :
    Function.Injective (enumeratorName stem) :=
  fun _ _ same => (String.append_right_inj _).mp same

/-- The enumerators of an endpoint are that for no flag at all, and after it that for a flag which
is called like it. -/
def NoFlagClash (t : Tree) (id : Nat) (first later : Enumerator) : Prop :=
  ∃ info b i, t.get? id = some ⟨info, .bitmask b⟩ ∧ b.flags.names[i]? = some noFlagName ∧
    first = ⟨enumeratorName (t.enumeratorStem id) noFlagName, .number 0⟩ ∧
    later = ⟨enumeratorName (t.enumeratorStem id) noFlagName, .bit i⟩

private theorem pairwise_enumerators
    (options : ∀ info s, t.get? id = some ⟨info, .selector s⟩ → s.options.names.Nodup)
    (flags : ∀ info b, t.get? id = some ⟨info, .bitmask b⟩ → b.flags.names.Nodup) :
    (t.enumerators id).Pairwise fun first later =>
      first.name = later.name → NoFlagClash t id first later := by
  have distinct {l : List Enumerator} (alone : (l.map (·.name)).Nodup) :
      l.Pairwise fun first later => first.name = later.name → NoFlagClash t id first later :=
    (List.pairwise_map.mp alone).imp fun differ same => absurd same differ
  have injective := enumeratorName_injective (t.enumeratorStem id)
  rw [enumerators]
  cases found : t.get? id with
  | none => exact .nil
  | some e =>
    obtain ⟨info, body⟩ := e
    cases body with
    | node | register | function => exact .nil
    | selector s =>
      apply distinct
      rw [map_name_optionEnumerators]
      exact ((options info s found).sublist (List.take_sublist _ _)).map injective
    | bitmask b =>
      refine .cons ?_ (distinct ?_)
      · intro later inside same
        obtain ⟨i, bound, rfl⟩ := List.mem_mapIdx.mp inside
        have called : noFlagName = b.flags.names[i] := injective same
        refine ⟨info, b, i, found, ?_, rfl, ?_⟩
        · rw [List.getElem?_eq_getElem bound, called]
        · rw [called]
      · rw [map_name_flags]
        exact (flags info b found).map injective

/-- The enumerators of all endpoints with the places of their endpoints. -/
def placedEnumerators (t : Tree) : List (Nat × Enumerator) :=
  t.endpoints.flatMap fun id => (t.enumerators id).map (id, ·)

def rival? (earlier : List (Nat × Enumerator)) (entry : Nat × Enumerator) :
    Option (Nat × Enumerator) :=
  earlier.find? (·.2.name == entry.2.name)

def clash? (t : Tree) (earlier : List (Nat × Enumerator)) (entry : Nat × Enumerator) :
    Option Violation :=
  (rival? earlier entry).map fun first =>
    .enumeratorCollision entry.2.name (t.fullName entry.1) (t.fullName first.1)

private theorem enumeratorViolations_eq_judged (t : Tree) :
    t.enumeratorViolations = judged t.clash? t.placedEnumerators := by
  have named : t.allEnumerators =
      t.placedEnumerators.map fun entry => (entry.2.name, t.fullName entry.1) := by
    simp only [allEnumerators, placedEnumerators, List.map_flatMap, List.map_map, Function.comp_def]
  rw [enumeratorViolations, collisions_eq_judged, named, judged_map]
  congr 1
  funext earlier entry
  rw [List.nil_append, collision?, ownerOf?, List.find?_map, clash?, rival?, Option.map_map,
    Option.map_map]
  rfl

private theorem pairwise_placedEnumerators (h : t.Sound) {R : Nat → Enumerator → Enumerator → Prop}
    (each : ∀ id, (t.enumerators id).Pairwise (R id)) :
    t.placedEnumerators.Pairwise fun first later =>
      first.1 = later.1 → R later.1 first.2 later.2 := by
  apply List.pairwise_flatMap.mpr
  constructor
  · intro id _
    apply List.pairwise_map.mpr
    apply (each id).imp
    intro first later related _
    exact related
  · apply (nodup_endpoints h).imp
    intro id id' differ first inside later inside' same
    obtain ⟨_, _, rfl⟩ := List.mem_map.mp inside
    obtain ⟨_, _, rfl⟩ := List.mem_map.mp inside'
    exact absurd same differ

private theorem mem_enumeratorViolations {front back : List (Nat × Enumerator)}
    {first later : Nat × Enumerator} (placed : t.placedEnumerators = front ++ first :: back)
    (behind : later ∈ back) (same : first.2.name = later.2.name) :
    ∃ owner, .enumeratorCollision later.2.name (t.fullName later.1) owner ∈
      t.enumeratorViolations := by
  obtain ⟨between, rest, rfl⟩ := List.append_of_mem behind
  have known : first ∈ front ++ first :: between := by simp
  obtain ⟨rival, found⟩ : ∃ rival, rival? (front ++ first :: between) later = some rival :=
    Option.isSome_iff_exists.mp (List.find?_isSome.mpr ⟨first, known, beq_iff_eq.mpr same⟩)
  refine ⟨t.fullName rival.1, ?_⟩
  rw [enumeratorViolations_eq_judged, mem_judged_iff]
  refine ⟨front ++ first :: between, later, rest, ?_, ?_⟩
  · rw [placed, List.append_assoc, List.cons_append]
  · rw [clash?, found, Option.map_some]

private theorem noFlagName_reported (h : t.Sound) {info : Info} {b : Bitmask}
    (found : t.get? id = some ⟨info, .bitmask b⟩) (listed : noFlagName ∈ b.flags.names) :
    ∃ owner, .enumeratorCollision (enumeratorName (t.enumeratorStem id) noFlagName)
      (t.fullName id) owner ∈ t.enumeratorViolations := by
  obtain ⟨i, bound, called⟩ := List.mem_iff_getElem.mp listed
  obtain ⟨before, after, endpoints⟩ :=
    List.append_of_mem ((mem_endpoints_iff h).mpr ⟨_, found, rfl⟩)
  have own : t.enumerators id = flagEnumerators (t.enumeratorStem id) b.flags := by
    rw [enumerators, found]
  have flag : (id, ⟨enumeratorName (t.enumeratorStem id) noFlagName, .bit i⟩) ∈
      (b.flags.names.mapIdx fun i flag =>
        Enumerator.mk (enumeratorName (t.enumeratorStem id) flag) (.bit i)).map (id, ·) := by
    apply List.mem_map_of_mem
    refine List.mem_mapIdx.mpr ⟨i, bound, ?_⟩
    rw [called]
  have placed := congrArg (List.flatMap fun id => (t.enumerators id).map (id, ·)) endpoints
  rw [List.flatMap_append, List.flatMap_cons, own, flagEnumerators, List.map_cons,
    List.cons_append] at placed
  have reported := mem_enumeratorViolations placed (List.mem_append_left _ flag)
  exact reported rfl

end Tree

namespace Schema

open Json (Members)

variable {members : Members} {document : Json} {t : Tree} {id : Nat} {info : Info}

/-! Endpoints that are complete. -/

private theorem WellFormedFields.holder {e : Entity} (h : WellFormedFields members)
    (depicts : Depicts members e) (leaf : e.isNode = false) (held : e.kind ≠ .function) :
    Holder members := by
  rcases h.role with callable | holder
  · have kind := depicts.kind
    rw [kindOf, if_pos callable.caller] at kind
    split at kind
    · simp [Entity.isNode, kind] at leaf
    · exact absurd kind held
  · exact holder

private theorem Holder.usable (h : Holder members) : (accessOf members).Usable := h.access

private theorem Holder.dataType_ne (h : Holder members) {dataType : DataType}
    (found : dataType? members = some dataType) : dataType ≠ .void := by
  cases h.content with
  | typed same known proper =>
    rw [found] at known
    rwa [Option.some.inj known]
  | flagged _ untyped | chosen _ untyped =>
    rw [dataType?, untyped] at found
    cases found

private theorem Holder.options_ne (h : Holder members) {names : List String}
    (found : texts? members "options" = some names) : names ≠ [] := by
  cases h.content with
  | typed _ _ _ _ absent | flagged _ _ _ _ absent =>
    rw [texts?, absent] at found
    cases found
  | chosen _ _ _ listed some =>
    rw [found] at listed
    rwa [Option.some.inj listed]

private theorem Holder.flags_ne (h : Holder members) {names : List String}
    (found : texts? members "flags" = some names) : names ≠ [] := by
  cases h.content with
  | typed _ _ _ absent | chosen _ _ absent =>
    rw [texts?, absent] at found
    cases found
  | flagged _ _ listed some =>
    rw [found] at listed
    rwa [Option.some.inj listed]

private theorem WellFormedArguments.of_argumentsOf (h : WellFormedArguments members) :
    (∀ item ∈ argumentsOf members, WellFormedArgument item) ∧
      ((argumentsOf members).map (text? · "name")).Nodup := by
  rw [argumentsOf]
  cases stored : Members.get? members "arguments" with
  | none => simp
  | some value =>
    obtain ⟨items, rfl, each, distinct⟩ := h value stored
    have objects : (items.map Json.object).filterMap Json.members? = items := by
      rw [List.filterMap_map]
      exact List.filterMap_some
    simp only [Option.bind_some, Json.items?, Option.getD_some, objects]
    exact ⟨each, distinct⟩

private theorem Built.arguments (built : Built document t) (h : WellFormed document) {f : Function}
    (found : t.get? id = some ⟨info, .function f⟩) :
    (f.arguments.map (·.name)).Nodup ∧ ∀ a ∈ f.arguments, a.dataType.isFixedWidth = true := by
  obtain ⟨members, good, depicts⟩ := built.exists_wellFormed h found
  obtain ⟨caller, -, -, paired⟩ : designator? members "caller_name" "c_caller" = some f.caller ∧
    _ ∧ _ ∧ List.Forall₂ DepictsArgument (argumentsOf members) f.arguments := depicts.body
  have callable : Callable members := by
    rcases (good.fields_of_depicts depicts rfl).role with callable | holder
    · exact callable
    · rw [holder.noCaller] at caller
      cases caller
  obtain ⟨each, distinct⟩ := callable.arguments.of_argumentsOf
  constructor
  · have names : (argumentsOf members).map (text? · "name") =
        (f.arguments.map (·.name)).map some := by
      rw [List.map_map]
      exact map_eq_map_of_forall₂ paired fun item a same => same.name
    rw [names] at distinct
    exact distinct.of_map some
  · intro a inside
    obtain ⟨k, stored⟩ := List.mem_iff_getElem?.mp inside
    obtain ⟨item, listed, same⟩ := exists_getElem?_of_forall₂ paired.flip stored
    obtain ⟨dataType, read, fixed⟩ := (each item (List.mem_of_getElem? listed)).dataType
    rw [same.dataType] at read
    rwa [Option.some.inj read]

def leftDefects : Body → List Defect
  | .function f =>
    (if f.caller = "" then [.missingCaller] else []) ++
      if f.result = .string then [.stringResult] else []
  | .node _ | .register _ | .selector _ | .bitmask _ => []

private theorem Built.bodyDefects_eq (built : Built document t) (h : WellFormed document)
    {e : Entity} (found : t.get? id = some e) : Tree.bodyDefects e.body = leftDefects e.body := by
  obtain ⟨members, good, depicts⟩ := built.exists_wellFormed h found
  have content := depicts.body
  have holder (leaf : e.isNode = false) (held : e.kind ≠ .function) : Holder members :=
    (good.fields_of_depicts depicts leaf).holder depicts leaf held
  obtain ⟨info, body⟩ := e
  cases body with
  | node => rfl
  | register r =>
    obtain ⟨typed, -, access⟩ := content
    have holder := holder rfl Kind.noConfusion
    apply (Tree.bodyDefects_eq_nil_iff _).mpr
    exact ⟨access ▸ holder.usable, holder.dataType_ne typed⟩
  | selector s =>
    obtain ⟨listed, access⟩ := content
    have holder := holder rfl Kind.noConfusion
    apply (Tree.bodyDefects_eq_nil_iff _).mpr
    exact ⟨access ▸ holder.usable, holder.options_ne listed⟩
  | bitmask b =>
    obtain ⟨listed, -, access⟩ := content
    have holder := holder rfl Kind.noConfusion
    apply (Tree.bodyDefects_eq_nil_iff _).mpr
    exact ⟨access ▸ holder.usable, holder.flags_ne listed⟩
  | function f =>
    have arguments : (f.arguments.filterMap fun a =>
        if a.dataType.isFixedWidth then none else some (Defect.argumentType a.name a.dataType)) =
          [] := by
      apply List.filterMap_eq_nil_iff.mpr
      intro a inside
      rw [if_pos ((built.arguments h found).2 a inside)]
    have result : f.result.isString = true ↔ f.result = .string := by
      cases f.result <;> simp [DataType.isString]
    rw [Tree.bodyDefects, arguments, List.append_nil, leftDefects]
    simp only [String.isEmpty_iff, result]

/-- What the validation can find in a tree that was built, with regard to its structure. -/
structure Leftovers (t : Tree) : Prop where
  addresses : t.endpointViolations = []
  /-- A callable endpoint is reported for a caller without a name and for a result that is a
  string, and no other endpoint is reported. -/
  defects : t.defectViolations = t.endpoints.flatMap fun id =>
    ((t.get? id).elim [] fun e => leftDefects e.body).map (.incomplete (t.fullName id))
  arguments : ∀ name function path,
    Violation.duplicateArgument name function path ∉ t.nameViolations
  /-- Every enumerator is reported whose name an earlier one has, with the first that has it. -/
  reports : t.enumeratorViolations = judged t.clash? t.placedEnumerators
  /-- Two enumerators of one endpoint have the same name only if it is a bit mask with a flag that
  is called like no flag at all. -/
  clashes : t.placedEnumerators.Pairwise fun first later => first.1 = later.1 →
    first.2.name = later.2.name → t.NoFlagClash later.1 first.2 later.2
  /-- Every such flag is reported. -/
  noFlag : ∀ id info b, t.get? id = some ⟨info, .bitmask b⟩ → noFlagName ∈ b.flags.names →
    ∃ owner, .enumeratorCollision (Tree.enumeratorName (t.enumeratorStem id) noFlagName)
      (t.fullName id) owner ∈ t.enumeratorViolations

private theorem Built.endpointViolations_eq_nil (built : Built document t)
    (few : endpointCount (objects document) ≤ 65535) : t.endpointViolations = [] := by
  have sound := built.reachable.sound
  have dense := built.dense few
  apply (Tree.endpoints_clean_iff sound).mpr
  constructor
  · intro id reserved
    obtain ⟨k, number, -⟩ := dense.exists_place sound reserved
    cases number
  · intro id id' a found found'
    obtain ⟨k, number, stored⟩ := dense.exists_place sound found
    obtain ⟨k', number', stored'⟩ := dense.exists_place sound found'
    obtain rfl : k = k' := by omega
    exact Option.some.inj (stored.symm.trans stored')

private theorem Built.not_mem_nameViolations (built : Built document t) (h : WellFormed document)
    (name function path : String) :
    Violation.duplicateArgument name function path ∉ t.nameViolations := by
  rw [Tree.nameViolations, List.mem_append, not_or]
  constructor
  · intro inside
    obtain ⟨naming, -, fault⟩ := List.mem_filterMap.mp inside
    obtain ⟨_, -, same⟩ := Option.map_eq_some_iff.mp fault
    cases same
  · intro inside
    obtain ⟨id, -, reported⟩ := List.mem_flatMap.mp inside
    rw [Tree.entityArgumentViolations] at reported
    split at reported
    · rename_i f found
      rw [Tree.argumentViolations_of_nodup (built.arguments h found).1] at reported
      obtain ⟨_, -, hidden⟩ := List.mem_flatMap.mp reported
      split at hidden
      · cases List.mem_singleton.mp hidden
      · cases hidden
    · cases reported

/-- The validation finds nothing that the building of a tree has checked, and all that it left. -/
theorem leftovers_of_build {withRootName : Bool} (h : build document withRootName = .ok t) :
    Leftovers t := by
  have built := built_of_build h
  have schema := isSchema_of_build h
  have good := schema.wellFormed
  have sound := built.reachable.sound
  refine ⟨built.endpointViolations_eq_nil schema.addresses, ?_, built.not_mem_nameViolations good,
    Tree.enumeratorViolations_eq_judged t, ?_, ?_⟩
  · rw [Tree.defectViolations]
    refine List.flatMap_congr fun id _ => ?_
    rw [Tree.endpointDefects]
    cases found : t.get? id with
    | none => rfl
    | some e => exact congrArg (List.map _) (built.bodyDefects_eq good found)
  · apply Tree.pairwise_placedEnumerators sound
      (R := fun id first later => first.name = later.name → t.NoFlagClash id first later)
    intro id
    apply Tree.pairwise_enumerators
    · intro info s found
      exact (built.options good found).1
    · intro info b found
      exact (built.flags good found).1
  · intro id info b found listed
    exact Tree.noFlagName_reported sound found listed

/-- A document that is accepted although no code can be generated for it. -/
def pagerDocument : Json :=
  .object [("name", .string "pager"), ("remote_attributes", .array [
    .object [("name", .string "ask"), ("caller_name", .string ""), ("dtype", .string "string")],
    .object [("name", .string "lamps"), ("flags", .array [.string "RED", .string "NONE"]),
      ("getter_name", .string "get_lamps")]])]

theorem leftovers_of_build_pager :
    ∃ t, build pagerDocument false = .ok t ∧ Leftovers t ∧
      t.defectViolations = [.incomplete "ask" .missingCaller, .incomplete "ask" .stringResult] ∧
      t.enumeratorViolations = [.enumeratorCollision "LAMPS_NONE" "lamps" "lamps"] := by
  have reported : (build pagerDocument false).toOption.map
      (fun t => (t.defectViolations, t.enumeratorViolations)) =
        some ([.incomplete "ask" .missingCaller, .incomplete "ask" .stringResult],
          [.enumeratorCollision "LAMPS_NONE" "lamps" "lamps"]) := by decide +kernel
  obtain ⟨t, found, same⟩ := Option.map_eq_some_iff.mp reported
  have built := toOption_eq_some_iff.mp found
  obtain ⟨defects, enumerators⟩ := Prod.mk.inj same
  exact ⟨t, built, leftovers_of_build built, defects, enumerators⟩

end Schema

end DeviceLink
