import DeviceLink.Proofs.Dispatch.Scope

/-!
Whether a variable of a dispatcher has the name of something else. The validation keeps the arguments
of a function apart from each other, from the variables of its dispatcher and from the function that
is called. What it leaves open is listed in `Body.CaptureFree`, and a
dispatcher of a valid tree has a variable with the name of something else exactly when its endpoint
is not free in that sense (`hygienic_iff`).
-/

set_option autoImplicit false
set_option relaxedAutoImplicit false

namespace DeviceLink

namespace Dispatch

namespace Dispatcher

/-- No variable has the name of another variable of its block, or of anything else that the
dispatcher uses. -/
structure Hygienic (d : Dispatcher) : Prop where
  different : ∀ block ∈ d.blocks, (scopeNames block).Nodup
  apart : ∀ block ∈ d.blocks, ∀ name ∈ scopeNames block, name ∉ d.otherNames

instance (d : Dispatcher) : Decidable d.Hygienic :=
  decidable_of_iff ((∀ block ∈ d.blocks, (scopeNames block).Nodup) ∧
      ∀ block ∈ d.blocks, ∀ name ∈ scopeNames block, name ∉ d.otherNames)
    ⟨fun both => ⟨both.1, both.2⟩, fun clean => ⟨clean.different, clean.apart⟩⟩

end Dispatcher

end Dispatch

namespace Function

open Dispatch

/-- The called function is no variable of the dispatcher, and no argument is a type or a status of
it. -/
structure CaptureFree (f : Function) : Prop where
  caller : f.caller ∉ f.localNames
  arguments : ∀ a ∈ f.arguments, a.name ∉ f.usedNames

end Function

namespace Body

open Dispatch

/-- The names inside a dispatcher that the validation does not compare are different. -/
def CaptureFree : Body → Prop
  | .node _ => True
  | .register r =>
    match r.strategy with
    | .byValue => ∀ function ∈ r.access.functions, function ∉ parameterNames ++ [valueName]
    | .string => ∀ function ∈ r.access.functions, function ∉ parameterNames
  | .function f => f.CaptureFree
  | .selector s => ∀ function ∈ s.access.functions, function ∉ parameterNames ++ [valueName]
  | .bitmask b => ∀ function ∈ b.access.functions, function ∉ parameterNames ++ [valueName]

end Body

namespace Dispatch

variable {qualifier : Option String} {function : String}

/-! Dispatchers with branches. -/

private theorem hygienic_withBranches_iff {access : Access}
    {onRead onWrite : String → List Statement} {locals others : List String}
    (reads : Uniform onRead locals others) (writes : Uniform onWrite locals others)
    (distinct : (parameterNames ++ locals).Nodup)
    (foreign : ∀ name ∈ parameterNames ++ locals, name ∉ branchNames others) :
    (withBranches qualifier function access onRead onWrite).Hygienic ↔
      ∀ f ∈ access.functions, f ∉ parameterNames ++ locals := by
  constructor
  · rintro ⟨-, apart⟩ f known taken
    rcases Access.mem_functions_iff.mp known with found | found
    · have listed : onRead f ∈ (withBranches qualifier function access onRead onWrite).blocks :=
        mem_blocks_withBranches.mpr (Or.inr (Or.inl ⟨f, found, rfl⟩))
      rw [← reads.declares f] at taken
      exact apart _ listed f taken (Dispatcher.mem_otherNames_of_mem_blocks listed (reads.function f))
    · have listed : onWrite f ∈ (withBranches qualifier function access onRead onWrite).blocks :=
        mem_blocks_withBranches.mpr (Or.inr (Or.inr ⟨f, found, rfl⟩))
      rw [← writes.declares f] at taken
      exact apart _ listed f taken (Dispatcher.mem_otherNames_of_mem_blocks listed (writes.function f))
  · intro free
    constructor
    · intro block listed
      rcases mem_scopeNames_withBranches reads writes listed with same | same
      · rw [same]
        exact (List.nodup_append.mp distinct).1
      · rwa [same]
    · intro block listed name inside used
      have own : name ∈ parameterNames ++ locals := by
        rcases mem_scopeNames_withBranches reads writes listed with same | same
        · rw [same] at inside
          exact List.mem_append_left _ inside
        · rwa [same] at inside
      rcases mem_otherNames_withBranches reads writes used with fixed | known
      · exact foreign name own fixed
      · exact free name (Access.mem_functions_iff.mpr known) own

private theorem hygienic_valueBranches_iff (t : DataType) (access : Access) :
    Dispatcher.Hygienic ⟨qualifier, function, valueBranches t access, [.answer .noAction]⟩ ↔
      ∀ f ∈ access.functions, f ∉ parameterNames ++ [valueName] := by
  have foreign : ∀ name ∈ parameterNames ++ [valueName], name ∉ branchNames (valueNames t) := by
    cases t <;> decide
  exact hygienic_withBranches_iff (uniform_readValue t) (uniform_writeValue t) (by decide) foreign

private theorem hygienic_stringBranches_iff (access : Access) :
    Dispatcher.Hygienic ⟨qualifier, function, stringBranches access, [.answer .noAction]⟩ ↔
      ∀ f ∈ access.functions, f ∉ parameterNames := by
  have foreign : ∀ name ∈ parameterNames ++ [], name ∉ branchNames [stringGetter, stringSetter] := by
    decide
  rw [← List.append_nil parameterNames]
  exact hygienic_withBranches_iff (uniform_delegate stringGetter (by decide))
    (uniform_delegate stringSetter (by decide)) (by decide) foreign

/-! Dispatchers of functions. -/

section

variable {f : Function}

private theorem nodup_localNames (f : Function) : f.localNames.Nodup := by
  rw [Function.localNames]
  cases f.arguments.isEmpty <;> cases f.result.isVoid <;> decide

private theorem localNames_foreign {name : String} (own : name ∈ f.localNames) :
    name ∉ f.usedNames ∧ name ≠ copyFunction := by
  have fixed := mem_of_mem_localNames own
  have typed (t : DataType) : name ≠ t.cName := by
    rintro rfl
    exact absurd fixed (by cases t <;> decide)
  have plain : name ∉ parameterTypes ++ Status.all.map (·.name) ++ [copyFunction] := by
    intro other
    have apart : ∀ name ∈ [bufferName, lengthName, commandName, offsetName, resultName],
        name ∉ parameterTypes ++ Status.all.map (·.name) ++ [copyFunction] := by decide
    exact apart name fixed other
  constructor
  · rw [Function.usedNames]
    intro used
    rcases List.mem_append.mp used with used | used
    · rcases List.mem_append.mp used with type | type
      · exact plain (by simp [type])
      · obtain ⟨a, -, same⟩ := List.mem_map.mp type
        exact typed a.dataType same.symm
    · split at used
      · obtain rfl := List.mem_singleton.mp used
        exact plain (by decide)
      · rcases List.mem_cons.mp used with type | status
        · exact typed f.result type
        · obtain rfl := List.mem_singleton.mp status
          exact plain (by decide)
  · rintro rfl
    exact plain (by decide)

private theorem nodup_scopeNames (clear : f.ClearArguments) :
    (scopeNames (statementsOf f)).Nodup := by
  have perm : (scopeNames (statementsOf f)).Perm (f.localNames ++ f.arguments.map (·.name)) := by
    rw [scopeNames_statementsOf, Function.localNames, List.append_assoc, List.append_assoc]
    refine List.Perm.append_left _ ?_
    rw [← List.append_assoc _ _ (f.arguments.map (·.name))]
    exact List.perm_append_comm
  rw [perm.nodup_iff, List.nodup_append]
  refine ⟨nodup_localNames f, clear.different, fun name own name' listed => ?_⟩
  rintro rfl
  obtain ⟨a, member, rfl⟩ := List.mem_map.mp listed
  have known : ∀ name ∈ [bufferName, lengthName, commandName, offsetName, resultName],
      name ∈ Tree.dispatcherNames := by decide
  exact (clear.free a member).1 (known _ (mem_of_mem_localNames own))

private theorem hygienic_ofFunction_iff (clear : f.ClearArguments) :
    (ofFunction qualifier function f).Hygienic ↔ f.CaptureFree := by
  have own : statementsOf f ∈ (ofFunction qualifier function f).blocks := List.mem_singleton_self _
  constructor
  · rintro ⟨-, apart⟩
    constructor
    · intro taken
      exact apart _ own f.caller (mem_scopeNames_statementsOf.mpr (Or.inl taken))
        (mem_otherNames_ofFunction_of_used (Or.inr rfl))
    · intro a inside used
      have listed : a.name ∈ f.arguments.map (·.name) := List.mem_map_of_mem inside
      exact apart _ own a.name (mem_scopeNames_statementsOf.mpr (Or.inr listed))
        (mem_otherNames_ofFunction_of_used (Or.inl used))
  · intro free
    constructor
    · intro block listed
      obtain rfl : block = statementsOf f := List.mem_singleton.mp listed
      exact nodup_scopeNames clear
    · intro block listed name inside used
      obtain rfl : block = statementsOf f := List.mem_singleton.mp listed
      have uses := used_of_mem_otherNames_ofFunction used
      rcases mem_scopeNames_statementsOf.mp inside with own | listed
      · obtain ⟨foreign, other⟩ := localNames_foreign own
        rcases uses with named | rfl | copied
        · exact foreign named
        · exact free.caller own
        · exact other copied
      · obtain ⟨a, member, rfl⟩ := List.mem_map.mp listed
        obtain ⟨apart, other⟩ := clear.free a member
        rcases uses with named | called | copied
        · exact free.arguments a member named
        · exact other called
        · rw [copied] at apart
          exact apart (by decide)

end

private theorem hygienic_of_ofEntity {name : String} {e : Entity} {d : Dispatcher}
    (clear : ∀ f, e.body = .function f → f.ClearArguments)
    (made : ofEntity function name e = .ok d) : d.Hygienic ↔ e.body.CaptureFree := by
  obtain ⟨info, body⟩ := e
  cases body with
  | node => cases made
  | register r =>
    cases strategy : r.strategy with
    | byValue =>
      simp only [ofEntity, Body.CaptureFree, strategy] at made ⊢
      rw [← Except.ok.inj made]
      exact hygienic_valueBranches_iff r.dataType r.access
    | string =>
      simp only [ofEntity, Body.CaptureFree, strategy] at made ⊢
      rw [← Except.ok.inj made]
      exact hygienic_stringBranches_iff r.access
  | selector s =>
    rw [← Except.ok.inj made]
    exact hygienic_valueBranches_iff optionType s.access
  | bitmask b =>
    rw [← Except.ok.inj made]
    exact hygienic_valueBranches_iff optionType b.access
  | function f =>
    obtain ⟨statements, listed, rfl⟩ := map_eq_ok_iff.mp made
    rw [(functionStatements_eq_ok listed).1]
    exact hygienic_ofFunction_iff (clear f rfl)

private theorem hygienic_ofFingerprint : ofFingerprint.Hygienic :=
  ⟨by decide, by decide⟩

/-- The implementation of a tree without violations has one dispatcher for the fingerprint and one for
each endpoint. The dispatcher of an endpoint accounts for all words of its text, and no variable of it
has the name of something else exactly when the endpoint keeps apart the names that the validation
does not compare. -/
theorem hygienic_iff {t : Tree} (h : t.Reachable) (valid : t.violations = []) (s : Settings) :
    ∃ i found, implementation s t = .ok i ∧ i.dispatchers = ofFingerprint :: found ∧
      ofFingerprint.Hygienic ∧
      List.Forall₂ (fun id d => ∃ e, t.get? id = some e ∧ ofPlace t id = .ok d ∧ d.Accounted ∧
        (d.Hygienic ↔ e.body.CaptureFree)) t.endpoints found := by
  have rules := (Tree.violations_eq_nil_iff h.sound).mp valid
  obtain ⟨i, made⟩ := exists_implementation h.sound rules s
  obtain ⟨found, listed, -, paired⟩ := forall₂_dispatchers made
  refine ⟨i, found, made, listed, hygienic_ofFingerprint, paired.imp fun id d placed => ?_⟩
  have whole := placed
  rw [ofPlace] at whole
  split at whole
  · rename_i e there
    have accounted := (tidy_of_ofPlace rules placed).accounted
    refine ⟨e, there, placed, accounted, hygienic_of_ofEntity (fun f body => ?_) whole⟩
    obtain ⟨info, _⟩ := e
    subst body
    exact rules.arguments id info f there
  · cases whole

/-- A tree with a function that has arguments and a result, and with a value and a text. -/
def pump : Tree :=
  (((Tree.ofRoot ⟨"pump", none, none, false, [], none, none⟩ false).afterAdd 0
    ⟨⟨"dose", none, none, false, [], none, none⟩, .function ⟨"pump_dose",
      [⟨"volume", none, .uint16, none⟩, ⟨"v", none, .float, none⟩], .int32, none, 1⟩⟩).afterAdd 0
    ⟨⟨"speed", none, none, false, [], none, none⟩,
      .register ⟨.uint32, none, ⟨some "pump_get_speed", some "pump_set_speed"⟩, 2⟩⟩).afterAdd 0
    ⟨⟨"label", none, none, false, [], none, none⟩,
      .register ⟨.string, none, ⟨some "pump_get_label", none⟩, 3⟩⟩

theorem hygienic_pump :
    pump.violations = [] ∧ ∃ i, implementation coolerSettings pump = .ok i ∧
      ∀ d ∈ i.dispatchers, d.Hygienic := by
  have valid : pump.violations = [] := by decide +kernel
  have reachable : pump.Reachable := .add _ _ (.add _ _ (.add _ _ (.root _ _)))
  obtain ⟨i, found, made, listed, first, paired⟩ := hygienic_iff reachable valid coolerSettings
  have free : ∀ id e, pump.get? id = some e → e.body.CaptureFree := by
    intro id e there
    have few : id < 4 := Tree.lt_size_of_get? there
    obtain rfl | rfl | rfl | rfl : id = 0 ∨ id = 1 ∨ id = 2 ∨ id = 3 := by omega
    all_goals obtain rfl := Option.some.inj there
    · trivial
    · exact ⟨by decide, by decide⟩
    · show ∀ f ∈ ["pump_get_speed", "pump_set_speed"], f ∉ parameterNames ++ [valueName]
      decide
    · show ∀ f ∈ ["pump_get_label"], f ∉ parameterNames
      decide
  refine ⟨valid, i, made, fun d inside => ?_⟩
  rw [listed] at inside
  rcases List.mem_cons.mp inside with rfl | inside
  · exact first
  · obtain ⟨k, there⟩ := List.mem_iff_getElem?.mp inside
    obtain ⟨id, _, e, known, -, -, exactly⟩ := exists_getElem?_of_forall₂ paired.flip there
    exact exactly.mpr (free id e known)

/-- A document whose endpoints name an argument like the type of bytes, and a getter like the variable
with the value. -/
def shadowDocument : Json :=
  .object [("name", .string "tm"), ("remote_attributes", .array [
    .object [("name", .string "f"), ("caller_name", .string "do_f"), ("arguments", .array [
      .object [("name", .string "uint8_t"), ("dtype", .string "int32")]])],
    .object [("name", .string "x"), ("dtype", .string "float"), ("getter_name", .string "v")]])]

/-- Both of its dispatchers are captured, and no rule is broken. -/
theorem not_hygienic_shadow :
    ∃ t i, Schema.build shadowDocument false = .ok t ∧ t.violations = [] ∧
      implementation coolerSettings t = .ok i ∧
      i.dispatchers.map (·.name) = [hashFunction, "avlos_f", "avlos_x"] ∧
      ∀ d ∈ i.dispatchers.tail, ¬d.Hygienic := by
  have facts : ((Schema.build shadowDocument false).toOption.bind fun t =>
      (implementation coolerSettings t).toOption.map fun i =>
        decide (t.violations = [] ∧
          i.dispatchers.map (·.name) = [hashFunction, "avlos_f", "avlos_x"] ∧
          ∀ d ∈ i.dispatchers.tail, ¬d.Hygienic)) = some true := by
    decide +kernel
  cases built : Schema.build shadowDocument false with
  | error e => simp [built, Except.toOption] at facts
  | ok t =>
    cases made : implementation coolerSettings t with
    | error e => simp [built, made, Except.toOption] at facts
    | ok i =>
      simp only [built, made, Except.toOption, Option.bind_some, Option.map_some, Option.some.injEq,
        decide_eq_true_eq] at facts
      exact ⟨t, i, rfl, facts.1, made, facts.2⟩

end Dispatch

end DeviceLink
