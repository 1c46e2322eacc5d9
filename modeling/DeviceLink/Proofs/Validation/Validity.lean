import DeviceLink.Proofs.Tree.Endpoints
import DeviceLink.Proofs.Validation.Collisions
import DeviceLink.Proofs.Validation.Identifiers

/-!
What the validation demands, said without the lists of what a check has seen. `Tree.Valid` collects
the rules, and a sound tree has no violation exactly when it keeps them (`violations_eq_nil_iff`).
The checks for collisions report every entry that meets an earlier one, once and in order
(`violations_exact`).
-/

set_option autoImplicit false
set_option relaxedAutoImplicit false

namespace DeviceLink

open Identifier (IsIdentifier fault?_eq_none_iff)

def Access.Usable (access : Access) : Prop :=
  access.getter.isSome = true ∨ access.setter.isSome = true

namespace Body

def memberNames : Body → List String
  | .function f => f.arguments.map (·.name)
  | .selector s => s.options.names
  | .bitmask b => b.flags.names
  | .node _ | .register _ => []

/-- Whether an entity has all that its kind needs, and only types that can be generated. -/
def Complete : Body → Prop
  | .node _ => True
  | .register r => r.access.Usable ∧ r.dataType ≠ .void
  | .function f => f.caller ≠ "" ∧ f.result ≠ .string ∧
      ∀ a ∈ f.arguments, a.dataType.isFixedWidth = true
  | .selector s => s.access.Usable ∧ s.options.names ≠ []
  | .bitmask b => b.access.Usable ∧ b.flags.names ≠ []

end Body

/-- The arguments of a function hide neither each other nor what its dispatcher uses. -/
structure Function.ClearArguments (f : Function) : Prop where
  different : (f.arguments.map (·.name)).Nodup
  free : ∀ a ∈ f.arguments, a.name ∉ Tree.dispatcherNames ∧ a.name ≠ f.caller

namespace Tree

/-- The rules for trees from which code is generated. -/
structure Valid (t : Tree) : Prop where
  names : ∀ id e, t.get? id = some e → IsIdentifier e.name
  members : ∀ id e, t.get? id = some e → ∀ name ∈ e.body.memberNames, IsIdentifier name
  arguments : ∀ id info f, t.get? id = some ⟨info, .function f⟩ → f.ClearArguments
  addressed : ∀ id, t.address? id ≠ some hashEndpoint
  addresses : ∀ id id' a, t.address? id = some a → t.address? id' = some a → id = id'
  designators : ∀ id e, t.get? id = some e → ∀ d ∈ designators e, IsIdentifier d.2
  fingerprint : ∀ id ∈ t.endpoints, t.functionName id ≠ hashFunction
  functions : ∀ id ∈ t.endpoints, ∀ id' ∈ t.endpoints,
    t.functionName id = t.functionName id' → id = id'
  enumerators : (t.endpoints.flatMap fun id => (t.enumerators id).map (·.name)).Nodup
  complete : ∀ id e, t.get? id = some e → e.body.Complete

variable {t : Tree} {id : Nat}

private theorem flatMap_walk_eq_nil_iff (h : t.Sound) {β : Type} {f : Nat → List β} :
    t.walk.flatMap f = [] ↔ ∀ id e, t.get? id = some e → f id = [] := by
  simp only [List.flatMap_eq_nil_iff, h.mem_walk]
  constructor
  · intro none id e found
    exact none id (lt_size_of_get? found)
  · intro none id inside
    obtain ⟨e, found⟩ := exists_get? inside
    exact none id e found

private theorem flatMap_endpoints_eq_nil_iff (h : t.Sound) {β : Type} {f : Nat → List β}
    (nodes : ∀ id e, t.get? id = some e → e.isNode = true → f id = []) :
    t.endpoints.flatMap f = [] ↔ ∀ id e, t.get? id = some e → f id = [] := by
  simp only [List.flatMap_eq_nil_iff, mem_endpoints_iff h]
  constructor
  · intro none id e found
    cases node : e.isNode with
    | true => exact nodes id e found node
    | false => exact none id ⟨e, found, by simp [Entity.isEndpoint, node]⟩
  · rintro none id ⟨e, found, -⟩
    exact none id e found

/-! Names. -/

private theorem map_name_entityNamings {e : Entity} (found : t.get? id = some e) :
    (t.entityNamings id).map (·.name) = e.name :: e.body.memberNames := by
  have members (path : String) (role : NameRole) (names : List String) :
      (memberNamings path role names).map (·.name) = names := by
    simp [memberNamings, Function.comp_def]
  simp only [entityNamings, found, List.map_cons, List.cons.injEq, true_and]
  obtain ⟨info, body⟩ := e
  cases body with
  | node | register => rfl
  | function | selector | bitmask => exact members _ _ _

private theorem namings_clean_iff (h : t.Sound) :
    (t.namings.filterMap fun n => (Identifier.fault? n.name).map (Violation.identifier n)) = [] ↔
      (∀ id e, t.get? id = some e → IsIdentifier e.name) ∧
        ∀ id e, t.get? id = some e → ∀ name ∈ e.body.memberNames, IsIdentifier name := by
  rw [namings, List.filterMap_flatMap, flatMap_walk_eq_nil_iff h]
  have here {id : Nat} {e : Entity} (found : t.get? id = some e) :
      ((t.entityNamings id).filterMap
        fun n => (Identifier.fault? n.name).map (Violation.identifier n)) = [] ↔
        IsIdentifier e.name ∧ ∀ name ∈ e.body.memberNames, IsIdentifier name := by
    rw [← List.forall_mem_cons, ← map_name_entityNamings found]
    simp only [List.filterMap_eq_nil_iff, Option.map_eq_none_iff, fault?_eq_none_iff,
      List.forall_mem_map]
  constructor
  · intro all
    exact ⟨fun id e found => ((here found).mp (all id e found)).1,
      fun id e found => ((here found).mp (all id e found)).2⟩
  · rintro ⟨own, members⟩ id e found
    exact (here found).mpr ⟨own id e found, members id e found⟩

private theorem argumentViolations_eq_nil_iff (path caller : String) (earlier names : List String) :
    argumentViolations path caller earlier names = [] ↔
      (∀ name ∈ names, name ∉ dispatcherNames ∧ name ≠ caller) ∧
        (∀ name ∈ names, name ∉ earlier) ∧ names.Nodup := by
  induction names generalizing earlier with
  | nil => simp [argumentViolations]
  | cons name rest ih =>
    have first : (if earlier.contains name then
        [Violation.duplicateArgument name path (path ++ "." ++ name)] else []) = [] ↔
          name ∉ earlier := by
      by_cases again : name ∈ earlier <;> simp [again]
    have hidden : (if dispatcherNames.contains name || name == caller then
        [Violation.shadowing name (path ++ "." ++ name)] else []) = [] ↔
          name ∉ dispatcherNames ∧ name ≠ caller := by
      by_cases taken : name ∈ dispatcherNames <;> by_cases own : name = caller <;>
        simp [taken, own]
    have later : (∀ other ∈ rest, other ∉ earlier ++ [name]) ↔
        (∀ other ∈ rest, other ∉ earlier) ∧ name ∉ rest := by
      simp only [List.mem_append, List.mem_singleton, not_or, forall_and]
      refine and_congr_right fun _ => ⟨fun apart inside => apart name inside rfl, ?_⟩
      rintro absent other inside rfl
      exact absent inside
    rw [argumentViolations]
    simp only [List.append_eq_nil_iff, first, hidden, ih, later, List.forall_mem_cons,
      List.nodup_cons]
    tauto

private theorem arguments_clean_iff (h : t.Sound) :
    t.walk.flatMap t.entityArgumentViolations = [] ↔
      ∀ id info f, t.get? id = some ⟨info, .function f⟩ → f.ClearArguments := by
  have clear (path : String) (f : Function) :
      argumentViolations path f.caller [] (f.arguments.map (·.name)) = [] ↔ f.ClearArguments := by
    rw [argumentViolations_eq_nil_iff, List.forall_mem_map]
    constructor
    · rintro ⟨free, -, different⟩
      exact ⟨different, free⟩
    · rintro ⟨different, free⟩
      exact ⟨free, fun _ _ => List.not_mem_nil, different⟩
  rw [flatMap_walk_eq_nil_iff h]
  constructor
  · intro none id info f found
    have here := none id _ found
    rw [entityArgumentViolations, found] at here
    exact (clear _ f).mp here
  · intro all id e found
    rw [entityArgumentViolations, found]
    obtain ⟨info, body⟩ := e
    cases body with
    | function f => exact (clear _ f).mpr (all id info f found)
    | node | register | selector | bitmask => rfl

/-! Addresses. -/

private theorem map_fst_addressEntries (t : Tree) (ids : List Nat) :
    (t.addressEntries ids).map Prod.fst = ids.filterMap t.address? := by
  rw [addressEntries, List.map_filterMap]
  refine List.filterMap_congr fun id _ => ?_
  rw [address?]
  cases (t.get? id).bind Entity.endpoint? <;> rfl

theorem endpoints_clean_iff (h : t.Sound) :
    t.endpointViolations = [] ↔ (∀ id, t.address? id ≠ some hashEndpoint) ∧
      ∀ id id' a, t.address? id = some a → t.address? id' = some a → id = id' := by
  have member {id : Nat} {a : EndpointId} (found : t.address? id = some a) : id ∈ t.endpoints :=
    (mem_endpoints h).mpr (by rw [found]; rfl)
  have reserved : (∀ entry ∈ t.addressEntries t.endpoints, entry.1 ≠ hashEndpoint) ↔
      ∀ id, t.address? id ≠ some hashEndpoint := by
    rw [← List.forall_mem_map (f := Prod.fst) (P := fun a => a ≠ hashEndpoint),
      map_fst_addressEntries]
    simp only [List.mem_filterMap]
    constructor
    · intro other id found
      exact other _ ⟨id, member found, found⟩ rfl
    · rintro other a ⟨id, -, found⟩ rfl
      exact other id found
  have distinct : ((t.addressEntries t.endpoints).map Prod.fst).Nodup ↔
      ∀ id id' a, t.address? id = some a → t.address? id' = some a → id = id' := by
    rw [map_fst_addressEntries, ← List.nodup_map_iff (Option.some_injective EndpointId),
      map_some_addresses h, List.nodup_map_iff_inj_on (nodup_endpoints h)]
    constructor
    · intro alone id id' a found found'
      exact alone id (member found) id' (member found') (found.trans found'.symm)
    · intro alone id inside id' _ same
      obtain ⟨a, found⟩ := Option.isSome_iff_exists.mp ((mem_endpoints h).mp inside)
      exact alone id id' a found (same ▸ found)
  rw [endpointViolations_eq_nil_iff, reserved, distinct]

/-! Functions, enumerators and what is missing. -/

private theorem designators_clean_iff (h : t.Sound) :
    t.endpoints.flatMap t.designatorViolations = [] ↔
      ∀ id e, t.get? id = some e → ∀ d ∈ designators e, IsIdentifier d.2 := by
  have here {id : Nat} {e : Entity} (found : t.get? id = some e) :
      t.designatorViolations id = [] ↔ ∀ d ∈ designators e, IsIdentifier d.2 := by
    simp only [designatorViolations, found, List.filterMap_eq_nil_iff, Option.map_eq_none_iff,
      fault?_eq_none_iff]
  rw [flatMap_endpoints_eq_nil_iff h]
  · exact forall₃_congr fun id e found => here found
  · rintro id ⟨info, body⟩ found node
    rw [here found]
    cases body with
    | node => exact fun d inside => absurd inside List.not_mem_nil
    | register | function | selector | bitmask => simp [Entity.isNode, Entity.kind] at node

private theorem functions_clean_iff (h : t.Sound) :
    collisions .functionCollision [(hashFunction, "the hash accessor")] t.generatedFunctions = [] ↔
      (∀ id ∈ t.endpoints, t.functionName id ≠ hashFunction) ∧
        ∀ id ∈ t.endpoints, ∀ id' ∈ t.endpoints,
          t.functionName id = t.functionName id' → id = id' := by
  rw [collisions_eq_nil_iff, generatedFunctions, List.forall_mem_map, List.map_map,
    ← List.nodup_map_iff_inj_on (nodup_endpoints h)]
  simp only [List.map_cons, List.map_nil, List.mem_singleton]
  rfl

private theorem map_fst_allEnumerators (t : Tree) :
    t.allEnumerators.map Prod.fst =
      t.endpoints.flatMap fun id => (t.enumerators id).map (·.name) := by
  simp only [allEnumerators, List.map_flatMap, List.map_map, Function.comp_def]

private theorem enumerators_clean_iff (t : Tree) :
    t.enumeratorViolations = [] ↔
      (t.endpoints.flatMap fun id => (t.enumerators id).map (·.name)).Nodup := by
  rw [enumeratorViolations, collisions_eq_nil_iff, map_fst_allEnumerators]
  exact and_iff_right fun entry _ => List.not_mem_nil

private theorem accessDefects_eq_nil_iff (kind : Kind) (access : Access) :
    accessDefects kind access = [] ↔ access.Usable := by
  obtain ⟨getter, setter⟩ := access
  cases getter <;> cases setter <;> simp [accessDefects, Access.Usable]

theorem bodyDefects_eq_nil_iff (body : Body) : bodyDefects body = [] ↔ body.Complete := by
  cases body with
  | node => exact iff_of_true rfl trivial
  | register r =>
    rw [bodyDefects, List.append_eq_nil_iff, accessDefects_eq_nil_iff, Body.Complete]
    refine and_congr_right fun _ => ?_
    cases r.dataType <;> simp [DataType.isVoid]
  | function f =>
    have caller : (if f.caller.isEmpty then [Defect.missingCaller] else []) = [] ↔
        f.caller ≠ "" := by
      by_cases missing : f.caller = "" <;> simp [missing, String.isEmpty_iff]
    have result : (if f.result.isString then [Defect.stringResult] else []) = [] ↔
        f.result ≠ .string := by
      cases f.result <;> simp [DataType.isString]
    rw [bodyDefects, List.append_eq_nil_iff, List.append_eq_nil_iff, caller, result,
      List.filterMap_eq_nil_iff, Body.Complete, and_assoc]
    refine and_congr_right fun _ => and_congr_right fun _ => forall₂_congr fun a _ => ?_
    cases a.dataType.isFixedWidth <;> simp
  | selector s =>
    rw [bodyDefects, List.append_eq_nil_iff, accessDefects_eq_nil_iff, Body.Complete]
    refine and_congr_right fun _ => ?_
    cases s.options.names <;> simp
  | bitmask b =>
    rw [bodyDefects, List.append_eq_nil_iff, accessDefects_eq_nil_iff, Body.Complete]
    refine and_congr_right fun _ => ?_
    cases b.flags.names <;> simp

private theorem defects_clean_iff (h : t.Sound) :
    t.defectViolations = [] ↔ ∀ id e, t.get? id = some e → e.body.Complete := by
  have here {id : Nat} {e : Entity} (found : t.get? id = some e) :
      t.endpointDefects id = [] ↔ e.body.Complete := by
    simp only [endpointDefects, found, List.map_eq_nil_iff, bodyDefects_eq_nil_iff]
  rw [defectViolations, flatMap_endpoints_eq_nil_iff h]
  · exact forall₃_congr fun id e found => here found
  · rintro id ⟨info, body⟩ found node
    rw [here found]
    cases body with
    | node => trivial
    | register | function | selector | bitmask => simp [Entity.isNode, Entity.kind] at node

/-- A sound tree has no violation exactly when it keeps the rules. -/
theorem violations_eq_nil_iff (h : t.Sound) : t.violations = [] ↔ t.Valid := by
  simp only [violations, nameViolations, functionViolations, List.append_eq_nil_iff,
    namings_clean_iff h, arguments_clean_iff h, endpoints_clean_iff h, designators_clean_iff h,
    functions_clean_iff h, enumerators_clean_iff, defects_clean_iff h]
  constructor
  · rintro ⟨⟨⟨⟨⟨⟨names, members⟩, arguments⟩, addressed, addresses⟩, designators, fingerprint,
      functions⟩, enumerators⟩, complete⟩
    exact ⟨names, members, arguments, addressed, addresses, designators, fingerprint, functions,
      enumerators, complete⟩
  · intro v
    exact ⟨⟨⟨⟨⟨⟨v.names, v.members⟩, v.arguments⟩, v.addressed, v.addresses⟩, v.designators,
      v.fingerprint, v.functions⟩, v.enumerators⟩, v.complete⟩

/-! The report as a whole. -/

private theorem isSome_addressViolation?_iff (earlier : List (EndpointId × String))
    (entry : EndpointId × String) :
    (addressViolation? earlier entry).isSome = true ↔
      entry.1 = hashEndpoint ∨ entry.1 ∈ earlier.map Prod.fst := by
  rw [Option.isSome_iff_ne_none, ne_eq, addressViolation?_eq_none_iff, not_and_or, not_not, not_not]

private theorem isSome_collision?_iff (report : String → String → String → Violation)
    (earlier : List (String × String)) (entry : String × String) :
    (collision? report earlier entry).isSome = true ↔ entry.1 ∈ earlier.map Prod.fst := by
  rw [Option.isSome_iff_ne_none, ne_eq, collision?_eq_none_iff, not_not]

/-- Nothing is reported on a tree exactly when it keeps the rules. Otherwise all checks report: each
judges the endpoints, functions and enumerators in order, every one by those before it, and has one
violation for an address that is reserved, and for an address or a name that is already taken. -/
theorem violations_exact (h : t.Reachable) :
    (t.violations = [] ↔ t.Valid) ∧
      t.violations = t.nameViolations ++
        judged addressViolation? (t.addressEntries t.endpoints) ++
        (t.endpoints.flatMap t.designatorViolations ++
          judged (fun earlier => collision? .functionCollision
            ((hashFunction, "the hash accessor") :: earlier)) t.generatedFunctions) ++
        judged (collision? .enumeratorCollision) t.allEnumerators ++ t.defectViolations ∧
      (t.addressEntries t.endpoints).map (some ·.1) = t.endpoints.map t.address? ∧
      (∀ earlier entry, (addressViolation? earlier entry).isSome = true ↔
        entry.1 = hashEndpoint ∨ entry.1 ∈ earlier.map Prod.fst) ∧
      ∀ report earlier entry, (collision? report earlier entry).isSome = true ↔
        entry.1 ∈ earlier.map Prod.fst := by
  refine ⟨violations_eq_nil_iff h.sound, ?_, ?_, isSome_addressViolation?_iff,
    isSome_collision?_iff⟩
  · rw [violations, endpointViolations_eq_judged, functionViolations, collisions_eq_judged,
      enumeratorViolations, collisions_eq_judged]
    rfl
  · rw [← map_some_addresses h.sound, ← map_fst_addressEntries, List.map_map]
    rfl

def twins : Tree :=
  ((ofRoot ⟨"pair", none, none, false, [], none, none⟩ false).afterAdd 0
    ⟨⟨"a", none, none, false, [], none, none⟩, .function ⟨"run_a", [], .void, none, 1⟩⟩).afterAdd 0
    ⟨⟨"b", none, none, false, [], none, none⟩, .function ⟨"run_b", [], .void, none, 1⟩⟩

theorem violations_exact_twins :
    twins.Reachable ∧ twins.violations = [.duplicateEndpoint 1 "b" "a"] ∧ ¬ twins.Valid := by
  have reachable : twins.Reachable := .add _ _ (.add _ _ (.root _ _))
  have reported : twins.violations = [.duplicateEndpoint 1 "b" "a"] := by decide +kernel
  refine ⟨reachable, reported, fun valid => ?_⟩
  have silent := (violations_exact reachable).1.mpr valid
  exact absurd (reported.symm.trans silent) (List.cons_ne_nil _ _)

end Tree

end DeviceLink
