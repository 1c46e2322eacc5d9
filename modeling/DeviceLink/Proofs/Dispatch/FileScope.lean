import DeviceLink.Proofs.Dispatch.Slots
import DeviceLink.Proofs.Validation.Validity
import Mathlib.Data.List.Perm.Basic

/-!
The names that generated code defines at file scope, over its three units. The validation compares
functions with functions and enumerators with enumerators; `Tree.ScopeClear` says what is left to
compare, and on a tree without violations the names are all different exactly when it holds
(`nodup_fileScope_iff`). It may fail: an endpoint may take the name of the table of dispatchers.
-/

set_option autoImplicit false
set_option relaxedAutoImplicit false

namespace DeviceLink

open Identifier (IsIdentifier IsWord isPart)

namespace Text

private theorem toUpper_ne (c : Char) : c.toUpper ≠ 'a' := by
  intro same
  rw [Char.toUpper] at same
  split at same
  · rename_i small
    have low : 97 ≤ c.val.toNat := small.1
    have high : c.val.toNat ≤ 122 := small.2
    have value := congrArg (fun d : Char => d.val.toNat) same
    simp only [UInt32.toNat_add] at value
    change (c.val.toNat + 4294967264) % 4294967296 = 97 at value
    omega
  · rename_i other
    exact other (by rw [same]; decide)

end Text

namespace Tree

variable {t : Tree} {id : Nat}

theorem toList_underscoredName (t : Tree) (id : Nat) :
    (t.underscoredName id).toList =
      ((t.pathNames id).map String.toList |>.intersperse ['.']).flatten.map
        fun c => if c = '.' then '_' else c := by
  rw [underscoredName, Text.replaceChar, String.toList_ofList, fullName, String.toList_intercalate]
  rfl

theorem isPart_underscoredName (valid : t.Valid) :
    ∀ c ∈ (t.underscoredName id).toList, isPart c = true := by
  intro c inside
  rw [toList_underscoredName] at inside
  obtain ⟨d, member, rfl⟩ := List.mem_map.mp inside
  split
  · decide
  · rename_i plain
    obtain ⟨part, there, within⟩ := List.mem_flatten.mp member
    rcases mem_of_mem_intersperse there with rfl | named
    · exact absurd (List.mem_singleton.mp within) plain
    · obtain ⟨name, listed, rfl⟩ := List.mem_map.mp named
      obtain ⟨id', e, found, rfl⟩ := mem_pathNames listed
      exact (valid.names id' e found).word.isPart d within

private theorem underscoredName_ne_nil (h : t.Sound) (valid : t.Valid) (inside : id ∈ t.endpoints) :
    (t.underscoredName id).toList ≠ [] := by
  obtain ⟨e, names, found, path⟩ := pathNames_endpoint h inside
  obtain ⟨first, rest, spelled, -⟩ := (valid.names id e found).word
  have listed : e.name.toList ∈ (t.pathNames id).map String.toList := by
    rw [path]
    exact List.mem_map_of_mem (List.mem_append_right _ (List.mem_singleton_self _))
  have within : first ∈ e.name.toList := by rw [spelled]; exact List.mem_cons_self
  have member := List.mem_flatten.mpr ⟨_, mem_intersperse_of_mem ['.'] listed, within⟩
  rw [toList_underscoredName]
  exact fun nothing => List.ne_nil_of_mem member (List.map_eq_nil_iff.mp nothing)

theorem exists_member_of_mem_enumerators {e : Enumerator} (inside : e ∈ t.enumerators id) :
    ∃ entity member, t.get? id = some entity ∧
      (member = noFlagName ∨ member ∈ entity.body.memberNames) ∧
      e.name = enumeratorName (t.enumeratorStem id) member := by
  rw [enumerators] at inside
  split at inside
  · exact absurd inside List.not_mem_nil
  · rename_i entity found
    split at inside
    · rename_i s held
      obtain ⟨v, listed, rfl⟩ := List.mem_map.mp inside
      obtain ⟨i, bound, rfl⟩ := List.mem_mapIdx.mp listed
      have known := List.mem_of_mem_take (List.getElem_mem bound)
      exact ⟨entity, _, found, .inr (by rw [held]; exact known), rfl⟩
    · rename_i b held
      rcases List.mem_cons.mp inside with rfl | flagged
      · exact ⟨entity, noFlagName, found, .inl rfl, rfl⟩
      · obtain ⟨i, bound, rfl⟩ := List.mem_mapIdx.mp flagged
        exact ⟨entity, _, found, .inr (by rw [held]; exact List.getElem_mem bound), rfl⟩
    · exact absurd inside List.not_mem_nil
    · exact absurd inside List.not_mem_nil
    · exact absurd inside List.not_mem_nil

def functionNames (t : Tree) : List String :=
  t.endpoints.map t.functionName

def enumeratorNames (t : Tree) : List String :=
  t.endpoints.flatMap fun id => (t.enumerators id).map (·.name)

def typeNames (t : Tree) : List String :=
  (Dispatch.enumerations t).map (·.name)

private theorem startsWith_of_mem_functionNames {name : String} (inside : name ∈ t.functionNames) :
    "avlos_".toList <+: name.toList := by
  obtain ⟨id, -, rfl⟩ := List.mem_map.mp inside
  rw [functionName, String.toList_append]
  exact List.prefix_append _ _

theorem enumerationAt?_eq_some {e : Dispatch.Enumeration} (h : t.Sound)
    (found : Dispatch.enumerationAt? t id = some e) :
    id ∈ t.endpoints ∧ e.enumerators = t.enumerators id ∧
      (e.name = t.underscoredName id ++ "_options" ∨ e.name = t.underscoredName id ++ "_flags") := by
  rw [Dispatch.enumerationAt?] at found
  split at found
  · rename_i there
    obtain rfl := Option.some.inj found
    exact ⟨(mem_endpoints_iff h).mpr ⟨_, there, rfl⟩, rfl, Or.inl rfl⟩
  · rename_i there
    obtain rfl := Option.some.inj found
    exact ⟨(mem_endpoints_iff h).mpr ⟨_, there, rfl⟩, rfl, Or.inr rfl⟩
  · cases found

theorem enumerators_eq_nil (none : Dispatch.enumerationAt? t id = none) :
    t.enumerators id = [] := by
  rw [enumerators]
  cases found : t.get? id with
  | none => rfl
  | some e =>
    obtain ⟨info, body⟩ := e
    cases body with
    | node | register | function => rfl
    | selector | bitmask => simp [Dispatch.enumerationAt?, found] at none

private theorem enumeratorNames_eq (h : t.Sound) :
    t.enumeratorNames =
      (Dispatch.enumerations t).flatMap fun e => e.enumerators.map (·.name) := by
  rw [enumeratorNames, Dispatch.enumerations, flatMap_filterMap]
  refine List.flatMap_congr fun id _ => ?_
  cases found : Dispatch.enumerationAt? t id with
  | none => rw [enumerators_eq_nil found]; rfl
  | some e => rw [Option.map_some, (enumerationAt?_eq_some h found).2.1]; rfl

theorem underscoredName_of_typeName_eq {id' : Nat} {e e' : Dispatch.Enumeration} (h : t.Sound)
    (made : Dispatch.enumerationAt? t id = some e)
    (made' : Dispatch.enumerationAt? t id' = some e') (same : e.name = e'.name) :
    t.underscoredName id = t.underscoredName id' := by
  obtain ⟨-, -, shape⟩ := enumerationAt?_eq_some h made
  obtain ⟨-, -, shape'⟩ := enumerationAt?_eq_some h made'
  have mixed (l l' : List Char) (same : l ++ "_options".toList = l' ++ "_flags".toList) : False := by
    have ends := congrArg List.reverse same
    rw [List.reverse_append, List.reverse_append] at ends
    exact absurd (List.cons.inj (List.cons.inj ends).2).1 (by decide)
  refine String.toList_injective ?_
  replace same := congrArg String.toList same
  rcases shape with shape | shape <;> rcases shape' with shape' | shape' <;>
    rw [shape, shape', String.toList_append, String.toList_append] at same
  · exact List.append_cancel_right same
  · exact (mixed _ _ same).elim
  · exact (mixed _ _ same.symm).elim
  · exact List.append_cancel_right same

private theorem nodup_typeNames (h : t.Sound) (valid : t.Valid) : t.typeNames.Nodup := by
  rw [typeNames, Dispatch.enumerations, List.map_filterMap]
  refine (nodup_endpoints h).filterMap fun id id' name found found' => ?_
  obtain ⟨e, made, rfl⟩ := Option.map_eq_some_iff.mp found
  obtain ⟨e', made', same⟩ := Option.map_eq_some_iff.mp found'
  have paths := underscoredName_of_typeName_eq h made made' same.symm
  exact valid.functions id (enumerationAt?_eq_some h made).1 id' (enumerationAt?_eq_some h made').1
    (congrArg (functionMark ++ ·) paths)

private theorem endsWith_of_mem_typeNames (h : t.Sound) {name : String}
    (inside : name ∈ t.typeNames) :
    "_options".toList <:+ name.toList ∨ "_flags".toList <:+ name.toList := by
  obtain ⟨e, listed, rfl⟩ := List.mem_map.mp inside
  obtain ⟨id, -, found⟩ := List.mem_filterMap.mp listed
  rcases (enumerationAt?_eq_some h found).2.2 with options | flags
  · rw [options, String.toList_append]
    exact Or.inl (List.suffix_append _ _)
  · rw [flags, String.toList_append]
    exact Or.inr (List.suffix_append _ _)

/-- Enumerators start with a word in capitals and an underscore. -/
structure Capital (cs : List Char) : Prop where
  underscore : '_' ∈ cs
  start : ¬ ['a'] <+: cs
  second : ¬ ['_', 'a'] <+: cs

private theorem capital_of_mem_enumeratorNames (h : t.Sound) (valid : t.Valid) {name : String}
    (inside : name ∈ t.enumeratorNames) : Capital name.toList := by
  obtain ⟨id, endpoint, listed⟩ := List.mem_flatMap.mp inside
  obtain ⟨e, enumerator, rfl⟩ := List.mem_map.mp listed
  obtain ⟨-, member, -, -, spelled⟩ := exists_member_of_mem_enumerators enumerator
  obtain ⟨c, rest, stem⟩ := List.exists_cons_of_ne_nil (underscoredName_ne_nil h valid endpoint)
  have chars : e.name.toList = c.toUpper :: (rest.map Char.toUpper ++ '_' :: member.toList) := by
    rw [spelled, enumeratorName, enumeratorStem, String.toList_append, String.toList_append,
      String.toList_ofList, Identifier.upper_eq_map (isPart_underscoredName valid), stem]
    simp
  rw [chars]
  refine ⟨by simp, fun start => ?_, fun start => ?_⟩
  · exact Text.toUpper_ne c (List.cons_prefix_cons.mp start).1.symm
  · obtain ⟨-, second⟩ := List.cons_prefix_cons.mp start
    cases rest with
    | nil => exact absurd (List.cons_prefix_cons.mp second).1 (by decide)
    | cons d more => exact Text.toUpper_ne d (List.cons_prefix_cons.mp second).1.symm

end Tree

namespace Dispatch

open DeviceLink.Tree (functionNames typeNames enumeratorNames)

def Enumeration.defined (e : Enumeration) : List String :=
  e.name :: e.enumerators.map (·.name)

/-- The names that the header defines; the table and the dispatchers are only announced there. -/
def Header.defined (h : Header) : List String :=
  maxPayloadName :: h.enumerations.flatMap Enumeration.defined ++ [fingerprintFunction]

def Implementation.defined (i : Implementation) : List String :=
  (if i.withStrings then [stringGetter, stringSetter] else []) ++
    tableName :: i.dispatchers.map (·.name)

def fileScope (s : Settings) (t : Tree) (i : Implementation) : List String :=
  (enumerations t).flatMap Enumeration.defined ++ (header s t).defined ++ i.defined

/-- The names that generated code defines for every tree. -/
def fixedNames (withStrings : Bool) : List String :=
  maxPayloadName :: protocolEnumerations.flatMap Enumeration.defined ++ [fingerprintFunction] ++
    (if withStrings then [stringGetter, stringSetter] else []) ++ [tableName, hashFunction]

def protocolNames : List String :=
  maxPayloadName :: Status.all.map (·.name) ++ Command.all.map (·.name)

/-- The tree leaves the other names alone: no function has the name of the table, no enumerator one
of the protocol, and no type that of a function or an enumerator. -/
structure ScopeClear (t : Tree) : Prop where
  table : tableName ∉ t.functionNames
  protocol : ∀ name ∈ t.enumeratorNames, name ∉ protocolNames
  functions : ∀ name ∈ t.typeNames, name ∉ t.functionNames
  enumerators : ∀ name ∈ t.typeNames, name ∉ t.enumeratorNames

variable {t : Tree}

theorem exists_ofPlace (h : t.Sound) (valid : t.Valid) {id : Nat} (inside : id ∈ t.endpoints) :
    ∃ d, ofPlace t id = .ok d := by
  obtain ⟨e, found, endpoint⟩ := (Tree.mem_endpoints_iff h).mp inside
  have complete := valid.complete id e found
  rw [ofPlace, found]
  obtain ⟨info, body⟩ := e
  cases body with
  | node => cases endpoint
  | register r =>
    simp only [ofEntity]
    split <;> exact ⟨_, rfl⟩
  | selector | bitmask => exact ⟨_, rfl⟩
  | function f =>
    obtain ⟨-, result, fixed⟩ := complete
    have plain : f.result.isString = false := by
      cases kind : f.result <;> simp_all [DataType.isString]
    have declared : ∀ a ∈ f.arguments, ∃ s, declareArgument (t.fullName id) a = .ok s := by
      intro a member
      exact ⟨_, if_pos (fixed a member)⟩
    obtain ⟨declarations, mapped⟩ := exists_mapM_eq_ok declared
    refine ⟨⟨info.qualifier, t.functionName id, [],
      .ignoreCommand :: declarations ++ unpackArguments f.arguments ++ callStatements f⟩, ?_⟩
    simp only [ofEntity, functionStatements, plain, mapped]
    rfl

theorem exists_implementation (h : t.Sound) (valid : t.Valid) (s : Settings) :
    ∃ i, implementation s t = .ok i := by
  obtain ⟨found, mapped⟩ := exists_mapM_eq_ok fun id inside => exists_ofPlace h valid inside
  exact ⟨_, by rw [implementation, dispatchers, mapped]; rfl⟩

theorem map_name_dispatchers {s : Settings} {i : Implementation}
    (made : implementation s t = .ok i) :
    i.dispatchers.map (·.name) = hashFunction :: t.functionNames := by
  obtain ⟨found, listed, -, matching⟩ := forall₂_dispatchers made
  rw [listed, List.map_cons, Tree.functionNames]
  exact congrArg _ (map_eq_map_of_forall₂ matching fun id d made => (name_ofPlace made).symm).symm

private theorem fileScope_perm (h : t.Sound) {s : Settings} {i : Implementation}
    (made : implementation s t = .ok i) :
    (fileScope s t i).Perm (fixedNames i.withStrings ++
      (t.functionNames ++ (t.typeNames ++ t.enumeratorNames))) := by
  have units : ((enumerations t).flatMap Enumeration.defined).Perm
      (t.typeNames ++ t.enumeratorNames) := by
    rw [Tree.enumeratorNames_eq h, Tree.typeNames, List.map_eq_flatMap]
    exact (List.flatMap_append_perm (enumerations t) (fun e => [e.name])
      fun e => e.enumerators.map (·.name)).symm
  rw [List.perm_iff_count]
  intro name
  simp only [fileScope, Header.defined, Implementation.defined, fixedNames, header,
    map_name_dispatchers made, List.count_append, List.count_cons, List.count_nil, units.count_eq]
  omega

private theorem nodup_fixedNames : ∀ withStrings, (fixedNames withStrings).Nodup := by decide

private theorem protocolNames_subset : ∀ withStrings, ∀ name ∈ protocolNames,
    name ∈ fixedNames withStrings := by decide

private theorem fixedNames_ending : ∀ withStrings, ∀ name ∈ fixedNames withStrings,
    ¬ "_options".toList <:+ name.toList ∧ ¬ "_flags".toList <:+ name.toList := by decide

private theorem fixedNames_functions : ∀ withStrings, ∀ name ∈ fixedNames withStrings,
    "avlos_".toList <+: name.toList → name = tableName ∨ name = hashFunction := by decide

private theorem fixedNames_capital : ∀ withStrings, ∀ name ∈ fixedNames withStrings,
    '_' ∈ name.toList ∧ ¬ ['a'] <+: name.toList ∧ ¬ ['_', 'a'] <+: name.toList →
      name ∈ protocolNames := by decide

private theorem nodup_sorted_iff (h : t.Sound) (valid : t.Valid) (withStrings : Bool) :
    (fixedNames withStrings ++
      (t.functionNames ++ (t.typeNames ++ t.enumeratorNames))).Nodup ↔ ScopeClear t := by
  have functions : t.functionNames.Nodup :=
    (List.nodup_map_iff_inj_on (Tree.nodup_endpoints h)).mpr valid.functions
  have types := Tree.nodup_typeNames h valid
  simp only [List.nodup_append, nodup_fixedNames, functions, types,
    show t.enumeratorNames.Nodup from valid.enumerators, true_and, List.mem_append]
  constructor
  · rintro ⟨⟨others, inner⟩, outer⟩
    refine ⟨fun taken => ?_, fun name inside taken => ?_, fun name inside taken => ?_, ?_⟩
    · exact outer tableName (by simp [fixedNames]) _ (Or.inl taken) rfl
    · exact outer name (protocolNames_subset _ name taken) name (Or.inr (Or.inr inside)) rfl
    · exact inner name taken name (Or.inl inside) rfl
    · exact fun name inside taken => others name inside name taken rfl
  · intro clear
    refine ⟨⟨?_, ?_⟩, ?_⟩
    · rintro name inside _ taken rfl
      exact clear.enumerators name inside taken
    · rintro name function _ (type | enumerator) rfl
      · exact clear.functions name type function
      · -- Functions start with a small letter.
        obtain ⟨rest, shape⟩ := Tree.startsWith_of_mem_functionNames function
        have start : ['a'] <+: name.toList := ⟨"vlos_".toList ++ rest, by rw [← shape]; rfl⟩
        exact (Tree.capital_of_mem_enumeratorNames h valid enumerator).start start
    · rintro name fixed _ (function | type | enumerator) rfl
      · rcases fixedNames_functions _ name fixed
          (Tree.startsWith_of_mem_functionNames function) with rfl | rfl
        · exact clear.table function
        · obtain ⟨id, inside, same⟩ := List.mem_map.mp function
          exact valid.fingerprint id inside same
      · obtain ⟨options, flags⟩ := fixedNames_ending _ name fixed
        rcases Tree.endsWith_of_mem_typeNames h type with ending | ending
        · exact options ending
        · exact flags ending
      · have capital := Tree.capital_of_mem_enumeratorNames h valid enumerator
        exact clear.protocol name enumerator (fixedNames_capital _ name fixed
          ⟨capital.underscore, capital.start, capital.second⟩)

/-- The code for a tree without violations has no name twice at file scope exactly when the tree
leaves alone the names that the validation does not compare. -/
theorem nodup_fileScope_iff (h : t.Reachable) (valid : t.violations = []) (s : Settings) :
    ∃ i, implementation s t = .ok i ∧ ((fileScope s t i).Nodup ↔ ScopeClear t) := by
  have rules := (Tree.violations_eq_nil_iff h.sound).mp valid
  obtain ⟨i, made⟩ := exists_implementation h.sound rules s
  refine ⟨i, made, ?_⟩
  rw [(fileScope_perm h.sound made).nodup_iff]
  exact nodup_sorted_iff h.sound rules i.withStrings

def lamp : Tree :=
  (Tree.ofRoot ⟨"lamp", none, none, false, [], none, none⟩ false).afterAdd 0
    ⟨⟨"mode", none, none, false, [], none, none⟩,
      .selector ⟨⟨["off", "on"]⟩, ⟨some "lamp_get_mode", none⟩, 1⟩⟩

theorem nodup_fileScope_lamp :
    lamp.violations = [] ∧
      ∃ i, implementation coolerSettings lamp = .ok i ∧ (fileScope coolerSettings lamp i).Nodup := by
  have valid : lamp.violations = [] := by decide +kernel
  obtain ⟨i, made, whole⟩ := nodup_fileScope_iff (.add _ _ (.root _ _)) valid coolerSettings
  have clear : ScopeClear lamp :=
    ⟨by decide +kernel, by decide +kernel, by decide +kernel, by decide +kernel⟩
  exact ⟨valid, i, made, whole.mpr clear⟩

/-- A document whose endpoint is called like the last part of the name of the table. -/
def endpointsDocument : Json :=
  .object [("name", .string "tm"), ("remote_attributes", .array [
    .object [("name", .string "endpoints"), ("dtype", .string "uint8"),
      ("getter_name", .string "get_endpoints")]])]

/-- Its dispatcher has the name of the table, and no rule is broken. -/
theorem not_nodup_fileScope_endpoints :
    ∃ t i, Schema.build endpointsDocument false = .ok t ∧ t.violations = [] ∧
      implementation coolerSettings t = .ok i ∧ ¬ (fileScope coolerSettings t i).Nodup := by
  have facts : ((Schema.build endpointsDocument false).toOption.bind fun t =>
      (implementation coolerSettings t).toOption.map fun i =>
        decide (t.violations = [] ∧ ¬ (fileScope coolerSettings t i).Nodup)) = some true := by
    decide +kernel
  cases built : Schema.build endpointsDocument false with
  | error e => simp [built, Except.toOption] at facts
  | ok t =>
    cases made : implementation coolerSettings t with
    | error e => simp [built, made, Except.toOption] at facts
    | ok i =>
      simp only [built, made, Except.toOption, Option.bind_some, Option.map_some, Option.some.injEq,
        decide_eq_true_eq] at facts
      exact ⟨t, i, rfl, facts.1, made, facts.2⟩

end Dispatch

end DeviceLink
