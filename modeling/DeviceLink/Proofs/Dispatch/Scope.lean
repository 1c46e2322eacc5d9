import DeviceLink.Proofs.Dispatch.Layout
import DeviceLink.Proofs.Dispatch.Words
import DeviceLink.Proofs.Results

/-!
The forms of dispatchers and the names in them. An endpoint with a getter or a setter has a dispatcher
with branches, and a function has one without. The dispatchers of a valid tree mention no variables
but their own (`tidy_of_ofEntity`), and so they account for all words of their texts.
-/

set_option autoImplicit false
set_option relaxedAutoImplicit false

namespace DeviceLink

open Identifier (IsIdentifier wellFormed wellFormed_iff)

namespace Access

def functions (access : Access) : List String :=
  access.getter.toList ++ access.setter.toList

theorem mem_functions_iff {access : Access} {function : String} :
    function ∈ access.functions ↔ access.getter = some function ∨ access.setter = some function := by
  simp [functions]

end Access

namespace Function

open Dispatch

/-- The variables of the dispatcher of a function beside the arguments. -/
def localNames (f : Function) : List String :=
  parameterNames ++ (if f.arguments.isEmpty then [] else [offsetName]) ++
    if f.result.isVoid then [] else [resultName]

/-- The types and the status that the dispatcher of a function names. -/
def usedNames (f : Function) : List String :=
  parameterTypes ++ f.arguments.map (·.dataType.cName) ++
    if f.result.isVoid then [Status.noAction.name] else [f.result.cName, Status.read.name]

end Function

theorem Tree.wellFormed_functionName {t : Tree} (valid : t.Valid) (id : Nat) :
    wellFormed (t.functionName id) = true := by
  have shape : (t.functionName id).toList =
      'a' :: ("vlos_".toList ++ (t.underscoredName id).toList) := by
    simp [functionName, functionMark]
  have stem : (t.underscoredName id).toList.all Identifier.isPart = true :=
    List.all_eq_true.mpr (isPart_underscoredName valid)
  have mark : "vlos_".toList.all Identifier.isPart = true := by decide
  rw [wellFormed, shape]
  simp only [List.all_append, mark, stem]
  rfl

namespace Dispatch

variable {qualifier : Option String} {function : String}

/-! Dispatchers with branches. -/

/-- What a branch does with any device function: it declares certain variables and mentions no more,
it uses the function, and all that it uses beside is among certain names. -/
structure Uniform (body : String → List Statement) (locals others : List String) : Prop where
  declares : ∀ f, (body f).flatMap Statement.declared = locals
  closed : ∀ f, ∀ s ∈ body f, ∀ name ∈ s.mentioned, name ∈ parameterNames ++ locals
  function : ∀ f, f ∈ (body f).flatMap Statement.used
  others : ∀ f, ∀ name ∈ (body f).flatMap Statement.used, name = f ∨ name ∈ others

/-- The names that the dispatcher of an endpoint with branches may use, beside device functions. -/
def branchNames (others : List String) : List String :=
  parameterTypes ++ Command.all.map (·.name) ++ Status.noAction.name :: others

section

variable {access : Access} {onRead onWrite : String → List Statement} {locals others : List String}

def withBranches (qualifier : Option String) (function : String) (access : Access)
    (onRead onWrite : String → List Statement) : Dispatcher :=
  ⟨qualifier, function, accessBranches access onRead onWrite, [.answer .noAction]⟩

theorem mem_blocks_withBranches {block : List Statement} :
    block ∈ (withBranches qualifier function access onRead onWrite).blocks ↔
      block = [.answer .noAction] ∨ (∃ getter, access.getter = some getter ∧ block = onRead getter) ∨
        ∃ setter, access.setter = some setter ∧ block = onWrite setter := by
  obtain ⟨getter, setter⟩ := access
  cases getter <;> cases setter <;> simp [withBranches, Dispatcher.blocks, accessBranches]

theorem mem_scopeNames_withBranches (reads : Uniform onRead locals others)
    (writes : Uniform onWrite locals others) {block : List Statement}
    (listed : block ∈ (withBranches qualifier function access onRead onWrite).blocks) :
    scopeNames block = parameterNames ∨ scopeNames block = parameterNames ++ locals := by
  rcases mem_blocks_withBranches.mp listed with rfl | ⟨getter, _, rfl⟩ | ⟨setter, _, rfl⟩
  · exact Or.inl rfl
  · exact Or.inr (congrArg _ (reads.declares getter))
  · exact Or.inr (congrArg _ (writes.declares setter))

theorem mem_otherNames_withBranches (reads : Uniform onRead locals others)
    (writes : Uniform onWrite locals others) {name : String}
    (inside : name ∈ (withBranches qualifier function access onRead onWrite).otherNames) :
    name ∈ branchNames others ∨ access.getter = some name ∨ access.setter = some name := by
  rcases List.mem_append.mp inside with outer | inner
  · refine Or.inl (List.mem_append_left _ ?_)
    rcases List.mem_append.mp outer with type | command
    · exact List.mem_append_left _ type
    · obtain ⟨branch, -, rfl⟩ := List.mem_map.mp command
      refine List.mem_append_right _ (List.mem_map_of_mem ?_)
      cases branch.command <;> decide
  · obtain ⟨block, listed, used⟩ := List.mem_flatMap.mp inner
    have beside (other : name ∈ others) : name ∈ branchNames others :=
      List.mem_append_right _ (List.mem_cons_of_mem _ other)
    rcases mem_blocks_withBranches.mp listed with rfl | ⟨getter, found, rfl⟩ | ⟨setter, found, rfl⟩
    · obtain rfl : name = Status.noAction.name := by simpa [Statement.used] using used
      exact Or.inl (List.mem_append_right _ List.mem_cons_self)
    · rcases reads.others getter name used with rfl | other
      · exact Or.inr (Or.inl found)
      · exact Or.inl (beside other)
    · rcases writes.others setter name used with rfl | other
      · exact Or.inr (Or.inr found)
      · exact Or.inl (beside other)

private theorem tidy_withBranches (reads : Uniform onRead locals others)
    (writes : Uniform onWrite locals others) (named : wellFormed function = true)
    (formed : ∀ f ∈ access.functions, wellFormed f = true)
    (own : ∀ name ∈ parameterNames ++ locals ++ branchNames others, wellFormed name = true) :
    (withBranches qualifier function access onRead onWrite).Tidy := by
  constructor
  · exact named
  · intro block listed name inside
    refine own name (List.mem_append_left _ ?_)
    rcases mem_scopeNames_withBranches reads writes listed with same | same
    · exact List.mem_append_left _ (same ▸ inside)
    · exact same ▸ inside
  · intro name inside
    rcases mem_otherNames_withBranches reads writes inside with fixed | known
    · exact own name (List.mem_append_right _ fixed)
    · exact formed name (Access.mem_functions_iff.mpr known)
  · intro block listed s inside name mentioned
    rcases mem_blocks_withBranches.mp listed with rfl | ⟨getter, _, rfl⟩ | ⟨setter, _, rfl⟩
    · obtain rfl := List.mem_singleton.mp inside
      exact absurd mentioned List.not_mem_nil
    · rw [scopeNames, reads.declares]
      exact reads.closed getter s inside name mentioned
    · rw [scopeNames, writes.declares]
      exact writes.closed setter s inside name mentioned

end

/-- The names that the branches of a value use beside device functions. -/
def valueNames (t : DataType) : List String :=
  [t.cName, copyFunction, Status.read.name, Status.write.name]

theorem uniform_readValue (t : DataType) :
    Uniform (fun getter => [.declare t.cName valueName, .fetch valueName getter] ++
      answerWith valueName) [valueName] (valueNames t) := by
  constructor
  · intro getter
    rfl
  · intro getter
    simp [answerWith, Statement.mentioned, parameterNames]
  · intro getter
    simp [Statement.used, answerWith]
  · intro getter name used
    simp [Statement.used, answerWith, valueNames] at used ⊢
    tauto

theorem uniform_writeValue (t : DataType) :
    Uniform (fun setter => [.declare t.cName valueName, .load valueName, .call setter [valueName],
      .answer .write]) [valueName] (valueNames t) := by
  constructor
  · intro setter
    rfl
  · intro setter
    simp [Statement.mentioned, parameterNames]
  · intro setter
    simp [Statement.used]
  · intro setter name used
    simp [Statement.used, valueNames] at used ⊢
    tauto

theorem uniform_delegate (helper : String) (known : helper ∈ [stringGetter, stringSetter]) :
    Uniform (fun device => [.delegate helper device]) [] [stringGetter, stringSetter] := by
  constructor
  · intro device
    rfl
  · intro device
    simp [Statement.mentioned, parameterNames]
  · intro device
    simp [Statement.used]
  · intro device name used
    simp [Statement.used] at used
    rcases used with rfl | rfl
    · exact Or.inr known
    · exact Or.inl rfl

private theorem tidy_valueBranches {t : DataType} {access : Access}
    (named : wellFormed function = true) (formed : ∀ f ∈ access.functions, wellFormed f = true)
    (fixed : t.isString = false) :
    Dispatcher.Tidy ⟨qualifier, function, valueBranches t access, [.answer .noAction]⟩ := by
  have own : ∀ name ∈ parameterNames ++ [valueName] ++ branchNames (valueNames t),
      wellFormed name = true := by
    cases t <;> first | decide | cases fixed
  exact tidy_withBranches (uniform_readValue t) (uniform_writeValue t) named formed own

private theorem tidy_stringBranches {access : Access} (named : wellFormed function = true)
    (formed : ∀ f ∈ access.functions, wellFormed f = true) :
    Dispatcher.Tidy ⟨qualifier, function, stringBranches access, [.answer .noAction]⟩ :=
  tidy_withBranches (uniform_delegate stringGetter (by decide))
    (uniform_delegate stringSetter (by decide)) named formed (by decide)

/-! Dispatchers of functions. -/

section

variable {f : Function}

private theorem declared_unpackArguments (arguments : List Argument) :
    (unpackArguments arguments).flatMap Statement.declared =
      if arguments.isEmpty then [] else [offsetName] := by
  cases arguments with
  | nil => rfl
  | cons a rest =>
    simp [unpackArguments, Statement.declared, List.flatMap_assoc]

private theorem mem_used_unpackArguments {arguments : List Argument} {name : String}
    (used : name ∈ (unpackArguments arguments).flatMap Statement.used) :
    name ∈ parameterTypes ∨ name = copyFunction := by
  cases arguments with
  | nil => exact absurd used List.not_mem_nil
  | cons a rest =>
    have names : name = byteType ∨ name = copyFunction := by
      simp [unpackArguments, Statement.used, List.flatMap_assoc] at used
      tauto
    rcases names with rfl | copied
    · exact Or.inl List.mem_cons_self
    · exact Or.inr copied

private theorem declared_callStatements (f : Function) :
    (callStatements f).flatMap Statement.declared =
      if f.result.isVoid then [] else [resultName] := by
  rw [callStatements]
  cases f.result.isVoid <;> rfl

def ofFunction (qualifier : Option String) (function : String) (f : Function) : Dispatcher :=
  ⟨qualifier, function, [], statementsOf f⟩

theorem scopeNames_statementsOf (f : Function) :
    scopeNames (statementsOf f) = parameterNames ++ (f.arguments.map (·.name) ++
      ((if f.arguments.isEmpty then [] else [offsetName]) ++
        if f.result.isVoid then [] else [resultName])) := by
  have declared : (Unpacking.declarations f.arguments).flatMap Statement.declared =
      f.arguments.map (·.name) := by
    rw [Unpacking.declarations, List.flatMap_map, List.map_eq_flatMap]
    rfl
  rw [scopeNames, statementsOf, List.flatMap_append, List.flatMap_append, List.flatMap_cons,
    declared, declared_unpackArguments, declared_callStatements, List.append_assoc]
  rfl

theorem mem_scopeNames_statementsOf {name : String} :
    name ∈ scopeNames (statementsOf f) ↔ name ∈ f.localNames ∨ name ∈ f.arguments.map (·.name) := by
  rw [scopeNames_statementsOf, Function.localNames]
  simp only [List.mem_append]
  tauto

private theorem otherNames_ofFunction (f : Function) :
    (ofFunction qualifier function f).otherNames = parameterTypes ++
      (f.arguments.map (·.dataType.cName) ++
        ((unpackArguments f.arguments).flatMap Statement.used ++
          if f.result.isVoid then [f.caller, Status.noAction.name]
          else [f.result.cName, f.caller, copyFunction, Status.read.name])) := by
  have typed : (Unpacking.declarations f.arguments).flatMap Statement.used =
      f.arguments.map (·.dataType.cName) := by
    rw [Unpacking.declarations, List.flatMap_map, List.map_eq_flatMap]
    rfl
  have called : (callStatements f).flatMap Statement.used =
      if f.result.isVoid then [f.caller, Status.noAction.name]
      else [f.result.cName, f.caller, copyFunction, Status.read.name] := by
    rw [callStatements]
    cases f.result.isVoid <;> rfl
  have body : (statementsOf f).flatMap Statement.used = f.arguments.map (·.dataType.cName) ++
      ((unpackArguments f.arguments).flatMap Statement.used ++
        (callStatements f).flatMap Statement.used) := by
    rw [statementsOf, List.flatMap_append, List.flatMap_append, List.flatMap_cons, typed,
      List.append_assoc]
    rfl
  rw [← called, ← body]
  simp [Dispatcher.otherNames, Dispatcher.blocks, ofFunction]

theorem mem_otherNames_ofFunction_of_used {name : String}
    (used : name ∈ f.usedNames ∨ name = f.caller) :
    name ∈ (ofFunction qualifier function f).otherNames := by
  rw [Function.usedNames] at used
  rw [otherNames_ofFunction]
  cases void : f.result.isVoid <;> simp only [void, List.mem_append, List.mem_cons,
    List.not_mem_nil, or_false, if_true, if_false, Bool.false_eq_true] at used ⊢ <;> tauto

theorem used_of_mem_otherNames_ofFunction {name : String}
    (listed : name ∈ (ofFunction qualifier function f).otherNames) :
    name ∈ f.usedNames ∨ name = f.caller ∨ name = copyFunction := by
  have copied (used : name ∈ (unpackArguments f.arguments).flatMap Statement.used) :=
    mem_used_unpackArguments used
  rw [otherNames_ofFunction] at listed
  rw [Function.usedNames]
  cases void : f.result.isVoid <;> simp only [void, List.mem_append, List.mem_cons,
    List.not_mem_nil, or_false, if_true, if_false, Bool.false_eq_true] at listed ⊢ <;> tauto

theorem mem_of_mem_localNames {name : String} (own : name ∈ f.localNames) :
    name ∈ [bufferName, lengthName, commandName, offsetName, resultName] := by
  have every : ∀ name ∈ f.localNames,
      name ∈ [bufferName, lengthName, commandName, offsetName, resultName] := by
    rw [Function.localNames]
    cases f.arguments.isEmpty <;> cases f.result.isVoid <;> decide
  exact every name own

private theorem mem_unpackArguments {arguments : List Argument} {s : Statement}
    (inside : s ∈ unpackArguments arguments) :
    arguments ≠ [] ∧
      (s = .declareOffset ∨ ∃ a ∈ arguments, s = .unpack a.name ∨ s = .advance a.name) := by
  cases arguments with
  | nil => exact absurd inside List.not_mem_nil
  | cons a rest =>
    refine ⟨List.cons_ne_nil a rest, ?_⟩
    rcases List.mem_cons.mp inside with first | later
    · exact Or.inl first
    · obtain ⟨b, listed, within⟩ := List.mem_flatMap.mp later
      exact Or.inr ⟨b, listed, by simpa using within⟩

private theorem mem_callStatements {s : Statement} (inside : s ∈ callStatements f) :
    s = .call f.caller (f.arguments.map (·.name)) ∨ s = .clearLength ∨ s = .answer .noAction ∨
      f.result.isVoid = false ∧
        (s = .declareResult f.result.cName resultName f.caller (f.arguments.map (·.name)) ∨
          s = .store resultName ∨ s = .setLength resultName ∨ s = .answer .read) := by
  rw [callStatements] at inside
  cases void : f.result.isVoid <;> simp [void] at inside ⊢ <;> tauto

private theorem mem_scopeNames_of_mentioned {s : Statement} {name : String}
    (listed : s ∈ statementsOf f) (mentioned : name ∈ s.mentioned) :
    name ∈ scopeNames (statementsOf f) := by
  have parameter {name : String} (own : name ∈ parameterNames) : name ∈ scopeNames (statementsOf f) :=
    List.mem_append_left _ own
  have argument {a : Argument} (member : a ∈ f.arguments) : a.name ∈ scopeNames (statementsOf f) :=
    mem_scopeNames_statementsOf.mpr (Or.inr (List.mem_map_of_mem member))
  rcases List.mem_append.mp listed with front | calling
  · rcases List.mem_append.mp front with declaring | unpacking
    · rcases List.mem_cons.mp declaring with rfl | declaration
      · obtain rfl := List.mem_singleton.mp mentioned
        exact parameter (by decide)
      · obtain ⟨a, member, rfl⟩ := List.mem_map.mp declaration
        cases mentioned
    · obtain ⟨filled, cases⟩ := mem_unpackArguments unpacking
      have offset : offsetName ∈ scopeNames (statementsOf f) :=
        mem_scopeNames_statementsOf.mpr (Or.inl (by simp [Function.localNames, filled]))
      rcases cases with rfl | ⟨a, member, rfl | rfl⟩
      · cases mentioned
      · simp only [Statement.mentioned, List.mem_cons, List.not_mem_nil, or_false] at mentioned
        rcases mentioned with rfl | rfl | rfl
        · exact argument member
        · exact parameter (by decide)
        · exact offset
      · simp only [Statement.mentioned, List.mem_cons, List.not_mem_nil, or_false] at mentioned
        rcases mentioned with rfl | rfl
        · exact offset
        · exact argument member
  · have call {name : String} (given : name ∈ f.arguments.map (·.name)) :
        name ∈ scopeNames (statementsOf f) := mem_scopeNames_statementsOf.mpr (Or.inr given)
    rcases mem_callStatements calling with rfl | rfl | rfl | ⟨some, cases⟩
    · exact call mentioned
    · obtain rfl := List.mem_singleton.mp mentioned
      exact parameter (by decide)
    · cases mentioned
    · have result : resultName ∈ scopeNames (statementsOf f) :=
        mem_scopeNames_statementsOf.mpr (Or.inl (by simp [Function.localNames, some]))
      rcases cases with rfl | rfl | rfl | rfl
      · exact call mentioned
      · simp only [Statement.mentioned, List.mem_cons, List.not_mem_nil, or_false] at mentioned
        rcases mentioned with rfl | rfl
        · exact result
        · exact parameter (by decide)
      · simp only [Statement.mentioned, List.mem_cons, List.not_mem_nil, or_false] at mentioned
        rcases mentioned with rfl | rfl
        · exact parameter (by decide)
        · exact result
      · cases mentioned

private theorem wellFormed_cName {t : DataType} (fixed : t.isString = false) :
    wellFormed t.cName = true := by
  cases t <;> first | decide | cases fixed

private theorem tidy_ofFunction (named : wellFormed function = true)
    (caller : wellFormed f.caller = true)
    (arguments : ∀ a ∈ f.arguments, wellFormed a.name = true ∧ a.dataType.isString = false)
    (result : f.result.isString = false) : (ofFunction qualifier function f).Tidy := by
  constructor
  · exact named
  · intro block listed name inside
    obtain rfl : block = statementsOf f := List.mem_singleton.mp listed
    rcases mem_scopeNames_statementsOf.mp inside with own | argument
    · have every : ∀ name ∈ [bufferName, lengthName, commandName, offsetName, resultName],
          wellFormed name = true := by decide
      exact every name (mem_of_mem_localNames own)
    · obtain ⟨a, member, rfl⟩ := List.mem_map.mp argument
      exact (arguments a member).1
  · intro name inside
    have every : ∀ name ∈ parameterTypes ++ copyFunction :: Status.all.map (·.name),
        wellFormed name = true := by decide
    rcases used_of_mem_otherNames_ofFunction inside with used | rfl | rfl
    · rw [Function.usedNames] at used
      rcases List.mem_append.mp used with front | last
      · rcases List.mem_append.mp front with type | type
        · exact every name (List.mem_append_left _ type)
        · obtain ⟨a, member, rfl⟩ := List.mem_map.mp type
          exact wellFormed_cName (arguments a member).2
      · split at last
        · obtain rfl := List.mem_singleton.mp last
          decide
        · rcases List.mem_cons.mp last with rfl | status
          · exact wellFormed_cName result
          · obtain rfl := List.mem_singleton.mp status
            decide
    · exact caller
    · decide
  · intro block listed s inside name mentioned
    obtain rfl : block = statementsOf f := List.mem_singleton.mp listed
    exact mem_scopeNames_of_mentioned inside mentioned

end

theorem tidy_of_ofEntity {name : String} {e : Entity} {d : Dispatcher}
    (named : wellFormed function = true) (designated : ∀ d ∈ Tree.designators e, IsIdentifier d.2)
    (members : ∀ name ∈ e.body.memberNames, IsIdentifier name)
    (made : ofEntity function name e = .ok d) : d.Tidy := by
  have formed {name : String} (identifier : IsIdentifier name) : wellFormed name = true :=
    (wellFormed_iff name).mpr identifier.word
  have functions : ∀ f ∈ e.access.functions, wellFormed f = true := by
    intro f known
    rcases Access.mem_functions_iff.mp known with found | found
    · exact formed (designated (.getter, f) (by simp [Tree.designators, found]))
    · exact formed (designated (.setter, f) (by simp [Tree.designators, found]))
  obtain ⟨info, body⟩ := e
  cases body with
  | node => cases made
  | register r =>
    cases text : r.dataType.isString with
    | false =>
      simp only [ofEntity, Register.strategy, text] at made
      rw [← Except.ok.inj made]
      exact tidy_valueBranches named functions text
    | true =>
      simp only [ofEntity, Register.strategy, text] at made
      rw [← Except.ok.inj made]
      exact tidy_stringBranches named functions
  | selector s =>
    rw [← Except.ok.inj made]
    exact tidy_valueBranches named functions rfl
  | bitmask b =>
    rw [← Except.ok.inj made]
    exact tidy_valueBranches named functions rfl
  | function f =>
    obtain ⟨statements, listed, rfl⟩ := map_eq_ok_iff.mp made
    obtain ⟨rfl, result, types⟩ := functionStatements_eq_ok listed
    have caller : wellFormed f.caller = true :=
      formed (designated (.caller, f.caller) (by simp [Tree.designators, Entity.caller?]))
    have arguments : ∀ a ∈ f.arguments, wellFormed a.name = true ∧ a.dataType.isString = false :=
      fun a member => ⟨formed (members a.name (List.mem_map_of_mem member)), types a member⟩
    exact tidy_ofFunction named caller arguments result

theorem tidy_of_ofPlace {t : Tree} (valid : t.Valid) {id : Nat} {d : Dispatcher}
    (made : ofPlace t id = .ok d) : d.Tidy := by
  rw [ofPlace] at made
  split at made
  · rename_i e there
    exact tidy_of_ofEntity (Tree.wellFormed_functionName valid id) (valid.designators id e there)
      (valid.members id e there) made
  · cases made

end Dispatch

end DeviceLink
