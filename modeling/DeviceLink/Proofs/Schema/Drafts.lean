import DeviceLink.Proofs.Schema.Depiction
import DeviceLink.Proofs.Schema.Fields

/-!
What the reader of an endpoint object makes of it. It has no issue exactly when the fields are well
formed (`issues_readDraft`), and then it gives an endpoint that says what they say
(`draft_of_wellFormedFields`).
-/

set_option autoImplicit false
set_option relaxedAutoImplicit false

namespace DeviceLink.Schema

open Json (Members)

variable {members : Members} {path : String}

private theorem ofName?_typeName :
    DataType.ofName? ((text? members "dtype").getD "") = dataType? members := by
  rw [dataType?]
  cases text? members "dtype" with
  | none => rfl
  | some s => rfl

theorem readArgument_of_fresh {earlier : List Argument} {name : String} (index : Nat)
    (named : text? members "name" = some name) (fresh : ∀ a ∈ earlier, a.name ≠ name) :
    readArgument path earlier index (.object members) = (do
      let unit ← readUnit members (joinPath path name)
      ((dataType? members).filter (·.isFixedWidth)).elim
        ⟨none, [⟨joinPath path name,
          .invalidArgumentType name ((text? members "dtype").getD "")⟩]⟩
        fun dataType => do
          let summary ← readText members "summary" (joinPath path name)
          pure (some ⟨name, summary, dataType, unit⟩)) := by
  have new : earlier.any (·.name == name) = false := by
    simpa only [List.any_eq_false, beq_iff_eq] using fresh
  rw [readArgument]
  simp only [Json.members?, get?_bind_string?, named, new, ofName?_typeName, Bool.false_eq_true,
    if_false]
  cases (dataType? members).filter (·.isFixedWidth) <;> rfl

private theorem readArgument_sound {earlier : List Argument} {index : Nat} {item : Json}
    (clean : (readArgument path earlier index item).issues = []) :
    ∃ members a, item = .object members ∧ WellFormedArgument members ∧
      (∀ b ∈ earlier, b.name ≠ a.name) ∧ DepictsArgument members a ∧
      (readArgument path earlier index item).value = some a := by
  cases item with
  | null | bool | integer | real | string | array => simp [readArgument, Json.members?] at clean
  | object members =>
    cases named : text? members "name" with
    | none => simp [readArgument, Json.members?, get?_bind_string?, named] at clean
    | some name =>
      by_cases fresh : ∀ a ∈ earlier, a.name ≠ name
      · rw [readArgument_of_fresh index named fresh] at clean ⊢
        simp only [Checked.issues_bind, List.append_eq_nil_iff, issues_readUnit, Checked.value_bind,
          value_readUnit] at clean ⊢
        obtain ⟨unit, rest⟩ := clean
        cases typed : (dataType? members).filter (·.isFixedWidth) with
        | none => simp [typed] at rest
        | some t =>
          obtain ⟨found, fixed⟩ := Option.filter_eq_some_iff.mp typed
          simp only [typed, Option.elim_some, Checked.issues_bind, Checked.issues_pure,
            List.append_nil, issues_readText] at rest
          have formed : WellFormedArgument members :=
            ⟨⟨name, text?_eq_some_iff.mp named⟩, ⟨t, found, fixed⟩, unit, rest⟩
          refine ⟨members, ⟨name, text? members "summary", t, measureUnit? members⟩, rfl, formed,
            fresh, ⟨named, rfl, found, rfl⟩, ?_⟩
          simp only [Option.elim_some, Checked.value_bind, Checked.value_pure, value_readText]
      · have repeated : earlier.any (·.name == name) = true := by
          simpa only [List.any_eq_true, beq_iff_eq, not_forall, not_not, exists_prop] using fresh
        simp [readArgument, Json.members?, get?_bind_string?, named, repeated] at clean

private theorem readArgument_complete {earlier : List Argument} (index : Nat)
    (formed : WellFormedArgument members)
    (fresh : ∀ b ∈ earlier, text? members "name" ≠ some b.name) :
    (readArgument path earlier index (.object members)).issues = [] := by
  obtain ⟨name, found⟩ := formed.name
  have named : text? members "name" = some name := text?_eq_some_iff.mpr found
  have new : ∀ a ∈ earlier, a.name ≠ name := by
    intro a member same
    exact fresh a member (same ▸ named)
  obtain ⟨t, typed, fixed⟩ := formed.dataType
  have kept : (dataType? members).filter (·.isFixedWidth) = some t :=
    Option.filter_eq_some_iff.mpr ⟨typed, fixed⟩
  rw [readArgument_of_fresh index named new, kept]
  simp only [Option.elim_some, Checked.issues_bind, Checked.issues_pure, List.append_nil,
    List.append_eq_nil_iff, issues_readUnit, issues_readText]
  exact ⟨formed.unit, formed.summary⟩

private theorem readArgumentItems_sound {earlier : List Argument} {index : Nat} {items : List Json}
    (clean : (readArgumentItems path earlier true index items).issues = []) :
    ∃ (objects : List Members) (found : List Argument), items = objects.map .object ∧
      (∀ o ∈ objects, WellFormedArgument o) ∧
      (objects.map (text? · "name")).Nodup ∧
      (∀ o ∈ objects, ∀ b ∈ earlier, text? o "name" ≠ some b.name) ∧
      List.Forall₂ DepictsArgument objects found ∧
      (readArgumentItems path earlier true index items).value = some (earlier ++ found) := by
  induction items generalizing earlier index with
  | nil =>
    refine ⟨[], [], rfl, ?_, ?_, ?_, .nil, ?_⟩
    all_goals simp [readArgumentItems]
  | cons item rest ih =>
    rw [readArgumentItems, Checked.issues_bind, List.append_eq_nil_iff] at clean
    obtain ⟨first, others⟩ := clean
    obtain ⟨members, a, rfl, formed, fresh, depicts, read⟩ := readArgument_sound first
    rw [read] at others
    obtain ⟨objects, found, rfl, each, distinct, new, depict, value⟩ := ih others
    have named : text? members "name" = some a.name := depicts.name
    refine ⟨members :: objects, a :: found, rfl, ?_, ?_, ?_, .cons depicts depict, ?_⟩
    · exact List.forall_mem_cons.mpr ⟨formed, each⟩
    · rw [List.map_cons, List.nodup_cons]
      refine ⟨fun again => ?_, distinct⟩
      obtain ⟨o, member, same⟩ := List.mem_map.mp again
      exact new o member a (by simp) (same.trans named)
    · refine List.forall_mem_cons.mpr ⟨fun b member same => ?_, fun o member b before => ?_⟩
      · exact fresh b member (Option.some.inj (named.symm.trans same)).symm
      · exact new o member b (List.mem_append_left _ before)
    · rw [readArgumentItems, Checked.value_bind, read]
      simpa only [List.append_assoc, List.singleton_append] using value

private theorem readArgumentItems_complete {earlier : List Argument} (index : Nat)
    {objects : List Members} (each : ∀ o ∈ objects, WellFormedArgument o)
    (distinct : (objects.map (text? · "name")).Nodup)
    (new : ∀ o ∈ objects, ∀ b ∈ earlier, text? o "name" ≠ some b.name) :
    (readArgumentItems path earlier true index (objects.map .object)).issues = [] := by
  induction objects generalizing earlier index with
  | nil => rfl
  | cons members rest ih =>
    rw [List.map_cons, List.nodup_cons] at distinct
    have first : (readArgument path earlier index (.object members)).issues = [] :=
      readArgument_complete index (each members (by simp)) (new members (by simp))
    obtain ⟨o, a, same, formed, fresh, depicts, read⟩ := readArgument_sound first
    obtain rfl : members = o := by simpa using same
    rw [List.map_cons, readArgumentItems, Checked.issues_bind, List.append_eq_nil_iff, read]
    refine ⟨first, ih (index + 1) (fun p member => each p (by simp [member])) distinct.2 ?_⟩
    intro p member b later
    rcases List.mem_append.mp later with before | last
    · exact new p (by simp [member]) b before
    · intro again
      rw [List.mem_singleton.mp last, ← depicts.name] at again
      exact distinct.1 (again ▸ List.mem_map_of_mem member)

private theorem issues_readArguments :
    (readArguments members path).issues = [] ↔ WellFormedArguments members := by
  rw [readArguments, WellFormedArguments]
  cases found : Members.get? members "arguments" with
  | none => simp
  | some value =>
    simp only [Option.some.injEq, forall_eq']
    cases value with
    | null | bool | integer | real | string | object => simp
    | array items =>
      constructor
      · intro clean
        obtain ⟨objects, found, rfl, each, distinct, -⟩ := readArgumentItems_sound clean
        exact ⟨objects, rfl, each, distinct⟩
      · rintro ⟨objects, same, each, distinct⟩
        obtain rfl := Json.array.inj same
        exact readArgumentItems_complete 0 each distinct (by simp)

private theorem value_readArguments (path : String) (formed : WellFormedArguments members) :
    ∃ found, (readArguments members path).value = some found ∧
      List.Forall₂ DepictsArgument (argumentsOf members) found := by
  have clean : (readArguments members path).issues = [] := issues_readArguments.mpr formed
  rw [readArguments] at clean ⊢
  rw [argumentsOf]
  cases stored : Members.get? members "arguments" with
  | none => exact ⟨[], rfl, .nil⟩
  | some value =>
    obtain ⟨items, rfl, -⟩ := formed value stored
    rw [stored] at clean
    obtain ⟨objects, found, same, -, -, -, depict, read⟩ := readArgumentItems_sound clean
    have listed : (items.map Json.object).filterMap Json.members? = objects := by
      rw [same, List.filterMap_map]
      exact List.filterMap_some
    refine ⟨found, by simpa using read, ?_⟩
    simpa [Json.items?, listed] using depict

def fieldsOf (members : Members) : Fields where
  getter := designator? members "getter_name" "c_getter"
  setter := designator? members "setter_name" "c_setter"
  caller := designator? members "caller_name" "c_caller"
  typeName := text? members "dtype"
  flags := texts? members "flags"
  options := texts? members "options"
  unit := measureUnit? members

private theorem issues_readFields :
    (readFields members path).issues = [] ↔
      OptionalDesignator members "getter_name" "c_getter" ∧
      OptionalDesignator members "setter_name" "c_setter" ∧
      OptionalDesignator members "caller_name" "c_caller" ∧ OptionalText members "dtype" ∧
      DistinctTexts members "flags" ∧ DistinctTexts members "options" ∧ OptionalUnit members := by
  simp only [readFields, Checked.issues_bind, Checked.issues_pure, List.append_nil,
    List.append_eq_nil_iff, issues_readDesignator, issues_readText, issues_readNames,
    issues_readUnit]

private theorem value_readFields (flags : DistinctTexts members "flags")
    (options : DistinctTexts members "options") :
    (readFields members path).value = fieldsOf members := by
  simp only [readFields, Checked.value_bind, Checked.value_pure, value_readDesignator,
    value_readText, flags.value_readNames, options.value_readNames, value_readUnit, fieldsOf]

private theorem has_eq_isSome (key : String) :
    Members.has members key = (Members.get? members key).isSome := by
  rw [Members.has, Members.get?, Option.isSome_map, Bool.eq_iff_iff, List.any_eq_true,
    List.find?_isSome]

private theorem issues_functionDraft {caller : String} {f : Fields} {t : Option DataType} :
    (functionDraft members path caller f t).issues = [] ↔
      f.flags = none ∧ f.options = none ∧ WellFormedArguments members := by
  have checked : (readArguments members path).issues = [] ↔ WellFormedArguments members :=
    issues_readArguments
  rw [← checked, functionDraft]
  by_cases declared : (f.flags.isSome || f.options.isSome) = true
  · have excess : ¬ (f.flags = none ∧ f.options = none) := by
      rintro ⟨noFlags, noOptions⟩
      simp [noFlags, noOptions] at declared
    rw [if_pos declared, ← and_assoc]
    simp [Checked.report, excess]
  · have plain : f.flags = none ∧ f.options = none := by simpa using declared
    rw [if_neg declared]
    cases read : (readArguments members path).value <;> simp [plain, read]

private theorem value_functionDraft (path caller : String) (f : Fields) (t : Option DataType)
    (arguments : WellFormedArguments members) :
    ∃ found, List.Forall₂ DepictsArgument (argumentsOf members) found ∧
      (functionDraft members path caller f t).value =
        some fun endpoint => .function ⟨caller, found, t.getD .void, f.unit, endpoint⟩ := by
  obtain ⟨found, read, depict⟩ := value_readArguments path arguments
  refine ⟨found, depict, ?_⟩
  rw [functionDraft]
  split <;> simp [read]

/-- What an endpoint that holds something can be. -/
inductive Holding (f : Fields) : Option DataType → Draft → Prop
  | register (t : DataType) : t ≠ .void → f.flags = none → f.options = none →
      Holding f (some t) fun endpoint => .register ⟨t, f.unit, ⟨f.getter, f.setter⟩, endpoint⟩
  | bitmask (names : List String) : names ≠ [] → f.flags = some names → f.options = none →
      Holding f none fun endpoint => .bitmask ⟨⟨names, none⟩, ⟨f.getter, f.setter⟩, endpoint⟩
  | selector (names : List String) : names ≠ [] → names.length ≤ 256 → f.flags = none →
      f.options = some names →
      Holding f none fun endpoint => .selector ⟨⟨names⟩, ⟨f.getter, f.setter⟩, endpoint⟩

theorem holderDraft_of_holding {f : Fields} {t : Option DataType} {draft : Draft}
    (h : Holding f t draft) : holderDraft path f t = ⟨some draft, []⟩ := by
  obtain ⟨getter, setter, caller, typeName, flags, options, unit⟩ := f
  cases h with
  | register t proper noFlags noOptions =>
    cases noFlags
    cases noOptions
    cases t <;> first | exact absurd rfl proper | rfl
  | bitmask names nonempty flagged noOptions =>
    cases flagged
    cases noOptions
    cases names with
    | nil => exact absurd rfl nonempty
    | cons name rest => rfl
  | selector names nonempty few noFlags chosen =>
    cases noFlags
    cases chosen
    cases names with
    | nil => exact absurd rfl nonempty
    | cons name rest => exact if_neg (Nat.not_lt.mpr few)

theorem holding_of_clean {f : Fields} {t : Option DataType}
    (clean : (holderDraft path f t).issues = []) : ∃ draft, Holding f t draft := by
  cases flagged : f.flags with
  | none =>
    cases chosen : f.options with
    | none =>
      cases t with
      | none => simp [holderDraft, flagged, chosen] at clean
      | some t =>
        by_cases proper : t = .void
        · simp [holderDraft, flagged, chosen, proper] at clean
        · exact ⟨_, .register t proper flagged chosen⟩
    | some names =>
      cases t with
      | some t => cases t <;> simp [holderDraft, flagged, chosen] at clean
      | none =>
        cases names with
        | nil => simp [holderDraft, flagged, chosen] at clean
        | cons name rest =>
          by_cases few : (name :: rest).length ≤ 256
          · exact ⟨_, .selector _ (by simp) few flagged chosen⟩
          · have many : mostOptions < (name :: rest).length := Nat.lt_of_not_le few
            simp only [holderDraft, flagged, chosen, many, if_true, List.cons_ne_nil] at clean
  | some names =>
    cases chosen : f.options with
    | some others => cases t <;> simp [holderDraft, flagged, chosen] at clean
    | none =>
      cases t with
      | some t => cases t <;> simp [holderDraft, flagged, chosen] at clean
      | none =>
        cases names with
        | nil => simp [holderDraft, flagged, chosen] at clean
        | cons name rest => exact ⟨_, .bitmask _ (by simp) flagged chosen⟩

private theorem issues_roleDraft {f : Fields} :
    (roleDraft members path f).issues = [] ↔
      (f.caller = none → Members.get? members "arguments" = none) ∧
      (∀ s, f.typeName = some s → ∃ t, DataType.ofName? s = some t) ∧
      (typedDraft members path f (f.typeName.bind DataType.ofName?)).issues = [] := by
  rw [roleDraft, has_eq_isSome]
  by_cases misplaced : (f.caller.isNone && (Members.get? members "arguments").isSome) = true
  · have given : ¬ (f.caller = none → Members.get? members "arguments" = none) := by
      intro absent
      simp only [Bool.and_eq_true, Option.isNone_iff_eq_none, Option.isSome_iff_ne_none] at misplaced
      exact misplaced.2 (absent misplaced.1)
    rw [if_pos misplaced]
    simp [Checked.report, given]
  · have absent : f.caller = none → Members.get? members "arguments" = none := by
      simpa using misplaced
    rw [if_neg misplaced, and_iff_right absent]
    cases f.typeName with
    | none => simp
    | some s => cases known : DataType.ofName? s <;> simp [known]

private theorem value_roleDraft {f : Fields}
    (known : ∀ s, f.typeName = some s → ∃ t, DataType.ofName? s = some t) :
    (roleDraft members path f).value =
      (typedDraft members path f (f.typeName.bind DataType.ofName?)).value := by
  rw [roleDraft]
  cases named : f.typeName with
  | none => split <;> rfl
  | some s =>
    obtain ⟨t, found⟩ := known s named
    simp only [found, Option.bind_some]
    split <;> rfl

private theorem OptionalType.dataType?_eq_none_iff (h : OptionalType members) :
    dataType? members = none ↔ text? members "dtype" = none := by
  rw [dataType?]
  cases named : text? members "dtype" with
  | none => simp
  | some s =>
    obtain ⟨t, found⟩ := h.2 s named
    simp [found]

private theorem exists_holding_iff (typed : OptionalType members)
    (flags : DistinctTexts members "flags") (options : DistinctTexts members "options") :
    (∃ draft, Holding (fieldsOf members) (dataType? members) draft) ↔ Content members := by
  constructor
  · rintro ⟨draft, h⟩
    generalize found : dataType? members = t at h
    cases h with
    | register t proper noFlags noOptions =>
      exact .typed t found proper (flags.get?_eq_none_iff.mpr noFlags)
        (options.get?_eq_none_iff.mpr noOptions)
    | bitmask names nonempty flagged noOptions =>
      exact .flagged names (typed.dataType?_eq_none_iff.mp found) flagged nonempty
        (options.get?_eq_none_iff.mpr noOptions)
    | selector names nonempty few noFlags chosen =>
      exact .chosen names (typed.dataType?_eq_none_iff.mp found)
        (flags.get?_eq_none_iff.mpr noFlags) chosen nonempty few
  · intro h
    cases h with
    | typed t found proper noFlags noOptions =>
      rw [found]
      exact ⟨_, .register t proper (flags.get?_eq_none_iff.mp noFlags)
        (options.get?_eq_none_iff.mp noOptions)⟩
    | flagged names untyped flagged nonempty noOptions =>
      rw [typed.dataType?_eq_none_iff.mpr untyped]
      exact ⟨_, .bitmask names nonempty flagged (options.get?_eq_none_iff.mp noOptions)⟩
    | chosen names untyped noFlags chosen nonempty few =>
      rw [typed.dataType?_eq_none_iff.mpr untyped]
      exact ⟨_, .selector names nonempty few (flags.get?_eq_none_iff.mp noFlags) chosen⟩

private theorem readDraft_of_role (flags : DistinctTexts members "flags")
    (options : DistinctTexts members "options") (role : Callable members ∨ Holder members) :
    readDraft members path = (do
      let _ ← readFields members path
      roleDraft members path (fieldsOf members)) := by
  refine Checked.bind_congr_value ?_
  rw [value_readFields flags options]
  rcases role with callable | holder
  · obtain ⟨caller, called⟩ := Option.isSome_iff_exists.mp callable.caller
    simp [fieldsOf, called, callable.noGetter, callable.noSetter]
  · have held := holder.access
    rw [← Bool.or_eq_true] at held
    simp only [fieldsOf, holder.noCaller, held, Option.isNone_none, Option.isSome_none,
      Bool.not_true, Bool.and_false, Bool.false_and, Bool.false_eq_true, if_false]

private theorem typeName_fieldsOf :
    (fieldsOf members).typeName.bind DataType.ofName? = dataType? members := rfl

private theorem issues_roleDraft_fieldsOf (type : OptionalType members)
    (flags : DistinctTexts members "flags") (options : DistinctTexts members "options")
    (apart : (designator? members "caller_name" "c_caller").isSome =
      !((designator? members "getter_name" "c_getter").isSome ||
        (designator? members "setter_name" "c_setter").isSome)) :
    (roleDraft members path (fieldsOf members)).issues = [] ↔
      Callable members ∨ Holder members := by
  rw [issues_roleDraft, typeName_fieldsOf, typedDraft]
  cases called : designator? members "caller_name" "c_caller" with
  | some caller =>
    have found : (fieldsOf members).caller = some caller := called
    have noHolder : ¬ Holder members := fun holder => by simp [holder.noCaller] at called
    simp only [called, Option.isSome_some, Bool.true_eq, Bool.not_eq_true',
      Bool.or_eq_false_iff, Option.isSome_eq_false_iff, Option.isNone_iff_eq_none] at apart
    simp only [found, issues_functionDraft, or_iff_left noHolder]
    constructor
    · rintro ⟨-, -, noFlags, noOptions, arguments⟩
      exact ⟨by simp [called], apart.1, apart.2, flags.get?_eq_none_iff.mpr noFlags,
        options.get?_eq_none_iff.mpr noOptions, arguments⟩
    · intro h
      exact ⟨by simp, type.2, flags.get?_eq_none_iff.mp h.noFlags,
        options.get?_eq_none_iff.mp h.noOptions, h.arguments⟩
  | none =>
    have found : (fieldsOf members).caller = none := called
    have noCallable : ¬ Callable members := fun callable => by
      simpa [called] using callable.caller
    simp only [called, Option.isSome_none, Bool.false_eq, Bool.not_eq_false', Bool.or_eq_true]
      at apart
    simp only [found, forall_const, or_iff_right noCallable]
    constructor
    · rintro ⟨noArguments, -, held⟩
      exact ⟨called, apart, noArguments,
        (exists_holding_iff type flags options).mp (holding_of_clean held)⟩
    · intro h
      obtain ⟨draft, held⟩ := (exists_holding_iff type flags options).mpr h.content
      exact ⟨h.noArguments, type.2, by rw [holderDraft_of_holding held]⟩

theorem issues_readDraft :
    (readDraft members path).issues = [] ↔ WellFormedFields members := by
  constructor
  · intro clean
    rw [readDraft, Checked.issues_bind, List.append_eq_nil_iff, issues_readFields] at clean
    obtain ⟨⟨getter, setter, caller, named, flags, options, unit⟩, rest⟩ := clean
    rw [value_readFields flags options] at rest
    dsimp only at rest
    split at rest
    · cases rest
    · split at rest
      · cases rest
      · rename_i given one
        have type : OptionalType members := ⟨named, (issues_roleDraft.mp rest).2.1⟩
        refine ⟨getter, setter, caller, type, flags, options, unit, ?_⟩
        refine (issues_roleDraft_fieldsOf type flags options ?_).mp rest
        dsimp only [fieldsOf] at given one
        revert given one
        cases (designator? members "caller_name" "c_caller") <;>
          cases ((designator? members "getter_name" "c_getter").isSome ||
            (designator? members "setter_name" "c_setter").isSome) <;> simp
  · intro h
    rw [readDraft_of_role h.flags h.options h.role, Checked.issues_bind, List.append_eq_nil_iff,
      issues_readFields]
    refine ⟨⟨h.getter, h.setter, h.caller, h.dataType.1, h.flags, h.options, h.unit⟩, ?_⟩
    refine (issues_roleDraft_fieldsOf h.dataType h.flags h.options ?_).mpr h.role
    rcases h.role with callable | holder
    · simp [callable.caller, callable.noGetter, callable.noSetter]
    · have held := holder.access
      rw [← Bool.or_eq_true] at held
      simp [holder.noCaller, held]

private theorem Holding.depicts {draft : Draft}
    (h : Holding (fieldsOf members) (dataType? members) draft) (type : OptionalType members)
    (flags : DistinctTexts members "flags") (leaf : isContainer members = false)
    (noCaller : designator? members "caller_name" "c_caller" = none) (info : Info)
    (address : EndpointId) :
    DepictsBody members (draft address) ∧
      Entity.kind ⟨info, draft address⟩ = kindOf members ∧
      Entity.endpoint? ⟨info, draft address⟩ = some address := by
  have kind : kindOf members =
      if (text? members "dtype").isSome then .register
      else if (Members.get? members "flags").isSome then .bitmask
      else .selector := by
    simp [kindOf, leaf, noCaller]
  generalize found : dataType? members = t at h
  cases h with
  | register t proper noFlags noOptions =>
    obtain ⟨s, typed, -⟩ := Option.bind_eq_some_iff.mp found
    refine ⟨⟨found, rfl, rfl⟩, ?_, rfl⟩
    simp [kind, typed, Entity.kind]
  | bitmask names nonempty flagged noOptions =>
    have untyped := type.dataType?_eq_none_iff.mp found
    obtain ⟨value, stored, -⟩ := Option.bind_eq_some_iff.mp flagged
    refine ⟨⟨flagged, rfl, rfl⟩, ?_, rfl⟩
    simp [kind, untyped, stored, Entity.kind]
  | selector names nonempty few noFlags chosen =>
    have untyped := type.dataType?_eq_none_iff.mp found
    refine ⟨⟨chosen, rfl⟩, ?_, rfl⟩
    simp [kind, untyped, flags.get?_eq_none_iff.mpr noFlags, Entity.kind]

theorem draft_of_wellFormedFields (path : String) (h : WellFormedFields members)
    (leaf : isContainer members = false) :
    ∃ draft : Draft, (readDraft members path).value = some draft ∧
      ∀ (info : Info) (address : EndpointId),
        DepictsBody members (draft address) ∧
          Entity.kind ⟨info, draft address⟩ = kindOf members ∧
          Entity.endpoint? ⟨info, draft address⟩ = some address := by
  rw [readDraft_of_role h.flags h.options h.role, Checked.value_bind,
    value_roleDraft h.dataType.2, typeName_fieldsOf, typedDraft]
  rcases h.role with callable | holder
  · obtain ⟨caller, called⟩ := Option.isSome_iff_exists.mp callable.caller
    have found : (fieldsOf members).caller = some caller := called
    obtain ⟨found', depict, read⟩ := value_functionDraft path caller (fieldsOf members)
      (dataType? members) callable.arguments
    rw [found]
    refine ⟨_, read, fun info address => ⟨⟨called, rfl, rfl, depict⟩, ?_, rfl⟩⟩
    simp [kindOf, leaf, called, Entity.kind]
  · have found : (fieldsOf members).caller = none := holder.noCaller
    obtain ⟨draft, held⟩ := (exists_holding_iff h.dataType h.flags h.options).mpr holder.content
    rw [found]
    refine ⟨draft, by rw [holderDraft_of_holding held], ?_⟩
    exact held.depicts h.dataType h.flags leaf holder.noCaller

end DeviceLink.Schema
