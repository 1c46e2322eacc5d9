import DeviceLink.Proofs.Schema.Drafts

/-!
What the reader makes of a faulty endpoint object. It gives an endpoint as soon as the fields are
right that its kind depends on, whatever else is wrong with the object (`isSome_readDraft_iff`); and
it reports a name as a duplicate when the name stands twice among the flags or the options, or when
an argument has it behind another one that counts (`duplicate_mem_readDraft_iff`).
-/

set_option autoImplicit false
set_option relaxedAutoImplicit false

namespace DeviceLink

/-! Repetition in a list. -/

section Behind

variable {α : Type} {P Q : α → Prop} {a : α} {l : List α} {before : Prop}

/-- A member with the second property stands behind one with the first. -/
def Behind (P Q : α → Prop) (l : List α) : Prop :=
  ∃ before a after, l = before ++ a :: after ∧ (∃ b ∈ before, P b) ∧ Q a

/-- The same, where the proposition `before` says that there was one with the first property before
the list already. -/
def BehindFrom (before : Prop) (P Q : α → Prop) (l : List α) : Prop :=
  (before ∧ ∃ a ∈ l, Q a) ∨ Behind P Q l

private theorem behindFrom_false_iff : BehindFrom False P Q l ↔ Behind P Q l := by
  simp [BehindFrom]

private theorem not_behind_nil : ¬ Behind P Q [] := by
  rintro ⟨front, a, after, same, -⟩
  simp at same

private theorem not_behindFrom_nil : ¬ BehindFrom before P Q [] := by
  simp [BehindFrom, not_behind_nil]

private theorem behind_cons_iff :
    Behind P Q (a :: l) ↔ (P a ∧ ∃ b ∈ l, Q b) ∨ Behind P Q l := by
  constructor
  · rintro ⟨front, b, after, same, ⟨c, earlier, first⟩, second⟩
    cases front with
    | nil => cases earlier
    | cons head front =>
      obtain ⟨rfl, rfl⟩ := List.cons.inj same
      rcases List.mem_cons.mp earlier with rfl | earlier
      · exact Or.inl ⟨first, b, by simp, second⟩
      · exact Or.inr ⟨front, b, after, rfl, ⟨c, earlier, first⟩, second⟩
  · rintro (⟨first, b, inside, second⟩ | ⟨front, b, after, rfl, ⟨c, earlier, first⟩, second⟩)
    · obtain ⟨front, after, rfl⟩ := List.append_of_mem inside
      exact ⟨a :: front, b, after, rfl, ⟨a, List.mem_cons_self, first⟩, second⟩
    · exact ⟨a :: front, b, after, rfl, ⟨c, List.mem_cons_of_mem a earlier, first⟩, second⟩

private theorem behindFrom_cons_iff :
    BehindFrom before P Q (a :: l) ↔ (before ∧ Q a) ∨ BehindFrom (before ∨ P a) P Q l := by
  simp only [BehindFrom, behind_cons_iff, List.exists_mem_cons_iff, and_or_left, or_and_right,
    or_assoc]

end Behind

namespace Schema

open Json (Members)

variable {members : Members} {key older path place name : String}

/-! Readers that report no duplicates. -/

@[simp] theorem duplicate_not_mem_readText :
    ⟨place, .duplicateName name⟩ ∉ (readText members key path).issues := by
  rw [readText]
  split <;> simp

@[simp] theorem duplicate_not_mem_readDesignator :
    ⟨place, .duplicateName name⟩ ∉ (readDesignator members key older path).issues := by
  simp only [readDesignator, Checked.issues_bind, value_readText]
  cases text? members key <;> simp

@[simp] theorem duplicate_not_mem_readUnit :
    ⟨place, .duplicateName name⟩ ∉ (readUnit members path).issues := by
  simp only [readUnit, Checked.issues_bind, value_readText]
  cases text? members "unit" with
  | none => simp
  | some s => cases parsed : Registry.standard.parse s <;> simp [parsed]

theorem duplicate_not_mem_readName :
    ⟨place, .duplicateName name⟩ ∉ (readName members path).issues := by
  rw [readName]
  split <;> simp

theorem duplicate_not_mem_readInfo {text : String} :
    ⟨place, .duplicateName name⟩ ∉ (readInfo members text path).issues := by
  have metadata : ⟨place, .duplicateName name⟩ ∉ (readMetadataField members path).issues := by
    rw [readMetadataField]
    split <;> simp
  have mark : ⟨place, .duplicateName name⟩ ∉ (readExportField members path).issues := by
    rw [readExportField]
    split <;> simp
  simp [readInfo, readMetadata, metadata, mark]

@[simp] theorem duplicate_not_mem_holderDraft {f : Fields} {t : Option DataType} :
    ⟨place, .duplicateName name⟩ ∉ (holderDraft path f t).issues := by
  unfold holderDraft
  split
  case h_7 => split <;> simp
  all_goals simp

/-! Names of flags and options. -/

private theorem duplicate_mem_duplicateIssues_iff {earlier names : List String} :
    ⟨place, .duplicateName name⟩ ∈ duplicateIssues path earlier names ↔
      place = joinPath path name ∧
        BehindFrom (name ∈ earlier) (· = name) (· = name) names := by
  induction names generalizing earlier with
  | nil => simp [duplicateIssues, not_behindFrom_nil]
  | cons first rest ih =>
    have taken : name ∈ earlier ++ [first] ↔ name ∈ earlier ∨ first = name := by simp [eq_comm]
    rw [duplicateIssues, behindFrom_cons_iff, ← taken, and_or_left, ← ih]
    simp only [List.contains_eq_mem, decide_eq_true_eq]
    by_cases repeated : first ∈ earlier
    · rw [if_pos repeated, List.mem_cons]
      refine or_congr_left ?_
      rw [Issue.mk.injEq, Problem.duplicateName.injEq]
      constructor
      · rintro ⟨rfl, rfl⟩
        exact ⟨rfl, repeated, rfl⟩
      · rintro ⟨rfl, -, rfl⟩
        exact ⟨rfl, rfl⟩
    · rw [if_neg repeated]
      refine (or_iff_right ?_).symm
      rintro ⟨-, old, rfl⟩
      exact repeated old

private theorem duplicate_mem_readNames_iff :
    ⟨place, .duplicateName name⟩ ∈ (readNames members key path).issues ↔
      place = joinPath path name ∧
        ∃ names, texts? members key = some names ∧ Behind (· = name) (· = name) names := by
  rw [readNames, texts?]
  cases Members.get? members key with
  | none => simp
  | some value =>
    cases found : value.strings? with
    | none => simp [found]
    | some names => simp [found, duplicate_mem_duplicateIssues_iff, behindFrom_false_iff]

/-- The list of names under a key; a faulty list counts as an empty one. -/
def listed? (members : Members) (key : String) : Option (List String) :=
  (Members.get? members key).map fun value => value.strings?.getD []

private theorem value_readNames : (readNames members key path).value = listed? members key := by
  rw [readNames, listed?]
  cases Members.get? members key with
  | none => rfl
  | some value => cases found : value.strings? <;> simp [found]

/-- The fields of an endpoint as they are taken from an object, faulty or not. -/
def fieldsRead (members : Members) : Fields :=
  { fieldsOf members with flags := listed? members "flags", options := listed? members "options" }

private theorem value_readFields_eq : (readFields members path).value = fieldsRead members := by
  simp only [readFields, Checked.value_bind, Checked.value_pure, value_readDesignator,
    value_readText, value_readNames, value_readUnit, fieldsRead, fieldsOf]

/-- A name that stands twice among the flags or among the options of an object. -/
def RepeatsMember (members : Members) (name : String) : Prop :=
  ∃ key ∈ ["flags", "options"], ∃ names, texts? members key = some names ∧
    Behind (· = name) (· = name) names

private theorem duplicate_mem_readFields_iff :
    ⟨place, .duplicateName name⟩ ∈ (readFields members path).issues ↔
      place = joinPath path name ∧ RepeatsMember members name := by
  simp only [readFields, Checked.issues_bind, Checked.issues_pure, List.append_nil, List.mem_append,
    duplicate_not_mem_readDesignator, duplicate_not_mem_readText, duplicate_not_mem_readUnit,
    duplicate_mem_readNames_iff, RepeatsMember, List.mem_cons, List.not_mem_nil, or_false,
    exists_eq_or_imp, exists_eq_left, and_or_left, false_or]

/-! Arguments. -/

/-- An argument that counts: it has a name and a type of fixed width. -/
structure IsArgument (item : Json) (name : String) : Prop where
  name : nameOf? item = some name
  dataType : ∃ t, item.members?.bind dataType? = some t ∧ t.isFixedWidth = true

theorem IsArgument.unique {item : Json} {other : String} (h : IsArgument item name)
    (h' : IsArgument item other) : name = other :=
  Option.some.inj (h.name.symm.trans h'.name)

/-- How an argument is read behind some others: it is taken, or it repeats a name, or it has another
fault. -/
inductive ArgumentReading (path : String) (earlier : List Argument) (item : Json)
    (read : Checked (Option Argument)) : Prop
  | taken (a : Argument) : read.value = some a → IsArgument item a.name →
      (∀ b ∈ earlier, b.name ≠ a.name) →
      (∀ place name, ⟨place, .duplicateName name⟩ ∉ read.issues) →
      ArgumentReading path earlier item read
  | repeated (name : String) : read = ⟨none, [⟨joinPath path name, .duplicateName name⟩]⟩ →
      nameOf? item = some name → (∃ b ∈ earlier, b.name = name) →
      ArgumentReading path earlier item read
  | faulty : read.value = none → (∀ name, ¬ IsArgument item name) →
      (∀ name, nameOf? item = some name → ∀ b ∈ earlier, b.name ≠ name) →
      (∀ place name, ⟨place, .duplicateName name⟩ ∉ read.issues) →
      ArgumentReading path earlier item read

private theorem argumentReading_of_nameless (path : String) (earlier : List Argument) (index : Nat)
    {item : Json} (nameless : nameOf? item = none) :
    ArgumentReading path earlier item (readArgument path earlier index item) := by
  have uncounted (name : String) : ¬ IsArgument item name := by
    rintro ⟨named, -⟩
    simp [nameless] at named
  refine .faulty ?_ uncounted (by simp [nameless]) ?_
  all_goals cases item with
    | null | bool | integer | real | string | array => simp [readArgument, Json.members?]
    | object members =>
      have named : text? members "name" = none := nameless
      simp [readArgument, Json.members?, get?_bind_string?, named]

private theorem argumentReading (path : String) (earlier : List Argument) (index : Nat)
    (item : Json) : ArgumentReading path earlier item (readArgument path earlier index item) := by
  cases given : nameOf? item with
  | none => exact argumentReading_of_nameless path earlier index given
  | some name =>
    obtain ⟨members, itself, named⟩ := Option.bind_eq_some_iff.mp given
    obtain rfl : item = .object members := by
      cases item <;> simp_all [Json.members?]
    by_cases fresh : ∀ a ∈ earlier, a.name ≠ name
    · rw [readArgument_of_fresh index named fresh]
      cases typed : (dataType? members).filter (·.isFixedWidth) with
      | none =>
        refine .faulty (by simp) ?_ ?_ (by simp)
        · rintro other ⟨-, t, found, fixed⟩
          have kept : (dataType? members).filter (·.isFixedWidth) = some t :=
            Option.filter_eq_some_iff.mpr ⟨found, fixed⟩
          simp [kept] at typed
        · intro other same
          rwa [← Option.some.inj (given.symm.trans same)]
      | some t =>
        obtain ⟨found, fixed⟩ := Option.filter_eq_some_iff.mp typed
        exact .taken ⟨name, text? members "summary", t, measureUnit? members⟩ (by simp)
          ⟨given, t, found, fixed⟩ fresh (by simp)
    · have again : ∃ b ∈ earlier, b.name = name := by
        simpa only [not_forall, not_not, exists_prop] using fresh
      have repeated : earlier.any (·.name == name) = true := by
        simpa only [List.any_eq_true, beq_iff_eq] using again
      refine .repeated name ?_ given again
      simp only [readArgument, Json.members?, get?_bind_string?, named, repeated, if_true]

private theorem duplicate_mem_readArgumentItems_iff {earlier : List Argument} {sound : Bool}
    {index : Nat} {items : List Json} :
    ⟨place, .duplicateName name⟩ ∈ (readArgumentItems path earlier sound index items).issues ↔
      place = joinPath path name ∧
        BehindFrom (∃ b ∈ earlier, b.name = name) (IsArgument · name) (nameOf? · = some name)
          items := by
  induction items generalizing earlier sound index with
  | nil => simp [readArgumentItems, not_behindFrom_nil]
  | cons item rest ih =>
    rw [readArgumentItems, Checked.issues_bind, List.mem_append, behindFrom_cons_iff, and_or_left]
    have reading := argumentReading path earlier index item
    generalize readArgument path earlier index item = read at reading
    cases reading with
    | taken a value counts fresh plain =>
      have own : ¬ ((∃ b ∈ earlier, b.name = name) ∧ nameOf? item = some name) := by
        rintro ⟨⟨b, inside, same⟩, named⟩
        exact fresh b inside (same.trans (Option.some.inj (named.symm.trans counts.name)))
      have last : a.name = name ↔ IsArgument item name :=
        ⟨fun same => same ▸ counts, counts.unique⟩
      have before : (∃ b ∈ earlier ++ [a], b.name = name) ↔
          (∃ b ∈ earlier, b.name = name) ∨ IsArgument item name := by
        simp [or_and_right, exists_or, last]
      simp only [value, ih, before, plain, own, and_false]
    | repeated other same named again =>
      have own : ⟨place, .duplicateName name⟩ ∈ read.issues ↔
          place = joinPath path name ∧
            (∃ b ∈ earlier, b.name = name) ∧ nameOf? item = some name := by
        rw [same, List.mem_singleton, Issue.mk.injEq, Problem.duplicateName.injEq]
        constructor
        · rintro ⟨rfl, rfl⟩
          exact ⟨rfl, again, named⟩
        · rintro ⟨rfl, -, named'⟩
          obtain rfl := Option.some.inj (named.symm.trans named')
          exact ⟨rfl, rfl⟩
      have before : (∃ b ∈ earlier, b.name = name) ∨ IsArgument item name ↔
          ∃ b ∈ earlier, b.name = name := by
        refine or_iff_left_of_imp fun counts => ?_
        obtain rfl := Option.some.inj (named.symm.trans counts.name)
        exact again
      have value : read.value = none := by rw [same]
      simp only [own, value, ih, before]
    | faulty value uncounted fresh plain =>
      have own : ¬ ((∃ b ∈ earlier, b.name = name) ∧ nameOf? item = some name) := by
        rintro ⟨⟨b, inside, same⟩, named⟩
        exact fresh name named b inside same
      simp only [value, ih, plain, own, uncounted, and_false, or_false]

private theorem isSome_readArgumentItems_iff {earlier : List Argument} {sound : Bool} {index : Nat}
    {items : List Json} :
    (readArgumentItems path earlier sound index items).value.isSome = true ↔
      sound = true ∧ ∃ names, List.Forall₂ IsArgument items names ∧ names.Nodup ∧
        ∀ name ∈ names, ∀ b ∈ earlier, b.name ≠ name := by
  induction items generalizing earlier sound index with
  | nil => cases sound <;> simp [readArgumentItems]
  | cons item rest ih =>
    rw [readArgumentItems, Checked.value_bind]
    have reading := argumentReading path earlier index item
    generalize readArgument path earlier index item = read at reading
    cases reading with
    | taken a value counts fresh plain =>
      simp only [value, ih]
      refine and_congr_right fun _ => ?_
      constructor
      · rintro ⟨names, each, distinct, new⟩
        refine ⟨a.name :: names, .cons counts each, List.nodup_cons.mpr ⟨?_, distinct⟩, ?_⟩
        · intro again
          exact new a.name again a (by simp) rfl
        · exact List.forall_mem_cons.mpr
            ⟨fresh, fun name inside b before => new name inside b (List.mem_append_left _ before)⟩
      · rintro ⟨names, each, distinct, new⟩
        cases each with
        | cons first each =>
          obtain rfl := counts.unique first
          obtain ⟨absent, distinct⟩ := List.nodup_cons.mp distinct
          refine ⟨_, each, distinct, fun name inside b before => ?_⟩
          rcases List.mem_append.mp before with old | last
          · exact new name (List.mem_cons_of_mem _ inside) b old
          · rw [List.mem_singleton.mp last]
            exact fun same => absent (same ▸ inside)
    | repeated other same named again =>
      have value : read.value = none := by rw [same]
      simp only [value, ih, Bool.false_eq_true, false_and, false_iff, not_and]
      rintro - ⟨names, each, -, new⟩
      cases each with
      | cons first each =>
        obtain rfl := Option.some.inj (named.symm.trans first.name)
        obtain ⟨b, before, same⟩ := again
        exact new other List.mem_cons_self b before same
    | faulty value uncounted fresh plain =>
      simp only [value, ih, Bool.false_eq_true, false_and, false_iff, not_and]
      rintro - ⟨names, each, -⟩
      cases each with
      | cons first each => exact uncounted _ first

/-- A list of arguments that all count and have different names. -/
def AllArguments (value : Json) : Prop :=
  ∃ args names, value = .array args ∧ List.Forall₂ IsArgument args names ∧ names.Nodup

private theorem isSome_readArguments_iff (path : String) :
    (readArguments members path).value.isSome = true ↔
      ∀ value, Members.get? members "arguments" = some value → AllArguments value := by
  rw [readArguments]
  cases Members.get? members "arguments" with
  | none => simp
  | some value =>
    simp only [Option.some.injEq, forall_eq', AllArguments]
    cases value with
    | array items => simp [isSome_readArgumentItems_iff]
    | null | bool | integer | real | string | object => simp

private theorem duplicate_mem_readArguments_iff :
    ⟨place, .duplicateName name⟩ ∈ (readArguments members path).issues ↔
      place = joinPath path name ∧
        ∃ args, Members.get? members "arguments" = some (.array args) ∧
          Behind (IsArgument · name) (nameOf? · = some name) args := by
  rw [readArguments]
  cases Members.get? members "arguments" with
  | none => simp
  | some value =>
    cases value with
    | array items =>
      simp [duplicate_mem_readArgumentItems_iff, behindFrom_false_iff]
    | null | bool | integer | real | string | object => simp

/-! Endpoints. -/

/-- What makes an object a function: a caller, and nothing that reads or writes. -/
structure IsCall (members : Members) : Prop where
  caller : (designator? members "caller_name" "c_caller").isSome = true
  noGetter : designator? members "getter_name" "c_getter" = none
  noSetter : designator? members "setter_name" "c_setter" = none

/-- What makes an object hold something: a getter or a setter, and no caller. -/
structure IsHolder (members : Members) : Prop where
  noCaller : designator? members "caller_name" "c_caller" = none
  access : (designator? members "getter_name" "c_getter").isSome = true ∨
    (designator? members "setter_name" "c_setter").isSome = true

/-- A type name, if there is one, is the name of a type. -/
def KnownType (members : Members) : Prop :=
  ∀ s, text? members "dtype" = some s → ∃ t, DataType.ofName? s = some t

private theorem isSome_holderDraft_iff {f : Fields} {t : Option DataType} :
    (holderDraft path f t).value.isSome = true ↔ ∃ draft, Holding f t draft := by
  have clean : (holderDraft path f t).value.isSome = true ↔ (holderDraft path f t).issues = [] := by
    unfold holderDraft
    split
    case h_7 => split <;> simp
    all_goals simp
  rw [clean]
  constructor
  · exact holding_of_clean
  · rintro ⟨draft, held⟩
    rw [holderDraft_of_holding held]

private theorem isSome_functionDraft_iff {caller : String} {f : Fields} {t : Option DataType} :
    (functionDraft members path caller f t).value.isSome = true ↔
      ∀ value, Members.get? members "arguments" = some value → AllArguments value := by
  rw [← isSome_readArguments_iff path, functionDraft]
  split <;> cases read : (readArguments members path).value <;> simp [read]

private theorem duplicate_mem_functionDraft_iff {caller : String} {f : Fields}
    {t : Option DataType} :
    ⟨place, .duplicateName name⟩ ∈ (functionDraft members path caller f t).issues ↔
      place = joinPath path name ∧
        ∃ args, Members.get? members "arguments" = some (.array args) ∧
          Behind (IsArgument · name) (nameOf? · = some name) args := by
  rw [← duplicate_mem_readArguments_iff, functionDraft]
  split <;> cases read : (readArguments members path).value <;> simp [read, Checked.report]

private theorem duplicate_mem_roleDraft_iff {f : Fields}
    (known : f.typeName = text? members "dtype") :
    ⟨place, .duplicateName name⟩ ∈ (roleDraft members path f).issues ↔
      KnownType members ∧
        ⟨place, .duplicateName name⟩ ∈ (typedDraft members path f (dataType? members)).issues := by
  rw [roleDraft, KnownType, dataType?, known]
  cases text? members "dtype" with
  | none => split <;> simp [Checked.report]
  | some s =>
    cases found : DataType.ofName? s <;> split <;> simp [found, Checked.report]

private theorem isSome_roleDraft_iff {f : Fields} (known : f.typeName = text? members "dtype") :
    (roleDraft members path f).value.isSome = true ↔
      KnownType members ∧ (typedDraft members path f (dataType? members)).value.isSome = true := by
  rw [roleDraft, KnownType, dataType?, known]
  cases text? members "dtype" with
  | none => split <;> simp
  | some s =>
    cases found : DataType.ofName? s <;> split <;> simp [found]

private theorem not_isHolder_of_isCall (call : IsCall members) : ¬ IsHolder members := by
  intro holder
  simpa [holder.noCaller] using call.caller

private theorem readDraft_cases (members : Members) (path : String) :
    ((IsCall members ∨ IsHolder members) ∧ readDraft members path = (do
      let _ ← readFields members path
      roleDraft members path (fieldsRead members))) ∨
    (¬ IsCall members ∧ ¬ IsHolder members ∧ ∃ problem, (∀ n, problem ≠ .duplicateName n) ∧
      readDraft members path = (do
        let _ ← readFields members path
        ⟨none, [⟨path, problem⟩]⟩)) := by
  cases called : designator? members "caller_name" "c_caller" with
  | none =>
    by_cases held : ((designator? members "getter_name" "c_getter").isSome ||
        (designator? members "setter_name" "c_setter").isSome) = true
    · refine Or.inl ⟨Or.inr ⟨called, by simpa using held⟩, Checked.bind_congr_value ?_⟩
      simp [value_readFields_eq, fieldsRead, fieldsOf, called, held]
    · refine Or.inr ⟨fun call => ?_, fun holder => held ?_, .noRole, by simp,
        Checked.bind_congr_value ?_⟩
      · simpa [called] using call.caller
      · simpa using holder.access
      · simp [value_readFields_eq, fieldsRead, fieldsOf, called, held]
  | some name =>
    by_cases held : ((designator? members "getter_name" "c_getter").isSome ||
        (designator? members "setter_name" "c_setter").isSome) = true
    · refine Or.inr ⟨fun call => ?_, fun holder => ?_, .conflictingRoles, by simp,
        Checked.bind_congr_value ?_⟩
      · simp [call.noGetter, call.noSetter] at held
      · simpa [called] using holder.noCaller
      · simp [value_readFields_eq, fieldsRead, fieldsOf, called, held]
    · have plain : designator? members "getter_name" "c_getter" = none ∧
          designator? members "setter_name" "c_setter" = none := by
        simpa using held
      refine Or.inl ⟨Or.inl ⟨by simp [called], plain.1, plain.2⟩, Checked.bind_congr_value ?_⟩
      simp [value_readFields_eq, fieldsRead, fieldsOf, called, held]

/-- An endpoint object whose fields give an endpoint, whatever else is wrong with it. -/
inductive Complete (members : Members) : Prop
  | call : IsCall members → KnownType members →
      (∀ value, Members.get? members "arguments" = some value → AllArguments value) →
      Complete members
  | holder (draft : Draft) : IsHolder members → KnownType members →
      Holding (fieldsRead members) (dataType? members) draft → Complete members

/-- The name of an argument that an earlier argument has, where arguments are read at all. -/
structure RepeatsArgument (members : Members) (name : String) : Prop where
  call : IsCall members
  known : KnownType members
  repeated : ∃ args, Members.get? members "arguments" = some (.array args) ∧
    Behind (IsArgument · name) (nameOf? · = some name) args

private theorem typedDraft_of_isCall (path : String) (call : IsCall members) (t : Option DataType) :
    ∃ caller, typedDraft members path (fieldsRead members) t =
      functionDraft members path caller (fieldsRead members) t := by
  obtain ⟨caller, called⟩ := Option.isSome_iff_exists.mp call.caller
  refine ⟨caller, ?_⟩
  have found : (fieldsRead members).caller = some caller := called
  rw [typedDraft, found]

private theorem typedDraft_of_isHolder (holder : IsHolder members) (t : Option DataType) :
    typedDraft members path (fieldsRead members) t = holderDraft path (fieldsRead members) t := by
  have found : (fieldsRead members).caller = none := holder.noCaller
  rw [typedDraft, found]

theorem isSome_readDraft_iff (members : Members) (path : String) :
    (readDraft members path).value.isSome = true ↔ Complete members := by
  rcases readDraft_cases members path with
    ⟨call | holder, read⟩ | ⟨noCall, noHolder, problem, -, read⟩
  · obtain ⟨caller, typed⟩ := typedDraft_of_isCall path call (dataType? members)
    rw [read, Checked.value_bind, isSome_roleDraft_iff rfl, typed, isSome_functionDraft_iff]
    constructor
    · rintro ⟨known, arguments⟩
      exact .call call known arguments
    · rintro (⟨-, known, arguments⟩ | ⟨-, holder, -, -⟩)
      · exact ⟨known, arguments⟩
      · exact absurd holder (not_isHolder_of_isCall call)
  · rw [read, Checked.value_bind, isSome_roleDraft_iff rfl, typedDraft_of_isHolder holder,
      isSome_holderDraft_iff]
    constructor
    · rintro ⟨known, draft, held⟩
      exact .holder draft holder known held
    · rintro (⟨call, -, -⟩ | ⟨draft, -, known, held⟩)
      · exact absurd holder (not_isHolder_of_isCall call)
      · exact ⟨known, draft, held⟩
  · rw [read, Checked.value_bind]
    simp only [Option.isSome_none, Bool.false_eq_true, false_iff]
    rintro (⟨call, -, -⟩ | ⟨-, holder, -, -⟩)
    · exact noCall call
    · exact noHolder holder

theorem duplicate_mem_readDraft_iff :
    ⟨place, .duplicateName name⟩ ∈ (readDraft members path).issues ↔
      place = joinPath path name ∧ (RepeatsMember members name ∨ RepeatsArgument members name) := by
  rw [and_or_left, ← duplicate_mem_readFields_iff]
  rcases readDraft_cases members path with
    ⟨call | holder, read⟩ | ⟨noCall, noHolder, problem, other, read⟩
  · obtain ⟨caller, typed⟩ := typedDraft_of_isCall path call (dataType? members)
    rw [read, Checked.issues_bind, List.mem_append, duplicate_mem_roleDraft_iff rfl, typed,
      duplicate_mem_functionDraft_iff]
    refine or_congr_right ?_
    constructor
    · rintro ⟨known, at', repeated⟩
      exact ⟨at', call, known, repeated⟩
    · rintro ⟨at', -, known, repeated⟩
      exact ⟨known, at', repeated⟩
  · have uncalled : ¬ RepeatsArgument members name := fun h => not_isHolder_of_isCall h.call holder
    rw [read, Checked.issues_bind, List.mem_append, duplicate_mem_roleDraft_iff rfl,
      typedDraft_of_isHolder holder]
    simp [uncalled]
  · have uncalled : ¬ RepeatsArgument members name := fun h => noCall h.call
    rw [read, Checked.issues_bind, List.mem_append]
    simp [uncalled, (other name).symm]

end Schema

end DeviceLink
