import DeviceLink.Proofs.Schema.Acceptance
import DeviceLink.Proofs.Schema.Outcomes

/-!
Repeated names and their reports. A build keeps no list of the names that it has met: a name is
taken when an entity with it is added. So a document that repeats a name is always refused, but the
repetition is reported only if the earlier object was added and the later one could have been
(`Reported`).
-/

set_option autoImplicit false
set_option relaxedAutoImplicit false

namespace DeviceLink.Schema

open Json (Members)

/-! What a document repeats. -/

def rootPath (members : Members) : String :=
  (text? members "name").getD ""

/-- The lists of children that are reached from the root, with the paths of their containers. -/
inductive Listed (document : Json) : String → List Json → Prop
  | root {members : Members} {items : List Json} : document = .object members →
      Members.get? members "remote_attributes" = some (.array items) →
      Listed document (rootPath members) items
  | nested {path : String} {before after items : List Json} {members : Members} :
      Listed document path (before ++ .object members :: after) →
      Members.get? members "remote_attributes" = some (.array items) →
      Listed document (pathOf path before.length members) items

/-- The lists of children whose containers are added, and with them all containers around: each has
a name that no earlier sibling takes. -/
inductive Opened (document : Json) : String → List Json → Prop
  | root {members : Members} {items : List Json} : document = .object members →
      Members.get? members "remote_attributes" = some (.array items) →
      Opened document (rootPath members) items
  | nested {path name : String} {before after items : List Json} {members : Members} :
      Opened document path (before ++ .object members :: after) →
      Members.get? members "remote_attributes" = some (.array items) →
      text? members "name" = some name → (∀ item ∈ before, ¬ Offers item name) →
      Opened document (pathOf path before.length members) items

/-- A document repeats a name: among the objects of one list of children, or among the arguments of
one function. -/
inductive Repeats (document : Json) (name : String) : Prop
  | child {path : String} {items : List Json} : Listed document path items →
      Behind (nameOf? · = some name) (nameOf? · = some name) items → Repeats document name
  | argument {path : String} {items args : List Json} {members : Members} :
      Listed document path items → .object members ∈ items → isContainer members = false →
      IsCall members → Members.get? members "arguments" = some (.array args) →
      Behind (nameOf? · = some name) (nameOf? · = some name) args → Repeats document name

/-- What is reported as a duplicate, and where. -/
inductive Reported (document : Json) : String → String → Prop
  | child {path name : String} {items : List Json} : Opened document path items →
      Behind (Offers · name) (Offers · name) items → Reported document (joinPath path name) name
  | argument {path name : String} {before after : List Json} {members : Members} :
      Listed document path (before ++ .object members :: after) → isContainer members = false →
      RepeatsArgument members name →
      Reported document (joinPath (pathOf path before.length members) name) name
  | member {path name : String} {before after : List Json} {members : Members} :
      Listed document path (before ++ .object members :: after) → isContainer members = false →
      RepeatsMember members name →
      Reported document (joinPath (pathOf path before.length members) name) name
variable {p : Progress} {parent : Option Nat} {path place name : String} {members root : Members}
  {document item children : Json} {before after items : List Json} {withRootName : Bool}

/-! Where a build stands. -/

/-- A build stands between two items of a list that it has reached: the names under the container
are those that the items before offer, if it was added. -/
structure Progress.At (p : Progress) (document : Json) (parent : Option Nat) (path : String)
    (before after : List Json) : Prop extends p.Standing parent where
  listed : Listed document path (before ++ after)
  opened : ∀ q, parent = some q → Opened document path (before ++ after)
  taken : ∀ q, parent = some q → ∀ name,
    name ∈ p.tree.childNames q ↔ ∃ item ∈ before, Offers item name

private theorem buildItems_append (p : Progress) (parent : Option Nat) (path : String) (index : Nat)
    (items rest : List Json) :
    buildItems p parent path index (items ++ rest) =
      buildItems (buildItems p parent path index items) parent path (index + items.length)
        rest := by
  induction items generalizing p index with
  | nil => rw [buildItems]; rfl
  | cons item items ih =>
    rw [List.cons_append, buildItems, ih, buildItems, List.length_cons, Nat.add_comm items.length,
      Nat.add_assoc]

namespace Progress.At

private theorem run (items : List Json) (index : Nat)
    (h : p.At document parent path before (items ++ after))
    (room : (buildItems p parent path index items).Room) :
    (buildItems p parent path index items).At document parent path (before ++ items) after where
  toStanding := h.toStanding.advance (advance_buildItems _ _ _ _ _)
  listed := by rw [List.append_assoc]; exact h.listed
  opened q around := by rw [List.append_assoc]; exact h.opened q around
  taken q around name := by
    subst around
    rw [mem_childNames_buildItems_iff h.toStanding room, h.taken q rfl name]
    simp [or_and_right, exists_or]

private theorem enter (h : p.At document parent path before (.object members :: after))
    (found : Members.get? members "remote_attributes" = some (.array items)) :
    (enter p parent path before.length members).2.At document
      (Schema.enter p parent path before.length members).1 (pathOf path before.length members) []
      items where
  toStanding := standing_enter h.toStanding found
  listed := .nested h.listed found
  opened r inside := by
    obtain ⟨-, -, -, q, name, around, named, free⟩ := opened_of_enter h.toStanding found inside
    refine .nested (h.opened q around) found named fun item earlier offers => free ?_
    exact (h.taken q around name).mpr ⟨item, earlier, offers⟩
  taken r inside name := by
    simp [(opened_of_enter h.toStanding found inside).2.2.1]

private theorem behind_of_again (h : p.At document parent path before (item :: after))
    (again : Again p parent item name) : Reported document (joinPath path name) name := by
  obtain ⟨q, around, offers, taken⟩ := again
  have earlier := (h.taken q around name).mp taken
  exact .child (h.opened q around) ⟨before, item, after, rfl, earlier, offers⟩

end Progress.At
/-! Every report has its reason. -/

/-- The build of an item reports no duplicate without a reason in the document. -/
def Justified (document : Json) (item : Json) : Prop :=
  ∀ (p : Progress) (parent : Option Nat) (path : String) (before after : List Json),
    p.At document parent path before (item :: after) →
    (buildItem p parent path before.length item).Room → ∀ place name,
    ⟨place, .duplicateName name⟩ ∈ (buildItem p parent path before.length item).issues.toList →
    ⟨place, .duplicateName name⟩ ∈ p.issues.toList ∨ Reported document place name

private theorem justified_items (each : ∀ item ∈ items, Justified document item)
    (h : p.At document parent path before items)
    (room : (buildItems p parent path before.length items).Room)
    (found : ⟨place, .duplicateName name⟩ ∈
      (buildItems p parent path before.length items).issues.toList) :
    ⟨place, .duplicateName name⟩ ∈ p.issues.toList ∨ Reported document place name := by
  induction items generalizing p before with
  | nil =>
    rw [buildItems] at found
    exact Or.inl found
  | cons item rest ih =>
    rw [buildItems] at room found
    have first := (advance_buildItems rest _ parent path (before.length + 1)).room room
    have single : buildItems p parent path before.length [item] =
        buildItem p parent path before.length item := by rw [buildItems, buildItems]
    have next := h.run [item] before.length (single ▸ first)
    rw [single] at next
    have length : before.length + 1 = (before ++ [item]).length := by simp
    rw [length] at room found
    rcases ih (fun i later => each i (List.mem_cons_of_mem _ later)) next room found with
      earlier | reported
    · exact each item List.mem_cons_self p parent path before rest h first place name earlier
    · exact Or.inr reported

private theorem justified_children
    (each : ∀ items, children = .array items → ∀ item ∈ items, Justified document item)
    (h : ∀ items, children = .array items → p.At document parent path [] items)
    (room : (buildChildren p parent path children).Room)
    (found : ⟨place, .duplicateName name⟩ ∈ (buildChildren p parent path children).issues.toList) :
    ⟨place, .duplicateName name⟩ ∈ p.issues.toList ∨ Reported document place name := by
  cases children with
  | array items =>
    rw [buildChildren] at room found
    exact justified_items (each items rfl) (h items rfl) room found
  | null | bool | integer | real | string | object =>
    rw [buildChildren, Progress.duplicate_mem_report_iff] at found
    · exact Or.inl (by simpa using found)
    · simp
private theorem justified_item (document item : Json) : Justified document item := by
  induction item using document_induction with
  | other item missing =>
    intro p parent path before after _ _ place name found
    rw [buildItem_of_members?_eq_none missing, Progress.duplicate_mem_report_iff] at found
    exact Or.inl (by simpa using found)
  | object members ih =>
    intro p parent path before after h room place name found
    cases stored : Members.get? members "remote_attributes" with
    | some children =>
      have outcome := outcome_enter path before.length h.toStanding stored
      rw [buildItem_enter stored] at room found
      rcases justified_children (fun items same => ih items (same ▸ stored))
        (fun items same => h.enter (same ▸ stored)) room found with earlier | reported
      · rw [outcome.duplicate_mem_iff ((advance_buildChildren _ _ _ _).room room),
          or_iff_right duplicate_not_mem_headerIssues] at earlier
        refine earlier.imp_right ?_
        rintro ⟨rfl, again⟩
        exact h.behind_of_again again
      · exact Or.inr reported
    | none =>
      have kind : isContainer members = false := isContainer_eq_false_iff.mpr stored
      obtain ⟨id, outcome⟩ := outcome_leaf path before.length h.toStanding stored
      rw [outcome.duplicate_mem_iff room, duplicate_mem_leafIssues_iff] at found
      refine found.imp_right ?_
      rintro (⟨rfl, member | argument⟩ | ⟨rfl, again⟩)
      · exact .member h.listed kind member
      · exact .argument h.listed kind argument
      · exact h.behind_of_again again

/-! Every reason is reported. -/

private theorem advance_split (p : Progress) (parent : Option Nat) (path : String)
    (before after : List Json) (item : Json) :
    (buildItem (buildItems p parent path 0 before) parent path before.length item).Advance
      (buildItems p parent path 0 (before ++ item :: after)) := by
  rw [buildItems_append, buildItems, Nat.zero_add]
  exact advance_buildItems _ _ _ _ _

def start (members : Members) (withRootName : Bool) : Progress where
  tree := .ofRoot (infoOf members (rootPath members)) withRootName
  issues := ((readName members "").issues ++
    (readInfo members (rootPath members) (rootPath members)).issues).toArray

private theorem buildRoot_eq (withRootName : Bool) :
    buildRoot members withRootName =
      match Members.get? members "remote_attributes" with
      | some children =>
        buildChildren (start members withRootName) (some Tree.rootId) (rootPath members) children
      | none => (start members withRootName).report [⟨rootPath members, .rootNotContainer⟩] := by
  cases found : Members.get? members "remote_attributes" with
  | none | some => simp only [buildRoot, start, rootPath, value_readName, value_readInfo, found]

private theorem at_start (withRootName : Bool)
    (found : Members.get? members "remote_attributes" = some (.array items)) :
    (start members withRootName).At (.object members) (some Tree.rootId) (rootPath members) []
      items where
  reachable := .root _ _
  holds q around := Option.some.inj around ▸ (Tree.sound_ofRoot _ _).root.1
  listed := .root rfl found
  opened q around := .root rfl found
  taken q around name := by
    obtain rfl := Option.some.inj around
    constructor
    · intro taken
      cases taken
    · rintro ⟨item, inside, -⟩
      cases inside

private theorem justified_root (room : (buildRoot members withRootName).Room)
    (found : ⟨place, .duplicateName name⟩ ∈ (buildRoot members withRootName).issues.toList) :
    Reported (.object members) place name := by
  have clean : ⟨place, .duplicateName name⟩ ∉ (start members withRootName).issues.toList := by
    simp [start, duplicate_not_mem_readName, duplicate_not_mem_readInfo]
  rw [buildRoot_eq] at room found
  cases stored : Members.get? members "remote_attributes" with
  | none =>
    simp only [stored, Progress.duplicate_mem_report_iff] at found
    simp [clean] at found
  | some children =>
    simp only [stored] at room found
    refine (justified_children (fun _ _ item _ => justified_item _ item) ?_ room found).resolve_left
      clean
    intro items same
    exact at_start withRootName (same ▸ stored)

namespace Progress.At

private theorem reach (h : p.At document parent path [] (before ++ item :: after))
    (room : (buildItems p parent path 0 (before ++ item :: after)).Room) :
    (buildItems p parent path 0 before).At document parent path before (item :: after) := by
  have forward := (advance_buildItem item _ parent path before.length).trans
    (advance_split p parent path before after item)
  exact h.run before 0 (forward.room room)

private theorem descend (h : p.At document parent path [] (before ++ .object members :: after))
    (found : Members.get? members "remote_attributes" = some (.array items))
    (room : (buildItems p parent path 0 (before ++ .object members :: after)).Room) :
    let inner := Schema.enter (buildItems p parent path 0 before) parent path before.length members
    inner.2.At document inner.1 (pathOf path before.length members) [] items ∧
      (buildItems inner.2 inner.1 (pathOf path before.length members) 0 items).Advance
        (buildItems p parent path 0 (before ++ .object members :: after)) := by
  refine ⟨(h.reach room).enter found, ?_⟩
  have deeper := advance_split p parent path before after (.object members)
  rwa [buildItem_enter found, buildChildren] at deeper

end Progress.At

private theorem Listed.exists_at
    (room : (buildRoot root withRootName).Room) (listed : Listed (.object root) path items) :
    ∃ p parent, Progress.At p (.object root) parent path [] items ∧
      (buildItems p parent path 0 items).Advance (buildRoot root withRootName) := by
  induction listed with
  | @root members items itself found =>
    obtain rfl := Json.object.inj itself
    refine ⟨_, _, at_start withRootName found, ?_⟩
    rw [buildRoot_eq, found]
    simp only [buildChildren]
    exact .refl _
  | @nested path before after items members around found ih =>
    obtain ⟨p, parent, h, forward⟩ := ih
    obtain ⟨inner, deeper⟩ := h.descend found (forward.room room)
    exact ⟨_, _, inner, deeper.trans forward⟩

private theorem Opened.exists_at
    (room : (buildRoot root withRootName).Room) (opened : Opened (.object root) path items) :
    ∃ p q, Progress.At p (.object root) (some q) path [] items ∧
      (buildItems p (some q) path 0 items).Advance (buildRoot root withRootName) := by
  induction opened with
  | @root members items itself found =>
    obtain rfl := Json.object.inj itself
    refine ⟨_, _, at_start withRootName found, ?_⟩
    rw [buildRoot_eq, found]
    simp only [buildChildren]
    exact .refl _
  | @nested path name before after items members around found named fresh ih =>
    obtain ⟨p, q, h, forward⟩ := ih
    obtain ⟨inner, deeper⟩ := h.descend found (forward.room room)
    have here := h.reach (forward.room room)
    have outcome := outcome_enter path before.length here.toStanding found
    have free : name ∉ (buildItems p (some q) path 0 before).tree.childNames q := by
      rw [here.taken q rfl]
      rintro ⟨item, earlier, offers⟩
      exact fresh item earlier offers
    obtain ⟨r, added⟩ := outcome.isSome ((advance_buildItems _ _ _ _ _).room
      ((deeper.trans forward).room room)) (.container named (isContainer_of_get? found)) free
    rw [added] at inner deeper
    exact ⟨_, _, inner, deeper.trans forward⟩

private theorem duplicate_mem_of_listed (room : (buildRoot root withRootName).Room)
    (listed : Listed (.object root) path (before ++ .object members :: after))
    (kind : isContainer members = false)
    (repeated : RepeatsMember members name ∨ RepeatsArgument members name) :
    ⟨joinPath (pathOf path before.length members) name, .duplicateName name⟩ ∈
      (buildRoot root withRootName).issues.toList := by
  obtain ⟨p, parent, h, forward⟩ := listed.exists_at room
  have whole := (advance_split p parent path before after (.object members)).trans forward
  exact whole.issues.subset (duplicate_mem_of_leaf (h.reach (forward.room room)).toStanding kind
    (whole.room room) repeated)

private theorem duplicate_mem_of_reported
    (room : (buildRoot root withRootName).Room) (reported : Reported (.object root) place name) :
    ⟨place, .duplicateName name⟩ ∈ (buildRoot root withRootName).issues.toList := by
  cases reported with
  | argument listed kind repeated =>
    exact duplicate_mem_of_listed room listed kind (Or.inr repeated)
  | member listed kind repeated =>
    exact duplicate_mem_of_listed room listed kind (Or.inl repeated)
  | @child path _ items opened behind =>
    obtain ⟨before, item, after, rfl, taken, offers⟩ := behind
    obtain ⟨p, q, h, forward⟩ := opened.exists_at room
    have here := h.reach (forward.room room)
    have whole := (advance_split p (some q) path before after item).trans forward
    exact whole.issues.subset (duplicate_mem_of_again here.toStanding (whole.room room)
      ⟨q, rfl, offers, (here.taken q rfl name).mpr taken⟩)

/-! Refusal. -/

private theorem Listed.exists_root (listed : Listed document path items) :
    ∃ members, document = .object members := by
  induction listed with
  | root itself => exact ⟨_, itself⟩
  | nested _ _ ih => exact ih

private theorem Opened.listed (opened : Opened document path items) :
    Listed document path items := by
  induction opened with
  | root itself found => exact .root itself found
  | nested _ found _ _ ih => exact .nested ih found

private theorem Reported.exists_root (reported : Reported document place name) :
    ∃ members, document = .object members := by
  cases reported with
  | child opened => exact opened.listed.exists_root
  | argument listed => exact listed.exists_root
  | member listed => exact listed.exists_root

private theorem Listed.wellFormed (listed : Listed document path items) (h : WellFormed document) :
    (∀ item ∈ items, WellFormed item) ∧ (items.map nameOf?).Nodup := by
  have children {members : Members} {items : List Json} (good : WellFormed (.object members))
      (found : Members.get? members "remote_attributes" = some (.array items)) :
      (∀ item ∈ items, WellFormed item) ∧ (items.map nameOf?).Nodup := by
    cases good with
    | endpoint _ leaf => simp [found] at leaf
    | container _ stored each distinct =>
      obtain rfl := Json.array.inj (Option.some.inj (stored.symm.trans found))
      exact ⟨each, distinct⟩
  induction listed with
  | root itself found => exact children (itself ▸ h) found
  | nested _ found ih => exact children (ih.1 _ (by simp)) found

private theorem not_behind_of_nodup {α : Type} {f : α → Option String} {l : List α}
    (distinct : (l.map f).Nodup) : ¬ Behind (f · = some name) (f · = some name) l := by
  rintro ⟨before, a, after, rfl, ⟨b, earlier, first⟩, second⟩
  rw [List.map_append, List.map_cons, List.nodup_append] at distinct
  exact distinct.2.2 (f b) (List.mem_map_of_mem earlier) (f a) (by simp) (first.trans second.symm)

private theorem not_wellFormed_of_repeats (h : Repeats document name) : ¬ WellFormed document := by
  intro good
  cases h with
  | child listed behind => exact not_behind_of_nodup (listed.wellFormed good).2 behind
  | @argument _ _ args members listed inside leaf call found behind =>
    cases (listed.wellFormed good).1 _ inside with
    | container _ stored => simp [isContainer, stored] at leaf
    | endpoint _ _ fields =>
      rcases fields.role with callable | holder
      · obtain ⟨objects, same, -, distinct⟩ := callable.arguments _ found
        obtain rfl := Json.array.inj same
        refine not_behind_of_nodup (f := nameOf?) ?_ behind
        rwa [List.map_map]
      · simpa [holder.noCaller] using call.caller

/-- Repeated names. A document that repeats a name is refused. Of a refused document that needs no
more addresses than there are, the reports of duplicates are exactly these: of a child that could be
added, behind one that was, in a list whose container was added; of an argument behind one that
counts, where arguments are read; and of a flag or an option behind an equal one. -/
theorem repeated_names (document : Json) (withRootName : Bool) :
    ((∃ name, Repeats document name) → ∃ e, build document withRootName = .error e) ∧
      ∀ e, build document withRootName = .error e →
        (∀ issue ∈ e.issues, issue.problem ≠ .tooManyEndpoints) → ∀ place name,
        (⟨place, .duplicateName name⟩ ∈ e.issues ↔ Reported document place name) := by
  constructor
  · rintro ⟨name, repeated⟩
    cases answer : build document withRootName with
    | error e => exact ⟨e, rfl⟩
    | ok t =>
      exact absurd (isSchema_of_build answer).wellFormed (not_wellFormed_of_repeats repeated)
  · intro e refused room place name
    cases document with
    | object root =>
      rw [build] at refused
      split at refused
      · cases refused
      · cases refused
        exact ⟨justified_root room, duplicate_mem_of_reported room⟩
    | null | bool | integer | real | string | array =>
      cases refused
      refine iff_of_false (by simp) fun reported => ?_
      obtain ⟨members, same⟩ := reported.exists_root
      cases same

/-- Two endpoints of one name, the first of which has the given further fields. -/
def twins (fields : Members) : Json :=
  .object [("name", .string "tm"), ("remote_attributes", .array [
    .object (("name", .string "x") :: fields),
    .object [("name", .string "x"), ("dtype", .string "float"), ("getter_name", .string "get_x")]])]

private theorem repeats_twins (fields : Members) : Repeats (twins fields) "x" :=
  .child (.root rfl rfl) ⟨[_], _, [], rfl, ⟨_, List.mem_singleton_self _, rfl⟩, rfl⟩

/-- Two whole endpoints of one name are reported. -/
theorem repeated_names_twins : ∃ e,
    build (twins [("dtype", .string "uint8"), ("setter_name", .string "set_x")]) false = .error e ∧
      ⟨"tm.x", .duplicateName "x"⟩ ∈ e.issues := by
  obtain ⟨refused, reports⟩ :=
    repeated_names (twins [("dtype", .string "uint8"), ("setter_name", .string "set_x")]) false
  obtain ⟨e, answer⟩ := refused ⟨"x", repeats_twins _⟩
  have room : (match build (twins [("dtype", .string "uint8"), ("setter_name", .string "set_x")])
      false with
      | .error e => e.issues.all (·.problem ≠ .tooManyEndpoints)
      | .ok _ => false) = true := by
    decide +kernel
  rw [answer] at room
  have first : Offers (.object [("name", .string "x"), ("dtype", .string "uint8"),
      ("setter_name", .string "set_x")]) "x" :=
    .endpoint rfl rfl ((isSome_readDraft_iff _ "").mp (by decide +kernel))
  have second : Offers (.object [("name", .string "x"), ("dtype", .string "float"),
      ("getter_name", .string "get_x")]) "x" :=
    .endpoint rfl rfl ((isSome_readDraft_iff _ "").mp (by decide +kernel))
  refine ⟨e, answer, (reports e answer ?_ (joinPath "tm" "x") "x").mpr ?_⟩
  · simpa using room
  · have opened : Opened (twins [("dtype", .string "uint8"), ("setter_name", .string "set_x")]) "tm"
        [.object _, .object _] := .root rfl rfl
    exact .child opened ⟨[_], _, [], rfl, ⟨_, List.mem_singleton_self _, first⟩, second⟩

/-- Where the first one has no role, it is not added, and so its name is free for the second one. -/
theorem repeated_name_unreported : Repeats (twins []) "x" ∧
    ∃ e, build (twins []) false = .error e ∧ ∀ place, ⟨place, .duplicateName "x"⟩ ∉ e.issues := by
  refine ⟨repeats_twins [], ?_⟩
  have facts : (match build (twins []) false with
      | .error e => decide (e.issues = [⟨"tm.x", .noRole⟩])
      | .ok _ => false) = true := by
    decide +kernel
  cases answer : build (twins []) false with
  | ok t => simp [answer] at facts
  | error e =>
    rw [answer] at facts
    refine ⟨e, rfl, ?_⟩
    simp [of_decide_eq_true facts]

end DeviceLink.Schema
