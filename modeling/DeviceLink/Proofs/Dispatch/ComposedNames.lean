import DeviceLink.Proofs.Dispatch.FileScope

/-!
The names that are composed for generated code: of dispatchers, types and enumerators. Words that
are joined by underscores, put in capitals and given an ending are words, and each kind of name has a
mark that no reserved word has. So the composed names of a valid tree are identifiers, and its types
are told apart by their names, whether the name of the root is in them or not
(`composedNames_legal`).
-/

set_option autoImplicit false
set_option relaxedAutoImplicit false

namespace DeviceLink

namespace Identifier

variable {cs ds : List Char}

theorem IsWord.append (h : IsWord cs) (parts : ∀ d ∈ ds, Identifier.isPart d = true) :
    IsWord (cs ++ ds) := by
  obtain ⟨first, rest, rfl, start, others⟩ := h
  refine ⟨first, rest ++ ds, rfl, start, fun c inside => ?_⟩
  rcases List.mem_append.mp inside with own | added
  · exact others c own
  · exact (isPart_iff c).mp (parts c added)

private theorem isWord_intersperse {words : List (List Char)} (filled : words ≠ [])
    (each : ∀ word ∈ words, IsWord word) : IsWord (words.intersperse ['_']).flatten := by
  induction words with
  | nil => exact absurd rfl filled
  | cons word rest ih =>
    obtain ⟨first, others⟩ := List.forall_mem_cons.mp each
    cases rest with
    | nil => simpa using first
    | cons next more =>
      have later := ih (List.cons_ne_nil _ _) others
      rw [List.intersperse_cons_cons, List.flatten_cons, List.flatten_cons, List.singleton_append]
      refine first.append fun c inside => ?_
      rcases List.mem_cons.mp inside with rfl | behind
      · rfl
      · exact later.isPart c behind

private theorem isLetter_toUpper {c : Char} (h : IsLetter c) : IsLetter c.toUpper := by
  rw [← isAlpha_iff] at h ⊢
  rwa [Char.isAlpha_toUpper_eq_isAlpha]

private theorem toUpper_of_isDigit {c : Char} (h : IsDigit c) : c.toUpper = c := by
  refine Char.toUpper_eq_of_not_isLower fun lower => ?_
  rw [Char.isLower, Bool.and_eq_true, decide_eq_true_eq, decide_eq_true_eq] at lower
  exact absurd (Nat.le_trans lower.1 h.2) (by decide)

private theorem IsWord.toUpper (h : IsWord cs) : IsWord (cs.map Char.toUpper) := by
  obtain ⟨first, rest, rfl, start, others⟩ := h
  refine ⟨first.toUpper, rest.map Char.toUpper, rfl, ?_, fun c inside => ?_⟩
  · rcases start with letter | rfl
    · exact .inl (isLetter_toUpper letter)
    · exact .inr (by decide)
  · obtain ⟨d, member, rfl⟩ := List.mem_map.mp inside
    rcases others d member with letter | digit | rfl
    · exact .inl (isLetter_toUpper letter)
    · rw [toUpper_of_isDigit digit]
      exact .inr (.inl digit)
    · exact .inr (.inr (by decide))

/-! What no reserved word has. -/

private theorem reservedWords_start :
    ∀ w ∈ reservedWords, ¬ functionMark.toList <+: w.toList := by decide

private theorem reservedWords_ending : ∀ w ∈ reservedWords,
    ¬ "_options".toList <:+ w.toList ∧ ¬ "_flags".toList <:+ w.toList := by decide

private theorem reservedWords_underscore : ∀ w ∈ reservedWords, '_' ∈ w.toList.tail →
    (w.toList.tail.takeWhile (· != '_')).any Char.isLower = true := by decide

private theorem not_reserved_of_capitals {name : String} {front rest : List Char}
    (filled : front ≠ []) (capitals : ∀ c ∈ front, c.isLower = false)
    (shape : name.toList = front ++ '_' :: rest) :
    name ∉ reservedWords := by
  intro reserved
  obtain ⟨first, more, rfl⟩ := List.exists_cons_of_ne_nil filled
  have tail : name.toList.tail = more ++ '_' :: rest := by
    rw [shape, List.cons_append, List.tail_cons]
  obtain ⟨c, before, small⟩ :=
    List.any_eq_true.mp (reservedWords_underscore name reserved (by simp [tail]))
  have inside : c ∈ more := by
    rw [tail, List.takeWhile_append] at before
    split at before
    · simpa using before
    · exact (List.takeWhile_sublist _).subset before
  rw [capitals c (List.mem_cons_of_mem _ inside)] at small
  cases small

end Identifier

open Identifier (IsIdentifier IsWord isPart)

namespace Tree

variable {t : Tree} {id : Nat}

def WellNamed (t : Tree) : Prop :=
  ∀ id e, t.get? id = some e → IsIdentifier e.name

private theorem map_dots_intersperse {parts : List (List Char)}
    (plain : ∀ part ∈ parts, '.' ∉ part) :
    ((parts.intersperse ['.']).flatten.map fun c => if c = '.' then '_' else c) =
      (parts.intersperse ['_']).flatten := by
  have kept {part : List Char} (undotted : '.' ∉ part) :
      (part.map fun c => if c = '.' then '_' else c) = part := by
    conv_rhs => rw [← List.map_id part]
    refine List.map_congr_left fun c inside => if_neg ?_
    rintro rfl
    exact undotted inside
  induction parts with
  | nil => rfl
  | cons part rest ih =>
    obtain ⟨first, others⟩ := List.forall_mem_cons.mp plain
    cases rest with
    | nil => simpa using kept first
    | cons next more =>
      rw [List.intersperse_cons_cons, List.intersperse_cons_cons]
      simp only [List.flatten_cons, List.map_append, kept first, ih others]
      rfl

private theorem toList_underscoredName_of_wellNamed (named : t.WellNamed) (id : Nat) :
    (t.underscoredName id).toList =
      (((t.pathNames id).map String.toList).intersperse ['_']).flatten := by
  rw [toList_underscoredName]
  refine map_dots_intersperse fun part inside dotted => ?_
  obtain ⟨name, listed, rfl⟩ := List.mem_map.mp inside
  obtain ⟨id', e, found, rfl⟩ := mem_pathNames listed
  exact absurd ((named id' e found).word.isPart '.' dotted) (by decide)

private theorem isWord_underscoredName (h : t.Sound) (named : t.WellNamed)
    (inside : id ∈ t.endpoints) : IsWord (t.underscoredName id).toList := by
  obtain ⟨e, names, -, path⟩ := pathNames_endpoint h inside
  rw [toList_underscoredName_of_wellNamed named]
  refine Identifier.isWord_intersperse (by simp [path]) fun word listed => ?_
  obtain ⟨name, member, rfl⟩ := List.mem_map.mp listed
  obtain ⟨id', e', found, rfl⟩ := mem_pathNames member
  exact (named id' e' found).word

/-! One kind of names after the other. -/

private theorem isIdentifier_functionName (h : t.Sound) (named : t.WellNamed)
    (inside : id ∈ t.endpoints) : IsIdentifier (t.functionName id) := by
  have shape : (t.functionName id).toList =
      functionMark.toList ++ (t.underscoredName id).toList := by
    rw [functionName, String.toList_append]
  refine ⟨?_, fun reserved => ?_⟩
  · rw [shape]
    have mark : IsWord functionMark.toList := (Identifier.wellFormed_iff _).mp (by decide)
    exact mark.append (isWord_underscoredName h named inside).isPart
  · exact Identifier.reservedWords_start _ reserved ⟨_, shape.symm⟩

private theorem isIdentifier_typeName {e : Dispatch.Enumeration} (h : t.Sound) (named : t.WellNamed)
    (made : Dispatch.enumerationAt? t id = some e) : IsIdentifier e.name := by
  obtain ⟨inside, -, shape⟩ := enumerationAt?_eq_some h made
  have path := isWord_underscoredName h named inside
  rcases shape with shape | shape <;> rw [shape] <;> refine ⟨?_, fun reserved => ?_⟩
  · rw [String.toList_append]
    exact path.append (List.all_eq_true.mp (by decide))
  · refine (Identifier.reservedWords_ending _ reserved).1 ?_
    rw [String.toList_append]
    exact List.suffix_append _ _
  · rw [String.toList_append]
    exact path.append (List.all_eq_true.mp (by decide))
  · refine (Identifier.reservedWords_ending _ reserved).2 ?_
    rw [String.toList_append]
    exact List.suffix_append _ _

private theorem isIdentifier_enumerator {e : Enumerator} (h : t.Sound) (named : t.WellNamed)
    (members : ∀ id e, t.get? id = some e → ∀ name ∈ e.body.memberNames, IsIdentifier name)
    (inside : id ∈ t.endpoints) (listed : e ∈ t.enumerators id) : IsIdentifier e.name := by
  obtain ⟨entity, member, found, origin, spelled⟩ := exists_member_of_mem_enumerators listed
  have letters : ∀ c ∈ member.toList, isPart c = true := by
    rcases origin with rfl | own
    · exact List.all_eq_true.mp (by decide)
    · exact (members id entity found member own).word.isPart
  have path := isWord_underscoredName h named inside
  have stem : (t.enumeratorStem id).toList = (t.underscoredName id).toList.map Char.toUpper := by
    rw [enumeratorStem, String.toList_ofList, Identifier.upper_eq_map path.isPart]
  have shape : e.name.toList =
      (t.underscoredName id).toList.map Char.toUpper ++ '_' :: member.toList := by
    rw [spelled, enumeratorName, String.toList_append, String.toList_append, stem]
    simp
  refine ⟨?_, Identifier.not_reserved_of_capitals ?_ (fun c capital => ?_) shape⟩
  · rw [shape]
    exact path.toUpper.append (List.forall_mem_cons.mpr ⟨rfl, letters⟩)
  · obtain ⟨first, rest, same, -⟩ := path
    simp [same]
  · obtain ⟨d, -, rfl⟩ := List.mem_map.mp capital
    exact Char.isLower_toUpper_eq_false d

/-! The name of the root in full names, or not. -/

/-- The same tree, whose full names start with the name of the root or do not. -/
def withRoot (t : Tree) (rooted : Bool) : Tree :=
  { t with withRootName := rooted }

private theorem Sound.withRoot (h : t.Sound) (rooted : Bool) : (t.withRoot rooted).Sound :=
  ⟨h.root, h.rooted, h.listed, h.owned, h.increasing, h.distinct⟩

private theorem pathNames_withRoot (h : t.Sound) (inside : id < t.size) (rooted : Bool) :
    (t.withRoot rooted).pathNames id =
      (if rooted then [t.rootName] else []) ++ (t.withRoot false).pathNames id := by
  induction id using Nat.strong_induction_on with
  | _ id ih =>
    have root := (h.withRoot false).pathNames_root
    by_cases top : id = rootId
    · subst top
      rw [(h.withRoot rooted).pathNames_root, root]
      exact (List.append_nil _).symm
    · obtain ⟨p, parent, before, holder⟩ := h.rooted id inside top
      rw [(h.withRoot rooted).pathNames_child parent, (h.withRoot false).pathNames_child parent,
        ih p before holder.lt_size, List.append_assoc]
      rfl

private theorem underscoredName_withRoot (h : t.Sound) (named : t.WellNamed) (rooted : Bool) :
    ∃ front, ∀ id ∈ t.endpoints, ((t.withRoot rooted).underscoredName id).toList =
      front ++ ((t.withRoot false).underscoredName id).toList := by
  cases rooted with
  | false => exact ⟨[], fun _ _ => rfl⟩
  | true =>
    refine ⟨t.rootName.toList ++ ['_'], fun id inside => ?_⟩
    have listed := (mem_endpoints_iff h).mp inside
    obtain ⟨e, names, found, path⟩ :=
      pathNames_endpoint (h.withRoot false) ((mem_endpoints_iff (h.withRoot false)).mpr listed)
    rw [toList_underscoredName_of_wellNamed (t := t.withRoot true) named,
      toList_underscoredName_of_wellNamed (t := t.withRoot false) named,
      pathNames_withRoot h (lt_size_of_get? found) true, path, if_pos rfl]
    obtain ⟨first, rest, same⟩ : ∃ first rest, names ++ [e.name] = first :: rest :=
      List.exists_cons_of_ne_nil (by simp)
    rw [same, List.singleton_append, List.map_cons, List.map_cons, List.intersperse_cons_cons]
    simp

private theorem underscoredName_withRoot_inj (h : t.Sound) (named : t.WellNamed) {id' : Nat}
    (inside : id ∈ t.endpoints) (inside' : id' ∈ t.endpoints) {rooted : Bool} (other : Bool)
    (same : (t.withRoot rooted).underscoredName id = (t.withRoot rooted).underscoredName id') :
    (t.withRoot other).underscoredName id = (t.withRoot other).underscoredName id' := by
  obtain ⟨front, fronted⟩ := underscoredName_withRoot h named rooted
  obtain ⟨front', fronted'⟩ := underscoredName_withRoot h named other
  have short := congrArg String.toList same
  rw [fronted id inside, fronted id' inside'] at short
  refine String.toList_injective ?_
  rw [fronted' id inside, fronted' id' inside', List.append_cancel_left short]

/-- In a tree without violations, all names composed for generated code are identifiers, and the
types of different endpoints have different names. This holds with the name of the root in full names
and without it, whichever of the two the tree was checked with. -/
theorem composedNames_legal (h : t.Reachable) (valid : t.violations = []) (rooted : Bool) :
    (∀ name ∈ (t.withRoot rooted).functionNames, IsIdentifier name) ∧
    (∀ name ∈ (t.withRoot rooted).typeNames, IsIdentifier name) ∧
    (∀ name ∈ (t.withRoot rooted).enumeratorNames, IsIdentifier name) ∧
    ∀ id id' e e', Dispatch.enumerationAt? (t.withRoot rooted) id = some e →
      Dispatch.enumerationAt? (t.withRoot rooted) id' = some e' → e.name = e'.name → id = id' := by
  have rules := (violations_eq_nil_iff h.sound).mp valid
  have sound := h.sound.withRoot rooted
  have named : (t.withRoot rooted).WellNamed := rules.names
  refine ⟨?_, ?_, ?_, ?_⟩
  · intro name listed
    obtain ⟨id, inside, rfl⟩ := List.mem_map.mp listed
    exact isIdentifier_functionName sound named inside
  · intro name listed
    obtain ⟨e, made, rfl⟩ := List.mem_map.mp listed
    obtain ⟨id, -, found⟩ := List.mem_filterMap.mp made
    exact isIdentifier_typeName sound named found
  · intro name listed
    obtain ⟨id, inside, enumerators⟩ := List.mem_flatMap.mp listed
    obtain ⟨e, member, rfl⟩ := List.mem_map.mp enumerators
    exact isIdentifier_enumerator sound named rules.members inside member
  · intro id id' e e' made made' same
    have own {id : Nat} {e : Dispatch.Enumeration}
        (made : Dispatch.enumerationAt? (t.withRoot rooted) id = some e) : id ∈ t.endpoints :=
      (mem_endpoints_iff h.sound).mpr
        ((mem_endpoints_iff sound).mp (enumerationAt?_eq_some sound made).1)
    have paths := underscoredName_withRoot_inj h.sound rules.names (own made) (own made')
      t.withRootName (underscoredName_of_typeName_eq sound made made' same)
    exact rules.functions id (own made) id' (own made') (congrArg (functionMark ++ ·) paths)

def shutter : Tree :=
  ((ofRoot ⟨"_Static", none, none, false, [], none, none⟩ false).afterAdd 0
    ⟨⟨"_s", none, none, false, [], none, none⟩,
      .selector ⟨⟨["assert", "open"]⟩, ⟨some "shutter_get_state", none⟩, 1⟩⟩).afterAdd 0
    ⟨⟨"alarms", none, none, false, [], none, none⟩,
      .bitmask ⟨⟨["stuck"], none⟩, ⟨some "shutter_get_alarms", none⟩, 2⟩⟩

theorem composedNames_legal_shutter :
    shutter.Reachable ∧ shutter.violations = [] ∧
      IsIdentifier "avlos__Static__s" ∧ IsIdentifier "_STATIC__S_assert" ∧
      (shutter.withRoot true).typeNames = ["_Static__s_options", "_Static_alarms_flags"] ∧
      ∀ name ∈ (shutter.withRoot true).typeNames, IsIdentifier name := by
  have reachable : shutter.Reachable := .add _ _ (.add _ _ (.root _ _))
  have valid : shutter.violations = [] := by decide +kernel
  obtain ⟨functions, types, enumerators, -⟩ := composedNames_legal reachable valid true
  exact ⟨reachable, valid, functions _ (by decide +kernel), enumerators _ (by decide +kernel),
    by decide +kernel, types⟩

end Tree

end DeviceLink
