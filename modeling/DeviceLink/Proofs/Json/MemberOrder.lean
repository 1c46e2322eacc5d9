import DeviceLink.Fingerprint
import DeviceLink.Proofs.Json.Unambiguous
import DeviceLink.Proofs.Text.Octets

/-!
The canonical text of an exact value says what the value is up to the order of members, and no more
(`canonicalText_eq_iff_same`). Sorting picks one value of each class of values that differ only in
that order, since a list of members with different keys has one order in which the keys ascend.
-/

set_option autoImplicit false
set_option relaxedAutoImplicit false

namespace DeviceLink.Json

mutual

/-- Two values are the same when the order of members is disregarded, at every depth. -/
inductive Same : Json → Json → Prop where
  | null : Same null null
  | bool (value : Bool) : Same (bool value) (bool value)
  | integer (value : Int) : Same (integer value) (integer value)
  | real (value : Number.Binary64) : Same (real value) (real value)
  | string (value : String) : Same (string value) (string value)
  | array {xs ys : List Json} : SameItems xs ys → Same (array xs) (array ys)
  | object {ms ns ordered : Members} : SameMembers ms ordered → ordered.Perm ns →
      Same (object ms) (object ns)

/-- The same items in the same order. -/
inductive SameItems : List Json → List Json → Prop where
  | nil : SameItems [] []
  | cons {x y : Json} {xs ys : List Json} : Same x y → SameItems xs ys →
      SameItems (x :: xs) (y :: ys)

/-- The same keys in the same order, with the same values. -/
inductive SameMembers : Members → Members → Prop where
  | nil : SameMembers [] []
  | cons {key : String} {x y : Json} {ms ns : Members} : Same x y → SameMembers ms ns →
      SameMembers ((key, x) :: ms) ((key, y) :: ns)

end

/-! Members in the order of their keys. -/

/-- The keys ascend, so there is one member for each key. -/
def Ascending (members : Members) : Prop :=
  members.Pairwise (·.1 < ·.1)

private theorem insert_perm {key : String} {members : Members} (fresh : key ∉ members.map (·.1))
    (value : Json) : (Members.insert key value members).Perm ((key, value) :: members) := by
  induction members with
  | nil => exact .refl _
  | cons member rest ih =>
    obtain ⟨different, later⟩ : key ≠ member.1 ∧ key ∉ rest.map (·.1) := by simpa using fresh
    rw [Members.insert, if_neg different]
    split
    · exact .refl _
    · exact ((ih later).cons member).trans (.swap _ _ _)

private theorem ascending_insert {key : String} {members : Members}
    (fresh : key ∉ members.map (·.1)) (value : Json) (ascending : Ascending members) :
    Ascending (Members.insert key value members) := by
  induction members with
  | nil => exact List.pairwise_singleton _ _
  | cons member rest ih =>
    obtain ⟨different, later⟩ : key ≠ member.1 ∧ key ∉ rest.map (·.1) := by simpa using fresh
    obtain ⟨least, others⟩ := List.pairwise_cons.mp ascending
    rw [Members.insert, if_neg different]
    split
    · rename_i before
      refine List.pairwise_cons.mpr ⟨fun other inside => ?_, ascending⟩
      rcases List.mem_cons.mp inside with rfl | inside
      · exact before
      · exact lt_trans before (least other inside)
    · rename_i after
      have first : member.1 < key := lt_of_le_of_ne (not_lt.mp after) (Ne.symm different)
      refine List.pairwise_cons.mpr ⟨fun other inside => ?_, ih later others⟩
      rcases List.mem_cons.mp ((insert_perm later value).mem_iff.mp inside) with rfl | inside
      · exact first
      · exact least other inside

private theorem foldl_insert_spec {members kept : Members} (ascending : Ascending kept)
    (distinct : ((kept ++ members).map (·.1)).Nodup) :
    let all := members.foldl (fun kept member => Members.insert member.1 member.2 kept) kept
    all.Perm (kept ++ members) ∧ Ascending all := by
  induction members generalizing kept with
  | nil => exact ⟨by simp, ascending⟩
  | cons member rest ih =>
    have front : (kept ++ member :: rest).Perm (member :: kept ++ rest) := List.perm_middle
    have distinct' := (front.map (·.1)).nodup_iff.mp distinct
    have fresh : member.1 ∉ kept.map (·.1) := by
      intro inside
      have front := List.map_subset (·.1) (List.subset_append_left kept rest) inside
      exact (List.nodup_cons.mp distinct').1 front
    have inserted := insert_perm fresh member.2
    have more : ((Members.insert member.1 member.2 kept ++ rest).map (·.1)).Nodup :=
      ((inserted.append_right rest).map (·.1)).nodup_iff.mpr distinct'
    obtain ⟨perm, sorted⟩ := ih (ascending_insert fresh member.2 ascending) more
    exact ⟨(perm.trans (inserted.append_right rest)).trans front.symm, sorted⟩

private theorem exists_ofMembers_eq {members : Members} (distinct : (members.map (·.1)).Nodup) :
    ∃ all, ofMembers members = object all ∧ all.Perm members ∧ Ascending all := by
  have start : Ascending [] := List.Pairwise.nil
  obtain ⟨perm, ascending⟩ := foldl_insert_spec start distinct
  exact ⟨_, rfl, perm, ascending⟩

private theorem ofMembers_eq_iff_perm {ms ns : Members} (hms : (ms.map (·.1)).Nodup)
    (hns : (ns.map (·.1)).Nodup) : ofMembers ms = ofMembers ns ↔ ms.Perm ns := by
  obtain ⟨all, shape, perm, ascending⟩ := exists_ofMembers_eq hms
  obtain ⟨all', shape', perm', ascending'⟩ := exists_ofMembers_eq hns
  rw [shape, shape', object.injEq]
  constructor
  · rintro rfl
    exact perm.symm.trans perm'
  · intro same
    apply ((perm.trans same).trans perm'.symm).eq_of_pairwise _ ascending ascending'
    intro m n _ _ before after
    exact absurd after (lt_asymm before)

/-! Sorting at every depth. -/

private theorem sortedMembers_eq_map (members : Members) :
    sortedMembers members = members.map fun member => (member.1, member.2.sorted) := by
  induction members with
  | nil => rfl
  | cons member rest ih => rw [sortedMembers, ih, List.map_cons]

private theorem keys_sortedMembers (members : Members) :
    (sortedMembers members).map (·.1) = members.map (·.1) := by
  rw [sortedMembers_eq_map, List.map_map]
  rfl

private theorem exactMembers_iff {members : Members} :
    ExactMembers members ↔ ∀ member ∈ members, member.2.Exact := by
  induction members with
  | nil => simp [ExactMembers]
  | cons member rest ih => simp [ExactMembers, ih]

private theorem exactMembers_of_perm {ms ns : Members} (perm : ms.Perm ns)
    (exact : ExactMembers ns) : ExactMembers ms :=
  exactMembers_iff.mpr fun member inside => exactMembers_iff.mp exact member (perm.mem_iff.mp inside)

private theorem exists_of_sortedMembers_perm {ms ns : Members}
    (perm : (sortedMembers ms).Perm (sortedMembers ns)) :
    ∃ ordered, sortedMembers ms = sortedMembers ordered ∧ ordered.Perm ns := by
  let sort := fun member : String × Json => (member.1, member.2.sorted)
  have found : Relation.Comp (· = List.map sort ·) (·.Perm ·) (sortedMembers ms) ns := by
    rw [List.eq_map_comp_perm]
    rw [sortedMembers_eq_map ns] at perm
    exact perm
  obtain ⟨ordered, same, perm⟩ := found
  rw [← sortedMembers_eq_map] at same
  exact ⟨ordered, same, perm⟩

mutual

private theorem exact_sorted {value : Json} (exact : value.Exact) : value.sorted.Exact := by
  cases value with
  | null | bool _ | integer _ | string _ => exact exact
  | real x => exact exact
  | array items => exact exactItems_sortedItems exact
  | object members =>
    have keys : ((sortedMembers members).map (·.1)).Nodup := by
      rw [keys_sortedMembers]
      exact exact.1
    have values := exactMembers_sortedMembers exact.2
    obtain ⟨all, shape, perm, _⟩ := exists_ofMembers_eq keys
    rw [sorted, shape]
    exact ⟨(perm.map (·.1)).nodup_iff.mpr keys, exactMembers_of_perm perm values⟩

private theorem exactItems_sortedItems {items : List Json} (exact : ExactItems items) :
    ExactItems (sortedItems items) := by
  cases items with
  | nil => trivial
  | cons item rest => exact ⟨exact_sorted exact.1, exactItems_sortedItems exact.2⟩

private theorem exactMembers_sortedMembers {members : Members} (exact : ExactMembers members) :
    ExactMembers (sortedMembers members) := by
  cases members with
  | nil => trivial
  | cons member rest => exact ⟨exact_sorted exact.1, exactMembers_sortedMembers exact.2⟩

end

mutual

private theorem sorted_eq_of_same {a b : Json} (ha : a.Exact) (hb : b.Exact) :
    Same a b → a.sorted = b.sorted
  | .null | .bool _ | .integer _ | .real _ | .string _ => rfl
  | .array items => congrArg array (sortedItems_eq_of_same ha hb items)
  | .object members perm => by
    rename_i ms ns ordered
    have values : ExactMembers ordered := exactMembers_of_perm perm hb.2
    have equal := sortedMembers_eq_of_same ha.2 values members
    rw [sorted, sorted, ofMembers_eq_iff_perm, equal, sortedMembers_eq_map, sortedMembers_eq_map]
    · exact perm.map _
    · rw [keys_sortedMembers]
      exact ha.1
    · rw [keys_sortedMembers]
      exact hb.1

private theorem sortedItems_eq_of_same {xs ys : List Json} (hxs : ExactItems xs)
    (hys : ExactItems ys) : SameItems xs ys → sortedItems xs = sortedItems ys
  | .nil => rfl
  | .cons first others => by
    rw [sortedItems, sortedItems, sorted_eq_of_same hxs.1 hys.1 first,
      sortedItems_eq_of_same hxs.2 hys.2 others]

private theorem sortedMembers_eq_of_same {ms ns : Members} (hms : ExactMembers ms)
    (hns : ExactMembers ns) : SameMembers ms ns → sortedMembers ms = sortedMembers ns
  | .nil => rfl
  | .cons first others => by
    rw [sortedMembers, sortedMembers, sorted_eq_of_same hms.1 hns.1 first,
      sortedMembers_eq_of_same hms.2 hns.2 others]

end

mutual

private theorem same_of_sorted_eq {a b : Json} (ha : a.Exact) (hb : b.Exact)
    (equal : a.sorted = b.sorted) : Same a b := by
  cases a with
  | null => cases b <;> cases equal; exact .null
  | bool p => cases b <;> cases equal; exact .bool p
  | integer n => cases b <;> cases equal; exact .integer n
  | real x => cases b <;> cases equal; exact .real x
  | string s => cases b <;> cases equal; exact .string s
  | array xs =>
    cases b <;> try cases equal
    rename_i ys
    exact .array (sameItems_of_sortedItems_eq ha hb (array.inj equal))
  | object ms =>
    cases b <;> try cases equal
    rename_i ns
    have hms : ((sortedMembers ms).map (·.1)).Nodup := by
      rw [keys_sortedMembers]
      exact ha.1
    have hns : ((sortedMembers ns).map (·.1)).Nodup := by
      rw [keys_sortedMembers]
      exact hb.1
    have perm := (ofMembers_eq_iff_perm hms hns).mp equal
    obtain ⟨ordered, same, perm⟩ := exists_of_sortedMembers_perm perm
    exact .object (sameMembers_of_sortedMembers_eq ha.2 (exactMembers_of_perm perm hb.2) same) perm

private theorem sameItems_of_sortedItems_eq {xs ys : List Json} (hxs : ExactItems xs)
    (hys : ExactItems ys) (equal : sortedItems xs = sortedItems ys) : SameItems xs ys := by
  cases xs with
  | nil => cases ys <;> cases equal; exact .nil
  | cons x xs =>
    cases ys with
    | nil => cases equal
    | cons y ys =>
      obtain ⟨first, others⟩ := List.cons.inj equal
      exact .cons (same_of_sorted_eq hxs.1 hys.1 first)
        (sameItems_of_sortedItems_eq hxs.2 hys.2 others)

private theorem sameMembers_of_sortedMembers_eq {ms ns : Members} (hms : ExactMembers ms)
    (hns : ExactMembers ns) (equal : sortedMembers ms = sortedMembers ns) : SameMembers ms ns := by
  cases ms with
  | nil => cases ns <;> cases equal; exact .nil
  | cons m ms =>
    cases ns with
    | nil => cases equal
    | cons n ns =>
      obtain ⟨key, value⟩ := m
      obtain ⟨key', value'⟩ := n
      obtain ⟨first, others⟩ := List.cons.inj equal
      obtain ⟨rfl, values⟩ := Prod.mk.inj first
      exact .cons (same_of_sorted_eq hms.1 hns.1 values)
        (sameMembers_of_sortedMembers_eq hms.2 hns.2 others)

end

private theorem sorted_eq_iff_same {a b : Json} (ha : a.Exact) (hb : b.Exact) :
    a.sorted = b.sorted ↔ Same a b :=
  ⟨same_of_sorted_eq ha hb, sorted_eq_of_same ha hb⟩

/-- Two documents have one canonical text, and so hand the same octets to the digest, exactly when
they are the same up to the order of members. Then they have one fingerprint. -/
theorem canonicalText_eq_iff_same {a b : Json} (ha : a.Exact) (hb : b.Exact) :
    (a.canonicalText = b.canonicalText ↔ Same a b) ∧
      (a.canonicalText.toUTF8.toList = b.canonicalText.toUTF8.toList ↔ Same a b) ∧
        (Same a b → fingerprint a = fingerprint b) := by
  have texts : a.canonicalText = b.canonicalText ↔ Same a b :=
    (text_inj (exact_sorted ha) (exact_sorted hb)).trans (sorted_eq_iff_same ha hb)
  refine ⟨texts, Text.octets_inj.trans texts, fun same => ?_⟩
  rw [fingerprint, fingerprint, texts.mpr same]

/-- Members that change places, in a document and in an object inside it, change no fingerprint. -/
theorem fingerprint_reordered :
    let unit := ("unit", string "mV")
    let item := array [object [unit, ("limits", array [integer (-5), integer 5])]]
    let item' := array [object [("limits", array [integer (-5), integer 5]), unit]]
    let a := object [("name", string "tm \"A\""), ("items", item), ("extra", null)]
    let b := object [("extra", null), ("items", item'), ("name", string "tm \"A\"")]
    a.Exact ∧ b.Exact ∧ a.canonicalText = b.canonicalText ∧ fingerprint a = fingerprint b := by
  intro unit item item' a b
  have ha : a.Exact := by simp [a, item, unit, Exact, ExactItems, ExactMembers]
  have hb : b.Exact := by simp [b, item', unit, Exact, ExactItems, ExactMembers]
  have limits : Same (array [integer (-5), integer 5]) (array [integer (-5), integer 5]) :=
    .array (.cons (.integer _) (.cons (.integer _) .nil))
  have inner : Same (object [unit, ("limits", array [integer (-5), integer 5])])
      (object [("limits", array [integer (-5), integer 5]), unit]) :=
    .object (.cons (.string _) (.cons limits .nil)) (.swap _ _ _)
  have same : Same a b := by
    refine .object (.cons (.string _) (.cons (.array (.cons inner .nil)) (.cons .null .nil))) ?_
    exact List.reverse_perm [("extra", null), ("items", item'), ("name", string "tm \"A\"")]
  obtain ⟨texts, _, prints⟩ := canonicalText_eq_iff_same ha hb
  exact ⟨ha, hb, texts.mpr same, prints same⟩

end DeviceLink.Json
