import DeviceLink.Json.Basic
import Mathlib.Data.List.Basic

/-!
The members of objects by their keys. Of members with different keys that are inserted one after the
other, each is found under its key (`get?_foldl_insert`).
-/

set_option autoImplicit false
set_option relaxedAutoImplicit false

namespace DeviceLink.Json

theorem get?_cons (member : String × Json) (rest : Members) (key : String) :
    Members.get? (member :: rest) key =
      if member.1 = key then some member.2 else Members.get? rest key := by
  by_cases same : member.1 = key
  · simp [Members.get?, same]
  · simp [Members.get?, same]

theorem get?_eq_none {members : Members} {key : String} (absent : key ∉ members.map (·.1)) :
    Members.get? members key = none := by
  induction members with
  | nil => rfl
  | cons member rest ih =>
    obtain ⟨different, later⟩ : key ≠ member.1 ∧ key ∉ rest.map (·.1) := by simpa using absent
    rw [get?_cons, if_neg (Ne.symm different), ih later]

private theorem get?_insert (members : Members) (key other : String) (value : Json) :
    Members.get? (Members.insert key value members) other =
      if key = other then some value else Members.get? members other := by
  induction members with
  | nil => exact get?_cons _ _ _
  | cons member rest ih =>
    rw [Members.insert]
    split
    · exact get?_cons _ _ _
    · split
      · rename_i same
        rw [get?_cons, get?_cons]
        by_cases here : key = other
        · rw [if_pos here, if_pos here]
        · rw [if_neg here, if_neg here, if_neg fun there => here (same.trans there)]
      · rename_i different
        rw [get?_cons, get?_cons, ih]
        by_cases here : key = other
        · rw [if_pos here, if_pos here, if_neg fun there => different (here.trans there.symm)]
        · rw [if_neg here, if_neg here]

theorem get?_foldl_insert {members : Members} (distinct : (members.map (·.1)).Nodup)
    (kept : Members) (key : String) :
    Members.get? (members.foldl (fun kept member => Members.insert member.1 member.2 kept) kept) key =
      (Members.get? members key).or (Members.get? kept key) := by
  induction members generalizing kept with
  | nil => rfl
  | cons member rest ih =>
    obtain ⟨fresh, others⟩ := List.nodup_cons.mp distinct
    rw [List.foldl_cons, ih others, get?_insert, get?_cons]
    by_cases same : member.1 = key
    · rw [if_pos same, if_pos same, get?_eq_none (same ▸ fresh)]
      rfl
    · rw [if_neg same, if_neg same]

end DeviceLink.Json
