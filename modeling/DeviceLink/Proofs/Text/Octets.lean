import Mathlib.Data.List.Basic

/-!
Texts as octets. Different texts have different octets, and only the empty text has none.
-/

set_option autoImplicit false
set_option relaxedAutoImplicit false

namespace DeviceLink.Text

private theorem toList_loop (bytes : ByteArray) (place : Nat) (done : List UInt8) :
    ByteArray.toList.loop bytes place done = done.reverse ++ bytes.data.toList.drop place := by
  fun_induction ByteArray.toList.loop bytes place done with
  | case1 place done inside ih =>
    have there : place < bytes.data.toList.length := by
      rw [Array.length_toList]
      exact inside
    have byte : bytes.get! place = bytes.data.toList[place] := by
      rw [Array.getElem_toList]
      exact getElem!_pos bytes.data place inside
    rw [ih, List.drop_eq_getElem_cons there, byte, List.reverse_cons, List.append_assoc,
      List.singleton_append]
  | case2 place done outside =>
    have beyond : bytes.data.toList.length ≤ place := by
      rw [Array.length_toList]
      exact Nat.le_of_not_lt outside
    rw [List.drop_eq_nil_of_le beyond, List.append_nil]

private theorem toList_eq_data (bytes : ByteArray) : bytes.toList = bytes.data.toList :=
  toList_loop bytes 0 []

theorem octets_inj {s t : String} : s.toUTF8.toList = t.toUTF8.toList ↔ s = t := by
  constructor
  · intro same
    rw [toList_eq_data, toList_eq_data] at same
    apply String.toByteArray_inj.mp
    apply ByteArray.ext
    exact Array.toList_inj.mp same
  · rintro rfl
    rfl

theorem octets_eq_nil_iff {s : String} : s.toUTF8.toList = [] ↔ s = "" := by
  have none : "".toUTF8.toList = [] := toList_eq_data _
  rw [← none, octets_inj]

end DeviceLink.Text
