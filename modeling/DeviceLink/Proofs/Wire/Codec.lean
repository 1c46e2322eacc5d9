import DeviceLink.Proofs.Results
import DeviceLink.Wire
import Mathlib

/-!
The payload codec: how long payloads are.
-/

set_option autoImplicit false
set_option relaxedAutoImplicit false

namespace DeviceLink.Wire

variable {t : DataType} {value : Scalar} {payload : Payload}

@[simp] theorem length_littleEndian (width n : Nat) : (littleEndian width n).length = width := by
  induction width generalizing n with
  | zero => rfl
  | succ width ih => rw [littleEndian, List.length_cons, ih]

private theorem length_encodeInteger (h : encodeInteger t value = .ok payload) :
    payload.length = width t := by
  rw [encodeInteger] at h
  cases number : integerOf t value with
  | error e => simp [number, bind, Except.bind] at h
  | ok n =>
    simp only [number, bind, Except.bind] at h
    split at h
    · rw [← Except.ok.inj h, integerBytes, length_littleEndian]
    · cases h

private theorem length_encodeSingle {x : Number.Binary64} (h : encodeSingle t x = .ok payload) :
    payload.length = 4 := by
  simp only [encodeSingle] at h
  split at h
  · cases h
  · rw [← Except.ok.inj h, length_littleEndian]

theorem length_encode (fixed : t.isFixedWidth = true) (h : encode t value = .ok payload) :
    payload.length = width t := by
  cases t with
  | void | string => cases fixed
  | uint8 | int8 | uint16 | int16 | uint32 | int32 | uint64 | int64 => exact length_encodeInteger h
  | bool =>
    simp only [encode] at h
    split at h
    · rw [← Except.ok.inj h]; rfl
    · cases number : integerOf .bool value with
      | error e => simp [number, Except.map] at h
      | ok n => rw [number] at h; rw [← Except.ok.inj h]; rfl
  | float =>
    simp only [encode] at h
    cases number : numberOf .float value with
    | error e => simp [number, bind, Except.bind] at h
    | ok x => rw [number] at h; exact length_encodeSingle h
  | double =>
    simp only [encode] at h
    cases number : numberOf .double value with
    | error e => simp [number, Except.map] at h
    | ok x => rw [number] at h; rw [← Except.ok.inj h]; exact length_littleEndian _ _

theorem encodeAll_cons_eq_ok_iff {values : List (DataType × Scalar)} :
    encodeAll ((t, value) :: values) = .ok payload ↔
      ∃ piece more, encode t value = .ok piece ∧ encodeAll values = .ok more ∧
        payload = piece ++ more := by
  rw [encodeAll]
  simp only [bind_eq_ok_iff, Except.ok.injEq]
  constructor
  · rintro ⟨piece, here, more, others, same⟩
    exact ⟨piece, more, here, others, same.symm⟩
  · rintro ⟨piece, more, here, others, rfl⟩
    exact ⟨piece, here, more, others, rfl⟩

theorem encodeAll_cons_eq_error_iff {values : List (DataType × Scalar)} {e : Error} :
    encodeAll ((t, value) :: values) = .error e ↔
      encode t value = .error e ∨
        (∃ piece, encode t value = .ok piece) ∧ encodeAll values = .error e := by
  rw [encodeAll]
  simp only [bind_eq_error_iff, reduceCtorEq, and_false, exists_false, or_false, exists_and_right]

theorem encodeAll_split {values : List (DataType × Scalar)} (h : encodeAll values = .ok payload)
    {k : Nat} (found : values[k]? = some (t, value)) :
    ∃ before piece after, payload = before ++ piece ++ after ∧ encode t value = .ok piece ∧
      encodeAll (values.take k) = .ok before := by
  induction values generalizing payload k with
  | nil => simp at found
  | cons first rest ih =>
    obtain ⟨piece, more, here, others, rfl⟩ := encodeAll_cons_eq_ok_iff.mp h
    cases k with
    | zero =>
      obtain rfl := Option.some.inj found
      exact ⟨[], piece, more, rfl, here, rfl⟩
    | succ k =>
      obtain ⟨before, inner, after, rfl, encoded, earlier⟩ := ih others found
      refine ⟨piece ++ before, inner, after, by simp only [List.append_assoc], encoded, ?_⟩
      rw [List.take_succ_cons, encodeAll, here, earlier]
      rfl

theorem length_encodeAll {values : List (DataType × Scalar)}
    (fixed : ∀ entry ∈ values, entry.1.isFixedWidth = true) (h : encodeAll values = .ok payload) :
    payload.length = (values.map fun entry => width entry.1).sum := by
  induction values generalizing payload with
  | nil => rw [← Except.ok.inj h]; rfl
  | cons first rest ih =>
    obtain ⟨piece, more, here, others, rfl⟩ := encodeAll_cons_eq_ok_iff.mp h
    rw [List.length_append, List.map_cons, List.sum_cons,
      length_encode (fixed first List.mem_cons_self) here,
      ih (fun entry inside => fixed entry (List.mem_cons_of_mem _ inside)) others]

end DeviceLink.Wire
