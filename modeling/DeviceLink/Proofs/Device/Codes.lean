import DeviceLink.Proofs.Device.Choices
import Mathlib.Data.Nat.Bitwise

/-!
Codes of options and of flags. Options without repeated names and their bytes determine each other,
whichever way an option is named, and what has no byte is refused (`Options.codes_correspond`). The
code of a list of flag names is a set of bits: the known names among them, however they are listed,
are found back in it, and lists that are joined have the bits of both (`Flags.codes_are_sets`).
-/

set_option autoImplicit false
set_option relaxedAutoImplicit false

namespace DeviceLink

open Number (twoTo)

def row (i : Nat) : String :=
  String.ofList (List.replicate i 'o')

/-- Names that are all different, as many as one likes. -/
def rows (n : Nat) : List String :=
  (List.range n).map row

private theorem row_injective : Function.Injective row := by
  intro i j same
  simpa [row] using congrArg (·.toList.length) same

@[simp] theorem length_rows (n : Nat) : (rows n).length = n := by
  rw [rows, List.length_map, List.length_range]

private theorem nodup_rows (n : Nat) : (rows n).Nodup :=
  List.nodup_range.map row_injective

private theorem eq_of_mem_rows {n : Nat} {name : String} {c : Char} (h : name ∈ rows n)
    (letter : c ∈ name.toList) : c = 'o' := by
  obtain ⟨i, -, rfl⟩ := List.mem_map.mp h
  rw [row, String.toList_ofList] at letter
  exact List.eq_of_mem_replicate letter

private theorem row_mem_take_rows {i k n : Nat} : row i ∈ (rows n).take k ↔ i < k ∧ i < n := by
  rw [rows, ← List.map_take, List.take_range, List.mem_map_of_injective row_injective,
    List.mem_range, Nat.lt_min]

namespace Options

variable {options : Options}

private theorem length_take_capacity (options : Options) :
    (options.names.take capacity).length = min options.names.length 256 := by
  rw [List.length_take, Nat.min_comm]
  rfl

private theorem map_index_values (options : Options) :
    options.values.map (·.index.toNat) = List.range (min options.names.length 256) := by
  have length : options.values.length = min options.names.length 256 := by
    rw [values, List.length_mapIdx, length_take_capacity]
  refine List.ext_getElem (by simp [length]) fun i inside _ => ?_
  have small : i < 256 := by
    rw [List.length_map, length] at inside
    omega
  simp only [values, List.getElem_map, List.getElem_mapIdx, List.getElem_range]
  exact UInt8.toNat_ofNat_of_lt' small

private theorem getElem?_of_mem_values {v : OptionValue} (h : v ∈ options.values) :
    options.names[v.index.toNat]? = some v.name := by
  rw [← List.getElem?_take_of_lt (show v.index.toNat < capacity from v.index.toNat_lt)]
  exact mem_values_iff.mp h

private theorem byName?_of_mem_values (distinct : options.names.Nodup) {v : OptionValue}
    (h : v ∈ options.values) : options.byName? v.name = some v := by
  have early : v.index.toNat < capacity := v.index.toNat_lt
  have found := findIdx?_eq_some_of_nodup (distinct.sublist (List.take_sublist capacity _)) early
    (getElem?_of_mem_values h)
  simp only [byName?, found, early, if_true, UInt8.ofNat_toNat]

private theorem decode_of_mem_values {v : OptionValue} (h : v ∈ options.values) :
    options.decode v.index.toUInt64 = .ok v :=
  decode_eq_ok_iff.mpr ⟨mem_values_iff.mp h, rfl⟩

private theorem exists_decode_iff (options : Options) (raw : UInt64) :
    (∃ v, options.decode raw = .ok v) ↔ raw.toNat < min options.names.length 256 := by
  rw [← length_take_capacity]
  constructor
  · rintro ⟨v, decoded⟩
    exact (List.getElem?_eq_some_iff.mp (decode_eq_ok_iff.mp decoded).1).1
  · intro inside
    rw [decode, List.getElem?_eq_getElem inside]
    exact ⟨_, rfl⟩

/-! What has no byte. -/

private theorem encode_index_of_outside {n : Int}
    (outside : n < 0 ∨ min options.names.length 256 ≤ n) :
    options.encode (.index n) = .error (.outOfRange n options.names.length) := by
  have range : ¬ (0 ≤ n && n < capacity && n < options.names.length) = true := by
    have : capacity = 256 := rfl
    simp only [Bool.and_eq_true, decide_eq_true_eq]
    omega
  rw [encode, if_neg range]

private theorem encode_value_of_foreign {v : OptionValue} (foreign : v ∉ options.values) :
    options.encode (.value v) = .error (.foreign v.name) := by
  have elsewhere : ¬ options.names[v.index.toNat]? = some v.name := by
    rw [mem_values_iff, List.getElem?_take_of_lt (show v.index.toNat < capacity from
      v.index.toNat_lt)] at foreign
    exact foreign
  rw [encode, if_neg elsewhere]

private theorem byName?_eq_none (distinct : options.names.Nodup) {name : String}
    (absent : name ∉ options.names.take 256) : options.byName? name = none := by
  by_cases known : name ∈ options.names
  · obtain ⟨i, listed⟩ := List.mem_iff_getElem?.mp known
    have late : ¬ i < capacity := by
      intro early
      rw [← List.getElem?_take_of_lt early] at listed
      exact absent (List.mem_of_getElem? listed)
    have inside := (List.getElem?_eq_some_iff.mp listed).1
    have whole : (options.names.take options.names.length).Nodup := by rwa [List.take_length]
    have found := findIdx?_eq_some_of_nodup whole inside listed
    simp only [byName?, found, late, if_false]
  · have missing : options.names.findIdx? (· == name) = none := by
      refine List.findIdx?_eq_none_iff.mpr fun other inside => ?_
      exact beq_false_of_ne (ne_of_mem_of_not_mem inside known)
    simp only [byName?, missing]

private theorem decode_of_outside {raw : UInt64}
    (outside : min options.names.length 256 ≤ raw.toNat) : options.decode raw =
      .error (.outOfRange (min raw.toNat (twoTo 63 - 1) : Nat) options.names.length) := by
  have missing : (options.names.take capacity)[raw.toNat]? = none := by
    rwa [List.getElem?_eq_none_iff, length_take_capacity]
  simp only [decode, missing]

/-- Where no two options have one name, the options up to the last byte and the bytes in use belong
to each other. An option is sent as its byte, by its number, as itself or by its name, and the byte
stands for this option; a byte is sent only for the option that was chosen. Numbers, options and
names without a byte are refused. -/
theorem codes_correspond (distinct : options.names.Nodup) :
    (options.values.map (·.index.toNat) = List.range (min options.names.length 256) ∧
      options.values.map (·.name) = options.names.take 256) ∧
    (∀ v ∈ options.values,
      options.encode (.index v.index.toNat) = .ok v.index ∧
        options.encode (.value v) = .ok v.index ∧ options.encode (.name v.name) = .ok v.index ∧
        options.byName? v.name = some v ∧ options.decode v.index.toUInt64 = .ok v) ∧
    (∀ raw, (∃ v, options.decode raw = .ok v) ↔ raw.toNat < min options.names.length 256) ∧
    (∀ choice b, options.encode choice = .ok b →
      ∃ v ∈ options.values, options.decode b.toUInt64 = .ok v ∧ choice.Chooses v) ∧
    (∀ n : Int, n < 0 ∨ min options.names.length 256 ≤ n →
      options.encode (.index n) = .error (.outOfRange n options.names.length)) ∧
    (∀ v ∉ options.values, options.encode (.value v) = .error (.foreign v.name)) ∧
    (∀ name ∉ options.names.take 256,
      options.byName? name = none ∧ options.encode (.name name) = .error (.unknownName name)) ∧
    ∀ raw : UInt64, min options.names.length 256 ≤ raw.toNat → options.decode raw =
      .error (.outOfRange (min raw.toNat (twoTo 63 - 1) : Nat) options.names.length) := by
  refine ⟨⟨map_index_values options, map_name_values options⟩, ?_, exists_decode_iff options, ?_,
    ?_, ?_, ?_, ?_⟩
  · intro v member
    obtain ⟨byIndex, byValue, byName⟩ :=
      encode_of_getElem? distinct v.index.toNat_lt (getElem?_of_mem_values member)
    rw [UInt8.ofNat_toNat] at byIndex byValue byName
    exact ⟨byIndex, byValue, byName, byName?_of_mem_values distinct member,
      decode_of_mem_values member⟩
  · intro choice b sent
    exact decode_of_encode sent
  · intro n outside
    exact encode_index_of_outside outside
  · intro v foreign
    exact encode_value_of_foreign foreign
  · intro name absent
    have unnamed := byName?_eq_none distinct absent
    exact ⟨unnamed, by rw [encode, unnamed]⟩
  · intro raw outside
    exact decode_of_outside outside

/-- One option more than there are bytes. The last but one has the last byte; the last one has none,
though its place cut to a byte would be that of the first. -/
theorem codes_correspond_rows :
    (rows 257).Nodup ∧ (Options.mk (rows 257)).values.length = 256 ∧
      (∃ v, (Options.mk (rows 257)).decode 255 = .ok v ∧
        (Options.mk (rows 257)).encode (.value v) = .ok 255) ∧
      (Options.mk (rows 257)).encode (.index 256) = .error (.outOfRange 256 257) ∧
      (Options.mk (rows 257)).encode (.name (row 256)) = .error (.unknownName (row 256)) := by
  obtain ⟨⟨places, -⟩, sent, decodes, -, outside, -, absent, -⟩ :=
    @codes_correspond ⟨rows 257⟩ (nodup_rows 257)
  simp only [length_rows] at places decodes outside
  refine ⟨nodup_rows 257, ?_, ?_, ?_, ?_⟩
  · simpa using congrArg List.length places
  · obtain ⟨v, decoded⟩ := (decodes 255).mpr (by decide)
    obtain ⟨listed, byte⟩ := decode_eq_ok_iff.mp decoded
    have index : v.index = 255 := UInt8.toNat_inj.mp byte
    have member : v ∈ (Options.mk (rows 257)).values := mem_values_iff.mpr (by rwa [byte])
    exact ⟨v, decoded, index ▸ (sent v member).2.1⟩
  · exact outside 256 (Or.inr (by decide))
  · have late : row 256 ∉ (rows 257).take 256 := by
      rw [row_mem_take_rows]
      decide
    exact (absent _ late).2

end Options

namespace Flags

variable {flags : Flags} {given given' : List String}

/-- The flags among a list of names that have a bit, in declaration order. -/
def known (flags : Flags) (given : List String) : List String :=
  (flags.names.take 64).filter given.contains

private theorem mem_known_iff {name : String} :
    name ∈ flags.known given ↔ name ∈ flags.names.take 64 ∧ name ∈ given := by
  rw [known, List.mem_filter, List.contains_iff_mem]

private theorem decode_eq (flags : Flags) (v : UInt64) : flags.decode v =
    if namesOf flags.names v.toNat = [] then flags.defaultName.toList
    else namesOf flags.names v.toNat := by
  rw [decode]
  cases namesOf flags.names v.toNat <;> cases flags.defaultName <;> rfl

private theorem toNat_encode_decode (distinct : flags.names.Nodup)
    (foreign : ∀ name, flags.defaultName = some name → name ∉ flags.names) (v : UInt64) :
    (flags.encode (flags.decode v)).toNat = v.toNat % twoTo (min flags.names.length 64) := by
  have bits : bitsOf (flags.decode v) (flags.names.take 64) =
      bitsOf (namesOf flags.names v.toNat) (flags.names.take 64) := by
    rw [decode_eq]
    split
    · rename_i unset
      rw [unset]
      cases default : flags.defaultName with
      | none => rfl
      | some name =>
        have other : name ∉ flags.names.take 64 := fun inside =>
          foreign name default (List.mem_of_mem_take inside)
        exact bitsOf_cons other
    · rfl
  rw [toNat_encode, bits, bitsOf_namesOf distinct, Nat.min_comm]

private theorem decode_encode (flags : Flags) (given : List String) :
    flags.decode (flags.encode given) =
      if flags.known given = [] then flags.defaultName.toList else flags.known given := by
  rw [decode_eq, toNat_encode, namesOf_bitsOf, ← known]

private theorem encode_eq_encode_iff : flags.encode given = flags.encode given' ↔
    ∀ name ∈ flags.names.take 64, (name ∈ given ↔ name ∈ given') := by
  rw [← UInt64.toNat_inj, toNat_encode, toNat_encode]
  constructor
  · intro same name listed
    have found : flags.known given = flags.known given' := by
      rw [known, known, ← namesOf_bitsOf, same, namesOf_bitsOf]
    have member : name ∈ flags.known given ↔ name ∈ flags.known given' := by rw [found]
    simpa [mem_known_iff, listed] using member
  · intro same
    refine Nat.eq_of_testBit_eq fun i => ?_
    rw [testBit_bitsOf, testBit_bitsOf]
    cases there : (flags.names.take 64)[i]? with
    | none => rfl
    | some name =>
      rw [Option.any_some, Option.any_some, Bool.eq_iff_iff, List.contains_iff_mem,
        List.contains_iff_mem]
      exact same name (List.mem_of_getElem? there)

private theorem encode_append (flags : Flags) (given given' : List String) :
    flags.encode (given ++ given') = flags.encode given ||| flags.encode given' := by
  rw [← UInt64.toNat_inj, UInt64.toNat_or, toNat_encode, toNat_encode, toNat_encode]
  refine Nat.eq_of_testBit_eq fun i => ?_
  rw [Nat.testBit_or, testBit_bitsOf, testBit_bitsOf, testBit_bitsOf]
  cases (flags.names.take 64)[i]? with
  | none => rfl
  | some name => simp

/-- Where no two flags have one name and none has the name for no flag set, the flags in a number
lead back to the number, but for the bits that are no flags. The code of a list of names is the set
of those among the first 64 flags that are in it: they are found back in declaration order, lists
with the same known names and no others have one code, and joined lists have the bits of both. -/
theorem codes_are_sets (distinct : flags.names.Nodup)
    (foreign : ∀ name, flags.defaultName = some name → name ∉ flags.names) :
    (∀ v : UInt64,
      (flags.encode (flags.decode v)).toNat = v.toNat % twoTo (min flags.names.length 64)) ∧
    (∀ given, flags.decode (flags.encode given) =
      if flags.known given = [] then flags.defaultName.toList else flags.known given) ∧
    (∀ given given', flags.encode given = flags.encode given' ↔
      ∀ name ∈ flags.names.take 64, (name ∈ given ↔ name ∈ given')) ∧
    ∀ given given', flags.encode (given ++ given') = flags.encode given ||| flags.encode given' :=
  ⟨toNat_encode_decode distinct foreign, decode_encode flags, fun _ _ => encode_eq_encode_iff,
    encode_append flags⟩

/-- More flags than there are bits. The flag behind the last bit is no flag of any code, so that
giving it alone gives the name for no flag set. -/
theorem codes_are_sets_rows :
    (rows 66).Nodup ∧ "none" ∉ rows 66 ∧
      ((Flags.mk (rows 66) (some "none")).encode
        ((Flags.mk (rows 66) (some "none")).decode 18446744073709551615)).toNat =
          18446744073709551615 ∧
      (Flags.mk (rows 66) (some "none")).decode
        ((Flags.mk (rows 66) (some "none")).encode [row 64]) = ["none"] ∧
      (Flags.mk (rows 66) (some "none")).encode [row 64, row 3, "one", row 3] =
        (Flags.mk (rows 66) (some "none")).encode [row 3] := by
  have foreign : "none" ∉ rows 66 := fun inside =>
    absurd (eq_of_mem_rows inside (show 'n' ∈ "none".toList by decide)) (by decide)
  obtain ⟨back, found, depends, -⟩ :=
    @codes_are_sets ⟨rows 66, some "none"⟩ (nodup_rows 66)
      fun name given => Option.some.inj given ▸ foreign
  refine ⟨nodup_rows 66, foreign, ?_, ?_, ?_⟩
  · rw [back]
    simp only [length_rows]
    decide
  · have none : (Flags.mk (rows 66) (some "none")).known [row 64] = [] := by
      refine List.eq_nil_iff_forall_not_mem.mpr fun name inside => ?_
      obtain ⟨early, given⟩ := mem_known_iff.mp inside
      obtain rfl := List.mem_singleton.mp given
      exact absurd (row_mem_take_rows.mp early).1 (by decide)
    rw [found, none]
    rfl
  · refine (depends _ _).mpr fun name early => ?_
    have other : name ≠ row 64 := by
      rintro rfl
      exact absurd (row_mem_take_rows.mp early).1 (by decide)
    have unknown : name ≠ "one" := by
      rintro rfl
      have listed := List.mem_of_mem_take early
      exact absurd (eq_of_mem_rows listed (show 'n' ∈ "one".toList by decide)) (by decide)
    simp [other, unknown]

end Flags

end DeviceLink
