import DeviceLink.Flags
import DeviceLink.Options
import DeviceLink.Proofs.Number.Rounding
import DeviceLink.Tree.Names
import Mathlib.Data.List.Nodup

/-!
Options and flags by name. The name of an option with a byte leads back to the byte, and the names
of the flags in a number lead back to the bits of the number that are flags, as long as no name
stands for two of them. Each has an enumerator that is named after it.
-/

set_option autoImplicit false
set_option relaxedAutoImplicit false

namespace DeviceLink

open Number (twoTo)

namespace Options

variable {options : Options}

theorem findIdx?_eq_some_of_nodup {names : List String} {k i : Nat} {name : String}
    (distinct : (names.take k).Nodup) (early : i < k) (listed : names[i]? = some name) :
    names.findIdx? (· == name) = some i := by
  obtain ⟨inside, same⟩ := List.getElem?_eq_some_iff.mp listed
  have bound : i < (names.take k).length := by
    rw [List.length_take]
    exact Nat.lt_min.mpr ⟨early, inside⟩
  refine List.findIdx?_eq_some_iff_getElem.mpr
    ⟨inside, beq_of_eq same, fun j before here => ?_⟩
  have twice : (names.take k)[j] = (names.take k)[i] := by
    rw [List.getElem_take, List.getElem_take, same]
    exact eq_of_beq here
  exact Nat.ne_of_lt before (distinct.getElem_inj_iff.mp twice)

theorem encode_name_of_decode {n : UInt64} {v : OptionValue}
    (distinct : (options.names.take capacity).Nodup) (h : options.decode n = .ok v) :
    n.toNat < 256 ∧ options.encode (.name v.name) = .ok (UInt8.ofNat n.toNat) ∧
      v.name ∈ options.names := by
  simp only [decode] at h
  cases listed : (options.names.take capacity)[n.toNat]? with
  | none => simp [listed] at h
  | some name =>
    rw [listed] at h
    obtain rfl := Except.ok.inj h
    obtain ⟨inside, same⟩ := List.getElem?_eq_some_iff.mp listed
    have long : n.toNat < min capacity options.names.length := by rwa [List.length_take] at inside
    obtain ⟨small, known⟩ := Nat.lt_min.mp long
    rw [List.getElem_take] at same
    have found := findIdx?_eq_some_of_nodup distinct small
      (List.getElem?_eq_some_iff.mpr ⟨known, same⟩)
    refine ⟨small, ?_, same ▸ List.getElem_mem known⟩
    simp only [encode, byName?, found, small, if_true]

theorem decode_eq_ok_iff {n : UInt64} {v : OptionValue} : options.decode n = .ok v ↔
    (options.names.take capacity)[n.toNat]? = some v.name ∧ v.index.toNat = n.toNat := by
  rw [decode]
  cases listed : (options.names.take capacity)[n.toNat]? with
  | none => simp
  | some name =>
    have inside := (List.getElem?_eq_some_iff.mp listed).1
    have small : n.toNat < 256 := Nat.lt_of_lt_of_le inside (List.length_take_le _ _)
    have byte : (UInt8.ofNat n.toNat).toNat = n.toNat := UInt8.toNat_ofNat_of_lt' small
    constructor
    · intro h
      obtain rfl := Except.ok.inj h
      exact ⟨rfl, byte⟩
    · rintro ⟨same, index⟩
      obtain ⟨b, name'⟩ := v
      obtain rfl := Option.some.inj same
      obtain rfl : UInt8.ofNat n.toNat = b := UInt8.toNat_inj.mp (byte.trans index.symm)
      rfl

theorem mem_values_iff {v : OptionValue} : v ∈ options.values ↔
    (options.names.take capacity)[v.index.toNat]? = some v.name := by
  rw [values, List.mem_mapIdx]
  constructor
  · rintro ⟨i, inside, rfl⟩
    have small : i < 256 := Nat.lt_of_lt_of_le inside (List.length_take_le _ _)
    rw [UInt8.toNat_ofNat_of_lt' small]
    exact List.getElem?_eq_getElem inside
  · intro listed
    obtain ⟨inside, same⟩ := List.getElem?_eq_some_iff.mp listed
    refine ⟨v.index.toNat, inside, ?_⟩
    rw [same, UInt8.ofNat_toNat]

end Options

/-- Which option a choice is: the one with a number, the option itself, or the one with a name. -/
def Choice.Chooses : Choice → OptionValue → Prop
  | index n, v => (v.index.toNat : Int) = n
  | value w, v => v = w
  | name s, v => v.name = s

namespace Options

variable {options : Options}

theorem known_of_getElem? {i : Nat} {name : String} (small : i < 256)
    (listed : options.names[i]? = some name) :
    (⟨UInt8.ofNat i, name⟩ : OptionValue) ∈ options.values ∧
      options.decode (UInt8.ofNat i).toUInt64 = .ok ⟨UInt8.ofNat i, name⟩ := by
  have byte : (UInt8.ofNat i).toNat = i := UInt8.toNat_ofNat_of_lt' small
  have early : (options.names.take capacity)[(UInt8.ofNat i).toNat]? = some name := by
    rw [byte, List.getElem?_take_of_lt (show i < capacity from small), listed]
  exact ⟨mem_values_iff.mpr early, decode_eq_ok_iff.mpr ⟨early, rfl⟩⟩

theorem decode_of_encode {choice : Choice} {b : UInt8} (h : options.encode choice = .ok b) :
    ∃ v ∈ options.values, options.decode b.toUInt64 = .ok v ∧ choice.Chooses v := by
  cases choice with
  | index n =>
    simp only [encode, Bool.and_eq_true, decide_eq_true_eq] at h
    split at h
    · rename_i bounds
      obtain rfl := Except.ok.inj h
      have small : n.toNat < 256 := by
        have : capacity = 256 := rfl
        omega
      have listed : options.names[n.toNat]? = some options.names[n.toNat] :=
        List.getElem?_eq_getElem (by omega)
      obtain ⟨member, decoded⟩ := known_of_getElem? small listed
      refine ⟨_, member, decoded, ?_⟩
      change ((UInt8.ofNat n.toNat).toNat : Int) = n
      rw [UInt8.toNat_ofNat_of_lt' small]
      omega
    · cases h
  | value w =>
    simp only [encode] at h
    split at h
    · rename_i listed
      obtain rfl := Except.ok.inj h
      obtain ⟨member, decoded⟩ := known_of_getElem? w.index.toNat_lt listed
      rw [UInt8.ofNat_toNat] at member decoded
      exact ⟨_, member, decoded, rfl⟩
    · cases h
  | name s =>
    simp only [encode, byName?] at h
    cases found : options.names.findIdx? (· == s) with
    | none => simp [found] at h
    | some i =>
      obtain ⟨inside, same, -⟩ := List.findIdx?_eq_some_iff_getElem.mp found
      by_cases small : i < capacity
      · simp only [found, small, if_true] at h
        obtain rfl := Except.ok.inj h
        have listed : options.names[i]? = some s := by
          rw [List.getElem?_eq_getElem inside, eq_of_beq same]
        obtain ⟨member, decoded⟩ := known_of_getElem? small listed
        exact ⟨_, member, decoded, rfl⟩
      · simp [found, small] at h

theorem encode_of_getElem? {i : Nat} {name : String} (distinct : options.names.Nodup)
    (small : i < 256) (listed : options.names[i]? = some name) :
    options.encode (.index i) = .ok (UInt8.ofNat i) ∧
      options.encode (.value ⟨UInt8.ofNat i, name⟩) = .ok (UInt8.ofNat i) ∧
        options.encode (.name name) = .ok (UInt8.ofNat i) := by
  have inside := (List.getElem?_eq_some_iff.mp listed).1
  refine ⟨?_, ?_, ?_⟩
  · have bounds : (0 ≤ (i : Int) && (i : Int) < capacity && (i : Int) < options.names.length) =
        true := by
      have : capacity = 256 := rfl
      simp only [Bool.and_eq_true, decide_eq_true_eq]
      omega
    rw [encode, if_pos bounds, Int.toNat_natCast]
  · rw [encode, UInt8.toNat_ofNat_of_lt' small, if_pos listed]
  · have found := findIdx?_eq_some_of_nodup (distinct.sublist (List.take_sublist capacity _)) small
      listed
    simp only [encode, byName?, found, if_pos (show i < capacity from small)]

end Options

namespace Flags

theorem namesOf_subset {names : List String} {n : Nat} {name : String}
    (h : name ∈ namesOf names n) : name ∈ names := by
  induction names generalizing n with
  | nil => exact h
  | cons first rest ih =>
    rw [namesOf] at h
    split at h
    · rcases List.mem_cons.mp h with rfl | later
      · exact List.mem_cons_self
      · exact List.mem_cons_of_mem _ (ih later)
    · exact List.mem_cons_of_mem _ (ih h)

theorem bitsOf_cons {given names : List String} {name : String} (other : name ∉ names) :
    bitsOf (name :: given) names = bitsOf given names := by
  induction names with
  | nil => rfl
  | cons first rest ih =>
    obtain ⟨different, later⟩ : name ≠ first ∧ name ∉ rest := by simpa using other
    have apart : (first == name) = false := beq_false_of_ne (Ne.symm different)
    rw [bitsOf, bitsOf, ih later, List.contains_cons, apart, Bool.false_or]

theorem bitsOf_namesOf {names : List String} (distinct : names.Nodup) (k n : Nat) :
    bitsOf (namesOf names n) (names.take k) = n % twoTo (min k names.length) := by
  induction names generalizing k n with
  | nil => rw [List.take_nil, List.length_nil, Nat.min_zero]; exact (Nat.mod_one n).symm
  | cons first rest ih =>
    obtain ⟨fresh, others⟩ := List.nodup_cons.mp distinct
    cases k with
    | zero => rw [List.take_zero, Nat.zero_min]; exact (Nat.mod_one n).symm
    | succ k =>
      have absent : first ∉ rest.take k := fun inside => fresh (List.mem_of_mem_take inside)
      rw [List.take_succ_cons, List.length_cons, Nat.succ_min_succ, Number.twoTo_succ, Nat.mod_mul,
        ← ih others, bitsOf, namesOf]
      rcases Nat.mod_two_eq_zero_or_one n with even | odd
      · have unset : (namesOf rest (n / 2)).contains first = false := by
          rw [Bool.eq_false_iff]
          exact fun here => fresh (namesOf_subset (List.contains_iff_mem.mp here))
        rw [even, if_neg Nat.zero_ne_one, unset]
        rfl
      · have set : (first :: namesOf rest (n / 2)).contains first = true := by simp
        rw [odd, if_pos rfl, set, bitsOf_cons absent]
        rfl

private theorem namesOf_mod (names : List String) {k n : Nat} (small : n < twoTo k) :
    namesOf names (n % twoTo (min k names.length)) = namesOf names n := by
  induction names generalizing k n with
  | nil => rfl
  | cons first rest ih =>
    cases k with
    | zero =>
      have none : n = 0 := Nat.lt_one_iff.mp small
      rw [none, Nat.zero_mod]
    | succ k =>
      rw [Number.twoTo_succ] at small
      rw [List.length_cons, Nat.succ_min_succ, Number.twoTo_succ, namesOf, namesOf,
        Nat.mod_mul_right_mod, Nat.mod_mul_right_div_self, ih (by omega)]

private theorem bitsOf_cons_mod_two (given names : List String) (name : String) :
    bitsOf given (name :: names) % 2 = if given.contains name then 1 else 0 := by
  rw [bitsOf]
  split <;> omega

private theorem bitsOf_cons_div_two (given names : List String) (name : String) :
    bitsOf given (name :: names) / 2 = bitsOf given names := by
  rw [bitsOf]
  split <;> omega

theorem testBit_bitsOf (given names : List String) (i : Nat) :
    (bitsOf given names).testBit i = names[i]?.any given.contains := by
  induction names generalizing i with
  | nil => simp [bitsOf]
  | cons name rest ih =>
    cases i with
    | zero =>
      rw [Nat.testBit_zero, bitsOf_cons_mod_two, List.getElem?_cons_zero, Option.any_some]
      cases given.contains name <;> rfl
    | succ i => rw [Nat.testBit_succ, bitsOf_cons_div_two, ih, List.getElem?_cons_succ]

theorem namesOf_eq_filter (names : List String) (n : Nat) : namesOf names n =
    (names.zipIdx.filter fun flag => n.testBit flag.2).map (·.1) := by
  induction names generalizing n with
  | nil => rfl
  | cons name rest ih =>
    have later : ((rest.zipIdx 1).filter fun flag => n.testBit flag.2).map (·.1) =
        namesOf rest (n / 2) := by
      rw [ih, List.zipIdx_succ, List.filter_map, List.map_map]
      simp only [Function.comp_def, Nat.testBit_succ]
    rw [List.zipIdx_cons, List.filter_cons, namesOf, Nat.testBit_zero]
    simp only [decide_eq_true_eq]
    split
    · rw [List.map_cons, later]
    · rw [later]

private theorem namesOf_zero (names : List String) : namesOf names 0 = [] := by
  induction names with
  | nil => rfl
  | cons name rest ih => exact ih

theorem namesOf_bitsOf (given names : List String) (k : Nat) :
    namesOf names (bitsOf given (names.take k)) = (names.take k).filter given.contains := by
  induction names generalizing k with
  | nil => rw [List.take_nil, namesOf, List.filter_nil]
  | cons name rest ih =>
    cases k with
    | zero => exact namesOf_zero (name :: rest)
    | succ k =>
      rw [List.take_succ_cons, List.filter_cons, namesOf, bitsOf_cons_mod_two, bitsOf_cons_div_two,
        ih]
      cases given.contains name <;> rfl

private theorem bitsOf_lt (given names : List String) :
    bitsOf given names < twoTo names.length := by
  induction names with
  | nil => exact Nat.one_pos
  | cons name rest ih =>
    rw [bitsOf, List.length_cons, Number.twoTo_succ]
    split <;> omega

theorem toNat_encode (flags : Flags) (given : List String) :
    (flags.encode given).toNat = bitsOf given (flags.names.take 64) := by
  have bound := bitsOf_lt given (flags.names.take 64)
  have short : twoTo (flags.names.take 64).length ≤ twoTo 64 :=
    Nat.pow_le_pow_right (by decide) (List.length_take_le _ _)
  have size : UInt64.size = twoTo 64 := rfl
  exact UInt64.toNat_ofNat_of_lt' (by omega)

theorem decode_of_plain {flags : Flags} (plain : flags.defaultName = none) (n : UInt64) :
    flags.decode n = namesOf flags.names n.toNat := by
  rw [decode, plain]
  split <;> simp_all

theorem encode_decode {flags : Flags} (distinct : flags.names.Nodup)
    (plain : flags.defaultName = none) {n : UInt64} (small : n.toNat < 256) :
    (flags.encode (flags.decode n)).toNat < 256 ∧
      flags.decode (flags.encode (flags.decode n)) = flags.decode n := by
  have names (m : UInt64) : flags.decode m = namesOf flags.names m.toNat := decode_of_plain plain m
  have bits : (flags.encode (flags.decode n)).toNat =
      n.toNat % twoTo (min 64 flags.names.length) := by
    have below := Nat.mod_le n.toNat (twoTo (min 64 flags.names.length))
    rw [encode, names, bitsOf_namesOf distinct]
    exact UInt64.toNat_ofNat_of_lt' (by rw [UInt64.size]; omega)
  refine ⟨?_, ?_⟩
  · rw [bits]
    exact Nat.lt_of_le_of_lt (Nat.mod_le _ _) small
  · rw [names (flags.encode _), bits, names n]
    exact namesOf_mod flags.names n.toNat_lt

end Flags

end DeviceLink
