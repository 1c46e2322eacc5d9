import DeviceLink.Proofs.Wire.Integers

/-!
Payloads of several values. Each value stands behind the ones before it, in as many bytes as its
type has, and the first value that has no payload stops all of them. Where every type is one of
whole numbers or truth values, a payload stands for what its values are read as, and for nothing
else (`positional_payload`).
-/

set_option autoImplicit false
set_option relaxedAutoImplicit false

namespace DeviceLink.Wire

variable {t : DataType} {value other held : Scalar} {payload piece : Payload}
  {values others : List (DataType × Scalar)} {e : Error}

/-! Success and failure. -/

private theorem exists_encodeAll_iff : (∃ payload, encodeAll values = .ok payload) ↔
    ∀ entry ∈ values, ∃ piece, encode entry.1 entry.2 = .ok piece := by
  induction values with
  | nil => simp [encodeAll]
  | cons first rest ih =>
    obtain ⟨t, value⟩ := first
    rw [List.forall_mem_cons, ← ih]
    simp only [encodeAll_cons_eq_ok_iff]
    constructor
    · rintro ⟨payload, piece, more, here, others, -⟩
      exact ⟨⟨piece, here⟩, more, others⟩
    · rintro ⟨⟨piece, here⟩, more, others⟩
      exact ⟨_, piece, more, here, others, rfl⟩

/-- A value without a payload behind values that have one each. -/
def FirstFailure (values : List (DataType × Scalar)) (e : Error) : Prop :=
  ∃ before t value after, values = before ++ (t, value) :: after ∧
    (∀ entry ∈ before, ∃ piece, encode entry.1 entry.2 = .ok piece) ∧ encode t value = .error e

private theorem firstFailure_cons_iff : FirstFailure ((t, value) :: values) e ↔
    encode t value = .error e ∨
      (∃ piece, encode t value = .ok piece) ∧ FirstFailure values e := by
  constructor
  · rintro ⟨before, t', value', after, same, sent, failed⟩
    cases before with
    | nil =>
      obtain ⟨entry, -⟩ := List.cons.inj same
      obtain ⟨rfl, rfl⟩ := Prod.mk.inj entry
      exact Or.inl failed
    | cons first before =>
      obtain ⟨rfl, rest⟩ := List.cons.inj same
      obtain ⟨here, sent⟩ := List.forall_mem_cons.mp sent
      exact Or.inr ⟨here, before, t', value', after, rest, sent, failed⟩
  · rintro (failed | ⟨here, before, t', value', after, rfl, sent, failed⟩)
    · exact ⟨[], t, value, values, rfl, by simp, failed⟩
    · exact ⟨(t, value) :: before, t', value', after, rfl,
        List.forall_mem_cons.mpr ⟨here, sent⟩, failed⟩

private theorem encodeAll_eq_error_iff : encodeAll values = .error e ↔ FirstFailure values e := by
  induction values with
  | nil => simp [encodeAll, FirstFailure]
  | cons first rest ih => rw [encodeAll_cons_eq_error_iff, firstFailure_cons_iff, ih]

/-! Places. -/

/-- Where the value with an index starts, which is also the length of the values before it. -/
def offset (values : List (DataType × Scalar)) (k : Nat) : Nat :=
  ((values.take k).map fun entry => width entry.1).sum

private theorem encode_of_slice (fixed : ∀ entry ∈ values, entry.1.isFixedWidth = true)
    (sent : encodeAll values = .ok payload) {k : Nat} (found : values[k]? = some (t, value)) :
    encode t value = .ok ((payload.drop (offset values k)).take (width t)) := by
  obtain ⟨before, piece, after, rfl, here, earlier⟩ := encodeAll_split sent found
  have start : before.length = offset values k := by
    apply length_encodeAll _ earlier
    intro entry inside
    exact fixed entry (List.mem_of_mem_take inside)
  have size : piece.length = width t :=
    length_encode (fixed _ (List.mem_of_getElem? found)) here
  rw [← start, ← size, List.append_assoc, List.drop_left, List.take_left, here]

/-! Whole numbers and truth values. -/

/-- What is read where a value was sent: the whole number that it counts as, or for a truth value
whether that number is another one than zero. -/
inductive ReadAs (t : DataType) (value : Scalar) : Scalar → Prop
  | whole {n : Int} : t.isInteger = true → (Value.scalar value).Counts n → Fits t n →
      ReadAs t value (integerScalar t n)
  | truth {n : Int} : t = .bool → (Value.scalar value).Counts n →
      ReadAs t value (.bool (decide (n ≠ 0)))

private theorem encode_bool_of_counts {n : Int} (counts : (Value.scalar value).Counts n) :
    encode .bool value = .ok [if n = 0 then 0 else 1] := by
  have taken := integerOf_of_counts counts .bool
  cases value with
  | bool b =>
    cases counts
    cases b <;> rfl
  | text s => cases counts
  | unsigned | signed | real =>
    rw [encode, taken, Except.map]
    · simp only [clampWide_eq_zero_iff]
    · simp

private theorem counts_of_encode_bool (sent : encode .bool value = .ok piece) :
    ∃ n, (Value.scalar value).Counts n := by
  have textless : ∀ s, value ≠ .text s := by
    rintro s rfl
    simp [encode, integerOf, Except.map] at sent
  rcases counts_or_real textless with counts | ⟨x, rfl, fractional⟩
  · exact counts
  · simp [encode, integerOf, fractional, Except.map] at sent

private theorem exists_encode_of_readAs (read : ReadAs t value held) :
    ∃ piece, encode t value = .ok piece ∧ encode t held = .ok piece ∧
      decode t piece = .ok held := by
  cases read with
  | @whole n integer counts fits =>
    refine ⟨integerBytes (width t) n, ?_, ?_, ?_⟩
    · rw [encode_of_isInteger integer, encodeInteger_of_counts integer counts, if_pos fits]
    · exact encode_integerScalar integer fits.1 fits.2
    · exact decode_integerBytes integer fits.1 fits.2
  | @truth n bool counts =>
    subst bool
    refine ⟨_, encode_bool_of_counts counts, ?_, ?_⟩
    · by_cases zero : n = 0 <;> simp [encode, zero]
    · by_cases zero : n = 0 <;> simp [zero] <;> rfl

private theorem exists_readAs_of_encode (plain : t.isInteger = true ∨ t = .bool)
    (sent : encode t value = .ok piece) : ∃ held, ReadAs t value held := by
  rcases plain with integer | rfl
  · have encoding := encoding_of_isInteger integer value
    rw [sent] at encoding
    cases encoding with
    | fits n counts fits => exact ⟨_, .whole integer counts fits⟩
  · obtain ⟨n, counts⟩ := counts_of_encode_bool sent
    exact ⟨_, .truth rfl counts⟩

private theorem readAs_iff (plain : t.isInteger = true ∨ t = .bool) : ReadAs t value held ↔
    ∃ piece, encode t value = .ok piece ∧ decode t piece = .ok held := by
  constructor
  · intro read
    obtain ⟨piece, sent, -, decoded⟩ := exists_encode_of_readAs read
    exact ⟨piece, sent, decoded⟩
  · rintro ⟨piece, sent, decoded⟩
    obtain ⟨held', read⟩ := exists_readAs_of_encode plain sent
    obtain ⟨piece', sent', -, decoded'⟩ := exists_encode_of_readAs read
    obtain rfl := Except.ok.inj (sent.symm.trans sent')
    obtain rfl := Except.ok.inj (decoded.symm.trans decoded')
    exact read

private theorem exists_common_piece_iff (plain : t.isInteger = true ∨ t = .bool) :
    (∃ piece, encode t value = .ok piece ∧ encode t other = .ok piece) ↔
      ∃ held, ReadAs t value held ∧ ReadAs t other held := by
  constructor
  · rintro ⟨piece, sent, sent'⟩
    obtain ⟨held, read⟩ := exists_readAs_of_encode plain sent
    obtain ⟨piece', again, -, decoded⟩ := exists_encode_of_readAs read
    obtain rfl := Except.ok.inj (sent.symm.trans again)
    exact ⟨held, read, (readAs_iff plain).mpr ⟨piece, sent', decoded⟩⟩
  · rintro ⟨held, read, read'⟩
    obtain ⟨piece, sent, again, -⟩ := exists_encode_of_readAs read
    obtain ⟨piece', sent', again', -⟩ := exists_encode_of_readAs read'
    obtain rfl := Except.ok.inj (again.symm.trans again')
    exact ⟨piece, sent, sent'⟩

private theorem isFixedWidth_of_plain (plain : t.isInteger = true ∨ t = .bool) :
    t.isFixedWidth = true := by
  rcases plain with integer | rfl
  · exact isFixedWidth_of_isInteger integer
  · rfl

private theorem exists_common_payload_iff
    (plain : ∀ entry ∈ values, entry.1.isInteger = true ∨ entry.1 = .bool)
    (signature : others.map Prod.fst = values.map Prod.fst) :
    (∃ payload, encodeAll values = .ok payload ∧ encodeAll others = .ok payload) ↔
      List.Forall₂ (fun a b => ∃ held, ReadAs a.1 a.2 held ∧ ReadAs b.1 b.2 held)
        values others := by
  induction values generalizing others with
  | nil =>
    obtain rfl := List.map_eq_nil_iff.mp signature
    simp [encodeAll]
  | cons first rest ih =>
    obtain ⟨⟨t, other⟩, others, rfl, rfl, types⟩ := List.map_eq_cons_iff.mp signature
    obtain ⟨t, value⟩ := first
    obtain ⟨here, plain⟩ := List.forall_mem_cons.mp plain
    have fixed := isFixedWidth_of_plain here
    rw [List.forall₂_cons, ← ih plain types, ← exists_common_piece_iff here]
    simp only [encodeAll_cons_eq_ok_iff]
    constructor
    · rintro ⟨payload, ⟨piece, more, sent, rest, rfl⟩, piece', more', sent', rest', same⟩
      -- The first pieces are as long as their type, so the payloads are cut at one place.
      have size : piece.length = piece'.length := by
        rw [length_encode fixed sent, length_encode fixed sent']
      obtain ⟨rfl, rfl⟩ := List.append_inj same size
      exact ⟨⟨piece, sent, sent'⟩, more, rest, rest'⟩
    · rintro ⟨⟨piece, sent, sent'⟩, more, rest, rest'⟩
      exact ⟨_, ⟨piece, more, sent, rest, rfl⟩, piece, more, sent', rest', rfl⟩

/-- Values of fixed width are sent one behind the other. They have a payload when each of them has
one, and else the failure of the first that has none. In the payload, whose length is the sum of the
sizes, each value is found where the sizes of the earlier ones end. For whole numbers and truth
values, two lists with the same types have one payload exactly if they are decoded alike, which is
to say that they hold the same numbers and truth values. -/
theorem positional_payload (fixed : ∀ entry ∈ values, entry.1.isFixedWidth = true) :
    ((∃ payload, encodeAll values = .ok payload) ↔
      ∀ entry ∈ values, ∃ piece, encode entry.1 entry.2 = .ok piece) ∧
    (∀ e, encodeAll values = .error e ↔ FirstFailure values e) ∧
    (∀ payload, encodeAll values = .ok payload → payload.length = offset values values.length ∧
      ∀ k t value, values[k]? = some (t, value) →
        encode t value = .ok ((payload.drop (offset values k)).take (width t))) ∧
    ((∀ entry ∈ values, entry.1.isInteger = true ∨ entry.1 = .bool) →
      (∀ entry ∈ values, ∀ held, ReadAs entry.1 entry.2 held ↔
        ∃ piece, encode entry.1 entry.2 = .ok piece ∧ decode entry.1 piece = .ok held) ∧
      ∀ others, others.map Prod.fst = values.map Prod.fst →
        ((∃ payload, encodeAll values = .ok payload ∧ encodeAll others = .ok payload) ↔
          List.Forall₂ (fun a b => ∃ held, ReadAs a.1 a.2 held ∧ ReadAs b.1 b.2 held)
            values others)) := by
  refine ⟨exists_encodeAll_iff, fun e => encodeAll_eq_error_iff, ?_, ?_⟩
  · intro payload sent
    constructor
    · rw [offset, List.take_length]
      exact length_encodeAll fixed sent
    · intro k t value found
      exact encode_of_slice fixed sent found
  · intro plain
    constructor
    · intro entry inside held
      exact readAs_iff (plain entry inside)
    · intro others signature
      exact exists_common_payload_iff plain signature

/-- The number 1 in two forms, and two numbers that are not zero, are sent alike. -/
theorem positional_payload_mixed_forms :
    (∀ entry ∈ [(DataType.int16, Scalar.signed 1), (.bool, .unsigned 7)],
      entry.1.isFixedWidth = true) ∧
    ∃ payload,
      encodeAll [(DataType.int16, Scalar.signed 1), (.bool, .unsigned 7)] = .ok payload ∧
      encodeAll [(DataType.int16, Scalar.bool true), (.bool, .signed (-1))] = .ok payload := by
  have fixed : ∀ entry ∈ [(DataType.int16, Scalar.signed 1), (.bool, .unsigned 7)],
      entry.1.isFixedWidth = true := by decide
  have plain : ∀ entry ∈ [(DataType.int16, Scalar.signed 1), (.bool, .unsigned 7)],
      entry.1.isInteger = true ∨ entry.1 = .bool := by decide
  obtain ⟨-, -, -, common⟩ := positional_payload fixed
  refine ⟨fixed, ((common plain).2 [(.int16, .bool true), (.bool, .signed (-1))] rfl).mpr ?_⟩
  refine .cons ?_ (.cons ?_ .nil)
  · exact ⟨.signed 1, .whole (n := 1) rfl (.signed 1) (by decide),
      .whole (n := 1) rfl (.bool true) (by decide)⟩
  · exact ⟨.bool true, .truth (n := 7) rfl (.unsigned 7), .truth (n := -1) rfl (.signed (-1))⟩

end DeviceLink.Wire
