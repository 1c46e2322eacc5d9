import DeviceLink.Json.Lexeme
import DeviceLink.Json.Printer
import DeviceLink.Proofs.Number.Text
import Mathlib

/-!
The compact text of a value determines the value (`text_inj`). No text of an exact value starts with
another one that the grammar would let end there: a string ends at its first bare quote, an integer
where its digits end, and the first character of a text tells the kind of the value.
-/

set_option autoImplicit false
set_option relaxedAutoImplicit false

namespace DeviceLink.Json

/-! Strings: the reader takes back what the printer writes. -/

private theorem readStringFrom_unit {a b c d : Char} {n : Nat} (value : unit? a b c d = some n)
    (scalar : n < 0xD800) (done rest : List Char) :
    readStringFrom done ('\\' :: 'u' :: a :: b :: c :: d :: rest) =
      readStringFrom (Char.ofNat n :: done) rest := by
  have low : ¬0xD800 ≤ n := by omega
  have high : ¬0xDC00 ≤ n := by omega
  -- The reader looks ahead for a second unit, which matters only after a surrogate.
  by_cases pair : ∃ e f g h more, rest = '\\' :: 'u' :: e :: f :: g :: h :: more
  · obtain ⟨e, f, g, h, more, rfl⟩ := pair
    rw [readStringFrom, value]
    simp [low, high]
  · have single : ∀ e f g h more, rest = '\\' :: 'u' :: e :: f :: g :: h :: more → False :=
      fun e f g h more shape => pair ⟨e, f, g, h, more, shape⟩
    rw [readStringFrom, value]
    · simp [low]
    · exact single

private theorem readStringFrom_letter {c character : Char} (value : escape? c = some character)
    (done rest : List Char) :
    readStringFrom done ('\\' :: c :: rest) = readStringFrom (character :: done) rest := by
  have letter : c ≠ 'u' := by
    rintro rfl
    cases value
  rw [readStringFrom, value]
  · intro a b c d e f g h more same
    exact absurd same letter
  · intro a b c d more same
    exact absurd same letter

private theorem readStringFrom_bare {c : Char} (quote : c ≠ '"') (backslash : c ≠ '\\')
    (visible : 32 ≤ c.toNat) (done rest : List Char) :
    readStringFrom done (c :: rest) = readStringFrom (c :: done) rest := by
  rw [readStringFrom, if_neg (Nat.not_lt.mpr visible)]
  · exact quote
  · intro a b c d e f g h more same
    exact absurd same backslash
  · intro a b c d more same
    exact absurd same backslash
  · intro letter more same
    exact absurd same backslash

private theorem readStringFrom_control (n : Fin 32) (done rest : List Char) :
    readStringFrom done (escapedChar (Char.ofNat n) ++ rest) =
      readStringFrom (Char.ofNat n :: done) rest := by
  fin_cases n <;> first
    | exact readStringFrom_letter (by rfl) done rest
    | exact readStringFrom_unit (by rfl) (by decide) done rest

private theorem escapedChar_bare {c : Char} (quote : c ≠ '"') (backslash : c ≠ '\\')
    (visible : 32 ≤ c.toNat) : escapedChar c = [c] := by
  have codes : c.toNat ≠ 8 ∧ c.toNat ≠ 9 ∧ c.toNat ≠ 10 ∧ c.toNat ≠ 12 ∧ c.toNat ≠ 13 ∧
      ¬c.toNat < 16 ∧ ¬c.toNat < 32 := by omega
  simp [escapedChar, quote, backslash, codes]

private theorem readStringFrom_escapedChar (c : Char) (done rest : List Char) :
    readStringFrom done (escapedChar c ++ rest) = readStringFrom (c :: done) rest := by
  rcases Nat.lt_or_ge c.toNat 32 with below | visible
  · have code : Char.ofNat c.toNat = c := Char.ofNat_toNat c
    have read := readStringFrom_control ⟨c.toNat, below⟩ done rest
    rwa [code] at read
  · by_cases quote : c = '"'
    · subst quote
      exact readStringFrom_letter rfl done rest
    · by_cases backslash : c = '\\'
      · subst backslash
        exact readStringFrom_letter rfl done rest
      · rw [escapedChar_bare quote backslash visible]
        exact readStringFrom_bare quote backslash visible done rest

private theorem readStringFrom_escaped (cs done rest : List Char) :
    readStringFrom done (cs.flatMap escapedChar ++ '"' :: rest) =
      some (String.ofList (done.reverse ++ cs), rest) := by
  induction cs generalizing done with
  | nil =>
    rw [List.append_nil]
    exact readStringFrom.eq_1 done rest
  | cons c cs ih =>
    rw [List.flatMap_cons, List.append_assoc, readStringFrom_escapedChar, ih, List.reverse_cons,
      List.append_assoc, List.singleton_append]

private theorem stringChars_append_inj {s t : String} {rest rest' : List Char}
    (same : stringChars s ++ rest = stringChars t ++ rest') : s = t ∧ rest = rest' := by
  have inner : s.toList.flatMap escapedChar ++ '"' :: rest =
      t.toList.flatMap escapedChar ++ '"' :: rest' := by
    simpa [stringChars] using same
  have read := congrArg (readStringFrom []) inner
  rw [readStringFrom_escaped, readStringFrom_escaped] at read
  simpa using read

/-! Integers: the digits end where no digit follows. -/

/-- No digit at the front of a text. -/
def Stops (rest : List Char) : Prop :=
  rest.takeWhile Char.isDigit = []

private theorem stops_nil : Stops [] :=
  rfl

private theorem stops_cons {c : Char} (other : c.isDigit = false) (rest : List Char) :
    Stops (c :: rest) := by
  unfold Stops
  rw [List.takeWhile_cons, other]
  rfl

private theorem takeWhile_toDigits_append (n : Nat) {rest : List Char} (stops : Stops rest) :
    (Nat.toDigits 10 n ++ rest).takeWhile Char.isDigit = Nat.toDigits 10 n := by
  rw [List.takeWhile_append_of_pos fun c inside => Number.isDigit_of_mem_toDigits inside, stops,
    List.append_nil]

private theorem toDigits_append_inj {m n : Nat} {rest rest' : List Char} (stops : Stops rest)
    (stops' : Stops rest') (same : Nat.toDigits 10 m ++ rest = Nat.toDigits 10 n ++ rest') :
    m = n ∧ rest = rest' := by
  have digits : Nat.toDigits 10 m = Nat.toDigits 10 n := by
    rw [← takeWhile_toDigits_append m stops, same, takeWhile_toDigits_append n stops']
  have value : m = n := by
    rw [← Number.digitsValue_toDigits m, digits, Number.digitsValue_toDigits]
  rw [digits] at same
  exact ⟨value, List.append_cancel_left same⟩

private theorem exists_toDigits_eq_cons (n : Nat) :
    ∃ c more, Nat.toDigits 10 n = c :: more ∧ c.isDigit = true := by
  cases digits : Nat.toDigits 10 n with
  | nil => exact absurd digits Nat.toDigits_ne_nil
  | cons c more =>
    refine ⟨c, more, rfl, Number.isDigit_of_mem_toDigits (n := n) ?_⟩
    rw [digits]
    exact List.mem_cons_self

private theorem minus_ne_toDigits {cs : List Char} {n : Nat} (rest : List Char) :
    '-' :: cs ≠ Nat.toDigits 10 n ++ rest := by
  intro same
  obtain ⟨c, more, digits, digit⟩ := exists_toDigits_eq_cons n
  rw [digits, List.cons_append, List.cons.injEq] at same
  rw [← same.1] at digit
  exact absurd digit (by decide)

private theorem integerChars_append_inj {m n : Int} {rest rest' : List Char} (stops : Stops rest)
    (stops' : Stops rest') (same : integerChars m ++ rest = integerChars n ++ rest') :
    m = n ∧ rest = rest' := by
  unfold integerChars at same
  split at same <;> split at same
  · obtain ⟨size, after⟩ := toDigits_append_inj stops stops' (List.cons.inj same).2
    exact ⟨by omega, after⟩
  · exact absurd same (minus_ne_toDigits _)
  · exact absurd same.symm (minus_ne_toDigits _)
  · obtain ⟨size, after⟩ := toDigits_append_inj stops stops' same
    exact ⟨by omega, after⟩

/-! Values: the first character tells the kind. -/

mutual

/-- A value without numbers other than integers, whose objects have one member for each key. -/
def Exact : Json → Prop
  | real _ => False
  | array items => ExactItems items
  | object members => (members.map (·.1)).Nodup ∧ ExactMembers members
  | null | bool _ | integer _ | string _ => True

def ExactItems : List Json → Prop
  | [] => True
  | item :: rest => Exact item ∧ ExactItems rest

def ExactMembers : Members → Prop
  | [] => True
  | (_, value) :: rest => Exact value ∧ ExactMembers rest

end

inductive Kind where
  | null | truth | number | text | array | object

def kind : Json → Kind
  | null => .null
  | bool _ => .truth
  | integer _ | real _ => .number
  | string _ => .text
  | array _ => .array
  | object _ => .object

def kindOf? (c : Char) : Option Kind :=
  if c = 'n' then some .null
  else if c = 't' ∨ c = 'f' then some .truth
  else if c = '-' ∨ c.isDigit then some .number
  else if c = '"' then some .text
  else if c = '[' then some .array
  else if c = '\x7b' then some .object
  else none

private theorem kindOf?_digit {c : Char} (digit : c.isDigit = true) : kindOf? c = some .number := by
  have letters : c ≠ 'n' ∧ c ≠ 't' ∧ c ≠ 'f' := by
    refine ⟨?_, ?_, ?_⟩ <;> rintro rfl <;> exact absurd digit (by decide)
  simp [kindOf?, letters, digit]

private theorem exists_chars_eq_cons {value : Json} (exact : value.Exact) :
    ∃ c more, value.chars = c :: more ∧ kindOf? c = some value.kind := by
  cases value with
  | null => exact ⟨_, _, rfl, rfl⟩
  | bool b => cases b <;> exact ⟨_, _, rfl, rfl⟩
  | integer n =>
    obtain ⟨c, more, digits, digit⟩ := exists_toDigits_eq_cons n.natAbs
    rw [chars, integerChars, digits]
    split
    · exact ⟨_, _, rfl, rfl⟩
    · exact ⟨_, _, rfl, kindOf?_digit digit⟩
  | real x => exact absurd exact (by simp [Exact])
  | string s => exact ⟨_, _, rfl, rfl⟩
  | array items => cases items <;> exact ⟨_, _, rfl, rfl⟩
  | object members => cases members <;> exact ⟨_, _, rfl, rfl⟩

private theorem kind_eq_of_chars_append {a b : Json} (ha : a.Exact) (hb : b.Exact)
    {rest rest' : List Char} (same : a.chars ++ rest = b.chars ++ rest') : a.kind = b.kind := by
  obtain ⟨c, front, shape, opens⟩ := exists_chars_eq_cons ha
  obtain ⟨c', front', shape', opens'⟩ := exists_chars_eq_cons hb
  rw [shape, shape', List.cons_append, List.cons_append, List.cons.injEq] at same
  rw [← same.1] at opens'
  exact Option.some.inj (opens.symm.trans opens')

private theorem bracket_ne_chars {value : Json} (exact : value.Exact) (more rest : List Char) :
    ']' :: rest ≠ value.chars ++ more := by
  intro same
  obtain ⟨c, front, shape, opens⟩ := exists_chars_eq_cons exact
  rw [shape, List.cons_append, List.cons.injEq] at same
  rw [← same.1] at opens
  exact absurd opens (by simp [kindOf?])

private theorem stops_itemsChars (items : List Json) (rest : List Char) :
    Stops (itemsChars items ++ rest) := by
  cases items with
  | nil => exact stops_cons rfl _
  | cons item items => exact stops_cons rfl _

private theorem stops_membersChars (members : Members) (rest : List Char) :
    Stops (membersChars members ++ rest) := by
  cases members with
  | nil => exact stops_cons rfl _
  | cons member members => exact stops_cons rfl _

mutual

private theorem chars_append_inj {a b : Json} (ha : a.Exact) (hb : b.Exact) {rest rest' : List Char}
    (stops : Stops rest) (stops' : Stops rest') (same : a.chars ++ rest = b.chars ++ rest') :
    a = b ∧ rest = rest' := by
  have kinds := kind_eq_of_chars_append ha hb same
  cases a with
  | null =>
    cases b <;> cases kinds
    exact ⟨rfl, List.append_cancel_left same⟩
  | bool p =>
    cases b <;> cases kinds
    rename_i q
    cases p <;> cases q <;> simp [chars] at same
    all_goals exact ⟨rfl, same⟩
  | integer m =>
    cases b <;> cases kinds
    · obtain ⟨rfl, after⟩ := integerChars_append_inj stops stops' same
      exact ⟨rfl, after⟩
    · exact absurd hb (by simp [Exact])
  | real x => exact absurd ha (by simp [Exact])
  | string s =>
    cases b <;> cases kinds
    obtain ⟨rfl, after⟩ := stringChars_append_inj same
    exact ⟨rfl, after⟩
  | array xs =>
    cases b <;> cases kinds
    rename_i ys
    cases xs with
    | nil =>
      cases ys with
      | nil => exact ⟨rfl, List.append_cancel_left same⟩
      | cons y ys =>
        have closed : ']' :: rest = y.chars ++ (itemsChars ys ++ rest') := by
          simpa [chars] using same
        exact absurd closed (bracket_ne_chars hb.1 _ _)
    | cons x xs =>
      cases ys with
      | nil =>
        have closed : ']' :: rest' = x.chars ++ (itemsChars xs ++ rest) := by
          simpa [chars] using same.symm
        exact absurd closed (bracket_ne_chars ha.1 _ _)
      | cons y ys =>
        have items : itemsChars (x :: xs) ++ rest = itemsChars (y :: ys) ++ rest' :=
          congrArg (',' :: ·) (List.cons.inj same).2
        obtain ⟨equal, after⟩ := itemsChars_append_inj ha hb items
        exact ⟨congrArg array equal, after⟩
  | object ms =>
    cases b <;> cases kinds
    rename_i ns
    cases ms with
    | nil =>
      cases ns with
      | nil => exact ⟨rfl, List.append_cancel_left same⟩
      | cons n ns => cases same
    | cons m ms =>
      cases ns with
      | nil => cases same
      | cons n ns =>
        have members : membersChars (m :: ms) ++ rest = membersChars (n :: ns) ++ rest' :=
          congrArg (',' :: ·) (List.cons.inj same).2
        obtain ⟨equal, after⟩ := membersChars_append_inj ha.2 hb.2 members
        exact ⟨congrArg object equal, after⟩

private theorem itemsChars_append_inj {xs ys : List Json} (hxs : ExactItems xs)
    (hys : ExactItems ys) {rest rest' : List Char}
    (same : itemsChars xs ++ rest = itemsChars ys ++ rest') :
    xs = ys ∧ rest = rest' := by
  cases xs with
  | nil =>
    cases ys with
    | nil => exact ⟨rfl, List.append_cancel_left same⟩
    | cons y ys => cases same
  | cons x xs =>
    cases ys with
    | nil => cases same
    | cons y ys =>
      have first : x.chars ++ (itemsChars xs ++ rest) = y.chars ++ (itemsChars ys ++ rest') := by
        simpa [itemsChars] using same
      obtain ⟨rfl, others⟩ := chars_append_inj hxs.1 hys.1 (stops_itemsChars xs rest)
        (stops_itemsChars ys rest') first
      obtain ⟨rfl, after⟩ := itemsChars_append_inj hxs.2 hys.2 others
      exact ⟨rfl, after⟩

private theorem membersChars_append_inj {ms ns : Members} (hms : ExactMembers ms)
    (hns : ExactMembers ns) {rest rest' : List Char}
    (same : membersChars ms ++ rest = membersChars ns ++ rest') :
    ms = ns ∧ rest = rest' := by
  cases ms with
  | nil =>
    cases ns with
    | nil => exact ⟨rfl, List.append_cancel_left same⟩
    | cons n ns => cases same
  | cons m ms =>
    cases ns with
    | nil => cases same
    | cons n ns =>
      obtain ⟨key, value⟩ := m
      obtain ⟨key', value'⟩ := n
      have first : stringChars key ++ ':' :: (value.chars ++ (membersChars ms ++ rest)) =
          stringChars key' ++ ':' :: (value'.chars ++ (membersChars ns ++ rest')) := by
        simpa [membersChars] using same
      obtain ⟨rfl, second⟩ := stringChars_append_inj first
      obtain ⟨rfl, others⟩ := chars_append_inj hms.1 hns.1 (stops_membersChars ms rest)
        (stops_membersChars ns rest') (List.cons.inj second).2
      obtain ⟨rfl, after⟩ := membersChars_append_inj hms.2 hns.2 others
      exact ⟨rfl, after⟩

end

theorem text_inj {a b : Json} (ha : a.Exact) (hb : b.Exact) : a.text = b.text ↔ a = b := by
  constructor
  · intro same
    have equal : a.chars ++ [] = b.chars ++ [] := congrArg (· ++ []) (String.ofList_inj.mp same)
    exact (chars_append_inj ha hb stops_nil stops_nil equal).1
  · rintro rfl
    rfl

end DeviceLink.Json
