import DeviceLink.Number.Numeral
import DeviceLink.Proofs.Text.Blanks
import Mathlib

/-!
The texts that denote numbers. A literal is a numeral or a name with an optional sign; a numeral has
digits, with a point before, between or behind them, and an optional exponent. Exactly the literals
are read (`read_eq_some_iff`). None of them holds a blank, and a numeral and a name never start
alike.
-/

set_option autoImplicit false
set_option relaxedAutoImplicit false

namespace DeviceLink

namespace Number

/-! The grammar. -/

def Digits (cs : List Char) : Prop :=
  cs ≠ [] ∧ ∀ c ∈ cs, c.isDigit = true

/-- An optional sign, and whether it is negative. -/
inductive Sign : List Char → Bool → Prop
  | none : Sign [] false
  | plus : Sign ['+'] false
  | minus : Sign ['-'] true

/-- An optional exponent part and its value. -/
inductive Exponent : List Char → Int → Prop
  | none : Exponent [] 0
  | some {e : Char} {sign ds : List Char} {negative : Bool} : e = 'e' ∨ e = 'E' →
      Sign sign negative → Digits ds →
      Exponent (e :: (sign ++ ds)) (if negative then -digitsValue 0 ds else digitsValue 0 ds)

/-- A numeral without a sign and the decimal that it denotes. -/
inductive Numeral : List Char → Decimal → Prop
  | whole {ds es : List Char} {n : Int} : Digits ds → Exponent es n →
      Numeral (ds ++ es) ⟨digitsValue 0 ds, n⟩
  | point {ds fs es : List Char} {n : Int} : Digits (ds ++ fs) → Exponent es n →
      Numeral (ds ++ '.' :: (fs ++ es)) ⟨digitsValue 0 (ds ++ fs), n - fs.length⟩

/-- A name of infinity or of no number, in letters of any case. -/
inductive Named (negative : Bool) : List Char → Binary64 → Prop
  | infinity {cs : List Char} : cs.map Char.toLower = "inf".toList ∨
      cs.map Char.toLower = "infinity".toList → Named negative cs (.infinite negative)
  | nan {cs : List Char} : cs.map Char.toLower = "nan".toList → Named negative cs .nan

/-- A numeral or a name with an optional sign, and the number that it denotes. -/
inductive Literal : List Char → Binary64 → Prop
  | numeral {sign cs : List Char} {negative : Bool} {d : Decimal} : Sign sign negative →
      Numeral cs d → Literal (sign ++ cs) (.ofDecimal negative d)
  | name {sign cs : List Char} {negative : Bool} {x : Binary64} : Sign sign negative →
      Named negative cs x → Literal (sign ++ cs) x

variable {c : Char} {cs ds fs es sign : List Char} {negative : Bool} {n : Int} {d : Decimal}
  {x : Binary64}

theorem Numeral.digits (digits : Digits ds) : Numeral ds ⟨digitsValue 0 ds, 0⟩ := by
  have numeral := Numeral.whole digits .none
  rwa [List.append_nil] at numeral

theorem Numeral.fraction (digits : Digits (ds ++ fs)) :
    Numeral (ds ++ '.' :: fs) ⟨digitsValue 0 (ds ++ fs), -fs.length⟩ := by
  have numeral := Numeral.point digits .none
  rwa [List.append_nil, Int.zero_sub] at numeral

/-! First characters. -/

theorem exists_cons_of_digits (digits : Digits cs) :
    ∃ c rest, cs = c :: rest ∧ c.isDigit = true := by
  obtain ⟨filled, all⟩ := digits
  obtain ⟨c, rest, rfl⟩ := List.exists_cons_of_ne_nil filled
  exact ⟨c, rest, rfl, all c List.mem_cons_self⟩

def startsNumeral (c : Char) : Bool :=
  c.isDigit || c == '.'

private theorem startsNumeral_of_isDigit (digit : c.isDigit = true) : startsNumeral c = true := by
  rw [startsNumeral, digit, Bool.true_or]

private theorem Numeral.exists_cons (numeral : Numeral cs d) :
    ∃ c rest, cs = c :: rest ∧ startsNumeral c = true := by
  cases numeral with
  | whole digits _ =>
    obtain ⟨c, rest, rfl, digit⟩ := exists_cons_of_digits digits
    exact ⟨c, _, rfl, startsNumeral_of_isDigit digit⟩
  | @point ds fs es n digits _ =>
    cases ds with
    | nil => exact ⟨'.', _, rfl, by decide⟩
    | cons c rest =>
      exact ⟨c, _, rfl, startsNumeral_of_isDigit (digits.2 c List.mem_cons_self)⟩

private theorem toLower_of_isDigit (digit : c.isDigit = true) : c.toLower = c := by
  simp only [Char.isDigit, Bool.and_eq_true, decide_eq_true_eq] at digit
  rw [Char.toLower, dif_neg]
  rintro ⟨above, -⟩
  have order : 'A'.val ≤ '9'.val := UInt32.le_trans above digit.2
  exact absurd order (by decide)

private theorem toLower_of_startsNumeral (starts : startsNumeral c = true) : c.toLower = c := by
  rw [startsNumeral, Bool.or_eq_true, beq_iff_eq] at starts
  rcases starts with digit | rfl
  · exact toLower_of_isDigit digit
  · decide

private theorem Named.exists_cons (named : Named negative cs x) :
    ∃ c rest, cs = c :: rest ∧ (c.toLower = 'i' ∨ c.toLower = 'n') := by
  have first {name : List Char} (same : cs.map Char.toLower = name) (filled : name ≠ []) :
      ∃ c rest, cs = c :: rest ∧ some c.toLower = name.head? := by
    subst same
    obtain ⟨c, rest, rfl⟩ := List.exists_cons_of_ne_nil (List.map_eq_nil_iff.not.mp filled)
    exact ⟨c, rest, rfl, rfl⟩
  cases named with
  | infinity same =>
    rcases same with same | same
    · obtain ⟨c, rest, rfl, head⟩ := first same (by decide)
      exact ⟨c, rest, rfl, Or.inl (Option.some.inj head)⟩
    · obtain ⟨c, rest, rfl, head⟩ := first same (by decide)
      exact ⟨c, rest, rfl, Or.inl (Option.some.inj head)⟩
  | nan same =>
    obtain ⟨c, rest, rfl, head⟩ := first same (by decide)
    exact ⟨c, rest, rfl, Or.inr (Option.some.inj head)⟩

private theorem startsNumeral_of_letter (letter : c.toLower = 'i' ∨ c.toLower = 'n') :
    startsNumeral c = false := by
  apply Bool.eq_false_of_not_eq_true
  intro starts
  rw [toLower_of_startsNumeral starts] at letter
  rcases letter with rfl | rfl <;> exact absurd starts (by decide)

private theorem Named.not_numeral (named : Named negative cs x) : ¬ Numeral cs d := by
  intro numeral
  obtain ⟨c, rest, rfl, letter⟩ := named.exists_cons
  obtain ⟨c', rest', same, starts⟩ := numeral.exists_cons
  obtain ⟨rfl, -⟩ := List.cons.inj same
  rw [startsNumeral_of_letter letter] at starts
  cases starts

def isUnsigned (c : Char) : Bool :=
  c != '+' && c != '-'

private theorem isUnsigned_of_startsNumeral (starts : startsNumeral c = true) :
    isUnsigned c = true := by
  apply Bool.eq_true_of_not_eq_false
  intro signed
  simp only [isUnsigned, Bool.and_eq_false_iff, bne_eq_false_iff_eq] at signed
  rcases signed with rfl | rfl <;> exact absurd starts (by decide)

private theorem isUnsigned_of_letter (letter : c.toLower = 'i' ∨ c.toLower = 'n') :
    isUnsigned c = true := by
  apply Bool.eq_true_of_not_eq_false
  intro signed
  simp only [isUnsigned, Bool.and_eq_false_iff, bne_eq_false_iff_eq] at signed
  rcases signed with rfl | rfl <;> exact absurd letter (by decide)

private theorem exists_sign (cs : List Char) : ∃ sign negative rest, cs = sign ++ rest ∧
    Sign sign negative ∧ (sign = [] → ∀ c ∈ rest.head?, isUnsigned c = true) := by
  cases cs with
  | nil => exact ⟨[], false, [], rfl, .none, by simp⟩
  | cons c rest =>
    by_cases plus : c = '+'
    · subst plus
      exact ⟨['+'], false, rest, rfl, .plus, by simp⟩
    · by_cases minus : c = '-'
      · subst minus
        exact ⟨['-'], true, rest, rfl, .minus, by simp⟩
      · refine ⟨[], false, c :: rest, rfl, .none, ?_⟩
        simp [isUnsigned, plus, minus]

/-! Reading. -/

theorem readDigits_eq_some_iff {k : Nat} :
    readDigits cs = some k ↔ Digits cs ∧ digitsValue 0 cs = k := by
  simp [readDigits, Digits]

private theorem readInt_sign (signed : Sign sign negative)
    (unsigned : sign = [] → ∀ c ∈ cs.head?, isUnsigned c = true) : readInt (sign ++ cs) =
      (readDigits cs).map fun k : Nat => if negative then -(k : Int) else k := by
  cases signed with
  | plus | minus => rfl
  | none =>
    rw [List.nil_append, readInt.eq_def]
    split
    · exact absurd (unsigned rfl '+' rfl) (by decide)
    · exact absurd (unsigned rfl '-' rfl) (by decide)
    · rfl

theorem readInt_eq_some_iff : readInt cs = some n ↔ ∃ sign negative ds, cs = sign ++ ds ∧
    Sign sign negative ∧ Digits ds ∧
      (if negative then -(digitsValue 0 ds : Int) else digitsValue 0 ds) = n := by
  constructor
  · intro read
    obtain ⟨sign, negative, rest, rfl, signed, unsigned⟩ := exists_sign cs
    rw [readInt_sign signed unsigned, Option.map_eq_some_iff] at read
    obtain ⟨k, digits, rfl⟩ := read
    obtain ⟨all, rfl⟩ := readDigits_eq_some_iff.mp digits
    exact ⟨sign, negative, rest, rfl, signed, all, rfl⟩
  · rintro ⟨sign, negative, ds, rfl, signed, digits, rfl⟩
    obtain ⟨c, rest, rfl, digit⟩ := exists_cons_of_digits digits
    rw [readInt_sign signed, readDigits_eq_some_iff.mpr ⟨digits, rfl⟩]
    · rfl
    · rintro - c' ⟨⟩
      exact isUnsigned_of_startsNumeral (startsNumeral_of_isDigit digit)

namespace Binary64

private theorem readExponent_eq_some_iff : readExponent cs = some n ↔ Exponent cs n := by
  cases cs with
  | nil =>
    constructor
    · intro read
      obtain rfl := Option.some.inj read
      exact .none
    · rintro ⟨⟩
      rfl
  | cons e rest =>
    have letter : (e == 'e' || e == 'E') = true ↔ e = 'e' ∨ e = 'E' := by simp
    constructor
    · intro read
      rw [readExponent] at read
      split at read
      · rename_i mark
        obtain ⟨sign, negative, ds, rfl, signed, digits, rfl⟩ := readInt_eq_some_iff.mp read
        exact .some (letter.mp mark) signed digits
      · cases read
    · intro exponent
      cases exponent with
      | some mark signed digits =>
        rw [readExponent, if_pos (letter.mpr mark)]
        exact readInt_eq_some_iff.mpr ⟨_, _, _, rfl, signed, digits, rfl⟩

private theorem startsNumeral_of_exponent (exponent : Exponent es n) (inside : c ∈ es.head?) :
    startsNumeral c = false := by
  cases exponent with
  | none => cases inside
  | some mark _ _ =>
    obtain rfl := Option.some.inj inside
    rcases mark with rfl | rfl <;> decide

private theorem isDigit_of_exponent (exponent : Exponent es n) :
    ∀ c ∈ es.head?, c.isDigit = false := by
  intro c inside
  exact (Bool.or_eq_false_iff.mp (startsNumeral_of_exponent exponent inside)).1

private theorem digits_append (digits : ∀ c ∈ ds, c.isDigit = true)
    (stop : ∀ c ∈ cs.head?, c.isDigit = false) :
    (ds ++ cs).takeWhile Char.isDigit = ds ∧ (ds ++ cs).dropWhile Char.isDigit = cs := by
  rw [List.takeWhile_append_of_pos digits, List.dropWhile_append_of_pos digits]
  cases cs with
  | nil => exact ⟨List.append_nil ds, rfl⟩
  | cons c rest =>
    rw [List.takeWhile_cons, List.dropWhile_cons, stop c rfl]
    exact ⟨List.append_nil ds, rfl⟩

private theorem readMagnitude_whole (digits : Digits ds) (exponent : Exponent es n) :
    readMagnitude (ds ++ es) = some ⟨digitsValue 0 ds, n⟩ := by
  obtain ⟨before, after⟩ := digits_append digits.2 (isDigit_of_exponent exponent)
  have filled : ds.isEmpty = false := List.isEmpty_eq_false_iff.mpr digits.1
  have read := readExponent_eq_some_iff.mpr exponent
  simp only [readMagnitude, before, after]
  split
  · exact absurd (startsNumeral_of_exponent exponent (c := '.') rfl) (by decide)
  · simp [filled, read, decimalOf]

private theorem readMagnitude_point (digits : Digits (ds ++ fs)) (exponent : Exponent es n) :
    readMagnitude (ds ++ '.' :: (fs ++ es)) =
      some ⟨digitsValue 0 (ds ++ fs), n - fs.length⟩ := by
  obtain ⟨filled, all⟩ := digits
  obtain ⟨whole, fraction⟩ := List.forall_mem_append.mp all
  have point : ∀ c ∈ ('.' :: (fs ++ es)).head?, c.isDigit = false := by
    rintro c ⟨⟩
    decide
  obtain ⟨before, after⟩ := digits_append whole point
  obtain ⟨inner, outer⟩ := digits_append fraction (isDigit_of_exponent exponent)
  have filled : (ds.isEmpty && fs.isEmpty) = false := by
    apply Bool.eq_false_of_not_eq_true
    simpa using filled
  have read := readExponent_eq_some_iff.mpr exponent
  simp [readMagnitude, before, after, inner, outer, filled, read, decimalOf]

theorem readMagnitude_eq_some_iff : readMagnitude cs = some d ↔ Numeral cs d := by
  constructor
  · intro read
    have whole : cs = cs.takeWhile Char.isDigit ++ cs.dropWhile Char.isDigit :=
      List.takeWhile_append_dropWhile.symm
    have digits : ∀ c ∈ cs.takeWhile Char.isDigit, c.isDigit = true :=
      fun c => List.mem_takeWhile_imp
    simp only [readMagnitude] at read
    generalize cs.takeWhile Char.isDigit = ds at read whole digits
    generalize cs.dropWhile Char.isDigit = rest at read whole
    subst whole
    split at read
    · rename_i rest
      have split : rest = rest.takeWhile Char.isDigit ++ rest.dropWhile Char.isDigit :=
        List.takeWhile_append_dropWhile.symm
      have fraction : ∀ c ∈ rest.takeWhile Char.isDigit, c.isDigit = true :=
        fun c => List.mem_takeWhile_imp
      generalize rest.takeWhile Char.isDigit = fs at read split fraction
      generalize rest.dropWhile Char.isDigit = es at read split
      subst split
      split at read
      · cases read
      · rename_i filled
        obtain ⟨n, exponent, rfl⟩ := Option.map_eq_some_iff.mp read
        refine .point ⟨?_, ?_⟩ (readExponent_eq_some_iff.mp exponent)
        · simpa using filled
        · intro c inside
          exact (List.mem_append.mp inside).elim (digits c) (fraction c)
    · split at read
      · cases read
      · rename_i filled
        obtain ⟨n, exponent, rfl⟩ := Option.map_eq_some_iff.mp read
        have numeral := Numeral.whole ⟨by simpa using filled, digits⟩
          (readExponent_eq_some_iff.mp exponent)
        simpa [decimalOf] using numeral
  · intro numeral
    cases numeral with
    | whole digits exponent => exact readMagnitude_whole digits exponent
    | point digits exponent => exact readMagnitude_point digits exponent

private theorem readUnsigned_eq : readUnsigned negative cs =
    if cs.map Char.toLower = "inf".toList ∨ cs.map Char.toLower = "infinity".toList then
      some (infinite negative)
    else if cs.map Char.toLower = "nan".toList then some nan
    else (readMagnitude cs).map (ofDecimal negative) := by
  have same (name : String) : String.ofList (cs.map Char.toLower) = name ↔
      cs.map Char.toLower = name.toList := by rw [← String.toList_inj, String.toList_ofList]
  simp only [readUnsigned, Bool.or_eq_true, decide_eq_true_eq, same]

private theorem readUnsigned_eq_some_iff : readUnsigned negative cs = some x ↔
    Named negative cs x ∨ ∃ d, Numeral cs d ∧ ofDecimal negative d = x := by
  rw [readUnsigned_eq]
  constructor
  · intro read
    split at read
    · rename_i same
      obtain rfl := Option.some.inj read
      exact Or.inl (.infinity same)
    · split at read
      · rename_i same
        obtain rfl := Option.some.inj read
        exact Or.inl (.nan same)
      · obtain ⟨d, numeral, value⟩ := Option.map_eq_some_iff.mp read
        exact Or.inr ⟨d, readMagnitude_eq_some_iff.mp numeral, value⟩
  · rintro (named | ⟨d, numeral, rfl⟩)
    · cases named with
      | infinity same => rw [if_pos same]
      | nan same =>
        rw [if_neg, if_pos same]
        rw [same]
        decide
    · rw [if_neg, if_neg, readMagnitude_eq_some_iff.mpr numeral, Option.map_some]
      · intro same
        have named : Named negative cs .nan := .nan same
        exact named.not_numeral numeral
      · intro same
        have named : Named negative cs (.infinite negative) := .infinity same
        exact named.not_numeral numeral

private theorem read_sign (signed : Sign sign negative)
    (unsigned : sign = [] → ∀ c ∈ cs.head?, isUnsigned c = true) :
    read (sign ++ cs) = readUnsigned negative cs := by
  cases signed with
  | plus | minus => rfl
  | none =>
    rw [List.nil_append, read.eq_def]
    split
    · exact absurd (unsigned rfl '-' rfl) (by decide)
    · exact absurd (unsigned rfl '+' rfl) (by decide)
    · rfl

/-- Exactly the literals are read. -/
theorem read_eq_some_iff : read cs = some x ↔ Literal cs x := by
  constructor
  · intro read
    obtain ⟨sign, negative, rest, rfl, signed, unsigned⟩ := exists_sign cs
    rw [read_sign signed unsigned, readUnsigned_eq_some_iff] at read
    rcases read with named | ⟨d, numeral, rfl⟩
    · exact .name signed named
    · exact .numeral signed numeral
  · intro literal
    cases literal with
    | numeral signed numeral =>
      obtain ⟨c, rest, rfl, starts⟩ := numeral.exists_cons
      rw [read_sign signed, readUnsigned_eq_some_iff]
      · exact Or.inr ⟨_, numeral, rfl⟩
      · rintro - c' ⟨⟩
        exact isUnsigned_of_startsNumeral starts
    | name signed named =>
      obtain ⟨c, rest, rfl, letter⟩ := named.exists_cons
      rw [read_sign signed, readUnsigned_eq_some_iff]
      · exact Or.inl named
      · rintro - c' ⟨⟩
        exact isUnsigned_of_letter letter

end Binary64

open Binary64 (read_eq_some_iff)

theorem Literal.unique {y : Binary64} (literal : Literal cs x) (literal' : Literal cs y) : x = y :=
  Option.some.inj ((read_eq_some_iff.mpr literal).symm.trans (read_eq_some_iff.mpr literal'))

/-! Literals and blanks. -/

theorem isBlank_of_isDigit (digit : c.isDigit = true) : Text.isBlank c = false := by
  simp only [Char.isDigit, Bool.and_eq_true, decide_eq_true_eq] at digit
  apply Text.isBlank_of_visible
  · exact UInt32.le_trans (by decide) digit.1
  · exact UInt32.le_trans digit.2 (by decide)

private theorem isBlank_of_toLower (solid : Text.isBlank c.toLower = false) :
    Text.isBlank c = false := by
  rw [Char.toLower] at solid
  split at solid
  · rename_i capital
    apply Text.isBlank_of_visible
    · exact UInt32.le_trans (by decide) capital.1
    · exact UInt32.le_trans capital.2 (by decide)
  · exact solid

theorem Sign.solid (signed : Sign sign negative) : ∀ c ∈ sign, Text.isBlank c = false := by
  cases signed with
  | none => exact List.forall_mem_nil _
  | plus | minus => exact List.forall_mem_singleton.mpr (by decide)

private theorem Exponent.solid (exponent : Exponent es n) : ∀ c ∈ es, Text.isBlank c = false := by
  cases exponent with
  | none => exact List.forall_mem_nil _
  | some mark signed digits =>
    rw [List.forall_mem_cons, List.forall_mem_append]
    refine ⟨?_, signed.solid, fun c inside => isBlank_of_isDigit (digits.2 c inside)⟩
    rcases mark with rfl | rfl <;> decide

private theorem Numeral.solid (numeral : Numeral cs d) : ∀ c ∈ cs, Text.isBlank c = false := by
  cases numeral with
  | whole digits exponent =>
    rw [List.forall_mem_append]
    exact ⟨fun c inside => isBlank_of_isDigit (digits.2 c inside), exponent.solid⟩
  | point digits exponent =>
    have digits := List.forall_mem_append.mp digits.2
    rw [List.forall_mem_append, List.forall_mem_cons, List.forall_mem_append]
    refine ⟨fun c inside => isBlank_of_isDigit (digits.1 c inside), by decide, ?_, exponent.solid⟩
    exact fun c inside => isBlank_of_isDigit (digits.2 c inside)

private theorem Named.solid (named : Named negative cs x) : ∀ c ∈ cs, Text.isBlank c = false := by
  have letters {name : List Char} (same : cs.map Char.toLower = name)
      (solid : name.all (!Text.isBlank ·) = true) : ∀ c ∈ cs, Text.isBlank c = false := by
    intro c inside
    apply isBlank_of_toLower
    rw [← Bool.not_eq_true']
    apply List.all_eq_true.mp solid
    rw [← same]
    exact List.mem_map_of_mem inside
  cases named with
  | infinity same => exact same.elim (letters · (by decide)) (letters · (by decide))
  | nan same => exact letters same (by decide)

theorem Literal.solid (literal : Literal cs x) : ∀ c ∈ cs, Text.isBlank c = false := by
  cases literal with
  | numeral signed numeral => exact List.forall_mem_append.mpr ⟨signed.solid, numeral.solid⟩
  | name signed named => exact List.forall_mem_append.mpr ⟨signed.solid, named.solid⟩

theorem Binary64.read_of_space (inside : ' ' ∈ cs) : read cs = none := by
  rw [Option.eq_none_iff_forall_ne_some]
  intro x read
  exact absurd ((read_eq_some_iff.mp read).solid ' ' inside) (by decide)

/-! Literals at the front of one text. -/

/-- Whether a text starts as numerals do, behind its sign. -/
def leads : List Char → Bool
  | [] => false
  | c :: rest => if isUnsigned c then startsNumeral c else rest.head?.any startsNumeral

private theorem leads_sign (signed : Sign sign negative) (unsigned : isUnsigned c = true) :
    leads (sign ++ c :: cs) = startsNumeral c := by
  cases signed with
  | none => exact if_pos unsigned
  | plus | minus => rfl

private theorem Named.not_isFinite (named : Named negative cs x) : x.isFinite = false := by
  cases named with
  | infinity => cases negative <;> decide
  | nan => decide

theorem Literal.leads_or (literal : Literal cs x) (more : List Char) :
    (leads (cs ++ more) = true ∧ ∃ sign negative ds d, Sign sign negative ∧ Numeral ds d ∧
      cs = sign ++ ds ∧ x = .ofDecimal negative d) ∨
    (leads (cs ++ more) = false ∧ x.isFinite = false) := by
  cases literal with
  | numeral signed numeral =>
    refine Or.inl ⟨?_, _, _, _, _, signed, numeral, rfl, rfl⟩
    obtain ⟨c, rest, rfl, starts⟩ := numeral.exists_cons
    rw [List.append_assoc, List.cons_append,
      leads_sign signed (isUnsigned_of_startsNumeral starts), starts]
  | name signed named =>
    refine Or.inr ⟨?_, named.not_isFinite⟩
    obtain ⟨c, rest, rfl, letter⟩ := named.exists_cons
    rw [List.append_assoc, List.cons_append, leads_sign signed (isUnsigned_of_letter letter),
      startsNumeral_of_letter letter]

private theorem digitValue_lt (digit : c.isDigit = true) : digitValue c < 10 := by
  simp only [Char.isDigit, Bool.and_eq_true, decide_eq_true_eq] at digit
  have greatest : c.toNat ≤ 57 := UInt32.le_iff_toNat_le.mp digit.2
  have zero : '0'.toNat = 48 := rfl
  rw [digitValue]
  omega

private theorem isFinite_ofDecimal_digit : ∀ k < 10, ∀ negative,
    (Binary64.ofDecimal negative ⟨k, 0⟩).isFinite = true ∧
      (Binary64.ofDecimal negative ⟨k, -1⟩).isFinite = true := by
  decide +kernel

theorem Numeral.exists_finite_front (numeral : Numeral cs d) :
    ∃ front rest d', cs = front ++ rest ∧ Numeral front d' ∧
      ∀ negative, (Binary64.ofDecimal negative d').isFinite = true := by
  have single {c : Char} (digit : c.isDigit = true) : Digits [c] :=
    ⟨List.cons_ne_nil _ _, List.forall_mem_singleton.mpr digit⟩
  have small {c : Char} (digit : c.isDigit = true) : digitsValue 0 [c] < 10 := by
    have value : digitsValue 0 [c] = digitValue c := by simp [digitsValue]
    rw [value]
    exact digitValue_lt digit
  cases numeral with
  | whole digits exponent =>
    obtain ⟨c, rest, rfl, digit⟩ := exists_cons_of_digits digits
    exact ⟨[c], _, _, rfl, .digits (single digit),
      fun negative => (isFinite_ofDecimal_digit _ (small digit) negative).1⟩
  | @point ds fs es n digits exponent =>
    obtain ⟨c, rest, same, digit⟩ := exists_cons_of_digits digits
    cases ds with
    | nil =>
      obtain rfl : fs = c :: rest := same
      have front : Numeral ([] ++ '.' :: [c]) ⟨digitsValue 0 [c], -1⟩ := .fraction (single digit)
      exact ⟨['.', c], _, _, rfl, front,
        fun negative => (isFinite_ofDecimal_digit _ (small digit) negative).2⟩
    | cons c' ds =>
      obtain ⟨rfl, -⟩ := List.cons.inj same
      exact ⟨[c'], _, _, rfl, .digits (single digit),
        fun negative => (isFinite_ofDecimal_digit _ (small digit) negative).1⟩

end Number

end DeviceLink
