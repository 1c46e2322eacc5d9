import DeviceLink.Fingerprint
import DeviceLink.Proofs.Lists
import DeviceLink.Proofs.Text.Segments

/-!
The lines of a text, as a reader finds them: what stands between its line breaks. Lines that are
printed below each other are found again (`linesOf_ofLines_append`), and a text with breaks of its
own gives more lines than one (`length_linesOf`).
-/

set_option autoImplicit false
set_option relaxedAutoImplicit false

namespace DeviceLink.Text

/-- The lines of a text. Behind a break at its end there is one more line, an empty one. -/
def linesOf (s : String) : List (List Char) :=
  split '\n' s.toList

def OneLine (s : String) : Prop :=
  '\n' ∉ s.toList

instance (s : String) : Decidable (OneLine s) :=
  inferInstanceAs (Decidable ('\n' ∉ s.toList))

theorem linesOf_of_oneLine {s : String} (whole : OneLine s) : linesOf s = [s.toList] :=
  split_of_plain whole

theorem bne_newline_of_oneLine {s : String} (whole : OneLine s) :
    ∀ c ∈ s.toList, (c != '\n') = true := by
  intro c inside
  rw [bne_iff_ne]
  rintro rfl
  exact whole inside

private theorem length_split (separator : Char) (cs : List Char) :
    (split separator cs).length = cs.count separator + 1 := by
  induction cs with
  | nil => rfl
  | cons c rest ih =>
    by_cases same : c = separator
    · rw [split, if_pos same, List.length_cons, ih, same, List.count_cons_self]
    · obtain ⟨first, others, parts⟩ := List.exists_cons_of_ne_nil (split_ne_nil separator rest)
      rw [parts, List.length_cons] at ih
      rw [split, if_neg same, parts, List.length_cons, ih, List.count_cons_of_ne same]

theorem length_linesOf (s : String) : (linesOf s).length = s.toList.count '\n' + 1 :=
  length_split '\n' s.toList

private theorem head?_split (separator : Char) (cs : List Char) :
    (split separator cs).head? = some (cs.takeWhile (· != separator)) := by
  induction cs with
  | nil => rfl
  | cons c rest ih =>
    by_cases same : c = separator
    · rw [split, if_pos same, List.head?_cons, List.takeWhile_cons_of_neg (by simp [same])]
    · obtain ⟨first, others, parts⟩ := List.exists_cons_of_ne_nil (split_ne_nil separator rest)
      rw [parts, List.head?_cons, Option.some.injEq] at ih
      rw [split, if_neg same, parts, List.head?_cons, ih,
        List.takeWhile_cons_of_pos (by simp [same])]

theorem head?_linesOf (s : String) :
    (linesOf s).head? = some (s.toList.takeWhile (· != '\n')) :=
  head?_split '\n' s.toList

/-! Texts below each other. -/

/-- Texts below each other, with a break behind each. -/
def ofLines (texts : List String) : String :=
  String.join (texts.map (· ++ "\n"))

@[simp] theorem ofLines_nil : ofLines [] = "" := rfl

@[simp] theorem ofLines_cons (s : String) (texts : List String) :
    ofLines (s :: texts) = s ++ "\n" ++ ofLines texts := by
  rw [ofLines, List.map_cons, String.join_cons]
  rfl

@[simp] theorem ofLines_append (first second : List String) :
    ofLines (first ++ second) = ofLines first ++ ofLines second := by
  rw [ofLines, List.map_append, String.join_append]
  rfl

theorem ofLines_flatMap {α : Type} (f : α → List String) (l : List α) :
    ofLines (l.flatMap f) = String.join (l.map fun a => ofLines (f a)) := by
  induction l with
  | nil => rfl
  | cons a rest ih => rw [List.flatMap_cons, ofLines_append, ih, List.map_cons, String.join_cons]

/-- Texts that are printed below each other are read one after the other. -/
theorem linesOf_ofLines_append (texts : List String) (rest : String) :
    linesOf (ofLines texts ++ rest) = texts.flatMap linesOf ++ linesOf rest := by
  induction texts with
  | nil => rw [ofLines_nil, String.empty_append]; rfl
  | cons s more ih =>
    have shape : (ofLines (s :: more) ++ rest).toList =
        s.toList ++ '\n' :: (ofLines more ++ rest).toList := by
      rw [ofLines_cons, String.append_assoc, String.append_assoc, String.toList_append,
        String.toList_append]
      rfl
    rw [linesOf, shape, split_append_separator, List.flatMap_cons, List.append_assoc, ← ih]
    rfl

theorem linesOf_ofLines (texts : List String) :
    linesOf (ofLines texts) = texts.flatMap linesOf ++ [[]] := by
  have whole := linesOf_ofLines_append texts ""
  rwa [String.append_empty] at whole

theorem flatMap_linesOf_of_oneLine {texts : List String} (whole : ∀ s ∈ texts, OneLine s) :
    texts.flatMap linesOf = texts.map String.toList := by
  rw [List.map_eq_flatMap]
  exact List.flatMap_congr fun s listed => linesOf_of_oneLine (whole s listed)

/-! Texts on one line. -/

theorem oneLine_append_iff {s s' : String} : OneLine (s ++ s') ↔ OneLine s ∧ OneLine s' := by
  rw [OneLine, String.toList_append, List.mem_append, not_or]
  rfl

theorem oneLine_append {s s' : String} (first : OneLine s) (second : OneLine s') :
    OneLine (s ++ s') :=
  oneLine_append_iff.mpr ⟨first, second⟩

theorem oneLine_intercalate {separator : String} {texts : List String}
    (between : OneLine separator) (each : ∀ s ∈ texts, OneLine s) :
    OneLine (separator.intercalate texts) := by
  intro broken
  rw [String.toList_intercalate] at broken
  obtain ⟨part, there, within⟩ := List.mem_flatten.mp broken
  rcases mem_of_mem_intersperse there with rfl | listed
  · exact between within
  · obtain ⟨s, member, rfl⟩ := List.mem_map.mp listed
    exact each s member within

private theorem newline_notMem_toDigits {base : Nat} (several : 1 < base) (n : Nat) :
    '\n' ∉ Nat.toDigits base n := by
  have digit (d : Nat) : '\n' ≠ d.digitChar := (Nat.digitChar_ne '\n' rfl).symm
  induction n using Nat.strong_induction_on with
  | _ n ih =>
    rw [Nat.toDigits_eq_if several]
    split
    · exact fun broken => digit n (List.mem_singleton.mp broken)
    · rename_i large
      have smaller : n / base < n := Nat.div_lt_self (by omega) several
      rw [List.mem_append, not_or]
      exact ⟨ih _ smaller, fun broken => digit (n % base) (List.mem_singleton.mp broken)⟩

theorem oneLine_toString (n : Nat) : OneLine (toString n) := by
  rw [OneLine, Nat.toString_eq_repr, Nat.repr, String.toList_ofList]
  exact newline_notMem_toDigits (by decide) n

theorem oneLine_hexLiteral (n : UInt32) : OneLine (hexLiteral n) := by
  rw [OneLine, hexLiteral, String.toList_ofList]
  have digits : '\n' ∉ hexDigits n.toNat := newline_notMem_toDigits (by decide) n.toNat
  simp [digits]

end DeviceLink.Text
