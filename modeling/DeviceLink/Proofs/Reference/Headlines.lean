import DeviceLink.Proofs.Text.Lines
import DeviceLink.Reference

/-!
The headlines that a reader finds in a text: each is a line with a line of marks below it. Paragraphs
are read one after the other (`headlinesOf_append_blank`), and a title with its marks is found as it
was printed (`headlinesOf_underlined`).
-/

set_option autoImplicit false
set_option relaxedAutoImplicit false

namespace DeviceLink.Reference

/-- A line with a line of marks below it. -/
structure Headline where
  title : List Char
  rule : List Char
deriving DecidableEq

/-- The rule of a headline has as many marks as the title has characters. -/
def Headline.Matches (h : Headline) : Prop :=
  h.rule.length = h.title.length

/-- The marks that may stand below a title: visible ASCII characters, but no letters or digits. -/
def isMark (c : Char) : Bool :=
  '!' ≤ c && c ≤ '~' && !c.isAlphanum

/-- A line of one mark, over and over. -/
def isRule : List Char → Bool
  | [] => false
  | c :: rest => isMark c && rest.all (· == c)

/-- The headline that a line is the title of: it is not blank, and the next line is a rule. -/
def headlineAt? (l : List Char) : List (List Char) → Option Headline
  | [] => none
  | next :: _ => if !l.all Text.isBlank && isRule next then some ⟨l, next⟩ else none

def headlines : List (List Char) → List Headline
  | [] => []
  | l :: rest => (headlineAt? l rest).toList ++ headlines rest

def headlinesOf (texts : List String) : List Headline :=
  headlines (texts.flatMap Text.linesOf)

def headlinesWithin (texts : List String) : List Headline :=
  texts.flatMap fun s => headlines (Text.linesOf s)

/-- A text that starts with something else than a rule. -/
def Unruled (s : String) : Prop :=
  isRule (s.toList.takeWhile (· != '\n')) = false

instance (s : String) : Decidable (Unruled s) :=
  inferInstanceAs (Decidable (_ = false))

/-! Texts below each other. -/

private theorem headlineAt?_of_unruled {l : List Char} {rest : List (List Char)}
    (calm : ∀ next, rest.head? = some next → isRule next = false) : headlineAt? l rest = none := by
  cases rest with
  | nil => rfl
  | cons next rest => rw [headlineAt?, calm next rfl, Bool.and_false, if_neg Bool.false_ne_true]

private theorem headlines_append {front rest : List (List Char)}
    (calm : ∀ next, rest.head? = some next → isRule next = false) :
    headlines (front ++ rest) = headlines front ++ headlines rest := by
  induction front with
  | nil => rfl
  | cons l more ih =>
    have same : headlineAt? l (more ++ rest) = headlineAt? l more := by
      cases more with
      | nil => exact headlineAt?_of_unruled calm
      | cons next more => rfl
    rw [List.cons_append, headlines, headlines, ih, same, List.append_assoc]

private theorem head?_flatMap_linesOf {texts : List String} {l : List Char}
    (first : (texts.flatMap Text.linesOf).head? = some l) :
    ∃ s, texts.head? = some s ∧ l = s.toList.takeWhile (· != '\n') := by
  cases texts with
  | nil => cases first
  | cons s rest =>
    rw [List.flatMap_cons, List.head?_append, Text.head?_linesOf] at first
    exact ⟨s, rfl, (Option.some.inj first).symm⟩

theorem headlinesOf_append {front rest : List String}
    (calm : ∀ s, rest.head? = some s → Unruled s) :
    headlinesOf (front ++ rest) = headlinesOf front ++ headlinesOf rest := by
  rw [headlinesOf, List.flatMap_append]
  refine headlines_append fun next first => ?_
  obtain ⟨s, starts, rfl⟩ := head?_flatMap_linesOf first
  exact calm s starts

theorem headlinesOf_append_cons {s : String} (calm : Unruled s) (front rest : List String) :
    headlinesOf (front ++ s :: rest) = headlinesOf front ++ headlinesOf (s :: rest) := by
  refine headlinesOf_append fun s' first => ?_
  obtain rfl := Option.some.inj first
  exact calm

theorem headlinesWithin_append (front rest : List String) :
    headlinesWithin (front ++ rest) = headlinesWithin front ++ headlinesWithin rest :=
  List.flatMap_append

theorem headlinesOf_singleton (s : String) : headlinesOf [s] = headlinesWithin [s] := by
  rw [headlinesOf, headlinesWithin, List.flatMap_singleton, List.flatMap_singleton]

theorem headlinesOf_of_unruled {texts : List String} (calm : ∀ s ∈ texts, Unruled s) :
    headlinesOf texts = headlinesWithin texts := by
  induction texts with
  | nil => rfl
  | cons s rest ih =>
    obtain ⟨-, others⟩ := List.forall_mem_cons.mp calm
    have apart : ∀ s, rest.head? = some s → Unruled s := fun s first =>
      others s (List.mem_of_mem_head? first)
    rw [← List.singleton_append, headlinesOf_append apart, ih others, headlinesOf_singleton,
      headlinesWithin_append]

theorem headlinesOf_blank_cons (rest : List String) : headlinesOf ("" :: rest) = headlinesOf rest := by
  show headlines ([] :: rest.flatMap Text.linesOf) = headlines (rest.flatMap Text.linesOf)
  cases rest.flatMap Text.linesOf <;> rfl

theorem headlinesOf_append_blank (front rest : List String) :
    headlinesOf (front ++ "" :: rest) = headlinesOf front ++ headlinesOf rest := by
  rw [headlinesOf_append_cons (by decide), headlinesOf_blank_cons]

theorem headlines_of_oneLine {s : String} (whole : Text.OneLine s) :
    headlines (Text.linesOf s) = [] := by
  rw [Text.linesOf_of_oneLine whole]
  rfl

theorem headlinesOf_of_oneLine {s : String} (whole : Text.OneLine s) : headlinesOf [s] = [] := by
  rw [headlinesOf, List.flatMap_singleton, headlines_of_oneLine whole]

theorem headlinesWithin_cons_of_oneLine {s : String} (whole : Text.OneLine s)
    (rest : List String) : headlinesWithin (s :: rest) = headlinesWithin rest := by
  rw [headlinesWithin, List.flatMap_cons, headlines_of_oneLine whole, List.nil_append]
  rfl

theorem headlinesWithin_of_oneLine {texts : List String} (whole : ∀ s ∈ texts, Text.OneLine s) :
    headlinesWithin texts = [] :=
  List.flatMap_eq_nil_iff.mpr fun s inside => headlines_of_oneLine (whole s inside)

private theorem isRule_of_mem {l : List Char} {c : Char} (inside : c ∈ l)
    (other : isMark c = false) : isRule l = false := by
  cases l with
  | nil => rfl
  | cons first rest =>
    rw [isRule, Bool.and_eq_false_iff]
    rcases List.mem_cons.mp inside with rfl | later
    · exact Or.inl other
    · by_cases same : c = first
      · exact Or.inl (same ▸ other)
      · exact Or.inr (List.all_eq_false.mpr ⟨c, later, by simpa using same⟩)

theorem unruled_append {front : String} (rest : String) (whole : Text.OneLine front) {c : Char}
    (inside : c ∈ front.toList) (other : isMark c = false) : Unruled (front ++ rest) := by
  rw [Unruled, String.toList_append,
    List.takeWhile_append_of_pos (Text.bne_newline_of_oneLine whole)]
  exact isRule_of_mem (List.mem_append_left _ inside) other

/-! Titles. -/

def headline (mark : Char) (title : String) : Headline :=
  ⟨title.toList, List.replicate title.length mark⟩

theorem matches_headline (mark : Char) (title : String) : (headline mark title).Matches := by
  rw [Headline.Matches, headline, List.length_replicate, String.length_toList]

/-- A title stands on one line that is not blank. -/
structure IsTitle (title : String) : Prop where
  whole : Text.OneLine title
  visible : ∃ c ∈ title.toList, Text.isBlank c = false

private theorem isRule_replicate {mark : Char} (known : isMark mark = true) {n : Nat}
    (some : n ≠ 0) : isRule (List.replicate n mark) = true := by
  obtain ⟨k, rfl⟩ := Nat.exists_eq_succ_of_ne_zero some
  rw [List.replicate_succ, isRule, known, Bool.true_and, List.all_eq_true]
  intro c inside
  rw [List.eq_of_mem_replicate inside, beq_self_eq_true]

/-- Of a title with its marks, a reader finds the headline. -/
theorem headlinesOf_underlined {mark : Char} (known : isMark mark = true) {title : String}
    (h : IsTitle title) : headlinesOf (underlined mark title) = [headline mark title] := by
  obtain ⟨c, inside, visible⟩ := h.visible
  have filled : title.length ≠ 0 := by
    rw [← String.length_toList]
    exact (List.length_pos_of_mem inside).ne'
  have shown : title.toList.all Text.isBlank = false :=
    List.all_eq_false.mpr ⟨c, inside, by simp [visible]⟩
  have marks : Text.OneLine (String.ofList (List.replicate title.length mark)) := by
    rw [Text.OneLine, String.toList_ofList, List.mem_replicate]
    rintro ⟨-, rfl⟩
    exact absurd known (by decide)
  have lines : (underlined mark title).flatMap Text.linesOf =
      [title.toList, List.replicate title.length mark] := by
    rw [underlined, List.flatMap_cons, List.flatMap_singleton, Text.linesOf_of_oneLine h.whole,
      Text.linesOf_of_oneLine marks, String.toList_ofList]
    rfl
  rw [headlinesOf, lines, headlines, headlineAt?, shown, isRule_replicate known filled]
  rfl

end DeviceLink.Reference
