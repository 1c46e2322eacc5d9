import DeviceLink.Text.Blank
import Mathlib.Data.List.Infix

/-!
Comments of C. A comment goes from an opening mark to the next closing mark, and comments do not
nest. A text is scanned line by line: no mark runs over the end of a line, so the scan of a text is
the scan of its first lines and then that of the others, from where the first ones end
(`scan_append`).
-/

set_option autoImplicit false
set_option relaxedAutoImplicit false

namespace DeviceLink.Text

/-- Where a character of a text stands. -/
inductive Region where
  | code
  | comment
deriving DecidableEq

/-- The characters of a text that are outside comments, and where the text ends, given where it
starts. -/
def scan : Region → List Char → List Char × Region
  | region, [] => ([], region)
  | .code, '/' :: '*' :: rest => scan .comment rest
  | .code, c :: rest =>
    let scanned := scan .code rest
    (c :: scanned.1, scanned.2)
  | .comment, '*' :: '/' :: rest => scan .code rest
  | .comment, _ :: rest => scan .comment rest

def withoutComments (s : String) : String :=
  String.ofList (scan .code s.toList).1

theorem scan_code_cons {c : Char} {cs : List Char}
    (none : ∀ rest, c = '/' → cs = '*' :: rest → False) :
    scan .code (c :: cs) = (c :: (scan .code cs).1, (scan .code cs).2) := by
  rw [scan]
  exact none

theorem scan_comment_cons {c : Char} {cs : List Char}
    (none : ∀ rest, c = '*' → cs = '/' :: rest → False) :
    scan .comment (c :: cs) = scan .comment cs := by
  rw [scan]
  exact none

/-! Texts without a slash hold no mark. -/

theorem scan_code_of_plain {cs : List Char} (plain : '/' ∉ cs) : scan .code cs = (cs, .code) := by
  induction cs with
  | nil => rfl
  | cons c cs ih =>
    obtain ⟨first, others⟩ := not_or.mp (mt List.mem_cons.mpr plain)
    have none : ∀ rest, c = '/' → cs = '*' :: rest → False := fun _ same _ => first same.symm
    rw [scan_code_cons none, ih others]

theorem scan_comment_of_unclosed {cs : List Char} (unclosed : ¬ ['*', '/'] <:+: cs) :
    scan .comment cs = ([], .comment) := by
  induction cs with
  | nil => rfl
  | cons c cs ih =>
    have none : ∀ rest, c = '*' → cs = '/' :: rest → False := by
      rintro rest rfl rfl
      exact unclosed (List.prefix_append ['*', '/'] rest).isInfix
    rw [scan_comment_cons none]
    exact ih fun later => unclosed (List.infix_cons later)

theorem scan_comment_of_plain {cs : List Char} (plain : '/' ∉ cs) :
    scan .comment cs = ([], .comment) := by
  apply scan_comment_of_unclosed
  intro marked
  exact plain (marked.subset (by simp))

theorem trim_infix (cs : List Char) : trim cs <:+: cs := by
  have front : cs.dropWhile isBlank <:+: cs := (List.dropWhile_suffix _).isInfix
  have ending : (trim cs).reverse <:+ (cs.dropWhile isBlank).reverse := by
    rw [trim, dropBlankEnd, List.reverse_reverse]
    exact List.dropWhile_suffix _
  exact (List.reverse_suffix.mp ending).isInfix.trans front

/-! Whole lines. -/

def Ended (cs : List Char) : Prop :=
  ∀ c, cs.getLast? = some c → c = '\n'

theorem ended_nil : Ended [] :=
  fun _ last => absurd last (by simp)

theorem Ended.append {front rest : List Char} (first : Ended front) (second : Ended rest) :
    Ended (front ++ rest) := by
  intro c last
  rw [List.getLast?_append, Option.or_eq_some_iff] at last
  rcases last with last | ⟨-, last⟩
  · exact second c last
  · exact first c last

theorem ended_append_newline (cs : List Char) : Ended (cs ++ ['\n']) := by
  intro c last
  rw [List.getLast?_append] at last
  exact (Option.some.inj last).symm

private theorem Ended.tail {c : Char} {cs : List Char} (ended : Ended (c :: cs)) : Ended cs := by
  cases cs with
  | nil => exact ended_nil
  | cons d cs =>
    intro c last
    exact ended c (by rwa [List.getLast?_cons_cons])

private theorem Ended.no_mark {c first second : Char} {cs : List Char} (ended : Ended (c :: cs))
    (other : first ≠ '\n') (none : ∀ more, c = first → cs = second :: more → False)
    (rest : List Char) : ∀ more, c = first → cs ++ rest = second :: more → False := by
  rintro more rfl same
  cases cs with
  | nil => exact other (ended c rfl)
  | cons d cs =>
    rw [List.cons_append, List.cons.injEq] at same
    exact none cs rfl (by rw [same.1])

theorem scan_append {front : List Char} (ended : Ended front) (region : Region) (rest : List Char) :
    scan region (front ++ rest) =
      ((scan region front).1 ++ (scan (scan region front).2 rest).1,
        (scan (scan region front).2 rest).2) := by
  fun_induction scan region front with
  | case1 region => rfl
  | case2 cs ih => exact ih ended.tail.tail
  | case3 c cs none scanned ih =>
    rw [List.cons_append, scan_code_cons (ended.no_mark (by decide) none rest), ih ended.tail]
    rfl
  | case4 cs ih => exact ih ended.tail.tail
  | case5 c cs none ih =>
    rw [List.cons_append, scan_comment_cons (ended.no_mark (by decide) none rest), ih ended.tail]

private theorem Ended.ne_nil {c : Char} {cs : List Char} (ended : Ended (c :: cs))
    (other : c ≠ '\n') : cs ≠ [] := by
  rintro rfl
  exact other (ended c rfl)

theorem scan_ne_nil {cs : List Char} (ended : Ended cs) (filled : cs ≠ []) {region : Region}
    (code : (scan region cs).2 = .code) : (scan region cs).1 ≠ [] := by
  fun_induction scan region cs with
  | case1 region => exact absurd rfl filled
  | case2 cs ih => exact ih ended.tail.tail (ended.tail.ne_nil (by decide)) code
  | case3 c cs none scanned ih => exact List.cons_ne_nil _ _
  | case4 cs ih => exact ih ended.tail.tail (ended.tail.ne_nil (by decide)) code
  | case5 c cs none ih =>
    refine ih ended.tail ?_ code
    rintro rfl
    cases code

end DeviceLink.Text
