/-!
Texts cut at a separator character. Joining the pieces with the separator gives the text back
(`flatten_split`).
-/

set_option autoImplicit false
set_option relaxedAutoImplicit false

namespace DeviceLink.Text

/-- The pieces between the separators of a text, empty ones included. -/
def split (separator : Char) : List Char → List (List Char)
  | [] => [[]]
  | c :: rest =>
    if c = separator then [] :: split separator rest
    else match split separator rest with
      | [] => [[c]]
      | first :: others => (c :: first) :: others

def segments (separator : Char) (s : String) : List String :=
  ((split separator s.toList).filter (!·.isEmpty)).map String.ofList

def splitLast? (separator : Char) (s : String) : Option (String × String) :=
  let reversed := s.toList.reverse
  match reversed.dropWhile (· != separator) with
  | [] => none
  | _ :: before =>
    some (String.ofList before.reverse,
      String.ofList (reversed.takeWhile (· != separator)).reverse)

def replaceChar (old new : Char) (s : String) : String :=
  String.ofList (s.toList.map fun c => if c = old then new else c)

theorem split_ne_nil (separator : Char) (cs : List Char) : split separator cs ≠ [] := by
  cases cs with
  | nil => simp [split]
  | cons c rest =>
    simp only [split]
    split
    · simp
    · split <;> simp

theorem flatten_split (separator : Char) (cs : List Char) :
    ((split separator cs).intersperse [separator]).flatten = cs := by
  induction cs with
  | nil => rfl
  | cons c rest ih =>
    simp only [split]
    have hne := split_ne_nil separator rest
    by_cases h : c = separator
    · simp only [h, if_true]
      cases hs : split separator rest with
      | nil => exact absurd hs hne
      | cons first others => simp_all
    · simp only [h, if_false]
      cases hs : split separator rest with
      | nil => exact absurd hs hne
      | cons first others =>
        cases others with
        | nil => simp_all
        | cons second more => simp_all

end DeviceLink.Text
