import DeviceLink.Files.Store
import DeviceLink.Proofs.Results
import Mathlib.Data.List.Basic

/-!
Places of a file system and what a change of its state does to them. A path has one place, whatever
the state is (`place`), as long as it leads anywhere. Directories stay directories; making some
leaves all texts alone (`Widened`), and a write changes the text at the place of its path and no
other (`write_spec`).
-/

set_option autoImplicit false
set_option relaxedAutoImplicit false

namespace DeviceLink.Store

variable {s s' s'' : Store} {l l' : Location} {path text : String} {names : List String}

/-! What is at a place. -/

private theorem lookup?_put (e : FileEntry) (other : isBase l = false) (l' : Location) :
    (s.put l e).lookup? l' = if l' = l then some e else s.lookup? l' := by
  rw [lookup?, lookup?, put, List.find?_cons, List.find?_filter]
  by_cases same : l' = l
  · subst same
    simp [other]
  · have differ : (l == l') = false := beq_false_of_ne (Ne.symm same)
    have kept (entry : Location × FileEntry) :
        decide ((entry.1 != l) = true ∧ (entry.1 == l') = true) = (entry.1 == l') := by
      by_cases here : entry.1 = l'
      · simp [here, same]
      · simp [here]
    rw [if_neg same]
    simp only [differ, kept]

theorem isBase_of_lookup? (h : s.lookup? l ≠ some .directory) : isBase l = false := by
  rw [lookup?] at h
  split at h
  · exact absurd rfl h
  · rename_i other
    exact Bool.eq_false_iff.mpr other

def textAt? (s : Store) (l : Location) : Option String :=
  match s.lookup? l with
  | some (.file text) => some text
  | some .directory | none => none

private theorem textAt?_eq_some_iff : s.textAt? l = some text ↔ s.lookup? l =
    some (.file text) := by
  rw [textAt?]
  split <;> simp_all

theorem textAt?_put (text : String) (other : isBase l = false) (l' : Location) :
    (s.put l (.file text)).textAt? l' = if l' = l then some text else s.textAt? l' := by
  rw [textAt?, lookup?_put _ other, textAt?]
  by_cases same : l' = l
  · rw [if_pos same, if_pos same]
  · rw [if_neg same, if_neg same]

/-- The directories of one state are directories of another. -/
def Keeps (s s' : Store) : Prop :=
  ∀ l, s.lookup? l = some .directory → s'.lookup? l = some .directory

theorem keeps_put (e : FileEntry) (absent : s.lookup? l ≠ some .directory) :
    s.Keeps (s.put l e) := by
  intro l' directory
  have other : l' ≠ l := fun same => absent (same ▸ directory)
  rw [lookup?_put e (isBase_of_lookup? absent), if_neg other, directory]

/-- One state has the texts of another, and at least its directories. -/
structure Widened (s s' : Store) : Prop where
  texts : ∀ l, s'.textAt? l = s.textAt? l
  directories : s.Keeps s'

namespace Widened

theorem refl (s : Store) : s.Widened s :=
  ⟨fun _ => rfl, fun _ directory => directory⟩

theorem trans (h : s.Widened s') (h' : s'.Widened s'') : s.Widened s'' :=
  ⟨fun l => (h'.texts l).trans (h.texts l),
    fun l directory => h'.directories l (h.directories l directory)⟩

private theorem makeDirectory (made : s.makeDirectory path = .ok s') : s.Widened s' := by
  rw [Store.makeDirectory] at made
  split at made
  · cases made
  · cases made
  · split at made
    · cases made
    · rename_i l name _ fresh
      split at made
      · cases made
      · obtain rfl := Except.ok.inj made
        have absent : s.lookup? (l ++ [name]) = none := by simpa using fresh
        have file : s.lookup? (l ++ [name]) ≠ some .directory := by simp [absent]
        refine ⟨fun l' => ?_, keeps_put .directory file⟩
        rw [textAt?, textAt?, lookup?_put .directory (isBase_of_lookup? file)]
        by_cases same : l' = l ++ [name]
        · rw [if_pos same, same, absent]
        · rw [if_neg same]

private theorem makeAll (paths : List String) : s.Widened (s.makeAll paths).2 := by
  induction paths generalizing s with
  | nil => exact refl s
  | cons path rest ih =>
    rw [Store.makeAll]
    split
    · rename_i made
      exact (makeDirectory made).trans ih
    · split
      · exact ih
      · exact refl s

theorem makeDirectories (path : String) : s.Widened (s.makeDirectories path).2 := by
  have widened := makeAll (s := s) (s.missing (ancestors path path.length)).reverse
  rw [Store.makeDirectories]
  split <;> (rename_i same; rwa [same] at widened)

end Widened

/-! The way to a place. -/

def place (path : String) : Location :=
  (way path).foldl step (origin path)

private theorem eq_foldl_of_follow (h : s.follow l names = .ok l') : l' = names.foldl step l := by
  induction names generalizing l with
  | nil => exact (Except.ok.inj h).symm
  | cons name rest ih =>
    rw [follow] at h
    split at h
    · cases h
    · cases h
    · split at h
      · cases h
      · exact ih h

private theorem follow_append (s : Store) (l : Location) (names more : List String) :
    s.follow l (names ++ more) = s.follow l names >>= fun l' => s.follow l' more := by
  induction names generalizing l with
  | nil => rfl
  | cons name rest ih =>
    rw [List.cons_append, follow, follow]
    split
    · rfl
    · rfl
    · split
      · rfl
      · exact ih _

private theorem follow_singleton {name : String} : s.follow l [name] = .ok l' ↔
    s.lookup? l = some .directory ∧ isLongName name = false ∧ l' = step l name := by
  rw [follow]
  cases s.lookup? l with
  | none => simp
  | some e =>
    cases e with
    | file => simp
    | directory => by_cases long : isLongName name = true <;> simp [long, follow, eq_comm]

private theorem Keeps.follow (kept : s.Keeps s') (h : s.follow l names = .ok l') :
    s'.follow l names = .ok l' := by
  induction names generalizing l with
  | nil => exact h
  | cons name rest ih =>
    rw [Store.follow] at h ⊢
    split at h
    · cases h
    · cases h
    · rename_i there
      split at h
      · cases h
      · rename_i short
        rw [kept l there]
        simp only [if_neg short]
        exact ih h

private theorem Keeps.locate (kept : s.Keeps s') (h : s.locate path = .ok l) :
    s'.locate path = .ok l := by
  rw [Store.locate] at h ⊢
  split at h
  · cases h
  · exact kept.follow h

private theorem eq_place_of_locate (h : s.locate path = .ok l) : l = place path := by
  rw [locate] at h
  split at h
  · cases h
  · exact eq_foldl_of_follow h

theorem read_eq_ok_iff : s.read path = .ok text ↔ s.locate path = .ok (place path) ∧
    s.textAt? (place path) = some text ∧ endsInSlash path = false := by
  rw [read]
  cases located : s.locate path with
  | error e => simp
  | ok l =>
    obtain rfl := eq_place_of_locate located
    rw [textAt?_eq_some_iff]
    dsimp only
    cases s.lookup? (place path) with
    | none => simp
    | some e =>
      cases e with
      | directory => simp
      | file old => cases endsInSlash path <;> simp

theorem Keeps.read (kept : s.Keeps s') {old : String} (h : s.read path = .ok old)
    (there : s'.textAt? (place path) = some text) : s'.read path = .ok text := by
  obtain ⟨located, -, plain⟩ := read_eq_ok_iff.mp h
  exact read_eq_ok_iff.mpr ⟨kept.locate located, there, plain⟩

private theorem step_of_not_isDots {name : String} (filled : name.isEmpty = false)
    (plain : isDots name = false) (l : Location) : step l name = l ++ [name] := by
  obtain ⟨dot, dots⟩ : name ≠ "." ∧ name ≠ ".." := by simpa [isDots] using plain
  simp [step, filled, dot, dots]

private theorem locateNew_spec {name : String} (h : s.locateNew path = .ok (l, some name))
    (short : isLongName name = false) :
    place path = l ++ [name] ∧ s.locate path = .ok (place path) := by
  rw [locateNew] at h
  split at h
  · cases h
  · cases h
  · rename_i last good ending
    obtain ⟨found, plain, rfl⟩ : s.follow (origin path) ((way path).dropLast ++ ["."]) = .ok l ∧
        isDots last = false ∧ last = name := by
      split at h
      · cases h
      · obtain ⟨rfl, same⟩ := Prod.mk.inj (Except.ok.inj h)
        split at same
        · cases same
        · rename_i plain
          exact ⟨‹_›, Bool.eq_false_iff.mpr plain, Option.some.inj same⟩
    have whole : (way path).dropLast ++ [last] = way path :=
      List.dropLast_append_getLast? last ending
    have filled : last.isEmpty = false := by
      have inside : last ∈ way path := List.mem_of_getLast? ending
      simpa using (List.mem_filter.mp inside).2
    rw [follow_append, bind_eq_ok_iff] at found
    obtain ⟨m, passed, stop⟩ := found
    obtain ⟨directory, -, same⟩ := follow_singleton.mp stop
    obtain rfl : l = m := same
    have last_step : step l last = l ++ [last] := step_of_not_isDots filled plain l
    have reached : s.follow (origin path) (way path) = .ok (l ++ [last]) := by
      rw [← whole, follow_append, passed, ← last_step]
      exact follow_singleton.mpr ⟨directory, short, rfl⟩
    have placed : place path = l ++ [last] := (eq_foldl_of_follow reached).symm
    refine ⟨placed, ?_⟩
    rw [locate, good, placed]
    exact reached

theorem write_spec (h : s.write path text = .ok s') :
    s' = s.put (place path) (.file text) ∧ s.lookup? (place path) ≠ some .directory ∧
      s'.read path = .ok text := by
  rw [write] at h
  split at h
  · cases h
  · cases h
  · rename_i l name new
    split at h
    · cases h
    · rename_i free
      obtain ⟨plain, absent⟩ : endsInSlash path = false ∧
          s.lookup? (l ++ [name]) ≠ some .directory := by simpa using free
      split at h
      · cases h
      · rename_i short
        obtain ⟨placed, located⟩ := locateNew_spec new (Bool.eq_false_iff.mpr short)
        rw [← placed] at h absent
        obtain rfl := Except.ok.inj h
        refine ⟨rfl, absent, read_eq_ok_iff.mpr ⟨?_, ?_, plain⟩⟩
        · exact (keeps_put _ absent).locate located
        · rw [textAt?_put text (isBase_of_lookup? absent), if_pos rfl]

end DeviceLink.Store
