import DeviceLink.Generation.Delivery
import DeviceLink.Proofs.Files.Places
import DeviceLink.Proofs.Lists

/-!
What a generation leaves behind. Before the plan stands nothing is touched; then the files of the
plan are written one after the other, and where one of them cannot be written those before it are
there (`delivered_deliverAll`).
-/

set_option autoImplicit false
set_option relaxedAutoImplicit false

namespace DeviceLink

variable {files more : List GeneratedFile} {file : GeneratedFile} {s s₁ s' : Store}

/-! What files leave in a store. -/

def lastText? (files : List GeneratedFile) (l : Location) : Option String :=
  (files.reverse.find? (Store.place ·.path == l)).map (·.content)

private theorem lastText?_append (files more : List GeneratedFile) (l : Location) :
    lastText? (files ++ more) l = (lastText? more l).or (lastText? files l) := by
  rw [lastText?, List.reverse_append, List.find?_append, lastText?, lastText?]
  cases more.reverse.find? (Store.place ·.path == l) <;> rfl

private theorem lastText?_singleton (file : GeneratedFile) (l : Location) :
    lastText? [file] l = if l = Store.place file.path then some file.content else none := by
  rw [lastText?, List.reverse_singleton, List.find?_singleton]
  by_cases here : l = Store.place file.path
  · simp [here]
  · have differ : (Store.place file.path == l) = false := beq_false_of_ne (Ne.symm here)
    simp [here, differ]

/-- Some files have been written over a state: every place has the text of the last file for it, or
else the text from before, and directories are there as before and perhaps more of them. -/
structure Holds (s : Store) (files : List GeneratedFile) (s' : Store) : Prop where
  texts : ∀ l, s'.textAt? l = (lastText? files l).or (s.textAt? l)
  directories : s.Keeps s'
  written : ∀ file ∈ files, ∃ text, lastText? files (Store.place file.path) = some text ∧
    s'.read file.path = .ok text
  others : ∀ path text, s.read path = .ok text → lastText? files (Store.place path) = none →
    s'.read path = .ok text

private theorem holds_nil (h : s.Widened s') : Holds s [] s' := by
  refine ⟨h.texts, h.directories, fun file inside => absurd inside List.not_mem_nil, ?_⟩
  intro path text before _
  apply h.directories.read before
  rw [h.texts]
  exact (Store.read_eq_ok_iff.mp before).2.1

theorem Holds.append (h : Holds s files s₁) (h' : Holds s₁ more s') :
    Holds s (files ++ more) s' := by
  have texts (l : Location) : s'.textAt? l = (lastText? (files ++ more) l).or (s.textAt? l) := by
    rw [h'.texts, h.texts, lastText?_append, Option.or_assoc]
  refine ⟨texts, fun l there => h'.directories l (h.directories l there), ?_, ?_⟩
  · intro file inside
    rcases List.mem_append.mp inside with first | later
    · obtain ⟨old, known, before⟩ := h.written file first
      obtain ⟨text, last⟩ :
          ∃ text, lastText? (files ++ more) (Store.place file.path) = some text := by
        rw [lastText?_append, known]
        cases lastText? more (Store.place file.path) with
        | none => exact ⟨old, rfl⟩
        | some text => exact ⟨text, rfl⟩
      refine ⟨text, last, h'.directories.read before ?_⟩
      rw [texts, last, Option.some_or]
    · obtain ⟨text, known, after⟩ := h'.written file later
      refine ⟨text, ?_, after⟩
      rw [lastText?_append, known, Option.some_or]
  · intro path text before none
    rw [lastText?_append, Option.or_eq_none_iff] at none
    exact h'.others path text (h.others path text before none.2) none.1

private theorem holds_singleton (widened : s.Widened s₁)
    (written : s₁.write file.path file.content = .ok s') : Holds s [file] s' := by
  obtain ⟨rfl, absent, readable⟩ := Store.write_spec written
  have base := Store.isBase_of_lookup? absent
  have texts (l : Location) : (s₁.put (Store.place file.path) (.file file.content)).textAt? l =
      (lastText? [file] l).or (s.textAt? l) := by
    rw [lastText?_singleton, ← widened.texts, Store.textAt?_put _ base]
    split <;> rfl
  have kept := Store.keeps_put (.file file.content) absent
  refine ⟨texts, fun l there => kept l (widened.directories l there), ?_, ?_⟩
  · intro other inside
    obtain rfl := List.mem_singleton.mp inside
    exact ⟨other.content, by rw [lastText?_singleton, if_pos rfl], readable⟩
  · intro path text before none
    have same := (Store.read_eq_ok_iff.mp before).2.1
    have opened := widened.directories.read before ((widened.texts _).trans same)
    apply kept.read opened
    rw [texts, none, Option.none_or, same]

/-! Delivery. -/

private theorem Store.makeDirectories_beside (yaml : YamlReader)
    (format : String → String → StateM Store FormatOutcome) (path : String) (s : Store) :
    (Store.beside yaml format).makeDirectories path s = s.makeDirectories path := rfl

theorem stateM_bind {σ α β : Type} (x : StateM σ α) (f : α → StateM σ β) (s : σ) :
    (x >>= f) s = f (x s).1 (x s).2 := rfl

variable {yaml : YamlReader} {format : String → String → StateM Store FormatOutcome}

private theorem deliver_cases (yaml : YamlReader)
    (format : String → String → StateM Store FormatOutcome) (file : GeneratedFile) (s : Store) :
    (∃ cause s', deliver (Store.beside yaml format) file s = (.error cause, s') ∧ s.Widened s') ∨
      ∃ s', deliver (Store.beside yaml format) file s = (.ok (), s') ∧ Holds s [file] s' := by
  have ready (s₁ : Store) (widened : s.Widened s₁)
      (shape : deliver (Store.beside yaml format) file s =
        Store.change (·.write file.path file.content) s₁) :
      (∃ cause s', deliver (Store.beside yaml format) file s = (.error cause, s') ∧ s.Widened s') ∨
        ∃ s', deliver (Store.beside yaml format) file s = (.ok (), s') ∧ Holds s [file] s' := by
    simp only [Store.change] at shape
    cases written : s₁.write file.path file.content with
    | error e => exact .inl ⟨e, s₁, by rw [shape, written], widened⟩
    | ok s' => exact .inr ⟨s', by rw [shape, written], holds_singleton widened written⟩
  cases parent : Path.parent? file.path with
  | none =>
    apply ready s (.refl s)
    simp only [deliver, parent]
    rfl
  | some directory =>
    by_cases here : directory.isEmpty = true
    · apply ready s (.refl s)
      simp only [deliver, parent, if_pos here]
      rfl
    · have widened : s.Widened (s.makeDirectories directory).2 := .makeDirectories directory
      cases made : s.makeDirectories directory with
      | mk result s₁ =>
        rw [made] at widened
        cases result with
        | error e =>
          refine .inl ⟨e, s₁, ?_, widened⟩
          simp only [deliver, parent, if_neg here]
          rw [stateM_bind, Store.makeDirectories_beside, made]
          rfl
        | ok =>
          apply ready s₁ widened
          simp only [deliver, parent, if_neg here]
          rw [stateM_bind, Store.makeDirectories_beside, made]
          rfl

/-- How the delivery of some files ends. -/
inductive Delivered (system : Services (StateM Store)) (s : Store) (files : List GeneratedFile) :
    Except GenerateError Unit × Store → Prop
  /-- All files have been written. -/
  | complete {s' : Store} (written : Holds s files s') : Delivered system s files (.ok (), s')
  /-- The files before number `k` have been written, and this one cannot be written. -/
  | stopped {s₁ s' : Store} {k : Nat} {file : GeneratedFile} {cause : FileError}
      (next : files[k]? = some file) (before : deliverAll system (files.take k) s = (.ok (), s₁))
      (refused : deliver system file s₁ = (.error cause, s')) (written : Holds s (files.take k) s') :
      Delivered system s files (.error (.io file.path cause), s')

private theorem deliverAll_cons_of_error {system : Services (StateM Store)} {cause : FileError}
    (refused : deliver system file s = (.error cause, s')) (rest : List GeneratedFile) :
    deliverAll system (file :: rest) s = (.error (.io file.path cause), s') := by
  rw [deliverAll, stateM_bind, refused]
  rfl

private theorem deliverAll_cons_of_ok {system : Services (StateM Store)}
    (done : deliver system file s = (.ok (), s')) (rest : List GeneratedFile) :
    deliverAll system (file :: rest) s = deliverAll system rest s' := by
  rw [deliverAll, stateM_bind, done]

theorem delivered_deliverAll (yaml : YamlReader)
    (format : String → String → StateM Store FormatOutcome) (files : List GeneratedFile)
    (s : Store) :
    Delivered (Store.beside yaml format) s files (deliverAll (Store.beside yaml format) files s) := by
  induction files generalizing s with
  | nil => exact .complete (holds_nil (.refl s))
  | cons file rest ih =>
    rcases deliver_cases yaml format file s with ⟨cause, s', refused, widened⟩ | ⟨s', done, written⟩
    · rw [deliverAll_cons_of_error refused]
      exact .stopped (k := 0) rfl rfl refused (holds_nil widened)
    · rw [deliverAll_cons_of_ok done]
      have later := ih s'
      generalize deliverAll (Store.beside yaml format) rest s' = ending at later ⊢
      cases later with
      | complete all => exact .complete (written.append all)
      | @stopped s₁ s₂ k next cause listed before refused some =>
        refine .stopped (k := k + 1) listed ?_ refused (written.append some)
        rw [List.take_succ_cons, deliverAll_cons_of_ok done, before]

end DeviceLink
