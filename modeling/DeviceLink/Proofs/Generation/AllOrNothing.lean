import DeviceLink.Program.Run
import DeviceLink.Proofs.Dispatch.FileScope
import DeviceLink.Proofs.Generation.Delivery

/-!
All or nothing. A generation that is refused by the validation or by a generator leaves the file
system as it was; otherwise all files are written in order, up to the first that cannot be written.
The program as a whole keeps to the same rule (`generation_is_all_or_nothing`).
-/

set_option autoImplicit false
set_option relaxedAutoImplicit false

namespace DeviceLink

variable {t : Tree} {generators : List Generator} {s : Store} {yaml : YamlReader}
  {format : String → String → StateM Store FormatOutcome}

/-! The plan. -/

private theorem plannedFiles_of_parts {parts : List (List GeneratedFile)}
    (made : List.Forall₂ (fun g part => g.generate t = .ok part) generators parts) :
    plannedFiles t generators = .ok parts.flatten := by
  induction made with
  | nil => rfl
  | cons first _ ih =>
    rw [plannedFiles, first, ih]
    rfl

private theorem plannedFiles_of_failure {before after : List Generator} {g : Generator}
    {cause : String} (made : ∀ g' ∈ before, ∃ part, g'.generate t = .ok part)
    (failed : g.generate t = .error cause) :
    plannedFiles t (before ++ g :: after) = .error (.generator g.language cause) := by
  induction before with
  | nil =>
    rw [List.nil_append, plannedFiles, failed]
  | cons first rest ih =>
    obtain ⟨⟨part, own⟩, others⟩ := List.forall_mem_cons.mp made
    rw [List.cons_append, plannedFiles, own, ih others]
    rfl

private theorem plan_of_invalid (invalid : t.violations ≠ []) (generators : List Generator) :
    plan t generators = .error (.validation t.violations) := by
  have refused : t.isValid = false := by simpa [Tree.isValid] using invalid
  rw [plan, refused]
  rfl

private theorem plan_of_valid (valid : t.violations = []) (generators : List Generator) :
    plan t generators = plannedFiles t generators := by
  have accepted : t.isValid = true := by rw [Tree.isValid, valid]; rfl
  rw [plan, if_pos accepted]

/-! Generation. -/

private theorem generate_of_refused {e : GenerateError} (refused : plan t generators = .error e)
    (system : Services (StateM Store)) (o : FormatOptions) (s : Store) :
    generate system t generators o s = (.error e, s) := by
  rw [generate, refused]
  rfl

/-- What follows a delivery: when all files are written, the formatter, if it is asked for. -/
def concluded (system : Services (StateM Store)) (o : FormatOptions) (paths : List String) :
    Except GenerateError Unit × Store → Except GenerateError (List String) × Store
  | (.error e, s) => (.error e, s)
  | (.ok _, s) => (.ok paths, if o.enabled then (formatFiles system o.style paths s).2 else s)

private theorem generate_of_planned {files : List GeneratedFile}
    (planned : plan t generators = .ok files) (system : Services (StateM Store)) (o : FormatOptions)
    (s : Store) :
    generate system t generators o s =
      concluded system o (files.map (·.path)) (deliverAll system files s) := by
  rw [generate, planned]
  simp only [stateM_bind]
  obtain ⟨result, s'⟩ := deliverAll system files s
  cases result with
  | error e => rfl
  | ok =>
    rw [concluded]
    cases o.enabled <;> rfl

/-! The program. -/

/-- Why a run of the program ends before it writes anything. -/
inductive Hindered (system : Services (StateM Store)) (a : Arguments) (s : Store) : RunError → Prop
  | document {e : LoadError} (unloaded : (loadDocument system a.document s).1 = .error e) :
      Hindered system a s (.load e)
  | tree {document : Json} {e : SchemaError}
      (loaded : (loadDocument system a.document s).1 = .ok document)
      (unbuilt : Schema.build document a.withRootName = .error e) :
      Hindered system a s (.build a.document e)
  | configuration {document : Json} {t : Tree} {e : LoadError}
      (loaded : (loadDocument system a.document s).1 = .ok document)
      (built : Schema.build document a.withRootName = .ok t)
      (unloaded : (loadConfiguration system a.configuration s).1 = .error e) :
      Hindered system a s (.load e)
  /-- The validation or a generator refuses the tree. -/
  | plan {document : Json} {t : Tree} {c : Configuration} {e : GenerateError}
      (loaded : (loadDocument system a.document s).1 = .ok document)
      (built : Schema.build document a.withRootName = .ok t)
      (configured : (loadConfiguration system a.configuration s).1 = .ok c)
      (asked : c.generators ≠ []) (refused : plan t c.generators = .error e) :
      Hindered system a s (.generate e)

private theorem loadDocument_state (yaml : YamlReader)
    (format : String → String → StateM Store FormatOutcome) (path : String) (s : Store) :
    (loadDocument (Store.beside yaml format) path s).2 = s := by
  have opened : (Store.beside yaml format).read path s = (s.read path, s) := rfl
  rw [loadDocument, stateM_bind, opened]
  cases s.read path with
  | error cause => rfl
  | ok text =>
    dsimp only
    cases (DocumentNotation.ofPath path).read? (Store.beside yaml format).yaml text <;> rfl

private theorem loadConfiguration_state (yaml : YamlReader)
    (format : String → String → StateM Store FormatOutcome) (path : String) (s : Store) :
    (loadConfiguration (Store.beside yaml format) path s).2 = s := by
  have opened : (Store.beside yaml format).read path s = (s.read path, s) := rfl
  rw [loadConfiguration, stateM_bind, opened]
  cases s.read path with
  | error cause => rfl
  | ok text =>
    dsimp only
    cases (Store.beside yaml format).yaml.configuration? text <;> rfl

private theorem run_of_configured {a : Arguments} {document : Json} {c : Configuration}
    (loaded : (loadDocument (Store.beside yaml format) a.document s).1 = .ok document)
    (built : Schema.build document a.withRootName = .ok t)
    (configured : (loadConfiguration (Store.beside yaml format) a.configuration s).1 = .ok c)
    (asked : c.generators ≠ []) :
    run (Store.beside yaml format) a s =
      ((generate (Store.beside yaml format) t c.generators a.format s).1.mapError .generate,
        (generate (Store.beside yaml format) t c.generators a.format s).2) := by
  have some : ¬ c.generators.isEmpty = true := by simpa using asked
  rw [run, stateM_bind, loadDocument_state, loaded]
  simp only [built, stateM_bind, loadConfiguration_state, configured, if_neg some]
  obtain ⟨result, s'⟩ := generate (Store.beside yaml format) t c.generators a.format s
  cases result <;> rfl

private theorem run_of_hindered {a : Arguments} {e : RunError}
    (h : Hindered (Store.beside yaml format) a s e) :
    run (Store.beside yaml format) a s = (.error e, s) := by
  cases h with
  | document unloaded =>
    rw [run, stateM_bind, loadDocument_state, unloaded]
    rfl
  | tree loaded unbuilt =>
    rw [run, stateM_bind, loadDocument_state, loaded]
    simp only [unbuilt]
    rfl
  | configuration loaded built unloaded =>
    rw [run, stateM_bind, loadDocument_state, loaded]
    simp only [built, stateM_bind, loadConfiguration_state, unloaded]
    rfl
  | plan loaded built configured asked refused =>
    rw [run_of_configured loaded built configured asked, generate_of_refused refused]
    rfl

private theorem run_of_unasked {a : Arguments} {document : Json} {c : Configuration}
    (loaded : (loadDocument (Store.beside yaml format) a.document s).1 = .ok document)
    (built : Schema.build document a.withRootName = .ok t)
    (configured : (loadConfiguration (Store.beside yaml format) a.configuration s).1 = .ok c)
    (unasked : c.generators = []) : run (Store.beside yaml format) a s = (.ok [], s) := by
  have none : c.generators.isEmpty = true := by simpa using unasked
  rw [run, stateM_bind, loadDocument_state, loaded]
  simp only [built, stateM_bind, loadConfiguration_state, configured, if_pos none]
  rfl

private theorem hindered_of_run {a : Arguments} {e : RunError} {s' : Store}
    (failed : run (Store.beside yaml format) a s = (.error e, s')) :
    Hindered (Store.beside yaml format) a s e ∨ ∃ path cause, e = .generate (.io path cause) := by
  have settle {e' : RunError} (hindered : Hindered (Store.beside yaml format) a s e') :
      Hindered (Store.beside yaml format) a s e ∨ ∃ path cause, e = .generate (.io path cause) := by
    rw [run_of_hindered hindered] at failed
    obtain rfl := Except.error.inj (Prod.mk.inj failed).1
    exact .inl hindered
  cases loaded : (loadDocument (Store.beside yaml format) a.document s).1 with
  | error cause => exact settle (.document loaded)
  | ok document =>
    cases built : Schema.build document a.withRootName with
    | error cause => exact settle (.tree loaded built)
    | ok t =>
      cases configured : (loadConfiguration (Store.beside yaml format) a.configuration s).1 with
      | error cause => exact settle (.configuration loaded built configured)
      | ok c =>
        by_cases asked : c.generators = []
        · rw [run_of_unasked loaded built configured asked] at failed
          cases (Prod.mk.inj failed).1
        · cases planned : plan t c.generators with
          | error refusal => exact settle (.plan loaded built configured asked planned)
          | ok files =>
            have delivered := delivered_deliverAll yaml format files s
            rw [run_of_configured loaded built configured asked, generate_of_planned planned]
              at failed
            generalize deliverAll (Store.beside yaml format) files s = ended at delivered failed
            cases delivered with
            | complete => cases (Prod.mk.inj failed).1
            | stopped =>
              obtain rfl := Except.error.inj (Prod.mk.inj failed).1
              exact .inr ⟨_, _, rfl⟩

/-- A generation that the validation or a generator refuses answers with the error of the first
refusal and leaves the state as it was. Otherwise the files of all generators are delivered in
order, the formatter comes last, and the answer is their paths. A run of the program, whatever YAML
it can read, is that generation once document, tree and configuration are there; when it fails, it
leaves the state as it was, unless the failure is that of a write. -/
theorem generation_is_all_or_nothing (yaml : YamlReader)
    (format : String → String → StateM Store FormatOutcome) (t : Tree)
    (generators : List Generator) (o : FormatOptions) (a : Arguments) (s : Store) :
    (t.violations ≠ [] → generate (Store.beside yaml format) t generators o s =
      (.error (.validation t.violations), s)) ∧
    (t.violations = [] → ∀ before g after cause, generators = before ++ g :: after →
      (∀ g' ∈ before, ∃ part, g'.generate t = .ok part) → g.generate t = .error cause →
        generate (Store.beside yaml format) t generators o s =
          (.error (.generator g.language cause), s)) ∧
    (t.violations = [] → ∀ parts,
      List.Forall₂ (fun g part => g.generate t = .ok part) generators parts →
        ∃ ended, Delivered (Store.beside yaml format) s parts.flatten ended ∧
          generate (Store.beside yaml format) t generators o s =
            concluded (Store.beside yaml format) o (parts.flatten.map (·.path)) ended) ∧
    (∀ document tree c, (loadDocument (Store.beside yaml format) a.document s).1 = .ok document →
      Schema.build document a.withRootName = .ok tree →
      (loadConfiguration (Store.beside yaml format) a.configuration s).1 = .ok c →
      c.generators ≠ [] → run (Store.beside yaml format) a s =
        ((generate (Store.beside yaml format) tree c.generators a.format s).1.mapError .generate,
          (generate (Store.beside yaml format) tree c.generators a.format s).2)) ∧
    (∀ e, Hindered (Store.beside yaml format) a s e →
      run (Store.beside yaml format) a s = (.error e, s)) ∧
    ∀ e s', run (Store.beside yaml format) a s = (.error e, s') →
      Hindered (Store.beside yaml format) a s e ∨ ∃ path cause, e = .generate (.io path cause) := by
  refine ⟨?_, ?_, ?_, fun document tree c => run_of_configured, fun e => run_of_hindered,
    fun e s' => hindered_of_run⟩
  · intro invalid
    exact generate_of_refused (plan_of_invalid invalid generators) _ o s
  · rintro valid before g after cause rfl made failed
    apply generate_of_refused
    rw [plan_of_valid valid, plannedFiles_of_failure made failed]
  · intro valid parts made
    refine ⟨_, delivered_deliverAll yaml format parts.flatten s, ?_⟩
    apply generate_of_planned
    rw [plan_of_valid valid, plannedFiles_of_parts made]

open Dispatch (generator coolerSettings lamp)

def lampGenerators : List Generator :=
  [generator coolerSettings, Reference.generator "docs/lamp.rst"]

def tightSettings : Dispatch.Settings :=
  { coolerSettings with maxPayload := 0 }

def heaterText (unit : String) : String :=
  "name: heater\nremote_attributes:\n  - name: power\n    dtype: float\n    unit: " ++ unit ++
    "\n    getter_name: heater_get_power\n"

def heaterDocument (unit : String) : Json :=
  .object [("name", .string "heater"), ("remote_attributes", .array [
    .object [("dtype", .string "float"), ("getter_name", .string "heater_get_power"),
      ("name", .string "power"), ("unit", .string unit)]])]

def referenceText : String :=
  "generators:\n  generator_rst:\n    paths:\n      output_file: gen/heater.rst\n"

/-- Readers that know YAML of the heater, in watts and in a unit that there is not. -/
def heaterYaml : YamlReader where
  document? text := (["watt", "horse"].find? (heaterText · = text)).map heaterDocument
  configuration? text :=
    if text = referenceText then some { reference := some ⟨true, "gen/heater.rst"⟩ } else none

def heaterStore (unit : String) : Store :=
  (({} : Store).provide "heater.yaml" (heaterText unit)).provide "avlos_config.yaml" referenceText

def heaterArguments : Arguments where
  document := "heater.yaml"
  configuration := "avlos_config.yaml"
  format := ⟨false, "LLVM"⟩

private theorem loadDocument_heater (format : String → String → StateM Store FormatOutcome) :
    ∀ unit ∈ ["watt", "horse"],
      (loadDocument (Store.beside heaterYaml format) "heater.yaml" (heaterStore unit)).1 =
        .ok (heaterDocument unit) := by
  rw [List.forall_mem_cons, List.forall_mem_singleton]
  exact ⟨rfl, rfl⟩

theorem generation_is_all_or_nothing_lamp :
    generate (Store.fileSystem .working) Tree.twins lampGenerators {} {} =
        (.error (.validation Tree.twins.violations), {}) ∧
      generate (Store.fileSystem .working) lamp
        (lampGenerators ++ [generator tightSettings]) {} {} =
          (.error (.generator "c" "max_payload must be at least 1"), {}) ∧
      (∃ files s', generate (Store.fileSystem .working) lamp lampGenerators ⟨false, "LLVM"⟩ {} =
        (.ok ["enums.h", "endpoints.h", "endpoints.c", "docs/lamp.rst"], s') ∧ Holds {} files s') ∧
      (∃ s', run (Store.beside heaterYaml (Store.formatWith .missing)) heaterArguments
        (heaterStore "watt") = (.ok ["gen/heater.rst"], s')) ∧
      ∃ e, run (Store.beside heaterYaml (Store.formatWith .missing)) heaterArguments
        (heaterStore "horse") = (.error (.build "heater.yaml" e), heaterStore "horse") := by
  have valid : lamp.violations = [] := by decide +kernel
  have room : ((generator coolerSettings).generate lamp).toOption.isSome = true := by decide +kernel
  obtain ⟨code, found⟩ := Option.isSome_iff_exists.mp room
  have made := toOption_eq_some_iff.mp found
  let reference := Reference.generate "docs/lamp.rst" lamp
  have theorems (t : Tree) (generators : List Generator) (o : FormatOptions) :=
    generation_is_all_or_nothing .ofJson (Store.formatWith .working) t generators o
      heaterArguments {}
  have runs (unit : String) := generation_is_all_or_nothing heaterYaml (Store.formatWith .missing)
    lamp [] {} heaterArguments (heaterStore unit)
  refine ⟨?_, ?_, ?_, ?_, ?_⟩
  · exact (theorems Tree.twins lampGenerators {}).1 (by decide +kernel)
  · apply (theorems lamp _ {}).2.1 valid lampGenerators (generator tightSettings) [] _ rfl
    · intro g inside
      rcases List.mem_cons.mp inside with rfl | later
      · exact ⟨code, made⟩
      · obtain rfl := List.mem_singleton.mp later
        exact ⟨[reference], rfl⟩
    · rfl
  · obtain ⟨ended, delivered, same⟩ := (theorems lamp lampGenerators ⟨false, "LLVM"⟩).2.2.1 valid
      [code, [reference]] (.cons made (.cons rfl .nil))
    obtain ⟨i, -, rfl⟩ := Dispatch.files_of_generate (mapError_eq_ok_iff.mp made)
    cases delivered with
    | complete written => exact ⟨_, _, same, written⟩
    | stopped =>
      have done : (generate (Store.fileSystem .working) lamp lampGenerators
          ⟨false, "LLVM"⟩ {}).1.toOption.isSome = true := by decide +kernel
      rw [Store.fileSystem, same] at done
      cases done
  · cases built : Schema.build (heaterDocument "watt") false with
    | error e =>
      have some : (Schema.build (heaterDocument "watt") false).toOption.isSome = true := by
        decide +kernel
      rw [built] at some
      cases some
    | ok t =>
      have same := (runs "watt").2.2.2.1 _ t _ (loadDocument_heater _ "watt" (by decide)) built rfl
        (List.cons_ne_nil _ _)
      have done : (run (Store.beside heaterYaml (Store.formatWith .missing)) heaterArguments
          (heaterStore "watt")).1.toOption = some ["gen/heater.rst"] := by decide +kernel
      rw [same] at done
      exact ⟨_, same.trans (Prod.ext (toOption_eq_some_iff.mp done) rfl)⟩
  · cases built : Schema.build (heaterDocument "horse") false with
    | error e =>
      have loaded := loadDocument_heater (Store.formatWith .missing) "horse" (by decide)
      exact ⟨e, (runs "horse").2.2.2.2.1 _ (.tree loaded built)⟩
    | ok t =>
      have none : (Schema.build (heaterDocument "horse") false).toOption.isSome = false := by
        decide +kernel
      rw [built] at none
      cases none

/-- Whether code of the lamp is written, but some path does not hold the text of the last file that
was generated for it. -/
def Reworked (formatter : Formatter) (settings : Dispatch.Settings) (o : FormatOptions) : Prop :=
  ∃ files s', plan lamp [generator settings] = .ok files ∧
    generate (Store.fileSystem formatter) lamp [generator settings] o {} =
      (.ok (files.map (·.path)), s') ∧
    ∃ file ∈ files, files.reverse.find? (·.path == file.path) = some file ∧
      s'.read file.path ≠ .ok file.content

private theorem reworked_of_check {formatter : Formatter} {settings : Dispatch.Settings}
    {o : FormatOptions} (check : (plan lamp [generator settings]).toOption.any (fun files =>
      let ended := generate (Store.fileSystem formatter) lamp [generator settings] o {}
      decide (ended.1.toOption = some (files.map (·.path)) ∧ ∃ file ∈ files,
        files.reverse.find? (·.path == file.path) = some file ∧
          (ended.2.read file.path).toOption ≠ some file.content)) = true) :
    Reworked formatter settings o := by
  obtain ⟨files, found, facts⟩ := (Option.any_eq_true _ _).mp check
  have planned := toOption_eq_some_iff.mp found
  obtain ⟨done, file, inside, last, other⟩ := of_decide_eq_true facts
  obtain ⟨s', ended⟩ : ∃ s', generate (Store.fileSystem formatter) lamp [generator settings] o {} =
      (.ok (files.map (·.path)), s') := ⟨_, Prod.ext (toOption_eq_some_iff.mp done) rfl⟩
  refine ⟨files, s', planned, ended, file, inside, last, fun same => other ?_⟩
  rw [ended, same]
  rfl

/-- Formatted code is not what was generated, and two paths can lead to one place. -/
theorem reworked_lamp :
    Reworked .working coolerSettings {} ∧
      Reworked .missing { coolerSettings with paths := ⟨"lamp.h", "./lamp.h", "lamp.c"⟩ }
        ⟨false, "LLVM"⟩ :=
  ⟨reworked_of_check (by decide +kernel), reworked_of_check (by decide +kernel)⟩

end DeviceLink
