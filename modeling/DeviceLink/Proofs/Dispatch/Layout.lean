import DeviceLink.Proofs.Dispatch.FileScope
import DeviceLink.Proofs.Wire.Codec

/-!
Where the arguments of a call stand in its payload. `Unpacking` carries out the statements of a
dispatcher as far as they declare variables and copy from the buffer, with the offset in a byte as
the generated code has it. In the text of the dispatcher these statements are the lines of
`unpackingLines`, all in one piece. The host puts each argument behind all earlier ones, however
many bytes these take; the device looks for it at the same place modulo 256 (`layout_agrees_iff`).
-/

set_option autoImplicit false
set_option relaxedAutoImplicit false

namespace DeviceLink

private theorem ownerOf?_of_mem {κ ω : Type} [BEq κ] [LawfulBEq κ] {l : List (κ × ω)} {key : κ}
    {owner : ω} (distinct : (l.map Prod.fst).Nodup) (inside : (key, owner) ∈ l) :
    ownerOf? l key = some owner := by
  induction l with
  | nil => exact absurd inside List.not_mem_nil
  | cons entry rest ih =>
    rw [List.map_cons, List.nodup_cons] at distinct
    rw [ownerOf?_cons]
    rcases List.mem_cons.mp inside with rfl | later
    · simp
    · have other : entry.1 ≠ key := by
        rintro rfl
        exact distinct.1 (List.mem_map.mpr ⟨_, later, rfl⟩)
      rw [if_neg (by simpa using other)]
      exact ih distinct.2 later

def totalWidth (arguments : List Argument) : Nat :=
  (arguments.map fun a => Wire.width a.dataType).sum

namespace Dispatch

open Wire (Payload)

def cSize (type : String) : Nat :=
  ((DataType.all.find? (·.cName == type)).map Wire.width).getD 0

/-- A copy from the buffer into a variable. -/
structure Copy where
  target : String
  offset : UInt8
  length : Nat
deriving DecidableEq

/-- What a dispatcher has done with the buffer so far. -/
structure Unpacking where
  /-- The variables with their sizes, the latest first. -/
  sizes : List (String × Nat) := []
  offset : UInt8 := 0
  copies : List Copy := []
deriving DecidableEq

namespace Unpacking

def sizeOf (s : Unpacking) (name : String) : Nat :=
  (ownerOf? s.sizes name).getD 0

/-- One statement. The offset is a byte, so that moving it on may bring it back to the start. -/
def next (s : Unpacking) : Statement → Unpacking
  | .declare type name | .declareResult type name _ _ =>
    { s with sizes := (name, cSize type) :: s.sizes }
  | .declareOffset => { s with offset := 0 }
  | .unpack name => { s with copies := s.copies ++ [⟨name, s.offset, s.sizeOf name⟩] }
  | .advance name => { s with offset := s.offset + UInt8.ofNat (s.sizeOf name) }
  | .ignoreCommand | .fetch _ _ | .call _ _ | .load _ | .store _ | .setLength _ | .clearLength
  | .answer _ | .delegate _ _ => s

def run (s : Unpacking) (statements : List Statement) : Unpacking :=
  statements.foldl next s

variable {s : Unpacking} {arguments : List Argument}

private theorem run_append (s : Unpacking) (first second : List Statement) :
    s.run (first ++ second) = (s.run first).run second :=
  List.foldl_append

private theorem cSize_cName (t : DataType) : cSize t.cName = Wire.width t := by
  cases t <;> decide

def declarations (arguments : List Argument) : List Statement :=
  arguments.map fun a => .declare a.dataType.cName a.name

def argumentSizes (arguments : List Argument) : List (String × Nat) :=
  arguments.map fun a => (a.name, Wire.width a.dataType)

private theorem run_declarations (s : Unpacking) (arguments : List Argument) :
    s.run (declarations arguments) =
      { s with sizes := (argumentSizes arguments).reverse ++ s.sizes } := by
  induction arguments generalizing s with
  | nil => rfl
  | cons a rest ih =>
    have first : s.next (.declare a.dataType.cName a.name) =
        { s with sizes := (a.name, Wire.width a.dataType) :: s.sizes } := by
      rw [next, cSize_cName]
    rw [declarations, List.map_cons, run, List.foldl_cons, first]
    refine (ih _).trans ?_
    simp only [argumentSizes, List.map_cons, List.reverse_cons, List.append_assoc,
      List.singleton_append]

/-- The copies of arguments from an offset on, each behind the one before. -/
def placed (offset : UInt8) : List Argument → List Copy
  | [] => []
  | a :: rest =>
    ⟨a.name, offset, Wire.width a.dataType⟩ ::
      placed (offset + UInt8.ofNat (Wire.width a.dataType)) rest

private theorem run_unpack (known : ∀ a ∈ arguments, s.sizeOf a.name = Wire.width a.dataType) :
    s.run (arguments.flatMap fun a => [.unpack a.name, .advance a.name]) =
      { s with offset := s.offset + UInt8.ofNat (totalWidth arguments)
               copies := s.copies ++ placed s.offset arguments } := by
  induction arguments generalizing s with
  | nil => simp [run, totalWidth, placed]
  | cons a rest ih =>
    have size := known a List.mem_cons_self
    have first : s.run [.unpack a.name, .advance a.name] =
        { s with offset := s.offset + UInt8.ofNat (Wire.width a.dataType)
                 copies := s.copies ++ [⟨a.name, s.offset, Wire.width a.dataType⟩] } := by
      simp only [run, List.foldl_cons, List.foldl_nil, next, sizeOf] at size ⊢
      rw [size]
    rw [List.flatMap_cons, run_append, first]
    refine (ih ?_).trans ?_
    · intro b inside
      exact known b (List.mem_cons_of_mem _ inside)
    simp only [totalWidth, placed, List.map_cons, List.sum_cons, UInt8.ofNat_add, UInt8.add_assoc,
      List.append_assoc, List.singleton_append]

@[simp] theorem length_placed (offset : UInt8) (arguments : List Argument) :
    (placed offset arguments).length = arguments.length := by
  induction arguments generalizing offset with
  | nil => rfl
  | cons a rest ih => rw [placed, List.length_cons, ih, List.length_cons]

private theorem getElem?_placed (offset : UInt8) (arguments : List Argument) (k : Nat) :
    (placed offset arguments)[k]? = arguments[k]?.map fun a =>
      ⟨a.name, offset + UInt8.ofNat (totalWidth (arguments.take k)), Wire.width a.dataType⟩ := by
  induction arguments generalizing offset k with
  | nil => rfl
  | cons a rest ih =>
    cases k with
    | zero => simp [placed, totalWidth]
    | succ k =>
      rw [placed, List.getElem?_cons_succ, List.getElem?_cons_succ, ih]
      simp only [totalWidth, List.take_succ_cons, List.map_cons, List.sum_cons, UInt8.ofNat_add,
        UInt8.add_assoc]

private theorem copies_run_callStatements (s : Unpacking) (f : Function) :
    (s.run (callStatements f)).copies = s.copies := by
  rw [callStatements]
  split <;> rfl

private theorem run_unpackArguments (s : Unpacking) (arguments : List Argument)
    (known : ∀ a ∈ arguments, s.sizeOf a.name = Wire.width a.dataType) :
    (s.run (unpackArguments arguments)).copies = s.copies ++ placed 0 arguments := by
  cases arguments with
  | nil => simp [unpackArguments, run, placed]
  | cons a rest => exact congrArg copies (run_unpack (s := { s with offset := 0 }) known)

private theorem declarations_of_mapM {arguments : List Argument} {name : String}
    {found : List Statement} (mapped : arguments.mapM (declareArgument name) = .ok found) :
    found = declarations arguments := by
  have paired := forall₂_of_mapM_eq_ok mapped
  rw [declarations, ← List.map_id found]
  refine (map_eq_map_of_forall₂ paired fun a s made => ?_).symm
  rw [declareArgument] at made
  split at made
  · exact Except.ok.inj made
  · cases made

end Unpacking

def statementsOf (f : Function) : List Statement :=
  .ignoreCommand :: Unpacking.declarations f.arguments ++ unpackArguments f.arguments ++
    callStatements f

theorem functionStatements_eq_ok {f : Function} {name : String} {statements : List Statement}
    (made : functionStatements f name = .ok statements) :
    statements = statementsOf f ∧ f.result.isString = false ∧
      ∀ a ∈ f.arguments, a.dataType.isString = false := by
  rw [functionStatements] at made
  split at made
  · cases made
  · rename_i plain
    obtain ⟨found, mapped, rest⟩ := bind_eq_ok_iff.mp made
    have fixed : List.Forall₂ (fun a s => a.dataType.isString = false ∧
        declareArgument name a = .ok s) f.arguments found := by
      refine (forall₂_of_mapM_eq_ok mapped).imp fun a s declared => ⟨?_, declared⟩
      rw [declareArgument] at declared
      split at declared
      · rename_i width
        simp only [DataType.isFixedWidth, Bool.and_eq_true, Bool.not_eq_true'] at width
        exact width.2
      · cases declared
    refine ⟨?_, Bool.not_eq_true _ ▸ plain, ((List.forall₂_and_left _ _).mp fixed).1⟩
    rw [← Except.ok.inj rest, Unpacking.declarations_of_mapM mapped]
    rfl

private theorem copies_statementsOf {f : Function} (clear : f.ClearArguments) :
    (Unpacking.run {} (statementsOf f)).copies = Unpacking.placed 0 f.arguments := by
  have known : ∀ a ∈ f.arguments, (Unpacking.run {}
      (.ignoreCommand :: Unpacking.declarations f.arguments)).sizeOf a.name =
        Wire.width a.dataType := by
    intro a inside
    have distinct : ((Unpacking.argumentSizes f.arguments).reverse.map Prod.fst).Nodup := by
      rw [List.map_reverse, List.nodup_reverse, Unpacking.argumentSizes, List.map_map]
      exact clear.different
    have listed : (a.name, Wire.width a.dataType) ∈ (Unpacking.argumentSizes f.arguments).reverse :=
      List.mem_reverse.mpr (List.mem_map_of_mem inside)
    change (Unpacking.run {} (Unpacking.declarations f.arguments)).sizeOf a.name = _
    rw [Unpacking.run_declarations, Unpacking.sizeOf, List.append_nil,
      ownerOf?_of_mem distinct listed]
    rfl
  rw [statementsOf, Unpacking.run_append, Unpacking.run_append, Unpacking.copies_run_callStatements,
    Unpacking.run_unpackArguments _ _ known]
  change (Unpacking.run {} (Unpacking.declarations f.arguments)).copies ++ _ = _
  rw [Unpacking.run_declarations]
  rfl

/-! The text of these statements. -/

/-- The lines that declare arguments and take them out of the buffer, at an offset in a byte. -/
def unpackingLines (arguments : List Argument) : List String :=
  arguments.map (fun a => a.dataType.cName ++ " " ++ a.name ++ ";") ++
    if arguments.isEmpty then [] else
      "uint8_t _offset = 0;" :: arguments.flatMap fun a =>
        ["memcpy(&" ++ a.name ++ ", buffer + _offset, sizeof(" ++ a.name ++ "));",
          "_offset += sizeof(" ++ a.name ++ ");"]

private theorem text_unpack (name : String) : (Statement.unpack name).text =
    "memcpy(&" ++ name ++ ", buffer + _offset, sizeof(" ++ name ++ "));" := by
  rw [← String.toList_inj]
  simp [Statement.text, callText, sizeText, copyFunction, bufferName, offsetName,
    String.intercalate_cons_cons]

private theorem text_advance (name : String) :
    (Statement.advance name).text = "_offset += sizeof(" ++ name ++ ");" := by
  rw [← String.toList_inj]
  simp [Statement.text, callText, sizeText, offsetName]

private theorem map_text_unpacking (arguments : List Argument) :
    (Unpacking.declarations arguments ++ unpackArguments arguments).map (·.text) =
      unpackingLines arguments := by
  have declared : (Unpacking.declarations arguments).map (·.text) =
      arguments.map fun a => a.dataType.cName ++ " " ++ a.name ++ ";" := by
    rw [Unpacking.declarations, List.map_map]
    rfl
  rw [List.map_append, declared, unpackingLines]
  cases arguments with
  | nil => rfl
  | cons a rest =>
    have copied : ((a :: rest).flatMap fun a => [Statement.unpack a.name, .advance a.name]).map
        (·.text) = (a :: rest).flatMap fun a =>
          ["memcpy(&" ++ a.name ++ ", buffer + _offset, sizeof(" ++ a.name ++ "));",
            "_offset += sizeof(" ++ a.name ++ ");"] := by
      simp only [List.map_flatMap, List.map_cons, List.map_nil, text_unpack, text_advance]
    exact congrArg (fun texts => _ ++ "uint8_t _offset = 0;" :: texts) copied

/-- The text of the dispatcher of a function has the lines of the unpacking in one piece. -/
private theorem exists_text_eq_of_statements {d : Dispatcher} {f : Function}
    (statements : d.statements = statementsOf f) : ∃ before after, d.text =
      Text.ofLines (before ++ (unpackingLines f.arguments).map ("    " ++ ·) ++ after) := by
  have texts : d.statements.map (·.text) =
      ["(void)cmd;"] ++ unpackingLines f.arguments ++ (callStatements f).map (·.text) := by
    rw [statements, ← map_text_unpacking, statementsOf]
    simp only [List.map_append, List.map_cons, List.append_assoc]
    rfl
  refine ⟨["", (d.qualifier.map fun qualifier => Text.trimmed qualifier ++ " ").getD "" ++
      headOf d.name, "\x7b"] ++ (branchLines "if" d.branches ++ ["(void)cmd;"]).map ("    " ++ ·),
    ((callStatements f).map (·.text)).map ("    " ++ ·) ++ ["\x7d"], ?_⟩
  rw [text_dispatcher, definitionLines, texts]
  simp only [List.map_append, List.append_assoc]

end Dispatch

namespace Endpoint

open Wire (Payload)

private theorem argumentScalars_getElem? {path : String} {arguments : List Argument}
    {values : List Value} {scalars : List (DataType × Scalar)}
    (same : values.length = arguments.length)
    (h : argumentScalars path arguments values = .ok scalars) :
    scalars.map Prod.fst = arguments.map (·.dataType) ∧
      ∀ (k : Nat) (a : Argument), arguments[k]? = some a → ∃ value scalar,
        values[k]? = some value ∧
        scalarOf (path ++ "(" ++ a.name ++ ")") value a.unit = .ok scalar ∧
        scalars[k]? = some (a.dataType, scalar) := by
  induction arguments generalizing values scalars with
  | nil =>
    obtain rfl : [] = scalars := Except.ok.inj h
    exact ⟨rfl, by simp⟩
  | cons a rest ih =>
    cases values with
    | nil => cases same
    | cons value values =>
      rw [argumentScalars] at h
      cases here : scalarOf (path ++ "(" ++ a.name ++ ")") value a.unit with
      | error e => simp [here, bind, Except.bind] at h
      | ok scalar =>
        cases others : argumentScalars path rest values with
        | error e => simp [here, others, bind, Except.bind] at h
        | ok more =>
          simp only [here, others, bind, Except.bind, Except.ok.injEq] at h
          subst h
          obtain ⟨types, each⟩ := ih (Nat.succ.inj same) others
          refine ⟨congrArg _ types, fun k b found => ?_⟩
          cases k with
          | zero =>
            obtain rfl := Option.some.inj found
            exact ⟨value, scalar, rfl, here, rfl⟩
          | succ k => exact each k b found

/-- A payload holds the value that is given for an argument behind so many bytes. -/
def HoldsAt (path : String) (a : Argument) (given : Option Value) (payload : Payload)
    (offset : Nat) : Prop :=
  ∃ value scalar before piece after, given = some value ∧
    scalarOf (path ++ "(" ++ a.name ++ ")") value a.unit = .ok scalar ∧
    Wire.encode a.dataType scalar = .ok piece ∧ piece.length = Wire.width a.dataType ∧
    payload = before ++ piece ++ after ∧ before.length = offset

private theorem holdsAt_of_callPayload {path : String} {f : Function} {values : List Value}
    {payload : Payload} (fixed : ∀ a ∈ f.arguments, a.dataType.isFixedWidth = true)
    (h : callPayload path f values = .ok payload) {k : Nat} {a : Argument}
    (found : f.arguments[k]? = some a) :
    HoldsAt path a values[k]? payload (totalWidth (f.arguments.take k)) := by
  rw [callPayload] at h
  split at h
  · cases h
  · rename_i same
    cases listed : argumentScalars path f.arguments values with
    | error e => simp [listed, bind, Except.bind] at h
    | ok scalars =>
      cases encoded : Wire.encodeAll scalars with
      | error e => simp [listed, encoded, lift, Except.mapError, bind, Except.bind] at h
      | ok bytes =>
        simp only [listed, encoded, lift, Except.mapError, bind, Except.bind,
          Except.ok.injEq] at h
        obtain ⟨types, each⟩ := argumentScalars_getElem? (not_not.mp same) listed
        obtain ⟨value, scalar, given, converted, stored⟩ := each k a found
        obtain ⟨before, piece, after, whole, here, earlier⟩ := Wire.encodeAll_split encoded stored
        have member : a ∈ f.arguments := List.mem_of_getElem? found
        have widths (k : Nat) : (scalars.take k).map (fun entry => Wire.width entry.1) =
            (f.arguments.take k).map fun a => Wire.width a.dataType := by
          have front := congrArg (fun l => (l.take k).map Wire.width) types
          simpa only [← List.map_take, List.map_map, Function.comp_def] using front
        have taken : ∀ entry ∈ scalars.take k, entry.1.isFixedWidth = true := by
          intro entry inside
          have kind : entry.1 ∈ f.arguments.map (·.dataType) :=
            types ▸ List.mem_map_of_mem (List.mem_of_mem_take inside)
          obtain ⟨b, argument, named⟩ := List.mem_map.mp kind
          exact named ▸ fixed b argument
        refine ⟨value, scalar, before, piece, after, given, converted, here,
          Wire.length_encode (fixed a member) here, h ▸ whole, ?_⟩
        rw [Wire.length_encodeAll taken earlier, widths, totalWidth]

end Endpoint

namespace Dispatch

/-- On a tree without violations, the dispatcher of a function copies every argument once and with
its size, but from where the host has put it modulo 256: the two agree on an argument exactly when
fewer than 256 bytes stand before it. The copies are printed as the lines of the unpacking. -/
theorem layout_agrees_iff {t : Tree} (h : t.Reachable) (valid : t.violations = []) {id : Nat}
    {info : Info} {f : Function} (found : t.get? id = some ⟨info, .function f⟩) :
    ∃ d, ofPlace t id = .ok d ∧
      (∃ before after, d.text = Text.ofLines (before ++
        (unpackingLines f.arguments).map ("    " ++ ·) ++ after)) ∧
      (Unpacking.run {} d.statements).copies.length = f.arguments.length ∧
      ∀ k a, f.arguments[k]? = some a →
        let host := totalWidth (f.arguments.take k)
        (∀ path values payload, Endpoint.callPayload path f values = .ok payload →
          Endpoint.HoldsAt path a values[k]? payload host) ∧
        ∃ device : UInt8,
          (Unpacking.run {} d.statements).copies[k]? =
            some ⟨a.name, device, Wire.width a.dataType⟩ ∧
          device.toNat = host % 256 ∧ (device.toNat = host ↔ host < 256) := by
  have rules := (Tree.violations_eq_nil_iff h.sound).mp valid
  obtain ⟨-, -, fixed⟩ := rules.complete id _ found
  have endpoint : id ∈ t.endpoints := (Tree.mem_endpoints_iff h.sound).mpr ⟨_, found, rfl⟩
  obtain ⟨d, made⟩ := exists_ofPlace h.sound rules endpoint
  have statements : d.statements = statementsOf f := by
    rw [ofPlace, found] at made
    obtain ⟨statements, listed, rfl⟩ := map_eq_ok_iff.mp made
    exact (functionStatements_eq_ok listed).1
  have copies := copies_statementsOf (rules.arguments id info f found)
  rw [← statements] at copies
  refine ⟨d, made, exists_text_eq_of_statements statements,
    by rw [copies, Unpacking.length_placed], fun k a argument => ⟨?_, ?_⟩⟩
  · intro path values payload called
    exact Endpoint.holdsAt_of_callPayload fixed called argument
  · have there := Unpacking.getElem?_placed 0 f.arguments k
    rw [argument, Option.map_some, ← copies] at there
    have device : (0 + UInt8.ofNat (totalWidth (f.arguments.take k))).toNat =
        totalWidth (f.arguments.take k) % 256 := by
      rw [UInt8.zero_add]
      exact UInt8.toNat_ofNat'
    refine ⟨_, there, device, ?_⟩
    rw [device]
    omega

def mix : Function where
  caller := "mixer_mix"
  arguments := [⟨"speed", none, .uint16, none⟩, ⟨"time", none, .uint32, none⟩]
  endpoint := 1

def mixer : Tree :=
  (Tree.ofRoot ⟨"mixer", none, none, false, [], none, none⟩ false).afterAdd 0
    ⟨⟨"mix", none, none, false, [], none, none⟩, .function mix⟩

theorem layout_agrees_mixer :
    mixer.violations = [] ∧ ∃ d, ofPlace mixer 1 = .ok d ∧
      ∃ device : UInt8, (Unpacking.run {} d.statements).copies[1]? = some ⟨"time", device, 4⟩ ∧
        device.toNat = 2 := by
  have valid : mixer.violations = [] := by decide +kernel
  have found : mixer.get? 1 = some ⟨⟨"mix", none, some 0, false, [], none, none⟩, .function mix⟩ :=
    rfl
  obtain ⟨d, made, -, -, each⟩ := layout_agrees_iff (.add _ _ (.root _ _)) valid found
  obtain ⟨-, device, copied, -, same⟩ := each 1 ⟨"time", none, .uint32, none⟩ rfl
  exact ⟨valid, d, made, device, copied, same.mpr (by decide)⟩

/-- A document with a function of 33 arguments with eight bytes each. -/
def longCallDocument : Json :=
  .object [("name", .string "tm"), ("remote_attributes", .array [
    .object [("name", .string "load"), ("caller_name", .string "tm_load"),
      ("arguments", .array ((List.range 33).map fun i =>
        .object [("name", .string ("a" ++ toString i)), ("dtype", .string "uint64")]))]])]

def longCallValues : List Value :=
  (List.range 33).map fun i => .scalar (.unsigned (UInt64.ofNat (i + 1)))

def callPayloadAt (t : Tree) (id : Nat) (values : List Value) : Option Wire.Payload :=
  match t.get? id with
  | some ⟨_, .function f⟩ => (Endpoint.callPayload "" f values).toOption
  | _ => none

/-- No rule is broken, and the last argument, which the host puts behind 256 bytes, is copied from
the start of the payload. -/
theorem layout_disagrees_longCall :
    ∃ t d payload, Schema.build longCallDocument false = .ok t ∧ t.violations = [] ∧
      ofPlace t 1 = .ok d ∧ callPayloadAt t 1 longCallValues = some payload ∧
      (payload.drop 256).take 8 = [33, 0, 0, 0, 0, 0, 0, 0] ∧
      (Unpacking.run {} d.statements).copies[32]? = some ⟨"a32", 0, 8⟩ := by
  have facts : ((Schema.build longCallDocument false).toOption.bind fun t =>
      (ofPlace t 1).toOption.bind fun d => (callPayloadAt t 1 longCallValues).map fun payload =>
        decide (t.violations = [] ∧ (payload.drop 256).take 8 = [33, 0, 0, 0, 0, 0, 0, 0] ∧
          (Unpacking.run {} d.statements).copies[32]? = some ⟨"a32", 0, 8⟩)) = some true := by
    decide +kernel
  cases built : Schema.build longCallDocument false with
  | error e => simp [built, Except.toOption] at facts
  | ok t =>
    cases made : ofPlace t 1 with
    | error e => simp [built, made, Except.toOption] at facts
    | ok d =>
      cases called : callPayloadAt t 1 longCallValues with
      | none => simp [built, made, called, Except.toOption] at facts
      | some payload =>
        simp only [built, made, called, Except.toOption, Option.bind_some, Option.map_some,
          Option.some.injEq, decide_eq_true_eq] at facts
        obtain ⟨valid, placed, copied⟩ := facts
        exact ⟨t, d, payload, rfl, valid, made, called, placed, copied⟩

end Dispatch

end DeviceLink
