import DeviceLink.Proofs.Dispatch.Announcements
import DeviceLink.Proofs.Dispatch.Definitions

/-!
The words in the text of a dispatcher. A dispatcher has its parameters and the variables that its
statements declare, and it uses other names: those of types, functions, commands and statuses. If
its statements keep to variables that are declared, then every word of its text is reserved, or a
zero, or its own name, or one of these (`Dispatcher.Tidy.accounted`).
-/

set_option autoImplicit false
set_option relaxedAutoImplicit false

namespace DeviceLink

namespace Identifier

/-- The longest runs of characters of identifiers in a text. -/
def runs (cs : List Char) : List (List Char) :=
  (cs.splitOnP (!isPart ·)).filter (!·.isEmpty)

/-- The words of a text: identifiers, reserved words and numbers. -/
def words (s : String) : List String :=
  (runs s.toList).map String.ofList

/-- Whether a text keeps words apart: it is not empty and holds nothing of an identifier. -/
def isGap (s : String) : Bool :=
  !s.toList.isEmpty && s.toList.all (!isPart ·)

private theorem runs_append_cons {c : Char} (mark : isPart c = false) (front rest : List Char) :
    runs (front ++ c :: rest) = runs front ++ runs rest := by
  rw [runs, List.splitOnP_append_cons _ _ (by rw [mark]; rfl), List.filter_append]
  rfl

private theorem runs_append_of_marks {cs : List Char} (marks : ∀ c ∈ cs, isPart c = false)
    (rest : List Char) : runs (cs ++ rest) = runs rest := by
  induction cs with
  | nil => rfl
  | cons c cs ih =>
    obtain ⟨first, others⟩ := List.forall_mem_cons.mp marks
    rw [List.cons_append, ← ih others]
    exact runs_append_cons first [] (cs ++ rest)

variable {gap : String}

private theorem words_around (between : isGap gap = true) (front rest : String) :
    words (front ++ gap ++ rest) = words front ++ words rest := by
  rw [words, words, words, String.toList_append, String.toList_append, ← List.map_append]
  cases shape : gap.toList with
  | nil => simp [isGap, shape] at between
  | cons c cs =>
    have marks : ∀ c' ∈ c :: cs, isPart c' = false := by simpa [isGap, shape] using between
    obtain ⟨first, others⟩ := List.forall_mem_cons.mp marks
    rw [List.append_assoc, List.cons_append, runs_append_cons first, runs_append_of_marks others]

private theorem words_after (between : isGap gap = true) (rest : String) :
    words (gap ++ rest) = words rest := by
  have whole := words_around between "" rest
  rwa [String.empty_append] at whole

private theorem words_before (between : isGap gap = true) (front : String) :
    words (front ++ gap) = words front := by
  have whole := words_around between front ""
  rwa [String.append_empty, show words "" = [] from rfl, List.append_nil] at whole

private theorem words_of_wellFormed {name : String} (formed : wellFormed name = true) :
    words name = [name] := by
  have word := (wellFormed_iff name).mp formed
  have parts : ∀ c ∈ name.toList, (!isPart c) = false := fun c inside => by
    rw [word.isPart c inside]
    rfl
  have filled : name.toList.isEmpty = false := by
    obtain ⟨first, rest, shape, -⟩ := word
    rw [shape]
    rfl
  rw [words, runs, List.splitOnP_eq_singleton parts, List.filter_singleton, filled]
  exact congrArg (fun name => [name]) name.ofList_toList

private theorem words_intercalate (texts : List String) :
    words (", ".intercalate texts) = texts.flatMap words := by
  have between : isGap ", " = true := by decide
  induction texts with
  | nil => rfl
  | cons text rest ih =>
    cases rest with
    | nil => simp
    | cons next others =>
      rw [String.intercalate_cons_cons, words_around between, ih]
      rfl

end Identifier

namespace Dispatch

open Text (OneLine)

open Identifier

def byteType : String := "uint8_t"

def parameterNames : List String := [bufferName, lengthName, commandName]

def parameterTypes : List String := [byteType, commandType]

namespace Statement

def declared : Statement → List String
  | declare _ name | declareResult _ name _ _ => [name]
  | declareOffset => [offsetName]
  | ignoreCommand | fetch _ _ | call _ _ | unpack _ | advance _ | load _ | store _ | setLength _
  | clearLength | answer _ | delegate _ _ => []

/-- The types, functions and statuses that a statement names. -/
def used : Statement → List String
  | declare type _ => [type]
  | declareResult type _ function _ => [type, function]
  | fetch _ function | call function _ => [function]
  | declareOffset => [byteType]
  | unpack _ | load _ | store _ => [copyFunction]
  | answer status => [status.name]
  | delegate helper function => [helper, function]
  | ignoreCommand | advance _ | setLength _ | clearLength => []

/-- The variables that a statement reads or sets, beside those that it declares. -/
def mentioned : Statement → List String
  | ignoreCommand => [commandName]
  | declareResult _ _ _ arguments | call _ arguments => arguments
  | fetch name _ => [name]
  | unpack name => [name, bufferName, offsetName]
  | advance name => [offsetName, name]
  | load name | store name => [name, bufferName]
  | setLength name => [lengthName, name]
  | clearLength => [lengthName]
  | delegate _ _ => [bufferName, lengthName]
  | declare _ _ | declareOffset | answer _ => []

/-- The words of a statement in the order of its text. -/
def spelling : Statement → List String
  | ignoreCommand => ["void", commandName]
  | declare type name => [type, name]
  | declareResult type name function arguments => type :: name :: function :: arguments
  | fetch name function => [name, function]
  | call function arguments => function :: arguments
  | declareOffset => [byteType, offsetName, "0"]
  | unpack name => [copyFunction, name, bufferName, offsetName, "sizeof", name]
  | advance name => [offsetName, "sizeof", name]
  | load name => [copyFunction, name, bufferName, "sizeof", name]
  | store name => [copyFunction, bufferName, name, "sizeof", name]
  | setLength name => [lengthName, "sizeof", name]
  | clearLength => [lengthName, "0"]
  | answer status => ["return", status.name]
  | delegate helper function => ["return", helper, bufferName, lengthName, function]

def names (s : Statement) : List String :=
  s.declared ++ s.used ++ s.mentioned

end Statement

/-- The words that a dispatcher need not choose: the reserved ones, and the number zero. -/
def fixedWords : List String := "0" :: reservedWords

private theorem words_callText (function : String) (arguments : List String) :
    words (callText function arguments) = words function ++ arguments.flatMap words := by
  have opening : isGap "(" = true := by decide
  have closing : isGap ")" = true := by decide
  rw [callText, words_before closing, words_around opening, words_intercalate]

private theorem words_text (s : Statement) : words s.text = s.spelling.flatMap words := by
  have place : words (bufferName ++ " + " ++ offsetName) = words bufferName ++ words offsetName := by
    decide
  cases s with
  | ignoreCommand | declareOffset | clearLength => decide
  | answer status => cases status <;> decide
  | delegate helper function =>
    -- The text starts with a word and a blank in one piece, which no lemma on gaps takes apart.
    have ending : words (Statement.delegate helper function).text =
        words ("return" ++ " " ++ callText helper [bufferName, lengthName, function] ++ ";") := rfl
    rw [ending, words_before (by decide), words_around (by decide), words_callText]
    simp [Statement.spelling]
  | declare | declareResult | fetch | call | unpack | advance | load | store | setLength =>
    simp (disch := decide) [Statement.text, Statement.spelling, sizeText, words_around, words_before,
      words_after, words_callText, place]

private theorem mem_words_text {s : Statement} (formed : ∀ name ∈ s.names, wellFormed name = true)
    {word : String} (inside : word ∈ words s.text) : word ∈ fixedWords ∨ word ∈ s.names := by
  rw [words_text] at inside
  obtain ⟨piece, listed, within⟩ := List.mem_flatMap.mp inside
  have known : piece ∈ ["void", "0", "sizeof", "return"] ∨ piece ∈ s.names := by
    cases s <;> simp [Statement.spelling, Statement.names, Statement.declared, Statement.used,
      Statement.mentioned] at listed ⊢ <;> tauto
  rcases known with fixed | named
  · have every : ∀ piece ∈ ["void", "0", "sizeof", "return"], words piece ⊆ fixedWords := by
      decide
    exact Or.inl (every piece fixed within)
  · rw [words_of_wellFormed (formed piece named)] at within
    rw [List.mem_singleton.mp within]
    exact Or.inr named

/-! The text of a dispatcher. -/

def scopeNames (block : List Statement) : List String :=
  parameterNames ++ block.flatMap Statement.declared

namespace Dispatcher

/-- The blocks of a dispatcher: its own one and those of its branches. -/
def blocks (d : Dispatcher) : List (List Statement) :=
  d.statements :: d.branches.map (·.statements)

/-- The names of a dispatcher that stand for types, functions, commands and statuses. -/
def otherNames (d : Dispatcher) : List String :=
  parameterTypes ++ d.branches.map (·.command.name) ++
    d.blocks.flatMap fun block => block.flatMap Statement.used

/-- All names in a dispatcher are words, and its blocks mention only variables of their own. -/
structure Tidy (d : Dispatcher) : Prop where
  named : wellFormed d.name = true
  own : ∀ block ∈ d.blocks, ∀ name ∈ scopeNames block, wellFormed name = true
  others : ∀ name ∈ d.otherNames, wellFormed name = true
  closed : ∀ block ∈ d.blocks, ∀ s ∈ block, ∀ name ∈ s.mentioned, name ∈ scopeNames block

/-- The words that a dispatcher accounts for: the fixed ones, its own name, the names of other things
and its variables. -/
def knownWords (d : Dispatcher) : List String :=
  fixedWords ++ d.name :: d.otherNames ++ d.blocks.flatMap scopeNames

/-- The text of a dispatcher, its qualifier apart, has no other words. -/
def Accounted (d : Dispatcher) : Prop :=
  words { d with qualifier := none }.text ⊆ d.knownWords

end Dispatcher

private theorem words_line (text : String) : words (line text) = words text :=
  words_before (by decide) text

private theorem words_indented (level : Nat) (text : String) :
    words (indented level text) = words text := by
  have blanks : ∀ c ∈ List.replicate (4 * level) ' ', isPart c = false := fun c blank => by
    rw [List.eq_of_mem_replicate blank]
    rfl
  rw [← words_line text, words, words, indented, String.toList_append, String.toList_ofList,
    runs_append_of_marks blanks]

private theorem words_append_line (text rest : String) :
    words (line text ++ rest) = words text ++ words rest :=
  words_around (by decide) text rest

private theorem words_append_indented (level : Nat) (text rest : String) :
    words (indented level text ++ rest) = words text ++ words rest := by
  have newline : isGap "\n" = true := by decide
  rw [← words_indented level text, indented, line, ← String.append_assoc, words_around newline,
    words_before newline]

private theorem words_append_block (level : Nat) (block : List Statement) (rest : String) :
    words (String.join (block.map fun s => indented level s.text) ++ rest) =
      block.flatMap (fun s => words s.text) ++ words rest := by
  induction block with
  | nil => simp
  | cons s block ih =>
    rw [List.map_cons, String.join_cons, String.append_assoc, words_append_indented, ih,
      List.flatMap_cons, List.append_assoc]

private theorem words_condition (keyword : String) (command : Command) :
    words (keyword ++ " (" ++ command.name ++ " == " ++ commandName ++ ")") =
      words keyword ++ [command.name, commandName] := by
  have names : words command.name ++ words commandName = [command.name, commandName] := by
    cases command <;> decide
  rw [words_before (by decide), words_around (by decide), words_around (by decide),
    List.append_assoc, names]

private theorem words_append_branchesText (keyword : String) (b : Branch) (branches : List Branch)
    (rest : String) : words (branchesText keyword (b :: branches) ++ rest) =
      words keyword ++ [b.command.name, commandName] ++ b.statements.flatMap (fun s => words s.text) ++
        words (branchesText "else if" branches ++ rest) := by
  have braces : words openBrace = [] ∧ words closeBrace = [] := by decide
  simp only [branchesText, String.append_assoc, words_append_indented, words_append_block, braces]
  simp only [← String.append_assoc, words_condition]
  simp

private theorem flatMap_words_subset {block : List Statement} {known : List String}
    (inner : ∀ s ∈ block, words s.text ⊆ known) :
    block.flatMap (fun s => words s.text) ⊆ known := by
  intro word inside
  obtain ⟨s, listed, within⟩ := List.mem_flatMap.mp inside
  exact inner s listed within

private theorem words_branchesText_subset {known : List String} {keyword rest : String}
    {branches : List Branch} (fixed : fixedWords ⊆ known) (command : commandName ∈ known)
    (inner : ∀ b ∈ branches, b.command.name ∈ known ∧ ∀ s ∈ b.statements, words s.text ⊆ known)
    (start : words keyword ⊆ known) (last : words rest ⊆ known) :
    words (branchesText keyword branches ++ rest) ⊆ known := by
  induction branches generalizing keyword with
  | nil => rwa [branchesText, String.empty_append]
  | cons b branches ih =>
    obtain ⟨⟨name, body⟩, others⟩ := List.forall_mem_cons.mp inner
    have alternative : words "else if" ⊆ fixedWords := by decide
    have later := ih others (List.Subset.trans alternative fixed)
    have condition : [b.command.name, commandName] ⊆ known :=
      List.cons_subset.mpr ⟨name, List.cons_subset.mpr ⟨command, List.nil_subset known⟩⟩
    rw [words_append_branchesText]
    simp only [List.append_subset]
    exact ⟨⟨⟨start, condition⟩, flatMap_words_subset body⟩, later⟩

private theorem words_signature_subset (name : String) :
    words (signature name) ⊆ words name ++ parameterTypes ++ parameterNames := by
  have shape : signature name = byteType ++ " " ++ name ++ "(" ++ parameters ++ ")" := rfl
  have type : words byteType ⊆ parameterTypes := by decide
  have inner : words parameters ⊆ parameterTypes ++ parameterNames := by decide
  rw [shape, words_before (by decide), words_around (by decide), words_around (by decide)]
  intro word inside
  simp only [List.mem_append] at inside ⊢
  rcases inside with (first | own) | listed
  · exact Or.inl (Or.inr (type first))
  · exact Or.inl (Or.inl own)
  · rcases List.mem_append.mp (inner listed) with other | variable'
    · exact Or.inl (Or.inr other)
    · exact Or.inr variable'

private theorem words_dispatcher (d : Dispatcher) : words { d with qualifier := none }.text =
    words (signature d.name) ++ words (branchesText "if" d.branches ++
      (String.join (d.statements.map fun s => indented 1 s.text) ++ line closeBrace)) := by
  have opening : words openBrace = [] := by decide
  have blank : words "" = [] := rfl
  simp only [Dispatcher.text, lines, List.map_cons, List.map_nil, String.join_cons, String.join_nil,
    String.append_assoc, String.append_empty, words_append_line, opening, blank, List.nil_append]

namespace Dispatcher

variable {d : Dispatcher} {block : List Statement} {name : String}

private theorem fixedWords_subset : fixedWords ⊆ d.knownWords :=
  fun _ inside => List.mem_append_left _ (List.mem_append_left _ inside)

private theorem name_mem_knownWords : d.name ∈ d.knownWords :=
  List.mem_append_left _ (List.mem_append_right _ List.mem_cons_self)

private theorem mem_knownWords_of_mem_otherNames (other : name ∈ d.otherNames) :
    name ∈ d.knownWords :=
  List.mem_append_left _ (List.mem_append_right _ (List.mem_cons_of_mem _ other))

private theorem mem_knownWords_of_mem_scopeNames (own : block ∈ d.blocks)
    (inside : name ∈ scopeNames block) : name ∈ d.knownWords :=
  List.mem_append_right _ (List.mem_flatMap.mpr ⟨block, own, inside⟩)

theorem mem_otherNames_of_mem_blocks (own : block ∈ d.blocks)
    (used : name ∈ block.flatMap Statement.used) : name ∈ d.otherNames :=
  List.mem_append_right _ (List.mem_flatMap.mpr ⟨block, own, used⟩)

private theorem Tidy.mem_of_mem_names (tidy : d.Tidy) (own : block ∈ d.blocks) {s : Statement}
    (listed : s ∈ block) (inside : name ∈ s.names) :
    name ∈ d.otherNames ∨ name ∈ scopeNames block := by
  rw [Statement.names, List.mem_append, List.mem_append] at inside
  rcases inside with (declared | used) | mentioned
  · exact Or.inr (List.mem_append_right _ (List.mem_flatMap.mpr ⟨s, listed, declared⟩))
  · exact Or.inl (mem_otherNames_of_mem_blocks own (List.mem_flatMap.mpr ⟨s, listed, used⟩))
  · exact Or.inr (tidy.closed block own s listed name mentioned)

private theorem Tidy.wellFormed_names (tidy : d.Tidy) (own : block ∈ d.blocks) {s : Statement}
    (listed : s ∈ block) : ∀ name ∈ s.names, wellFormed name = true := fun name inside =>
  (tidy.mem_of_mem_names own listed inside).elim (tidy.others name) (tidy.own block own name)

private theorem Tidy.words_statement_subset (tidy : d.Tidy) (own : block ∈ d.blocks) {s : Statement}
    (listed : s ∈ block) : words s.text ⊆ d.knownWords := by
  intro word inside
  rcases mem_words_text (tidy.wellFormed_names own listed) inside with fixed | name
  · exact fixedWords_subset fixed
  · rcases tidy.mem_of_mem_names own listed name with other | variable'
    · exact mem_knownWords_of_mem_otherNames other
    · exact mem_knownWords_of_mem_scopeNames own variable'

theorem Tidy.accounted (tidy : d.Tidy) : d.Accounted := by
  have parameter : parameterNames ⊆ d.knownWords := fun name inside =>
    mem_knownWords_of_mem_scopeNames List.mem_cons_self (List.mem_append_left _ inside)
  have type : parameterTypes ⊆ d.knownWords := fun name inside =>
    mem_knownWords_of_mem_otherNames (List.mem_append_left _ (List.mem_append_left _ inside))
  have first : words (signature d.name) ⊆ d.knownWords := by
    refine List.Subset.trans (words_signature_subset d.name) ?_
    rw [words_of_wellFormed tidy.named]
    simp only [List.append_subset]
    exact ⟨⟨List.cons_subset.mpr ⟨name_mem_knownWords, List.nil_subset _⟩, type⟩, parameter⟩
  have last : words (String.join (d.statements.map fun s => indented 1 s.text) ++ line closeBrace) ⊆
      d.knownWords := by
    have closing : words (line closeBrace) = [] := by decide
    have own : d.statements ∈ d.blocks := List.mem_cons_self
    rw [words_append_block, closing, List.append_nil]
    exact flatMap_words_subset fun s listed => tidy.words_statement_subset own listed
  have branches : ∀ b ∈ d.branches, b.command.name ∈ d.knownWords ∧
      ∀ s ∈ b.statements, words s.text ⊆ d.knownWords := by
    intro b listed
    have own : b.statements ∈ d.blocks := List.mem_cons_of_mem _ (List.mem_map_of_mem listed)
    have command : b.command.name ∈ d.branches.map (·.command.name) := List.mem_map_of_mem listed
    exact ⟨mem_knownWords_of_mem_otherNames (List.mem_append_left _ (List.mem_append_right _ command)),
      fun s inner => tidy.words_statement_subset own inner⟩
  have keyword : words "if" ⊆ fixedWords := by decide
  rw [Accounted, words_dispatcher, List.append_subset]
  exact ⟨first, words_branchesText_subset fixedWords_subset (parameter (by decide)) branches
    (List.Subset.trans keyword fixedWords_subset) last⟩

private theorem oneLine_callText {function : String} {arguments : List String}
    (named : OneLine function) (each : ∀ a ∈ arguments, OneLine a) :
    OneLine (callText function arguments) :=
  Text.oneLine_append (Text.oneLine_append (Text.oneLine_append named (by decide))
    (Text.oneLine_intercalate (by decide) each)) (by decide)

private theorem oneLine_text {s : Statement} (formed : ∀ name ∈ s.names, wellFormed name = true) :
    OneLine s.text := by
  have named : ∀ name ∈ s.names, OneLine name := fun name inside =>
    Identifier.oneLine_of_wellFormed (formed name inside)
  cases s with
  | ignoreCommand | declareOffset | clearLength => decide
  | answer status => cases status <;> decide
  | declareResult type name function arguments =>
    simp only [Statement.names, Statement.declared, Statement.used, Statement.mentioned,
      List.forall_mem_append, List.forall_mem_cons] at named
    obtain ⟨⟨⟨own, -⟩, kind, device, -⟩, given⟩ := named
    have call := oneLine_callText device given
    simp +decide [Statement.text, Text.oneLine_append_iff, own, kind, call]
  | call function arguments =>
    simp only [Statement.names, Statement.declared, Statement.used, Statement.mentioned,
      List.forall_mem_append, List.forall_mem_cons] at named
    obtain ⟨⟨-, device, -⟩, given⟩ := named
    exact Text.oneLine_append (oneLine_callText device given) (by decide)
  | declare | fetch | unpack | advance | load | store | setLength | delegate =>
    simp +decide [Statement.names, Statement.declared, Statement.used, Statement.mentioned] at named
    simp +decide [Statement.text, sizeText, Text.oneLine_append_iff, oneLine_callText, named]

theorem Tidy.legible (tidy : d.Tidy)
    (qualifier : ∀ qualifier, d.qualifier = some qualifier → OneLine (Text.trimmed qualifier)) :
    d.Legible where
  whole := Identifier.oneLine_of_wellFormed tidy.named
  solid := Identifier.space_notMem_of_wellFormed tidy.named
  qualifier := qualifier
  statements _ listed := oneLine_text (tidy.wellFormed_names List.mem_cons_self listed)
  branches _ inside _ listed :=
    oneLine_text (tidy.wellFormed_names (List.mem_cons_of_mem _ (List.mem_map_of_mem inside)) listed)

end Dispatcher

end Dispatch

end DeviceLink
