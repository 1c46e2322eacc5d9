import DeviceLink.Proofs.Number.Values
import DeviceLink.Proofs.Unit.Quantities
import Mathlib.Algebra.BigOperators.Group.List.Basic

/-!
The grammar of unit expressions, said of lists of tokens:

    expression := term (('*' | '/' | nothing) term)*
    term       := (word | number) (('**' | '^') whole number of at most sixteen)?

The evaluation of tokens takes the words of this grammar and no others, and on the way it folds the
measures of the terms from left to right (`toOption_evaluate`, `exists_terms_of_evaluate`); in the
exponents of a dimension that fold is a sum over the terms.
-/

set_option autoImplicit false
set_option relaxedAutoImplicit false

namespace DeviceLink

open Number (Binary64)

/-- What a term is about: the unit of a word, or a number. -/
inductive UnitAtom where
  | word (name : String)
  | number (value : Binary64)

/-- A term of a unit expression, and whether it stands behind a slash. -/
structure UnitTerm where
  divides : Bool
  atom : UnitAtom
  power : Option Int

namespace UnitAtom

def token : UnitAtom → UnitToken
  | word name => .word name
  | number value => .number value

/-- The measure of an atom; that of a word needs a unit with that name. -/
def measure? (r : Registry) : UnitAtom → Option Measure
  | word name => r.lookup? name
  | number value => some (.ofNumber value)

/-- The exponent of a base quantity in an atom; numbers have no dimension. -/
def exponent (r : Registry) (b : Base) : UnitAtom → Int
  | word name => ((r.lookup? name).map (·.dimension.exponent b)).getD 0
  | number _ => 0

private theorem exponent_of_measure? {r : Registry} {a : UnitAtom} {m : Measure}
    (h : a.measure? r = some m) (b : Base) : a.exponent r b = m.dimension.exponent b := by
  cases a with
  | word name =>
    rw [measure?] at h
    rw [exponent, h]
    rfl
  | number value =>
    cases h
    cases b <;> rfl

end UnitAtom

namespace UnitTerm

def raise (t : UnitTerm) (m : Measure) : Measure :=
  match t.power with
  | some n => m.pow n
  | none => m

def measure? (r : Registry) (t : UnitTerm) : Option Measure :=
  (t.atom.measure? r).map t.raise

/-- The measure of a term behind that of the terms before it. -/
def behind (t : UnitTerm) (acc m : Measure) : Measure :=
  if t.divides then acc.per m else acc.times m

def exponent (r : Registry) (b : Base) (t : UnitTerm) : Int :=
  (if t.divides then -1 else 1) * t.power.getD 1 * t.atom.exponent r b

/-- The terms of a list folded from left to right behind a measure. -/
def fold? (r : Registry) : Measure → List UnitTerm → Option Measure
  | acc, [] => some acc
  | acc, t :: terms => (t.measure? r).bind fun m => fold? r (t.behind acc m) terms

variable {r : Registry}

private theorem exponent_of_measure? {t : UnitTerm} {m : Measure} (h : t.measure? r = some m)
    (b : Base) : m.dimension.exponent b = t.power.getD 1 * t.atom.exponent r b := by
  obtain ⟨base, found, rfl⟩ := Option.map_eq_some_iff.mp h
  rw [UnitAtom.exponent_of_measure? found, raise]
  cases t.power with
  | none => rw [Option.getD_none, Int.one_mul]
  | some n =>
    show (base.dimension.pow n).exponent b = n * base.dimension.exponent b
    rw [Dimension.exponent_pow, Int.mul_comm]

private theorem exponent_of_multiplies {t : UnitTerm} (multiplies : t.divides = false) (b : Base) :
    t.exponent r b = t.power.getD 1 * t.atom.exponent r b := by
  rw [exponent, multiplies, if_neg Bool.false_ne_true, Int.one_mul]

private theorem exponent_behind {t : UnitTerm} {m : Measure} (h : t.measure? r = some m)
    (acc : Measure) (b : Base) :
    (t.behind acc m).dimension.exponent b = acc.dimension.exponent b + t.exponent r b := by
  rw [behind]
  cases direction : t.divides with
  | false =>
    show (acc.dimension * m.dimension).exponent b = _
    rw [Dimension.exponent_mul, exponent_of_multiplies direction, exponent_of_measure? h]
  | true =>
    show (acc.dimension / m.dimension).exponent b = _
    rw [Dimension.exponent_div, exponent_of_measure? h, exponent, direction, if_pos rfl,
      Int.mul_assoc, Int.neg_one_mul, Int.sub_eq_add_neg]

private theorem exponent_of_fold? {acc m : Measure} {terms : List UnitTerm}
    (h : fold? r acc terms = some m) (b : Base) :
    m.dimension.exponent b =
      acc.dimension.exponent b + (terms.map (UnitTerm.exponent r b)).sum := by
  induction terms generalizing acc with
  | nil =>
    cases h
    rw [List.map_nil, List.sum_nil, Int.add_zero]
  | cons t terms ih =>
    obtain ⟨first, found, rest⟩ := Option.bind_eq_some_iff.mp h
    rw [ih rest, exponent_behind found, List.map_cons, List.sum_cons, Int.add_assoc]

private theorem exists_fold?_iff {terms : List UnitTerm} (acc : Measure) :
    (∃ m, fold? r acc terms = some m) ↔ ∀ t ∈ terms, ∃ m, t.atom.measure? r = some m := by
  induction terms generalizing acc with
  | nil =>
    refine ⟨fun _ t mem => ?_, fun _ => ⟨acc, rfl⟩⟩
    exact absurd mem List.not_mem_nil
  | cons t terms ih =>
    rw [List.forall_mem_cons]
    constructor
    · rintro ⟨m, h⟩
      obtain ⟨first, found, rest⟩ := Option.bind_eq_some_iff.mp h
      obtain ⟨base, known, -⟩ := Option.map_eq_some_iff.mp found
      exact ⟨⟨base, known⟩, (ih _).mp ⟨m, rest⟩⟩
    · rintro ⟨⟨base, known⟩, others⟩
      obtain ⟨m, rest⟩ := (ih (t.behind acc (t.raise base))).mpr others
      refine ⟨m, ?_⟩
      rw [fold?, measure?, known]
      exact rest

end UnitTerm

/-! The grammar. -/

namespace UnitGrammar

/-- The tokens of a term: a word or a number, alone or with an exponent. -/
inductive Term : List UnitToken → UnitTerm → Prop
  | bare (divides : Bool) (a : UnitAtom) : Term [a.token] ⟨divides, a, none⟩
  | raised (divides : Bool) (a : UnitAtom) {x : Binary64} {n : Int} (whole : x.IsWhole n)
      (small : n.natAbs ≤ Registry.greatestExponent) :
      Term [a.token, .power, .number x] ⟨divides, a, some n⟩

/-- The tokens of the terms behind the first one. -/
inductive Rest : List UnitToken → List UnitTerm → Prop
  | nil : Rest [] []
  | star {ts us : List UnitToken} {t : UnitTerm} {terms : List UnitTerm} (term : Term ts t)
      (multiplies : t.divides = false) (rest : Rest us terms) :
      Rest (.star :: (ts ++ us)) (t :: terms)
  | slash {ts us : List UnitToken} {t : UnitTerm} {terms : List UnitTerm} (term : Term ts t)
      (divides : t.divides = true) (rest : Rest us terms) :
      Rest (.slash :: (ts ++ us)) (t :: terms)
  | beside {ts us : List UnitToken} {t : UnitTerm} {terms : List UnitTerm} (term : Term ts t)
      (multiplies : t.divides = false) (rest : Rest us terms) :
      Rest (ts ++ us) (t :: terms)

/-- The tokens of an expression and its terms. -/
inductive Expression : List UnitToken → List UnitTerm → Prop
  | mk {ts us : List UnitToken} {t : UnitTerm} {terms : List UnitTerm} (term : Term ts t)
      (multiplies : t.divides = false) (rest : Rest us terms) :
      Expression (ts ++ us) (t :: terms)

variable {tokens us : List UnitToken} {t : UnitTerm} {terms : List UnitTerm}

private theorem Term.word_mem_iff (term : Term tokens t) (name : String) :
    .word name ∈ tokens ↔ t.atom = .word name := by
  cases term with
  | bare divides a => cases a <;> simp [UnitAtom.token, eq_comm]
  | raised divides a whole small => cases a <;> simp [UnitAtom.token, eq_comm]

private theorem Rest.word_mem_iff (rest : Rest tokens terms) (name : String) :
    .word name ∈ tokens ↔ ∃ t ∈ terms, t.atom = .word name := by
  induction rest with
  | nil => simp
  | star term _ _ ih => simp [ih, term.word_mem_iff]
  | slash term _ _ ih => simp [ih, term.word_mem_iff]
  | beside term _ _ ih => simp [ih, term.word_mem_iff]

private theorem Expression.word_mem_iff (expression : Expression tokens terms) (name : String) :
    .word name ∈ tokens ↔ ∃ t ∈ terms, t.atom = .word name := by
  obtain ⟨term, _, rest⟩ := expression
  simp [term.word_mem_iff, rest.word_mem_iff]

private theorem Expression.forall_atom_iff (expression : Expression tokens terms) (r : Registry) :
    (∀ t ∈ terms, ∃ m, t.atom.measure? r = some m) ↔
      ∀ name, .word name ∈ tokens → ∃ m, r.lookup? name = some m := by
  constructor
  · intro known name mem
    obtain ⟨t, inside, same⟩ := (expression.word_mem_iff name).mp mem
    have found := known t inside
    rwa [same] at found
  · intro known t inside
    cases same : t.atom with
    | word name => exact known name ((expression.word_mem_iff name).mpr ⟨t, inside, same⟩)
    | number x => exact ⟨_, rfl⟩

end UnitGrammar

/-! The evaluation, one term at a time. -/

namespace Registry

open UnitGrammar

variable {r : Registry} {expression : String} {tokens us : List UnitToken} {t : UnitTerm}
  {terms : List UnitTerm} {m : Measure}

private theorem exponentOf?_eq_some_iff {x : Binary64} {n : Int} :
    exponentOf? x = some n ↔ x.IsWhole n ∧ n.natAbs ≤ greatestExponent := by
  constructor
  · intro h
    rw [exponentOf?] at h
    split at h
    · rename_i k whole
      split at h
      · rename_i small
        cases h
        exact ⟨Binary64.isWhole_of_whole? whole, small⟩
      · cases h
    · cases h
  · rintro ⟨whole, small⟩
    rw [exponentOf?, Binary64.whole?_of_isWhole whole]
    exact if_pos small

def evaluateRest (r : Registry) (expression : String) (acc : Measure) :
    List UnitToken → Except UnitError Measure
  | [] => .ok acc
  | .star :: rest => r.evaluate expression acc.times rest
  | .slash :: rest => r.evaluate expression acc.per rest
  | .power :: _ => .error (.malformed expression .trailing)
  | .word name :: rest => r.evaluate expression acc.times (.word name :: rest)
  | .number x :: rest => r.evaluate expression acc.times (.number x :: rest)

private theorem evaluate_cons (join : Measure → Measure) (token : UnitToken) :
    r.evaluate expression join (token :: tokens) =
      r.measureOf expression token >>= fun m => powered expression m tokens >>= fun raised =>
        r.evaluateRest expression (join raised.1) raised.2 := by
  rw [evaluate]
  cases measured : r.measureOf expression token with
  | error e => rfl
  | ok m =>
    simp only [bind, Except.bind]
    split <;> simp_all [evaluateRest]

private theorem toOption_measureOf (a : UnitAtom) :
    (r.measureOf expression a.token).toOption = a.measure? r := by
  cases a with
  | word name =>
    show (r.measureOf expression (.word name)).toOption = r.lookup? name
    rw [measureOf]
    cases r.lookup? name <;> rfl
  | number x => rfl

private theorem exists_atom_of_measureOf {token : UnitToken}
    (h : r.measureOf expression token = .ok m) :
    ∃ a : UnitAtom, token = a.token ∧ a.measure? r = some m := by
  have known (a : UnitAtom) (same : token = a.token) : a.measure? r = some m := by
    have seen : (r.measureOf expression a.token).toOption = a.measure? r := toOption_measureOf a
    rw [← seen, ← same, h]
    rfl
  cases token with
  | word name => exact ⟨.word name, rfl, known (.word name) rfl⟩
  | number x => exact ⟨.number x, rfl, known (.number x) rfl⟩
  | star | slash | power => cases h

private theorem toOption_evaluate_term (term : Term tokens t) (stops : ∀ rest, us ≠ .power :: rest)
    (join : Measure → Measure) :
    (r.evaluate expression join (tokens ++ us)).toOption =
      (t.measure? r).bind fun m => (r.evaluateRest expression (join m) us).toOption := by
  cases term with
  | bare divides a =>
    have alone (m : Measure) : powered expression m us = .ok (m, us) := by
      unfold powered
      split
      · exact absurd rfl (stops _)
      · exact absurd rfl (stops _)
      · rfl
    rw [List.singleton_append, evaluate_cons, UnitTerm.measure?, ← toOption_measureOf]
    cases r.measureOf expression a.token with
    | error e => rfl
    | ok m =>
      simp only [bind, Except.bind, alone]
      rfl
  | @raised divides a x n whole small =>
    have raised (m : Measure) :
        powered expression m (.power :: .number x :: us) = .ok (m.pow n, us) := by
      rw [powered, exponentOf?_eq_some_iff.mpr ⟨whole, small⟩]
    rw [List.cons_append, evaluate_cons, UnitTerm.measure?, ← toOption_measureOf]
    cases r.measureOf expression a.token with
    | error e => rfl
    | ok m =>
      simp only [bind, Except.bind, List.cons_append, List.nil_append, raised]
      rfl

private theorem exists_term_of_evaluate {join : Measure → Measure}
    (h : r.evaluate expression join tokens = .ok m) (divides : Bool) :
    ∃ ts us t acc, tokens = ts ++ us ∧ Term ts t ∧ t.divides = divides ∧
      r.evaluateRest expression acc us = .ok m := by
  cases tokens with
  | nil =>
    rw [evaluate] at h
    cases h
  | cons token tokens =>
    rw [evaluate_cons] at h
    obtain ⟨base, measured, powers⟩ := bind_eq_ok_iff.mp h
    obtain ⟨⟨first, us⟩, raised, behind⟩ := bind_eq_ok_iff.mp powers
    obtain ⟨a, rfl, -⟩ := exists_atom_of_measureOf measured
    unfold powered at raised
    split at raised
    · split at raised
      · rename_i n small
        obtain ⟨whole, small⟩ := exponentOf?_eq_some_iff.mp small
        cases raised
        exact ⟨_, _, _, _, rfl, .raised divides a whole small, rfl, behind⟩
      · cases raised
    · cases raised
    · cases raised
      exact ⟨[a.token], _, _, _, rfl, .bare divides a, rfl, behind⟩

private theorem ne_power_of_rest (rest : Rest us terms) (others : List UnitToken) :
    us ≠ .power :: others := by
  cases rest with
  | nil => nofun
  | star | slash => simp
  | beside term =>
    cases term with
    | bare divides a | raised divides a =>
      cases a <;> simp [UnitAtom.token]

private theorem toOption_evaluateRest (rest : Rest us terms) (acc : Measure) :
    (r.evaluateRest expression acc us).toOption = UnitTerm.fold? r acc terms := by
  induction rest generalizing acc with
  | nil => rfl
  | star term multiplies rest ih =>
    rw [evaluateRest, toOption_evaluate_term term (ne_power_of_rest rest), UnitTerm.fold?]
    simp only [ih, UnitTerm.behind, multiplies, Bool.false_eq_true, if_false]
  | slash term divides rest ih =>
    rw [evaluateRest, toOption_evaluate_term term (ne_power_of_rest rest), UnitTerm.fold?]
    simp only [ih, UnitTerm.behind, divides, if_true]
  | @beside ts us t terms term multiplies rest ih =>
    have joined : r.evaluateRest expression acc (ts ++ us) =
        r.evaluate expression acc.times (ts ++ us) := by
      cases term with
      | bare divides a | raised divides a => cases a <;> rfl
    rw [joined, toOption_evaluate_term term (ne_power_of_rest rest), UnitTerm.fold?]
    simp only [ih, UnitTerm.behind, multiplies, Bool.false_eq_true, if_false]

/-- An expression is evaluated to the fold of its terms. -/
theorem toOption_evaluate (term : Term tokens t) (rest : Rest us terms) :
    (r.evaluate expression id (tokens ++ us)).toOption =
      (t.measure? r).bind fun m => UnitTerm.fold? r m terms := by
  rw [toOption_evaluate_term term (ne_power_of_rest rest)]
  simp only [id, toOption_evaluateRest rest]

private theorem exponent_of_evaluate (words : Expression tokens terms)
    (h : r.evaluate expression id tokens = .ok m) (b : Base) :
    m.dimension.exponent b = (terms.map (UnitTerm.exponent r b)).sum := by
  obtain ⟨term, multiplies, rest⟩ := words
  have folded : (r.evaluate expression id (_ ++ _)).toOption = _ := toOption_evaluate term rest
  rw [h] at folded
  obtain ⟨first, found, others⟩ := Option.bind_eq_some_iff.mp folded.symm
  rw [UnitTerm.exponent_of_fold? others, UnitTerm.exponent_of_measure? found, List.map_cons,
    List.sum_cons, UnitTerm.exponent_of_multiplies multiplies]

private theorem exists_evaluate_iff (words : Expression tokens terms) :
    (∃ m, r.evaluate expression id tokens = .ok m) ↔
      ∀ name, .word name ∈ tokens → ∃ m, r.lookup? name = some m := by
  rw [← words.forall_atom_iff]
  obtain ⟨term, multiplies, rest⟩ := words
  have folded : (r.evaluate expression id (_ ++ _)).toOption = _ := toOption_evaluate term rest
  simp only [← toOption_eq_some_iff, folded, Option.bind_eq_some_iff, List.forall_mem_cons]
  constructor
  · rintro ⟨m, first, found, others⟩
    obtain ⟨base, known, -⟩ := Option.map_eq_some_iff.mp found
    exact ⟨⟨base, known⟩, (UnitTerm.exists_fold?_iff first).mp ⟨m, others⟩⟩
  · rintro ⟨⟨base, known⟩, others⟩
    obtain ⟨m, folds⟩ := (UnitTerm.exists_fold?_iff _).mpr others
    exact ⟨m, _, Option.map_eq_some_iff.mpr ⟨base, known, rfl⟩, folds⟩

private theorem exists_rest_of_evaluateRest {acc : Measure}
    (h : r.evaluateRest expression acc us = .ok m) : ∃ terms, Rest us terms := by
  -- Each term takes a token away, so the induction is on the number of tokens.
  induction length : us.length using Nat.strong_induction_on generalizing us acc with
  | _ n ih =>
    have further {join : Measure → Measure} {tokens : List UnitToken} (fewer : tokens.length ≤ n)
        (evaluated : r.evaluate expression join tokens = .ok m) (divides : Bool) :
        ∃ ts us t terms, tokens = ts ++ us ∧ Term ts t ∧ t.divides = divides ∧ Rest us terms := by
      obtain ⟨ts, us, t, acc, rfl, term, direction, behind⟩ :=
        exists_term_of_evaluate evaluated divides
      have shorter : us.length < n := by
        have : 0 < ts.length := by cases term <;> exact Nat.succ_pos _
        rw [List.length_append] at fewer
        omega
      obtain ⟨terms, rest⟩ := ih us.length shorter behind rfl
      exact ⟨ts, us, t, terms, rfl, term, direction, rest⟩
    subst length
    match us, h with
    | [], _ => exact ⟨[], .nil⟩
    | .star :: tokens, h =>
      obtain ⟨ts, us, t, terms, rfl, term, multiplies, rest⟩ :=
        further (Nat.le_succ _) h false
      exact ⟨t :: terms, .star term multiplies rest⟩
    | .slash :: tokens, h =>
      obtain ⟨ts, us, t, terms, rfl, term, divides, rest⟩ := further (Nat.le_succ _) h true
      exact ⟨t :: terms, .slash term divides rest⟩
    | .word name :: tokens, h =>
      obtain ⟨ts, us, t, terms, same, term, multiplies, rest⟩ := further (Nat.le_refl _) h false
      rw [same]
      exact ⟨t :: terms, .beside term multiplies rest⟩
    | .number x :: tokens, h =>
      obtain ⟨ts, us, t, terms, same, term, multiplies, rest⟩ := further (Nat.le_refl _) h false
      rw [same]
      exact ⟨t :: terms, .beside term multiplies rest⟩

theorem exists_terms_of_evaluate (h : r.evaluate expression id tokens = .ok m) :
    ∃ terms, Expression tokens terms := by
  obtain ⟨ts, us, t, acc, rfl, term, multiplies, behind⟩ := exists_term_of_evaluate h false
  obtain ⟨terms, rest⟩ := exists_rest_of_evaluateRest behind
  exact ⟨t :: terms, .mk term multiplies rest⟩

private theorem parse_eq_ok_iff {source : String} {u : MeasureUnit}
    (scanned : UnitToken.scan (Text.trim source.toList) = .ok tokens) :
    r.parse source = .ok u ↔
      r.evaluate (Text.trimmed source) id tokens = .ok u.measure ∧ u.name = Text.trimmed source := by
  cases empty : (Text.trim source.toList).isEmpty with
  | true =>
    -- The whole body of the scanner is unfolded: equations of its patterns are slow to make.
    rw [List.isEmpty_iff.mp empty, UnitToken.scan.eq_def] at scanned
    cases scanned
    simp [parse, empty, evaluate]
  | false =>
    simp only [parse, empty, scanned, Bool.false_eq_true, if_false, map_eq_ok_iff]
    constructor
    · rintro ⟨m, evaluated, rfl⟩
      exact ⟨evaluated, rfl⟩
    · rintro ⟨evaluated, named⟩
      refine ⟨u.measure, evaluated, ?_⟩
      rw [← Text.trimmed, ← named]

/-- A text is parsed to a unit if, and only if, its tokens are an expression whose words are known.
The unit is named as the text without blanks at its ends, and the exponent of a base quantity in it is
the sum of those in its terms, negated behind a slash and multiplied by the exponent of the term. -/
theorem parse_iff_expression (r : Registry) (source : String)
    (scanned : UnitToken.scan (Text.trim source.toList) = .ok tokens) :
    ((∃ u, r.parse source = .ok u) ↔
      (∃ terms, Expression tokens terms) ∧
        ∀ name, .word name ∈ tokens → ∃ m, r.lookup? name = some m) ∧
    ∀ u, r.parse source = .ok u → u.name = Text.trimmed source ∧
      ∀ terms, Expression tokens terms → ∀ b,
        u.dimension.exponent b = (terms.map (UnitTerm.exponent r b)).sum := by
  constructor
  · constructor
    · rintro ⟨u, h⟩
      obtain ⟨evaluated, -⟩ := (parse_eq_ok_iff scanned).mp h
      obtain ⟨terms, words⟩ := exists_terms_of_evaluate evaluated
      exact ⟨⟨terms, words⟩, (exists_evaluate_iff words).mp ⟨_, evaluated⟩⟩
    · rintro ⟨⟨terms, words⟩, known⟩
      obtain ⟨m, evaluated⟩ := (exists_evaluate_iff words).mpr known
      exact ⟨⟨Text.trimmed source, m⟩, (parse_eq_ok_iff scanned).mpr ⟨evaluated, rfl⟩⟩
  · intro u h
    obtain ⟨evaluated, named⟩ := (parse_eq_ok_iff scanned).mp h
    exact ⟨named, fun terms words b => exponent_of_evaluate words evaluated b⟩

/-- Beside a power and behind a slash: the acceleration `meter/second**2`. -/
theorem parse_iff_expression_acceleration :
    UnitToken.scan (Text.trim "meter/second**2".toList) =
        .ok [.word "meter", .slash, .word "second", .power, .number (.ofNat 2)] ∧
      ∃ u, standard.parse "meter/second**2" = .ok u ∧
        u.dimension.exponent .length = 1 ∧ u.dimension.exponent .time = -2 := by
  have scanned : UnitToken.scan (Text.trim "meter/second**2".toList) =
      .ok [.word "meter", .slash, .word "second", .power, .number (.ofNat 2)] := by
    decide +kernel
  have words : Expression [.word "meter", .slash, .word "second", .power, .number (.ofNat 2)]
      [⟨false, .word "meter", none⟩, ⟨true, .word "second", some 2⟩] := by
    have whole : (Binary64.ofNat 2).IsWhole 2 := Binary64.isWhole_of_whole? (by decide +kernel)
    exact .mk (.bare false (.word "meter")) rfl
      (.slash (.raised true (.word "second") whole (by decide)) rfl .nil)
  obtain ⟨accepted, meaning⟩ := parse_iff_expression standard "meter/second**2" scanned
  have known (name : String) (mem : UnitToken.word name ∈
      [.word "meter", .slash, .word "second", .power, .number (.ofNat 2)]) :
      ∃ m, standard.lookup? name = some m := by
    have cases : name = "meter" ∨ name = "second" := by simpa using mem
    obtain rfl | rfl := cases
    · exact Option.isSome_iff_exists.mp (by decide +kernel)
    · exact Option.isSome_iff_exists.mp (by decide +kernel)
  obtain ⟨u, parsed⟩ := accepted.mpr ⟨⟨_, words⟩, known⟩
  refine ⟨scanned, u, parsed, ?_, ?_⟩
  · rw [(meaning u parsed).2 _ words]
    decide +kernel
  · rw [(meaning u parsed).2 _ words]
    decide +kernel

end Registry

end DeviceLink
