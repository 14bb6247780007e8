import Mathlib.Data.Nat.Notation
import Mathlib.Data.List.Infix

/-!
# Scanners

A scanner reads a text once from the left. Where its rule sees a mark, it writes what
the rule says in its place and leaves out the value that follows, up to a symbol that
stops the value. Everything else is copied. Several scanners run one after the other,
each on what the one before it has written.

The laws say how a text in two parts is scanned part by part, when a value between two
parts is left out and when it is copied as it stands.
-/
namespace Scanners

variable {Symbol : Type}

/-- What a rule makes of a place in the text: no mark, a failure, or a mark with what is
written for it and how many symbols it takes. -/
inductive Sight (Symbol : Type)
  | nothing
  | fails
  | mark (written : List Symbol) (width : ℕ)

/-- A rule looks at the symbol before a place and at the text from there on. -/
structure Rule (Symbol : Type) where
  sees : Option Symbol → List Symbol → Sight Symbol
  stops : Symbol → Bool

/-- The scanner copies, or leaves out so many symbols and then the rest of a value. -/
inductive Mode
  | copying
  | skipping (left : ℕ)
  deriving DecidableEq

/-- A value ends where a symbol stops it. -/
def Mode.enter (stops : Bool) : Mode → Mode
  | .skipping 0 => if stops then .copying else .skipping 0
  | mode => mode

/-- What is written at one symbol, and how the scanner goes on. -/
def step (rule : Rule Symbol) (mode : Mode) (before : Option Symbol) (symbol : Symbol)
    (rest : List Symbol) : Option (List Symbol × Mode) :=
  match mode.enter (rule.stops symbol) with
  | .skipping left => some ([], .skipping (left - 1))
  | .copying =>
      match rule.sees before (symbol :: rest) with
      | .nothing => some ([symbol], .copying)
      | .fails => none
      | .mark written width => some (written, .skipping (width - 1))

/-- Put a text before what was written. -/
def emit (written : List Symbol) (result : Option (List Symbol × Mode)) :
    Option (List Symbol × Mode) :=
  result.map fun later => (written ++ later.1, later.2)

/-- Scan a text: what is written, and the mode at its end. -/
def scan (rule : Rule Symbol) : Mode → Option Symbol → List Symbol → Option (List Symbol × Mode)
  | mode, _, [] => some ([], mode)
  | mode, before, symbol :: rest =>
      (step rule mode before symbol rest).bind fun first =>
        emit first.1 (scan rule first.2 (some symbol) rest)

/-- One scanner on a whole text. -/
def pass (rule : Rule Symbol) (text : List Symbol) : Option (List Symbol) :=
  (scan rule .copying none text).map Prod.fst

/-- Scanners one after the other. -/
def passes : List (Rule Symbol) → List Symbol → Option (List Symbol)
  | [], text => some text
  | rule :: rules, text => (pass rule text).bind (passes rules)

/-- At the end of the text one of the scanners is inside a value. -/
def endsInValue : List (Rule Symbol) → List Symbol → Bool
  | [], _ => false
  | rule :: rules, text =>
      match scan rule .copying none text with
      | none => false
      | some (_, .skipping _) => true
      | some (written, .copying) => endsInValue rules written

attribute [grind =] Mode.enter step scan pass passes endsInValue

/-- The last symbol of a text, or the one before it when the text is empty. -/
def previous (before : Option Symbol) (text : List Symbol) : Option Symbol :=
  text.getLast?.or before

@[simp] theorem previous_nil (before : Option Symbol) : previous before [] = before := rfl

@[simp] theorem previous_cons (before : Option Symbol) (symbol : Symbol) (rest : List Symbol) :
    previous before (symbol :: rest) = previous (some symbol) rest := by
  cases rest with
  | nil => rfl
  | cons next rest => simp [previous, List.getLast?_cons]

@[simp] theorem previous_concat (before : Option Symbol) (text : List Symbol) (symbol : Symbol) :
    previous before (text ++ [symbol]) = some symbol := by
  simp [previous]

@[simp] theorem emit_none (written : List Symbol) : emit written none = none := rfl

@[simp] theorem emit_some (written out : List Symbol) (mode : Mode) :
    emit written (some (out, mode)) = some (written ++ out, mode) := rfl

@[simp] theorem emit_nil (result : Option (List Symbol × Mode)) : emit [] result = result := by
  cases result <;> rfl

@[simp] theorem emit_emit (first second : List Symbol) (result : Option (List Symbol × Mode)) :
    emit first (emit second result) = emit (first ++ second) result := by
  cases result with
  | none => rfl
  | some later => exact congrArg (fun out => some (out, later.2)) (List.append_assoc ..).symm

theorem emit_eq_some {written out : List Symbol} {result : Option (List Symbol × Mode)}
    {last : Mode} (emitted : emit written result = some (out, last)) :
    ∃ later, result = some (later, last) ∧ out = written ++ later := by
  cases result with
  | none => nomatch emitted
  | some result =>
    obtain ⟨rfl, rfl⟩ := Prod.mk.inj (Option.some.inj emitted)
    exact ⟨result.1, rfl, rfl⟩

@[simp] theorem fst_emit (written : List Symbol) (result : Option (List Symbol × Mode)) :
    (emit written result).map Prod.fst = (result.map Prod.fst).map (written ++ ·) := by
  cases result <;> rfl

@[simp] theorem scan_nil (rule : Rule Symbol) (mode : Mode) (before : Option Symbol) :
    scan rule mode before [] = some ([], mode) := rfl

variable {rule : Rule Symbol}

theorem passes_none {rules : List (Rule Symbol)} {text : List Symbol}
    (scanned : scan rule .copying none text = none) : passes (rule :: rules) text = none := by
  simp [passes, pass, scanned]

theorem passes_some {rules : List (Rule Symbol)} {text out : List Symbol} {last : Mode}
    (scanned : scan rule .copying none text = some (out, last)) :
    passes (rule :: rules) text = passes rules out := by
  simp [passes, pass, scanned]

/-- A row of scanners in two parts. -/
theorem passes_append (first second : List (Rule Symbol)) (text : List Symbol) :
    passes (first ++ second) text = (passes first text).bind (passes second) := by
  induction first generalizing text with
  | nil => rfl
  | cons rule first inductionHypothesis =>
    rw [List.cons_append, passes, passes]
    cases pass rule text with
    | none => rfl
    | some out => exact inductionHypothesis out

theorem endsInValue_skipping {rules : List (Rule Symbol)} {text out : List Symbol} {left : ℕ}
    (scanned : scan rule .copying none text = some (out, .skipping left)) :
    endsInValue (rule :: rules) text = true := by
  simp [endsInValue, scanned]

theorem endsInValue_copying {rules : List (Rule Symbol)} {text out : List Symbol}
    (scanned : scan rule .copying none text = some (out, .copying)) :
    endsInValue (rule :: rules) text = endsInValue rules out := by
  simp [endsInValue, scanned]

theorem scan_cons (mode : Mode) (before : Option Symbol) (symbol : Symbol) (rest : List Symbol) :
    scan rule mode before (symbol :: rest) =
      (step rule mode before symbol rest).bind fun first =>
        emit first.1 (scan rule first.2 (some symbol) rest) := rfl

/-- A scan that succeeds has made a first step and gone on. -/
theorem scan_cons_some {mode last : Mode} {before : Option Symbol} {symbol : Symbol}
    {rest out : List Symbol} (scanned : scan rule mode before (symbol :: rest) = some (out, last)) :
    ∃ written next later, step rule mode before symbol rest = some (written, next) ∧
      scan rule next (some symbol) rest = some (later, last) ∧ out = written ++ later := by
  rw [scan_cons] at scanned
  obtain ⟨⟨written, next⟩, stepped, goesOn⟩ := Option.bind_eq_some_iff.mp scanned
  obtain ⟨later, scannedRest, rfl⟩ := emit_eq_some goesOn
  exact ⟨written, next, later, stepped, scannedRest, rfl⟩

/-- A step leaves out a symbol, copies it, or writes for a mark. -/
theorem step_cases {mode next : Mode} {before : Option Symbol} {symbol : Symbol}
    {rest written : List Symbol} (stepped : step rule mode before symbol rest = some (written, next)) :
    (∃ left, mode = .skipping left ∧ written = [] ∧ next = .skipping (left - 1)) ∨
      (rule.sees before (symbol :: rest) = .nothing ∧ written = [symbol] ∧ next = .copying) ∨
      ∃ width, rule.sees before (symbol :: rest) = .mark written width ∧
        next = .skipping (width - 1) := by
  unfold step at stepped
  cases entered : mode.enter (rule.stops symbol) with
  | skipping left =>
    have same : mode = .skipping left := by
      unfold Mode.enter at entered
      grind
    simp only [entered, Option.some.injEq, Prod.mk.injEq] at stepped
    exact .inl ⟨left, same, stepped.1.symm, stepped.2.symm⟩
  | copying =>
    rw [entered] at stepped
    cases seen : rule.sees before (symbol :: rest) with
    | nothing =>
      simp only [seen, Option.some.injEq, Prod.mk.injEq] at stepped
      exact .inr (.inl ⟨rfl, stepped.1.symm, stepped.2.symm⟩)
    | fails => simp [seen] at stepped
    | mark written' width =>
      simp only [seen, Option.some.injEq, Prod.mk.injEq] at stepped
      obtain ⟨rfl, rfl⟩ := stepped
      exact .inr (.inr ⟨width, rfl, rfl⟩)

/-- Symbols that are to be left out are left out. -/
theorem scan_forced (left : ℕ) (before : Option Symbol) (symbol : Symbol) (rest : List Symbol) :
    scan rule (.skipping (left + 1)) before (symbol :: rest) =
      scan rule (.skipping left) (some symbol) rest := by
  simp [scan_cons, step, Mode.enter]

/-- A symbol that stops no value belongs to the value. -/
theorem scan_inside {symbol : Symbol} (inside : rule.stops symbol = false) (left : ℕ)
    (before : Option Symbol) (rest : List Symbol) :
    scan rule (.skipping left) before (symbol :: rest) =
      scan rule (.skipping (left - 1)) (some symbol) rest := by
  cases left with
  | zero => simp [scan_cons, step, Mode.enter, inside]
  | succ left => rw [scan_forced, Nat.add_sub_cancel]

/-- A symbol that stops the value is read like any other. -/
theorem scan_stop {symbol : Symbol} (stop : rule.stops symbol = true) (before : Option Symbol)
    (rest : List Symbol) :
    scan rule (.skipping 0) before (symbol :: rest) =
      scan rule .copying before (symbol :: rest) := by
  simp [scan_cons, step, Mode.enter, stop]

/-- Where nothing is seen, the symbol is copied. -/
theorem scan_nothing {before : Option Symbol} {symbol : Symbol} {rest : List Symbol}
    (nothing : rule.sees before (symbol :: rest) = .nothing) :
    scan rule .copying before (symbol :: rest) =
      emit [symbol] (scan rule .copying (some symbol) rest) := by
  simp [scan_cons, step, Mode.enter, nothing]

theorem scan_fails {before : Option Symbol} {symbol : Symbol} {rest : List Symbol}
    (fails : rule.sees before (symbol :: rest) = .fails) :
    scan rule .copying before (symbol :: rest) = none := by
  simp [scan_cons, step, Mode.enter, fails]

theorem scan_mark {before : Option Symbol} {symbol : Symbol} {rest written : List Symbol}
    {width : ℕ} (mark : rule.sees before (symbol :: rest) = .mark written width) :
    scan rule .copying before (symbol :: rest) =
      emit written (scan rule (.skipping (width - 1)) (some symbol) rest) := by
  simp [scan_cons, step, Mode.enter, mark]

/-- What a scanner sees in a text does not depend on what follows it. -/
def Blind (rule : Rule Symbol) (text more : List Symbol) : Prop :=
  ∀ before symbol rest, symbol :: rest <:+ text →
    rule.sees before (symbol :: rest ++ more) = rule.sees before (symbol :: rest)

/-- Two parts of a text are scanned one after the other. -/
theorem scan_append {text more : List Symbol} (blind : Blind rule text more) (mode : Mode)
    (before : Option Symbol) :
    scan rule mode before (text ++ more) =
      (scan rule mode before text).bind fun first =>
        emit first.1 (scan rule first.2 (previous before text) more) := by
  induction text generalizing mode before with
  | nil => simp
  | cons symbol rest inductionHypothesis =>
    have later : Blind rule rest more := fun before' symbol' rest' suffix =>
      blind before' symbol' rest' (suffix.trans (List.suffix_cons symbol rest))
    have same : step rule mode before symbol (rest ++ more) = step rule mode before symbol rest := by
      simp only [step, ← List.cons_append, blind before symbol rest List.suffix_rfl]
    rw [List.cons_append, scan_cons, scan_cons, same]
    cases step rule mode before symbol rest with
    | none => rfl
    | some first =>
      simp only [Option.bind_some, inductionHypothesis later, previous_cons]
      cases scan rule first.2 (some symbol) rest with
      | none => rfl
      | some result => simp [emit_emit, emit_some first.1 result.1 result.2]

/-- So many symbols are left out, whatever they are. -/
theorem scan_width (text : List Symbol) (left : ℕ) (before : Option Symbol) (more : List Symbol) :
    scan rule (.skipping (text.length + left)) before (text ++ more) =
      scan rule (.skipping left) (previous before text) more := by
  induction text generalizing before with
  | nil => simp
  | cons symbol rest inductionHypothesis =>
    rw [List.length_cons, Nat.add_right_comm, List.cons_append, scan_forced, inductionHypothesis,
      previous_cons]

/-- A value is left out whole. -/
theorem scan_value {value : List Symbol} (inside : ∀ symbol ∈ value, rule.stops symbol = false)
    (left : ℕ) (before : Option Symbol) (more : List Symbol) :
    scan rule (.skipping left) before (value ++ more) =
      scan rule (.skipping (left - value.length)) (previous before value) more := by
  induction value generalizing left before with
  | nil => simp
  | cons symbol value inductionHypothesis =>
    have later := inductionHypothesis (fun other member => inside other (List.mem_cons_of_mem _ member))
    rw [List.cons_append, scan_inside (inside symbol List.mem_cons_self), later, previous_cons,
      List.length_cons]
    congr 2
    omega

/-- A text in which nothing is seen is copied. -/
theorem scan_unseen {text more : List Symbol}
    (unseen : ∀ before symbol rest, symbol :: rest <:+ text →
      rule.sees before (symbol :: rest ++ more) = .nothing) (before : Option Symbol) :
    scan rule .copying before (text ++ more) =
      emit text (scan rule .copying (previous before text) more) := by
  induction text generalizing before with
  | nil => simp
  | cons symbol rest inductionHypothesis =>
    have later := inductionHypothesis fun before' symbol' rest' suffix =>
      unseen before' symbol' rest' (suffix.trans (List.suffix_cons symbol rest))
    have here := unseen before symbol rest List.suffix_rfl
    rw [List.cons_append] at here ⊢
    rw [scan_nothing here, later, emit_emit, previous_cons, List.singleton_append]

/-- Inside a value the scanner stays to the end of a text that stops no value. -/
theorem scan_value_end {text : List Symbol} (inside : ∀ symbol ∈ text, rule.stops symbol = false)
    (left : ℕ) (before : Option Symbol) :
    scan rule (.skipping left) before text = some ([], .skipping (left - text.length)) := by
  have skipped := scan_value inside left before []
  rwa [List.append_nil] at skipped

/-- A scanner that still copies at the end of a text that stops no value has copied it. -/
theorem copied_whole {text out : List Symbol} {before : Option Symbol}
    (inside : ∀ symbol ∈ text, rule.stops symbol = false)
    (scanned : scan rule .copying before text = some (out, .copying)) : out = text := by
  induction text generalizing before out with
  | nil => simpa using scanned.symm
  | cons symbol rest inductionHypothesis =>
    have insideRest : ∀ other ∈ rest, rule.stops other = false :=
      fun other member => inside other (List.mem_cons_of_mem _ member)
    cases seen : rule.sees before (symbol :: rest) with
    | nothing =>
      rw [scan_nothing seen] at scanned
      obtain ⟨later, scannedRest, rfl⟩ := emit_eq_some scanned
      rw [inductionHypothesis insideRest scannedRest, List.singleton_append]
    | fails => simp [scan_fails seen] at scanned
    | mark written width => simp [scan_mark seen, scan_value_end insideRest] at scanned

/-- It has copied the symbol before such a text too. -/
theorem copied_end {front out tail : List Symbol} {symbol : Symbol} {mode : Mode}
    {before : Option Symbol} (inside : ∀ other ∈ tail, rule.stops other = false)
    (scanned : scan rule mode before (front ++ symbol :: tail) = some (out, .copying)) :
    ∃ front', out = front' ++ symbol :: tail := by
  induction front generalizing mode before out with
  | nil =>
    obtain ⟨written, next, later, stepped, scannedTail, rfl⟩ := scan_cons_some scanned
    obtain ⟨left, rfl, rfl, rfl⟩ | ⟨_, rfl, rfl⟩ | ⟨width, _, rfl⟩ := step_cases stepped
    · simp [scan_value_end inside] at scannedTail
    · exact ⟨[], by rw [copied_whole inside scannedTail]; rfl⟩
    · simp [scan_value_end inside] at scannedTail
  | cons first front inductionHypothesis =>
    obtain ⟨written, next, later, _, scannedRest, rfl⟩ := scan_cons_some scanned
    obtain ⟨front', rfl⟩ := inductionHypothesis scannedRest
    exact ⟨written ++ front', by rw [List.append_assoc]⟩

/-- A mark at the end of a text is seen, or lies in the value of an earlier one. -/
theorem mark_opens {front tail written out : List Symbol} {symbol : Symbol} {width : ℕ}
    {mode last : Mode} {before : Option Symbol}
    (inside : ∀ other ∈ symbol :: tail, rule.stops other = false)
    (seen : rule.sees (previous before front) (symbol :: tail) = .mark written width)
    (scanned : scan rule mode before (front ++ symbol :: tail) = some (out, last)) :
    last ≠ .copying := by
  induction front generalizing mode before out with
  | nil =>
    rw [List.nil_append] at scanned
    rw [previous_nil] at seen
    have insideTail : ∀ other ∈ tail, rule.stops other = false :=
      fun other member => inside other (List.mem_cons_of_mem _ member)
    rintro rfl
    cases mode with
    | copying => simp [scan_mark seen, scan_value_end insideTail] at scanned
    | skipping left =>
      simp [scan_inside (inside symbol List.mem_cons_self), scan_value_end insideTail] at scanned
  | cons first front inductionHypothesis =>
    obtain ⟨written', next, later, _, scannedRest, rfl⟩ := scan_cons_some scanned
    rw [previous_cons] at seen
    exact inductionHypothesis seen scannedRest

/-- No more symbols are to be left out than there are. -/
def Mode.Within (length : ℕ) : Mode → Prop
  | .copying => True
  | .skipping left => left ≤ length

/-- No mark that begins in a text reaches into what follows. -/
def Uncrossed (rule : Rule Symbol) (text more : List Symbol) : Prop :=
  ∀ before symbol rest written width, symbol :: rest <:+ text →
    rule.sees before (symbol :: rest ++ more) = .mark written width → width ≤ rest.length + 1

/-- A text ends with a wall. -/
def Closed (wall : Symbol) (text : List Symbol) : Prop :=
  ∃ front, text = front ++ [wall]

theorem closed_append {wall : Symbol} (front : List Symbol) {text : List Symbol}
    (closed : Closed wall text) : Closed wall (front ++ text) := by
  obtain ⟨start, rfl⟩ := closed
  exact ⟨front ++ start, by rw [List.append_assoc]⟩

/-- Everything a rule writes for a mark ends with the wall. -/
def Closes (wall : Symbol) (rule : Rule Symbol) : Prop :=
  ∀ before text written width, rule.sees before text = .mark written width → Closed wall written

/-- A scanner reaches the end of a part that no mark crosses. If it is inside a value there,
what it wrote last is the wall. -/
theorem scan_until {wall : Symbol} (closes : Closes wall rule) {text more : List Symbol}
    (uncrossed : Uncrossed rule text more) {mode : Mode} (within : mode.Within text.length)
    (before : Option Symbol) :
    scan rule mode before (text ++ more) = none ∨
      ∃ out next, (next = .copying ∨ next = .skipping 0) ∧
        (next ≠ .copying → Closed wall out ∨ (out = [] ∧ mode ≠ .copying)) ∧
        scan rule mode before (text ++ more) =
          emit out (scan rule next (previous before text) more) := by
  induction text generalizing mode before with
  | nil =>
    refine .inr ⟨[], mode, ?_, fun skipping => .inr ⟨rfl, skipping⟩, by simp⟩
    cases mode with
    | copying => exact .inl rfl
    | skipping left => exact .inr (congrArg _ (Nat.le_zero.mp within))
  | cons symbol rest inductionHypothesis =>
    have uncrossedRest : Uncrossed rule rest more :=
      fun before' symbol' rest' written width suffix =>
        uncrossed before' symbol' rest' written width (suffix.trans (List.suffix_cons symbol rest))
    rw [List.cons_append, scan_cons, previous_cons]
    cases stepped : step rule mode before symbol (rest ++ more) with
    | none => exact .inl rfl
    | some first =>
      obtain ⟨written, goesOn⟩ := first
      rw [Option.bind_some]
      have withinRest : goesOn.Within rest.length := by
        obtain ⟨left, rfl, _, rfl⟩ | ⟨_, _, rfl⟩ | ⟨width, seen, rfl⟩ := step_cases stepped
        · have bound : left ≤ rest.length + 1 := within
          exact Nat.sub_le_of_le_add bound
        · trivial
        · have bound := uncrossed before symbol rest written width List.suffix_rfl seen
          exact Nat.sub_le_of_le_add bound
      obtain failed | ⟨out, next, settled, closed, scanned⟩ :=
        inductionHypothesis uncrossedRest withinRest (some symbol)
      · exact .inl (by rw [failed, emit_none])
      · refine .inr ⟨written ++ out, next, settled, fun skipping => ?_, by rw [scanned, emit_emit]⟩
        obtain closedOut | ⟨rfl, inValue⟩ := closed skipping
        · exact .inl (closed_append written closedOut)
        · rw [List.append_nil]
          obtain ⟨left, rfl, rfl, _⟩ | ⟨_, _, rfl⟩ | ⟨width, seen, _⟩ := step_cases stepped
          · exact .inr ⟨rfl, Mode.noConfusion⟩
          · exact absurd rfl inValue
          · exact .inl (closes _ _ _ _ seen)

/-- What follows a value begins with a gap, if anything does. -/
def Gapped (gap : Symbol → Bool) (text : List Symbol) : Prop :=
  ∀ symbol ∈ text.head?, gap symbol = true

/-- What the rules of a scanner have to do with gaps and with the wall: no mark contains the
wall, a gap ends every value, and no mark begins with either. -/
structure Disciplined (gap : Symbol → Bool) (wall : Symbol) (rule : Rule Symbol) : Prop where
  fits : ∀ before text written width,
    rule.sees before text = .mark written width → width ≤ text.length
  closes : Closes wall rule
  walled : ∀ before text written width,
    rule.sees before text = .mark written width → wall ∉ text.take width
  wallUnseen : ∀ before rest, rule.sees before (wall :: rest) = .nothing
  gapStops : ∀ symbol, gap symbol = true → rule.stops symbol = true
  gapUnseen : ∀ before symbol rest, gap symbol = true → rule.sees before (symbol :: rest) = .nothing
  gapBlind : ∀ text more, Closed wall text → Gapped gap more → Blind rule text more

variable {gap : Symbol → Bool} {wall : Symbol}

/-- A scanner ends a text copying, or inside a value after the wall it wrote. -/
theorem scan_end (disciplined : Disciplined gap wall rule) {text out : List Symbol} {last : Mode}
    (scanned : scan rule .copying none text = some (out, last)) :
    last = .copying ∨ (last = .skipping 0 ∧ Closed wall out) := by
  have uncrossed : Uncrossed rule text [] := by
    intro before symbol rest written width _ seen
    simpa using disciplined.fits _ _ _ _ seen
  obtain failed | ⟨out', next, settled, closed, scanned'⟩ :=
    scan_until disciplined.closes uncrossed (show Mode.copying.Within _ from trivial) none
  · rw [List.append_nil, scanned] at failed
    nomatch failed
  · rw [List.append_nil, scanned, scan_nil, emit_some, List.append_nil] at scanned'
    obtain ⟨rfl, rfl⟩ := Prod.mk.inj (Option.some.inj scanned')
    obtain rfl | rfl := settled
    · exact .inl rfl
    · obtain closedOut | ⟨_, impossible⟩ := closed Mode.noConfusion
      · exact .inr ⟨rfl, closedOut⟩
      · exact absurd rfl impossible

/-- What follows a gap is scanned as if it stood alone. -/
theorem scan_gapped (disciplined : Disciplined gap wall rule) {more : List Symbol}
    (gapped : Gapped gap more) {mode : Mode} (settled : mode = .copying ∨ mode = .skipping 0)
    (before : Option Symbol) : (scan rule mode before more).map Prod.fst = pass rule more := by
  cases more with
  | nil => rfl
  | cons symbol rest =>
    have isGap : gap symbol = true := gapped symbol rfl
    have copies (before : Option Symbol) :=
      scan_nothing (disciplined.gapUnseen before symbol rest isGap)
    unfold pass
    obtain rfl | rfl := settled
    · rw [copies, copies]
    · rw [scan_stop (disciplined.gapStops symbol isGap), copies, copies]

/-- The gap stays where it is. -/
theorem gapped_pass (disciplined : Disciplined gap wall rule) {more out : List Symbol}
    (gapped : Gapped gap more) (passed : pass rule more = some out) : Gapped gap out := by
  cases more with
  | nil =>
    obtain rfl : [] = out := Option.some.inj passed
    exact gapped
  | cons symbol rest =>
    have isGap : gap symbol = true := gapped symbol rfl
    rw [pass, scan_nothing (disciplined.gapUnseen none symbol rest isGap), fst_emit] at passed
    obtain ⟨later, _, rfl⟩ := Option.map_eq_some_iff.mp passed
    intro first member
    rw [List.singleton_append, List.head?_cons, Option.mem_some_iff] at member
    exact member ▸ isGap

/-- The wall stays at the end of a text. -/
theorem closed_pass (disciplined : Disciplined gap wall rule) {text out : List Symbol}
    (closed : Closed wall text) (passed : pass rule text = some out) : Closed wall out := by
  obtain ⟨⟨written, last⟩, scanned, rfl⟩ := Option.map_eq_some_iff.mp passed
  obtain rfl | ⟨_, closedOut⟩ := scan_end disciplined scanned
  · obtain ⟨front, rfl⟩ := closed
    exact copied_end (fun _ absent => nomatch absent) scanned
  · exact closedOut

/-- A scanner works separately before and after a gap behind a wall. -/
theorem pass_closed (disciplined : Disciplined gap wall rule) {text more : List Symbol}
    (closed : Closed wall text) (gapped : Gapped gap more) :
    pass rule (text ++ more) =
      (pass rule text).bind fun out => (pass rule more).map (out ++ ·) := by
  rw [pass, scan_append (disciplined.gapBlind text more closed gapped)]
  cases scanned : scan rule .copying none text with
  | none => simp [pass, scanned]
  | some result =>
    have settled : result.2 = .copying ∨ result.2 = .skipping 0 :=
      (scan_end disciplined scanned).imp_right And.left
    rw [Option.bind_some, fst_emit, scan_gapped disciplined gapped settled]
    simp [pass, scanned]

/-- So do all of them. -/
theorem passes_closed {rules : List (Rule Symbol)}
    (disciplined : ∀ rule ∈ rules, Disciplined gap wall rule) {text more : List Symbol}
    (closed : Closed wall text) (gapped : Gapped gap more) :
    passes rules (text ++ more) =
      (passes rules text).bind fun out => (passes rules more).map (out ++ ·) := by
  induction rules generalizing text more with
  | nil => rfl
  | cons rule rules inductionHypothesis =>
    have here := disciplined rule List.mem_cons_self
    have disciplinedRest : ∀ other ∈ rules, Disciplined gap wall other :=
      fun other member => disciplined other (List.mem_cons_of_mem _ member)
    simp only [passes, pass_closed here closed gapped]
    cases passedText : pass rule text with
    | none => rfl
    | some out =>
      cases passedMore : pass rule more with
      | none => simp
      | some outMore =>
        exact inductionHypothesis disciplinedRest (closed_pass here closed passedText)
          (gapped_pass here gapped passedMore)

/-- What the scanners need to treat a value between two parts as one piece: none of its symbols
stops a value, no mark begins in it, and the part before it is read without looking at it. -/
structure Hidden (gap : Symbol → Bool) (Sealed : List Symbol → Prop) (value : List Symbol)
    (rule : Rule Symbol) : Prop where
  inside : ∀ symbol ∈ value, rule.stops symbol = false
  unseen : ∀ more, Gapped gap more → ∀ before symbol rest, symbol :: rest <:+ value →
    rule.sees before (symbol :: rest ++ more) = .nothing
  blind : ∀ text more, Sealed text → Gapped gap more → Blind rule text (value ++ more)

/-- One scanner leaves the value out if it is inside a value where the part before ends, and
copies it otherwise. -/
theorem pass_open (disciplined : Disciplined gap wall rule) {Sealed : List Symbol → Prop}
    {text value more : List Symbol} (hidden : Hidden gap Sealed value rule)
    (isSealed : Sealed text) (gapped : Gapped gap more) :
    pass rule (text ++ (value ++ more)) =
      (scan rule .copying none text).bind fun result => (pass rule more).map fun outMore =>
        if result.2 = .copying then result.1 ++ (value ++ outMore) else result.1 ++ outMore := by
  rw [pass, scan_append (hidden.blind text more isSealed gapped)]
  cases scanned : scan rule .copying none text with
  | none => rfl
  | some result =>
    obtain ⟨out, last⟩ := result
    rw [Option.bind_some, Option.bind_some, fst_emit]
    obtain rfl | ⟨rfl, _⟩ := scan_end disciplined scanned
    · rw [scan_unseen (hidden.unseen more gapped), fst_emit,
        scan_gapped disciplined gapped (.inl rfl), Option.map_map]
      rfl
    · rw [scan_value hidden.inside, Nat.zero_sub, scan_gapped disciplined gapped (.inr rfl)]
      simp

/-- All scanners together leave the value out if one of them is inside a value where the part
before ends, and copy it otherwise. -/
theorem passes_open {rules : List (Rule Symbol)} {Sealed : List Symbol → Prop}
    {text value more : List Symbol} (disciplined : ∀ rule ∈ rules, Disciplined gap wall rule)
    (hidden : ∀ rule ∈ rules, Hidden gap Sealed value rule)
    (keeps : ∀ rule ∈ rules, ∀ text out, Sealed text →
      scan rule .copying none text = some (out, .copying) → Sealed out)
    (isSealed : Sealed text) (gapped : Gapped gap more) :
    passes rules (text ++ (value ++ more)) =
      (passes rules text).bind fun out => (passes rules more).map fun outMore =>
        if endsInValue rules text then out ++ outMore else out ++ (value ++ outMore) := by
  induction rules generalizing text more with
  | nil => rfl
  | cons rule rules inductionHypothesis =>
    have here := disciplined rule List.mem_cons_self
    have disciplinedRest : ∀ other ∈ rules, Disciplined gap wall other :=
      fun other member => disciplined other (List.mem_cons_of_mem _ member)
    simp only [passes, pass_open here (hidden rule List.mem_cons_self) isSealed gapped]
    cases scanned : scan rule .copying none text with
    | none => simp [pass, scanned]
    | some result =>
      obtain ⟨out, last⟩ := result
      cases passedMore : pass rule more with
      | none => simp
      | some outMore =>
        have gappedOut := gapped_pass here gapped passedMore
        obtain rfl | ⟨rfl, closed⟩ := scan_end here scanned
        · have sealedOut := keeps rule List.mem_cons_self text out isSealed scanned
          simpa [pass, endsInValue, scanned] using inductionHypothesis disciplinedRest
            (fun other member => hidden other (List.mem_cons_of_mem _ member))
            (fun other member => keeps other (List.mem_cons_of_mem _ member)) sealedOut gappedOut
        · simpa [pass, endsInValue, scanned] using passes_closed disciplinedRest closed gappedOut

/-- A mark at the end of a text opens a value for the scanner whose mark it is, unless an
earlier scanner is inside a value there already. -/
theorem opens_value {rules : List (Rule Symbol)} {Ready : List Symbol → Prop} {own : Rule Symbol}
    (member : own ∈ rules)
    (keeps : ∀ rule ∈ rules, ∀ text out, Ready text →
      scan rule .copying none text = some (out, .copying) → Ready out)
    (opens : ∀ text out last, Ready text →
      scan own .copying none text = some (out, last) → last ≠ .copying)
    {text : List Symbol} (ready : Ready text) :
    passes rules text = none ∨ endsInValue rules text = true := by
  induction rules generalizing text with
  | nil => nomatch member
  | cons rule rules inductionHypothesis =>
    simp only [passes, pass, endsInValue]
    cases scanned : scan rule .copying none text with
    | none => exact .inl rfl
    | some result =>
      obtain ⟨out, last⟩ := result
      cases last with
      | skipping left => exact .inr rfl
      | copying =>
        obtain rfl | memberRest := List.mem_cons.mp member
        · exact absurd rfl (opens text out .copying ready scanned)
        · exact inductionHypothesis memberRest
            (fun other otherMember => keeps other (List.mem_cons_of_mem _ otherMember))
            (keeps rule List.mem_cons_self text out ready scanned)

/-- Where every scanner still copies at the end and leaves a text of the same kind, no value is
open. -/
theorem no_value {rules : List (Rule Symbol)} {Exposed : List Symbol → Prop}
    (keeps : ∀ rule ∈ rules, ∀ text out last, Exposed text →
      scan rule .copying none text = some (out, last) → last = .copying ∧ Exposed out)
    {text : List Symbol} (exposed : Exposed text) : endsInValue rules text = false := by
  induction rules generalizing text with
  | nil => rfl
  | cons rule rules inductionHypothesis =>
    rw [endsInValue]
    cases scanned : scan rule .copying none text with
    | none => rfl
    | some result =>
      obtain ⟨out, last⟩ := result
      obtain ⟨rfl, exposedOut⟩ := keeps rule List.mem_cons_self text out last exposed scanned
      exact inductionHypothesis
        (fun other member => keeps other (List.mem_cons_of_mem _ member)) exposedOut

/-- A gap behind a wall: the scanner copies from the gap on, and before the gap stands the wall. -/
theorem scan_past_wall (disciplined : Disciplined gap wall rule) {symbol : Symbol}
    (isGap : gap symbol = true) (front more : List Symbol) :
    scan rule .copying none (front ++ wall :: symbol :: more) = none ∨
      ∃ out, scan rule .copying none (front ++ wall :: symbol :: more) =
        emit (out ++ [wall, symbol]) (scan rule .copying (some symbol) more) := by
  have uncrossed : Uncrossed rule front (wall :: symbol :: more) := by
    intro before first rest written width _ seen
    have apart := disciplined.walled _ _ _ _ seen
    by_contra crosses
    refine apart (List.mem_take_iff_getElem.mpr ⟨rest.length + 1, ?_, ?_⟩)
    · simp
      omega
    · simp
  have fromGap (before : Option Symbol) :
      scan rule .copying before (symbol :: more) =
        emit [symbol] (scan rule .copying (some symbol) more) :=
    scan_nothing (disciplined.gapUnseen before symbol more isGap)
  obtain failed | ⟨out, next, settled, closed, scanned⟩ :=
    scan_until disciplined.closes uncrossed (show Mode.copying.Within _ from trivial) none
  · exact .inl failed
  · right
    have copied (before : Option Symbol) : scan rule .copying before (wall :: symbol :: more) =
        emit [wall, symbol] (scan rule .copying (some symbol) more) := by
      rw [scan_nothing (disciplined.wallUnseen before _), fromGap, emit_emit]
      rfl
    obtain rfl | rfl := settled
    · exact ⟨out, by rw [scanned, copied, emit_emit]⟩
    · cases stop : rule.stops wall with
      | true => exact ⟨out, by rw [scanned, scan_stop stop, copied, emit_emit]⟩
      | false =>
        obtain ⟨start, rfl⟩ | ⟨_, impossible⟩ := closed Mode.noConfusion
        · refine ⟨start, ?_⟩
          rw [scanned, scan_inside stop, scan_stop (disciplined.gapStops symbol isGap), fromGap,
            emit_emit]
          simp
        · exact absurd rfl impossible

/-- The places at which a scanner looks for a mark: the symbol before each and the text from
there on. It does not look inside a value, nor at the rest of a mark. -/
def places (rule : Rule Symbol) :
    Mode → Option Symbol → List Symbol → List (Option Symbol × List Symbol)
  | _, _, [] => []
  | mode, before, symbol :: rest =>
      match mode.enter (rule.stops symbol) with
      | .skipping left => places rule (.skipping (left - 1)) (some symbol) rest
      | .copying =>
          (before, symbol :: rest) ::
            match rule.sees before (symbol :: rest) with
            | .mark _ width => places rule (.skipping (width - 1)) (some symbol) rest
            | _ => places rule .copying (some symbol) rest

@[simp] theorem emit_eq_none_iff (written : List Symbol) (result : Option (List Symbol × Mode)) :
    emit written result = none ↔ result = none :=
  Option.map_eq_none_iff

/-- A scan fails when the rule fails at one of the places it looks at. -/
theorem scan_eq_none_iff (mode : Mode) (before : Option Symbol) (text : List Symbol) :
    scan rule mode before text = none ↔
      ∃ place ∈ places rule mode before text, rule.sees place.1 place.2 = .fails := by
  induction text generalizing mode before with
  | nil => simp [places]
  | cons symbol rest inductionHypothesis =>
    rw [scan_cons, step, places]
    cases mode.enter (rule.stops symbol) with
    | skipping left => simp [inductionHypothesis]
    | copying =>
      cases seen : rule.sees before (symbol :: rest) with
      | fails => simp [seen]
      | nothing => simp [seen, inductionHypothesis]
      | mark written width => simp [seen, inductionHypothesis]

/-- Scanners one after the other fail when one of them fails on what those before it wrote. -/
theorem passes_eq_none_iff (rules : List (Rule Symbol)) (text : List Symbol) :
    passes rules text = none ↔ ∃ earlier rule later out, rules = earlier ++ rule :: later ∧
      passes earlier text = some out ∧ pass rule out = none := by
  induction rules generalizing text with
  | nil => simp [passes]
  | cons rule rules inductionHypothesis =>
    constructor
    · intro failed
      cases written : pass rule text with
      | none => exact ⟨[], rule, rules, text, rfl, rfl, written⟩
      | some first =>
        rw [passes, written, Option.bind_some, inductionHypothesis] at failed
        obtain ⟨earlier, other, later, out, rfl, reached, fails⟩ := failed
        exact ⟨rule :: earlier, other, later, out, rfl, by rw [passes, written]; exact reached, fails⟩
    · rintro ⟨earlier, other, later, out, split, reached, fails⟩
      cases earlier with
      | nil =>
        obtain ⟨rfl, rfl⟩ := List.cons.inj split
        obtain rfl : text = out := Option.some.inj reached
        rw [passes, fails, Option.bind_none]
      | cons first earlier =>
        obtain ⟨rfl, rfl⟩ := List.cons.inj split
        obtain ⟨middle, written, goesOn⟩ := Option.bind_eq_some_iff.mp reached
        rw [passes, written, Option.bind_some, inductionHypothesis]
        exact ⟨earlier, other, later, out, rfl, goesOn, fails⟩

/-- What holds of all symbols of a text and of what is written for its marks holds of all
symbols that a scan writes. -/
theorem scan_writes {Holds : Symbol → Prop}
    (marks : ∀ before text written width, (∀ symbol ∈ text, Holds symbol) →
      rule.sees before text = .mark written width → ∀ symbol ∈ written, Holds symbol)
    {mode last : Mode} {before : Option Symbol} {text out : List Symbol}
    (holds : ∀ symbol ∈ text, Holds symbol)
    (scanned : scan rule mode before text = some (out, last)) : ∀ symbol ∈ out, Holds symbol := by
  induction text generalizing mode before out with
  | nil =>
    obtain ⟨rfl, _⟩ := Prod.mk.inj (Option.some.inj scanned)
    exact fun _ member => nomatch member
  | cons symbol rest inductionHypothesis =>
    obtain ⟨written, next, later, stepped, scannedRest, rfl⟩ := scan_cons_some scanned
    have laterHolds := inductionHypothesis
      (fun other member => holds other (List.mem_cons_of_mem _ member)) scannedRest
    intro other member
    obtain first | second := List.mem_append.mp member
    · obtain ⟨_, _, rfl, _⟩ | ⟨_, rfl, _⟩ | ⟨width, seen, _⟩ := step_cases stepped
      · nomatch first
      · rw [List.mem_singleton.mp first]
        exact holds symbol List.mem_cons_self
      · exact marks before _ written width holds seen other first
    · exact laterHolds other second

/-- Scanners one after the other write what each of them may write. -/
theorem passes_write {Holds : Symbol → Prop} {rules : List (Rule Symbol)}
    (marks : ∀ rule ∈ rules, ∀ before text written width, (∀ symbol ∈ text, Holds symbol) →
      rule.sees before text = .mark written width → ∀ symbol ∈ written, Holds symbol)
    {text out : List Symbol} (holds : ∀ symbol ∈ text, Holds symbol)
    (written : passes rules text = some out) : ∀ symbol ∈ out, Holds symbol := by
  induction rules generalizing text with
  | nil =>
    obtain rfl : text = out := Option.some.inj written
    exact holds
  | cons rule rules inductionHypothesis =>
    obtain ⟨middle, passed, goesOn⟩ := Option.bind_eq_some_iff.mp written
    obtain ⟨⟨_, last⟩, scanned, rfl⟩ := Option.map_eq_some_iff.mp passed
    exact inductionHypothesis (fun other member => marks other (List.mem_cons_of_mem _ member))
      (scan_writes (marks rule List.mem_cons_self) holds scanned) goesOn

/-- A place is an end of the text. -/
theorem places_suffix {mode : Mode} {before : Option Symbol} {text : List Symbol}
    {place : Option Symbol × List Symbol} (listed : place ∈ places rule mode before text) :
    place.2 <:+ text := by
  induction text generalizing mode before with
  | nil => nomatch listed
  | cons symbol rest inductionHypothesis =>
    rw [places] at listed
    split at listed
    · exact (inductionHypothesis listed).trans (List.suffix_cons symbol rest)
    · obtain rfl | later := List.mem_cons.mp listed
      · exact List.suffix_rfl
      · split at later <;>
          exact (inductionHypothesis later).trans (List.suffix_cons symbol rest)

end Scanners
