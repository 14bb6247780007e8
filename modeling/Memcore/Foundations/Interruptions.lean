import Memcore.Foundations.Programs
import Mathlib.Data.List.Infix

/-!
# Programs that are cut short

A program may stop for good after any of its calls, whether or not anyone is left
to receive the answer. What is asserted at every call and at the end holds wherever
it stops. A program that is started again and again on the same state, with a
recovery after each stop, keeps what each stop and each recovery keeps.

Assertions may speak about the calls answered so far as well as about the state.
-/
namespace Programs

open Program

variable {ports : Interface} {ε α σ χ τ γ : Type}

/-- The calls answered and the state left behind when a program stops at any point. -/
inductive CutShort (server : Server ports ε σ χ) (admits : σ → ports.Call → χ → Prop) :
    Program ports ε α → σ → List (Event ports ε) → σ → Prop where
  | here (program : Program ports ε α) (state : σ) : CutShort server admits program state [] state
  | ask (call : ports.Call) (resume : Except ε (ports.Answer call) → Program ports ε α)
      (state final : σ) (choice : χ) (trace : List (Event ports ε))
      (isReady : server.ready choice call state = true) (admitted : admits state call choice)
      (rest : CutShort server admits (resume (server.serve choice call state).1)
        (server.serve choice call state).2 trace final) :
      CutShort server admits (.ask call resume) state
        (⟨call, (server.serve choice call state).1⟩ :: trace) final

/-- Any number of starts of one program, each cut short and then recovered from, with
what was answered in each. -/
inductive Interrupted (server : Server ports ε σ χ) (admits : σ → ports.Call → χ → Prop)
    (recover : σ → σ) (program : Program ports ε α) (first : σ) :
    List (List (Event ports ε)) → σ → Prop where
  | untouched : Interrupted server admits recover program first [] first
  | again {middle last : σ} {runs : List (List (Event ports ε))}
      {trace : List (Event ports ε)}
      (earlier : Interrupted server admits recover program first runs middle)
      (cut : CutShort server admits program middle trace last) :
      Interrupted server admits recover program first (runs ++ [trace]) (recover last)

/-- Programs of a family started one after the other on one state, each cut short and then
recovered from. What was answered in each passes a test. -/
inductive InterruptedInTurn {ι : Type} (server : Server ports ε σ χ)
    (admits : σ → ports.Call → χ → Prop) (recover : σ → σ) (starts : ι → Program ports ε α)
    (passes : ι → List (Event ports ε) → Prop) (first : σ) : σ → Prop where
  | untouched : InterruptedInTurn server admits recover starts passes first first
  | again {middle last : σ} {trace : List (Event ports ε)} (start : ι)
      (earlier : InterruptedInTurn server admits recover starts passes first middle)
      (cut : CutShort server admits (starts start) middle trace last)
      (passed : passes start trace) :
      InterruptedInTurn server admits recover starts passes first (recover last)

/-- The specification over states that remember something of what has been answered. -/
def Spec.tracking (next : γ → Event ports ε → γ) (spec : Spec ports ε τ) :
    Spec ports ε (τ × γ) :=
  fun call state post => spec call state.1 fun answer later =>
    post answer (later, next state.2 ⟨call, answer⟩)

/-- The specification under which a condition has to hold whenever a call is made. -/
def Spec.asserting (holds : τ → Prop) (spec : Spec ports ε τ) : Spec ports ε τ :=
  fun call state post => holds state ∧ spec call state post

theorem Spec.tracking_monotone {spec : Spec ports ε τ} (monotone : spec.Monotone)
    (next : γ → Event ports ε → γ) : (spec.tracking next).Monotone := by
  intro call state strong weak weaker
  exact monotone call state.1 _ _ fun answer later => weaker answer _

theorem Spec.asserting_monotone {spec : Spec ports ε τ} (monotone : spec.Monotone)
    (holds : τ → Prop) : (spec.asserting holds).Monotone := by
  rintro call state strong weak weaker ⟨held, ensured⟩
  exact ⟨held, monotone call state strong weak weaker ensured⟩

section Runs

variable {server : Server ports ε σ χ} {admits : σ → ports.Call → χ → Prop}
  {next : γ → Event ports ε → γ} {program : Program ports ε α} {state final : σ} {seen : γ}
  {trace : List (Event ports ε)} {holds : σ × γ → Prop} {post : Except ε α → σ × γ → Prop}

/-- A call whose answer is remembered, for every admitted choice. -/
theorem ensures_ask_tracking (call : ports.Call)
    (resume : Except ε (ports.Answer call) → Program ports ε α) :
    Ensures (((server.spec admits).tracking next).asserting holds) (ask call resume) post
        (state, seen) ↔
      holds (state, seen) ∧ ∀ choice, server.ready choice call state = true →
        admits state call choice →
          Ensures (((server.spec admits).tracking next).asserting holds)
            (resume (server.serve choice call state).1) post
            ((server.serve choice call state).2,
              next seen ⟨call, (server.serve choice call state).1⟩) :=
  ensures_ask _ _ _ _ _

/-- What is asserted at every call and at the end holds wherever the program stops. -/
theorem CutShort.asserted (cut : CutShort server admits program state trace final)
    (ensured : Ensures (((server.spec admits).tracking next).asserting holds) program post
      (state, seen))
    (enough : ∀ outcome last, post outcome last → holds last) :
    holds (final, trace.foldl next seen) := by
  induction cut generalizing seen with
  | here program state =>
    cases program with
    | done value => exact enough _ _ ((ensures_done _ _ _ _).mp ensured)
    | fail error => exact enough _ _ ((ensures_fail _ _ _ _).mp ensured)
    | ask call resume => exact ((ensures_ask_tracking call resume).mp ensured).1
  | ask call resume state final choice trace isReady admitted rest inductionHypothesis =>
    have onwards := ((ensures_ask_tracking call resume).mp ensured).2 choice isReady admitted
    exact inductionHypothesis onwards

/-- The postcondition holds at the end of every run. -/
theorem Runs.tracked {outcome : Except ε α}
    (run : Runs server admits program state trace outcome final)
    (ensured : Ensures (((server.spec admits).tracking next).asserting holds) program post
      (state, seen)) : post outcome (final, trace.foldl next seen) := by
  induction run generalizing seen with
  | done value state => exact (ensures_done _ _ _ _).mp ensured
  | fail error state => exact (ensures_fail _ _ _ _).mp ensured
  | ask call resume state final choice trace outcome isReady admitted rest inductionHypothesis =>
    have onwards := ((ensures_ask_tracking call resume).mp ensured).2 choice isReady admitted
    exact inductionHypothesis onwards

/-- A condition that every stop and recovery keeps, and what every stop shows of its trace. -/
theorem Interrupted.invariant {recover : σ → σ} {first last : σ}
    {runs : List (List (Event ports ε))} {kept : σ → Prop} {shows : List (Event ports ε) → Prop}
    (interrupted : Interrupted server admits recover program first runs last)
    (keeps : ∀ state trace final, kept state → CutShort server admits program state trace final →
      kept (recover final) ∧ shows trace)
    (initially : kept first) : kept last ∧ ∀ trace ∈ runs, shows trace := by
  induction interrupted with
  | untouched =>
    refine ⟨initially, ?_⟩
    intro trace listed
    contradiction
  | again earlier cut inductionHypothesis =>
    obtain ⟨before, shown⟩ := inductionHypothesis
    obtain ⟨after, shows⟩ := keeps _ _ _ before cut
    refine ⟨after, ?_⟩
    intro trace listed
    rcases List.mem_append.mp listed with earlier | latest
    · exact shown trace earlier
    · rwa [List.mem_singleton.mp latest]

/-- A condition that every stop and recovery keeps, whichever program it was. -/
theorem InterruptedInTurn.invariant {ι : Type} {recover : σ → σ}
    {starts : ι → Program ports ε α} {passes : ι → List (Event ports ε) → Prop} {first last : σ}
    {kept : σ → Prop}
    (interrupted : InterruptedInTurn server admits recover starts passes first last)
    (keeps : ∀ start state trace final, kept state →
      CutShort server admits (starts start) state trace final → passes start trace →
        kept (recover final))
    (initially : kept first) : kept last := by
  induction interrupted with
  | untouched => exact initially
  | again start earlier cut passed inductionHypothesis =>
    exact keeps start _ _ _ inductionHypothesis cut passed

end Runs

/-- Replay a program on given choices until they run out. -/
def replayCut (server : Server ports ε σ χ) : List χ → Program ports ε α → σ →
    List (Event ports ε) × σ
  | choice :: choices, .ask call resume, state =>
      let rest := replayCut server choices (resume (server.serve choice call state).1)
        (server.serve choice call state).2
      (⟨call, (server.serve choice call state).1⟩ :: rest.1, rest.2)
  | _, _, state => ([], state)

/-- On a server that makes nobody wait, a replay is a program that was cut short. -/
theorem replayCut_cutShort {server : Server ports ε σ χ} {admits : σ → ports.Call → χ → Prop}
    (prompt : ∀ choice call state, server.ready choice call state = true)
    (anything : ∀ state call choice, admits state call choice) (choices : List χ)
    (program : Program ports ε α) (state : σ) : CutShort server admits program state
      (replayCut server choices program state).1 (replayCut server choices program state).2 := by
  induction choices generalizing program state with
  | nil => exact .here program state
  | cons choice choices inductionHypothesis =>
    cases program with
    | done value => exact .here _ state
    | fail error => exact .here _ state
    | ask call resume =>
      exact .ask call resume state _ choice _ (prompt _ _ _) (anything _ _ _)
        (inductionHypothesis _ _)

end Programs
