import Memcore.Providers.UsageRecorder

/-!
# Candidates in order, each with one event of usage

A use of the router visits candidates in the order of the list. A visit asks the guardrails
and the circuit, calls the provider at most once, retries included, and reports one event of
usage. What the visit ends with decides whether the next candidate is visited at all, and what
is returned if not. A use that is dropped may leave its last visit unfinished and unreported.

Nothing is assumed about what the guardrails, the circuits, the providers and the recorder
answer, so the use may be alone or among others. The recorder in memory merges the events;
whichever it is given, its requests are its successes and its errors together.
-/
namespace Memcore

open Programs Saturation

abbrev MeteredEvent (P T : Type) := Event (meteredPorts P T) Dropped

/-- The candidates that a request may come to. -/
def RouterRequest.providersToTry {P : Type} (request : RouterRequest P) :
    List (ProviderCandidate P) :=
  if request.fallbackEnabled then request.candidates else request.candidates.take 1

namespace Metered

variable {P T : Type}

/-! ## One candidate -/

/-- How a visit to a candidate ends: refused by the guardrails, blocked by the circuit, called
with success, or called in vain. -/
inductive Ending (T : Type) where
  | refused (error : MemcoreError)
  | blocked (error : MemcoreError)
  | succeeded (outcome : ProviderExecutionOutcome T)
  | failed (failure : ProviderExecutionFailure)

namespace Ending

/-- Whether the next candidate may be visited. -/
def goesOn : Ending T → Bool
  | refused _ => false
  | blocked _ => true
  | succeeded _ => false
  | failed failure => isProviderHealthFailure failure.error

def error : Ending T → Option MemcoreError
  | refused error => some error
  | blocked error => some error
  | succeeded _ => none
  | failed failure => some failure.error

/-- What is returned if this is the end of the last visit. -/
def result (operation : RouterRequest P) : Ending T → MemcoreResult T
  | refused error => .error error
  | blocked error => .error (exhaustedError operation (some error))
  | succeeded outcome => .ok outcome.value
  | failed failure => .error (exhaustedError operation (some failure.error))

def report (request : RouterRequest P) (candidate : ProviderCandidate P) (fallbackUsed : Bool) :
    Ending T → ProviderUsageReport
  | refused _ => Metered.report request candidate fallbackUsed .error 0 false false
  | blocked _ => Metered.report request candidate fallbackUsed .error 0 true false
  | succeeded outcome =>
      Metered.report request candidate fallbackUsed .success outcome.retries false outcome.timedOut
  | failed failure =>
      Metered.report request candidate fallbackUsed .error failure.retries false failure.timedOut

/-- After an end that lets the router go on, the error is what it has to report. -/
theorem result_of_goesOn (request : RouterRequest P) {ending : Ending T}
    (more : ending.goesOn = true) :
    ending.result request = .error (exhaustedError request ending.error) := by
  cases ending with
  | refused error => nomatch more
  | succeeded outcome => nomatch more
  | blocked error => rfl
  | failed failure => rfl

end Ending

variable (router : ProviderFallbackRouter) (request : RouterRequest P)

/-- The part of the loop that is about one candidate. -/
def visitCandidate (source : ProviderCallSource) (candidate : ProviderCandidate P)
    (fallbackUsed : Bool) : MeteredProgram P T (Ending T) := do
  match ← askGuardrails router (request.guardInput source candidate) with
  | .error error =>
      recordUsage (report request candidate fallbackUsed .error 0 false false)
      return .refused error
  | .ok () =>
  match ← plainly (.checkAllow (request.key candidate)) with
  | .error error =>
      recordUsage (report request candidate fallbackUsed .error 0 true false)
      return .blocked error
  | .ok _ =>
  match ← silently (executeProviderCall request.operationName router.policy candidate) with
  | .ok outcome =>
      plainly (.recordSuccess (request.key candidate))
      recordUsage (report request candidate fallbackUsed .success outcome.retries false
        outcome.timedOut)
      return .succeeded outcome
  | .error failure =>
      if isProviderHealthFailure failure.error then
        plainly (.recordFailure (request.key candidate))
      else plainly (.leave (request.key candidate))
      recordUsage (report request candidate fallbackUsed .error failure.retries false
        failure.timedOut)
      return .failed failure

/-- An error that says nothing about the health of a provider is returned as it is. -/
theorem exhaustedError_of_not_health {error : MemcoreError}
    (other : isProviderHealthFailure error = false) :
    exhaustedError request (some error) = error := by
  unfold exhaustedError
  simp only [other, if_true, ite_self]

/-- What follows the first part, grouped with it or with what comes last. -/
theorem bind_regrouped {α β γ : Type} {first : MeteredProgram P T α}
    {next : α → MeteredProgram P T β} {last : β → MeteredProgram P T γ}
    {both : α → MeteredProgram P T γ} (same : ∀ value, both value = next value >>= last) :
    first >>= both = (first >>= next) >>= last := by
  rw [Program.bind_assoc]
  exact congrArg _ (funext same)

/-- The loop is a visit and, if that lets it go on, the loop over the other candidates. -/
theorem tryProviders_cons (source : ProviderCallSource) (candidate : ProviderCandidate P)
    (rest : List (ProviderCandidate P)) (fallbackUsed : Bool) (lastError : Option MemcoreError) :
    (tryProviders router request source (candidate :: rest) fallbackUsed lastError :
        MeteredProgram P T (MemcoreResult T)) =
      visitCandidate router request source candidate fallbackUsed >>= fun ending =>
        if ending.goesOn then tryProviders router request source rest true ending.error
        else return ending.result request := by
  conv_lhs => unfold tryProviders
  unfold visitCandidate
  refine bind_regrouped fun verdict => ?_
  rcases verdict with error | _
  · exact bind_regrouped fun _ => rfl
  refine bind_regrouped fun allowed => ?_
  rcases allowed with error | state
  · exact bind_regrouped fun _ => rfl
  refine bind_regrouped fun outcome => ?_
  rcases outcome with failure | outcome
  · by_cases health : isProviderHealthFailure failure.error = true
    · simp only [health, if_true]
      refine bind_regrouped fun _ => bind_regrouped fun _ => ?_
      exact (if_pos health).symm
    · simp only [health]
      refine bind_regrouped fun _ => bind_regrouped fun _ => ?_
      have other : isProviderHealthFailure failure.error = false := by simpa using health
      refine Eq.trans ?_ (if_neg health).symm
      rw [Ending.result, exhaustedError_of_not_health request other]
  · exact bind_regrouped fun _ => bind_regrouped fun _ => rfl

/-! ## Runs of a visit -/

/-- The calls that neither invoke a provider nor report usage. -/
def IsQuiet : MeteredCall P → Prop
  | .route (.invoke _) => False
  | .recordRequest _ => False
  | _ => True

/-- Nothing in the trace invokes a provider. -/
def Uninvoked (trace : List (MeteredEvent P T)) : Prop :=
  ∀ event ∈ trace, ∀ candidate, event.call ≠ .route (.invoke candidate)

theorem uninvoked_nil : Uninvoked ([] : List (MeteredEvent P T)) :=
  fun _ listed => absurd listed List.not_mem_nil

/-- What an event hands to the recorder. -/
def handed : MeteredEvent P T → Option ProviderUsageReport
  | ⟨.recordRequest report, .ok _⟩ => some report
  | _ => none

def reports (trace : List (MeteredEvent P T)) : List ProviderUsageReport := trace.filterMap handed

@[simp] theorem reports_append (before later : List (MeteredEvent P T)) :
    reports (before ++ later) = reports before ++ reports later := List.filterMap_append

theorem reports_of_unreported {trace : List (MeteredEvent P T)}
    (unreported : ∀ event ∈ trace, ∀ report, event.call ≠ .recordRequest report) :
    reports trace = [] := by
  refine List.filterMap_eq_nil_iff.mpr fun event listed => ?_
  rcases event with ⟨call, answer⟩
  cases call with
  | recordRequest report => exact absurd rfl (unreported _ listed report)
  | _ => rfl

section Quiet

variable {trace : List (MeteredEvent P T)} (quiet : ∀ event ∈ trace, IsQuiet event.call)
include quiet

theorem uninvoked_of_quiet : Uninvoked trace := by
  intro event listed candidate same
  have isQuiet := quiet event listed
  rw [same] at isQuiet
  exact isQuiet

theorem reports_of_quiet : reports trace = [] := by
  refine reports_of_unreported fun event listed report same => ?_
  have isQuiet := quiet event listed
  rw [same] at isQuiet
  exact isQuiet

end Quiet

theorem silently_within {α : Type} {program : RouterProgram P T α} {allowed : RouterCall P → Prop}
    (within : program.Within allowed) :
    (silently program : MeteredProgram P T α).Within fun call : MeteredCall P =>
      ∃ plain, call = .route plain ∧ allowed plain :=
  Program.Within.carry plainly
    (fun plain isAllowed => @Program.Within.call (meteredPorts P T) Dropped _ (.route plain)
      ⟨plain, rfl, isAllowed⟩) within

theorem plainly_quiet {call : RouterCall P} (other : ∀ candidate, call ≠ .invoke candidate) :
    (plainly call : MeteredProgram P T _).Within IsQuiet := by
  refine @Program.Within.call (meteredPorts P T) Dropped _ (.route call) ?_
  cases call with
  | invoke candidate => exact absurd rfl (other candidate)
  | _ => trivial

theorem askGuardrails_quiet (input : ProviderCallGuardInput) :
    (askGuardrails router input : MeteredProgram P T _).Within IsQuiet := by
  unfold askGuardrails
  split
  · refine .bind (@Program.Within.call (meteredPorts P T) Dropped _ (.judge input) trivial) ?_
    refine fun _ => (silently_within (decideOrError_guards _ _)).mono ?_
    rintro _ ⟨plain, rfl, guards⟩
    cases plain with
    | invoke candidate => exact guards
    | _ => trivial
  · exact .pure _

section Runs

variable {σ χ : Type} (server : Server (meteredPorts P T) Dropped σ χ)
  (admits : σ → MeteredCall P → χ → Prop)

/-- A trace is that of one call of a candidate's provider under the policy. -/
def CallOf (candidate : ProviderCandidate P) (trace : List (MeteredEvent P T))
    (outcome : Except Dropped (Except ProviderExecutionFailure (ProviderExecutionOutcome T))) :
    Prop :=
  ∃ state final, Runs server admits
    (silently (executeProviderCall request.operationName router.policy candidate)) state trace
    outcome final

/-- A visit with its trace, which the call of the provider divides. -/
structure Visit (P T : Type) where
  candidate : ProviderCandidate P
  fallbackUsed : Bool
  before : List (MeteredEvent P T)
  execution : List (MeteredEvent P T)
  behind : List (MeteredEvent P T)
  ending : Ending T

def Visit.events (visit : Visit P T) : List (MeteredEvent P T) :=
  visit.before ++ visit.execution ++ visit.behind

def Visit.report (visit : Visit P T) : ProviderUsageReport :=
  visit.ending.report request visit.candidate visit.fallbackUsed

/-- The provider is called as the end of the visit tells, and once at most. -/
def Visit.Executed (visit : Visit P T) : Prop :=
  match visit.ending with
  | .refused _ => visit.execution = []
  | .blocked _ => visit.execution = []
  | .succeeded outcome =>
      CallOf router request server admits visit.candidate visit.execution (.ok (.ok outcome))
  | .failed failure =>
      CallOf router request server admits visit.candidate visit.execution (.ok (.error failure))

/-- A visit calls its provider at most once, and reports once. -/
structure Visit.Lawful (visit : Visit P T) : Prop where
  uninvokedBefore : Uninvoked visit.before
  executed : visit.Executed router request server admits
  uninvokedBehind : Uninvoked visit.behind
  reported : reports visit.events = [visit.report request]

/-- A visit that is dropped has called its provider at most once, and reports nothing. -/
structure CutVisit (candidate : ProviderCandidate P) (trace : List (MeteredEvent P T)) : Prop where
  executed : ∃ before execution behind, trace = before ++ execution ++ behind ∧
    Uninvoked before ∧ Uninvoked behind ∧
      (execution = [] ∨ ∃ outcome, CallOf router request server admits candidate execution outcome)
  reported : reports trace = []

/-- What a run of a visit is. -/
def VisitRun (candidate : ProviderCandidate P) (fallbackUsed : Bool)
    (trace : List (MeteredEvent P T)) (outcome : Except Dropped (Ending T)) : Prop :=
  (∃ visit : Visit P T, visit.candidate = candidate ∧ visit.fallbackUsed = fallbackUsed ∧
    trace = visit.events ∧ outcome = .ok visit.ending ∧
      visit.Lawful router request server admits) ∨
  (∃ error, outcome = .error error) ∧ CutVisit router request server admits candidate trace

variable {server admits} {state final : σ} {trace : List (MeteredEvent P T)}

/-- What comes of a part that reports last: one report or, if it is dropped, none. -/
def Reporting {β : Type} (report : ProviderUsageReport) (value : β)
    (trace : List (MeteredEvent P T)) (outcome : Except Dropped β) : Prop :=
  Uninvoked trace ∧ (outcome = .ok value ∧ reports trace = [report] ∨
    (∃ error, outcome = .error error) ∧ reports trace = [])

section Reporting

variable {β : Type} {report : ProviderUsageReport} {value : β} {outcome : Except Dropped β}

theorem uninvoked_report (answer : Except Dropped ProviderUsageEvent) :
    Uninvoked ([⟨.recordRequest report, answer⟩] : List (MeteredEvent P T)) := by
  intro event listed candidate
  rw [List.mem_singleton.mp listed]
  exact nofun

theorem reporting_run (run : Runs server admits (recordUsage report >>= fun _ => pure value) state
      trace outcome final) : Reporting report value trace outcome := by
  unfold recordUsage at run
  rw [Program.bind_assoc] at run
  rcases Runs.of_bind run with ⟨error, rfl, called⟩ | ⟨event, _, first, rest, rfl, called, done⟩
  · obtain ⟨_, _, _, rfl, _, _⟩ := @Runs.of_call (meteredPorts P T) _ _ _ _ _ _ _ _ _ _ called
    exact ⟨uninvoked_report _, .inr ⟨⟨error, rfl⟩, rfl⟩⟩
  · obtain ⟨_, _, _, rfl, _, _⟩ := @Runs.of_call (meteredPorts P T) _ _ _ _ _ _ _ _ _ _ called
    cases done
    exact ⟨uninvoked_report _, .inl ⟨rfl, rfl⟩⟩

/-- The same behind a part that neither invokes nor reports. -/
theorem reporting_behind {α : Type} {first : MeteredProgram P T α} (quiet : first.Within IsQuiet)
    (run : Runs server admits (first >>= fun _ => recordUsage report >>= fun _ => pure value) state
      trace outcome final) : Reporting report value trace outcome := by
  rcases Runs.of_bind run with ⟨error, rfl, told⟩ | ⟨_, _, telling, rest, rfl, told, last⟩
  · have quietly := Runs.within quiet told
    exact ⟨uninvoked_of_quiet quietly, .inr ⟨⟨error, rfl⟩, reports_of_quiet quietly⟩⟩
  · have quietly := Runs.within quiet told
    obtain ⟨uninvoked, ended⟩ := reporting_run last
    refine ⟨?_, ?_⟩
    · intro event listed
      rcases List.mem_append.mp listed with before | behind
      · exact uninvoked_of_quiet quietly event before
      · exact uninvoked event behind
    · rwa [reports_append, reports_of_quiet quietly]

end Reporting

theorem CallOf.unreported {candidate : ProviderCandidate P} {execution : List (MeteredEvent P T)}
    {answer : Except Dropped (Except ProviderExecutionFailure (ProviderExecutionOutcome T))}
    (called : CallOf router request server admits candidate execution answer) :
    reports execution = [] := by
  obtain ⟨state, final, run⟩ := called
  have within := Runs.within (silently_within (executeProviderCall_attempts _ _ _)) run
  refine reports_of_unreported fun event listed report same => ?_
  obtain ⟨plain, routed, _⟩ := within event listed
  nomatch same.symm.trans routed

/-- What was done before the report and the end that it is about make up a visit. -/
theorem visitRun_of_reporting {candidate : ProviderCandidate P} {fallbackUsed : Bool}
    {before execution behind : List (MeteredEvent P T)} {ending : Ending T}
    {outcome : Except Dropped (Ending T)} (quiet : ∀ event ∈ before, IsQuiet event.call)
    (reporting : Reporting (ending.report request candidate fallbackUsed) ending behind outcome)
    (executed : Visit.Executed router request server admits
      ⟨candidate, fallbackUsed, before, execution, behind, ending⟩)
    (once : execution = [] ∨
      ∃ answer, CallOf router request server admits candidate execution answer) :
    VisitRun router request server admits candidate fallbackUsed
      (before ++ execution ++ behind) outcome := by
  have silent : reports (before ++ execution) = [] := by
    rw [reports_append, reports_of_quiet quiet]
    rcases once with rfl | ⟨answer, called⟩
    · rfl
    · exact called.unreported
  obtain ⟨uninvoked, ⟨rfl, reported⟩ | ⟨failed, reported⟩⟩ := reporting
  · refine .inl ⟨⟨candidate, fallbackUsed, before, execution, behind, ending⟩, rfl, rfl, rfl, rfl,
      uninvoked_of_quiet quiet, executed, uninvoked, ?_⟩
    rw [Visit.events, reports_append, silent, reported]
    rfl
  · refine .inr ⟨failed, ⟨before, execution, behind, rfl, uninvoked_of_quiet quiet, uninvoked,
      once⟩, ?_⟩
    rw [reports_append, silent, reported]
    rfl

/-- A visit that is dropped before its report. -/
theorem visitRun_of_dropped {candidate : ProviderCandidate P} {fallbackUsed : Bool}
    {before execution : List (MeteredEvent P T)} {error : Dropped}
    (quiet : ∀ event ∈ before, IsQuiet event.call)
    (once : execution = [] ∨
      ∃ answer, CallOf router request server admits candidate execution answer) :
    VisitRun router request server admits candidate fallbackUsed (before ++ execution)
      (.error error) := by
  refine .inr ⟨⟨error, rfl⟩, ⟨before, execution, [], (List.append_nil _).symm,
    uninvoked_of_quiet quiet, uninvoked_nil, once⟩, ?_⟩
  rw [reports_append, reports_of_quiet quiet]
  rcases once with rfl | ⟨answer, called⟩
  · rfl
  · exact called.unreported

theorem visitCandidate_run {source : ProviderCallSource} {candidate : ProviderCandidate P}
    {fallbackUsed : Bool} {outcome : Except Dropped (Ending T)}
    (run : Runs server admits (visitCandidate router request source candidate fallbackUsed) state
      trace outcome final) :
    VisitRun router request server admits candidate fallbackUsed trace outcome := by
  rcases Runs.of_bind run with ⟨error, rfl, asked⟩ | ⟨verdict, _, asking, _, rfl, asked, judged⟩
  · rw [← List.append_nil trace]
    exact visitRun_of_dropped router request (Runs.within (askGuardrails_quiet router _) asked)
      (.inl rfl)
  have quietAsking := Runs.within (askGuardrails_quiet router _) asked
  rcases verdict with error | _
  · rw [← List.append_nil asking]
    have reporting : Reporting _ (Ending.refused error) _ _ := reporting_run judged
    exact visitRun_of_reporting router request quietAsking reporting rfl (.inl rfl)
  have quietCheck := @plainly_quiet P T (.checkAllow (request.key candidate)) nofun
  rcases Runs.of_bind judged with
    ⟨error, rfl, checked⟩ | ⟨allowed, _, checking, _, rfl, checked, passed⟩
  · rw [← List.append_nil (asking ++ _)]
    refine visitRun_of_dropped router request ?_ (.inl rfl)
    exact List.forall_mem_append.mpr ⟨quietAsking, Runs.within quietCheck checked⟩
  have quietly : ∀ event ∈ asking ++ checking, IsQuiet event.call :=
    List.forall_mem_append.mpr ⟨quietAsking, Runs.within quietCheck checked⟩
  rw [← List.append_assoc]
  rcases allowed with error | circuitState
  · rw [← List.append_nil (asking ++ checking)]
    have reporting : Reporting _ (Ending.blocked error) _ _ := reporting_run passed
    exact visitRun_of_reporting router request quietly reporting rfl (.inl rfl)
  rcases Runs.of_bind passed with
    ⟨error, rfl, called⟩ | ⟨answer, _, execution, behind, rfl, called, answered⟩
  · exact visitRun_of_dropped router request quietly (.inr ⟨_, _, _, called⟩)
  rw [← List.append_assoc]
  have isCall : CallOf router request server admits candidate execution _ := ⟨_, _, called⟩
  rcases answer with failure | success
  · have reporting : Reporting
        ((Ending.failed failure : Ending T).report request candidate fallbackUsed)
        (Ending.failed failure) behind outcome := by
      by_cases health : isProviderHealthFailure failure.error = true
      · simp only [health, if_true] at answered
        exact reporting_behind
          (@plainly_quiet P T (.recordFailure (request.key candidate)) nofun) answered
      · simp only [health] at answered
        exact reporting_behind (@plainly_quiet P T (.leave (request.key candidate)) nofun) answered
    exact visitRun_of_reporting router request quietly reporting isCall (.inr ⟨_, isCall⟩)
  · have reporting : Reporting _ (Ending.succeeded success) _ _ :=
      reporting_behind (@plainly_quiet P T (.recordSuccess (request.key candidate)) nofun) answered
    exact visitRun_of_reporting router request quietly reporting isCall (.inr ⟨_, isCall⟩)

/-! ## The visits of a use -/

/-- The visits of a run over candidates, after an opening that calls no provider. -/
structure Routed (server : Server (meteredPorts P T) Dropped σ χ)
    (admits : σ → MeteredCall P → χ → Prop) (candidates : List (ProviderCandidate P))
    (fallbackUsed : Bool) (unvisited : MemcoreError) (opening trace : List (MeteredEvent P T))
    (outcome : Except Dropped (MemcoreResult T)) (visits : List (Visit P T)) : Prop where
  quiet : ∀ event ∈ opening, IsQuiet event.call
  ordered : visits.map Visit.candidate <+: candidates
  first : ∀ visit ∈ visits.head?, visit.fallbackUsed = fallbackUsed
  fallbacks : ∀ visit ∈ visits.tail, visit.fallbackUsed = true
  lawful : ∀ visit ∈ visits, visit.Lawful router request server admits
  inTime : ∀ visit ∈ visits.dropLast, visit.ending.goesOn = true
  reported : reports trace = visits.map (Visit.report request)
  returned : ∀ result, outcome = .ok result → trace = opening ++ visits.flatMap Visit.events ∧
    result = visits.getLast?.elim (.error unvisited) (fun last => last.ending.result request) ∧
    ((∀ last ∈ visits.getLast?, last.ending.goesOn = true) →
      visits.map Visit.candidate = candidates)
  dropped : ∀ error, outcome = .error error → (∀ visit ∈ visits, visit.ending.goesOn = true) ∧
    ∃ rest, trace = opening ++ visits.flatMap Visit.events ++ rest ∧
      ((∀ event ∈ rest, IsQuiet event.call) ∨
        ∃ candidate, visits.map Visit.candidate ++ [candidate] <+: candidates ∧
          CutVisit router request server admits candidate rest)

variable {router request}

/-- A run that has not finished a single visit. -/
theorem Routed.of_none {candidates : List (ProviderCandidate P)} {fallbackUsed : Bool}
    {unvisited : MemcoreError} {opening : List (MeteredEvent P T)}
    {outcome : Except Dropped (MemcoreResult T)} (quiet : ∀ event ∈ opening, IsQuiet event.call)
    (reported : reports trace = [])
    (returned : ∀ result, outcome = .ok result →
      trace = opening ∧ result = .error unvisited ∧ candidates = [])
    (dropped : ∀ error, outcome = .error error → ∃ rest, trace = opening ++ rest ∧
      ((∀ event ∈ rest, IsQuiet event.call) ∨ ∃ candidate, [candidate] <+: candidates ∧
        CutVisit router request server admits candidate rest)) :
    Routed router request server admits candidates fallbackUsed unvisited opening trace outcome
      [] where
  quiet := quiet
  ordered := List.nil_prefix
  first := by simp
  fallbacks := by simp
  lawful := by simp
  inTime := by simp
  reported := reported
  returned result same := by
    obtain ⟨rfl, rfl, rfl⟩ := returned result same
    exact ⟨(List.append_nil _).symm, rfl, fun _ => rfl⟩
  dropped error same := by
    obtain ⟨rest, rfl, ended⟩ := dropped error same
    exact ⟨by simp, rest, by simp, ended⟩

section Steps

variable {visit : Visit P T} (lawful : visit.Lawful router request server admits)
  {rest : List (ProviderCandidate P)} {unvisited : MemcoreError}
include lawful

/-- A visit that lets the router go on, and the visits of the other candidates. -/
theorem Routed.cons (more : visit.ending.goesOn = true) {later : List (MeteredEvent P T)}
    {outcome : Except Dropped (MemcoreResult T)} {visits : List (Visit P T)}
    (routed : Routed router request server admits rest true
      (exhaustedError request visit.ending.error) [] later outcome visits) :
    Routed router request server admits (visit.candidate :: rest) visit.fallbackUsed unvisited []
      (visit.events ++ later) outcome (visit :: visits) where
  quiet := by simp
  ordered := List.cons_prefix_cons.mpr ⟨rfl, routed.ordered⟩
  first := by simp
  fallbacks := by
    intro other listed
    have first := routed.first
    have fallbacks := routed.fallbacks
    cases visits with
    | nil => nomatch listed
    | cons next visits =>
      rcases List.mem_cons.mp listed with rfl | behind
      · exact first other rfl
      · exact fallbacks other behind
  lawful := List.forall_mem_cons.mpr ⟨lawful, routed.lawful⟩
  inTime := by
    have inTime := routed.inTime
    cases visits with
    | nil => simp
    | cons next visits => exact List.forall_mem_cons.mpr ⟨more, inTime⟩
  reported := by
    rw [reports_append, lawful.reported, routed.reported]
    rfl
  returned result same := by
    obtain ⟨rfl, result_eq, complete⟩ := routed.returned result same
    refine ⟨rfl, ?_, ?_⟩
    · cases visits with
      | nil => exact result_eq.trans (Ending.result_of_goesOn request more).symm
      | cons next visits => exact result_eq
    · intro goesOn
      refine congrArg (visit.candidate :: ·) (complete ?_)
      cases visits with
      | nil => simp
      | cons next visits => exact goesOn
  dropped error same := by
    obtain ⟨goOn, rest, rfl, ended⟩ := routed.dropped error same
    refine ⟨List.forall_mem_cons.mpr ⟨more, goOn⟩, rest, ?_, ended.imp id ?_⟩
    · simp
    · rintro ⟨candidate, ordered, cut⟩
      exact ⟨candidate, List.cons_prefix_cons.mpr ⟨rfl, ordered⟩, cut⟩

/-- A visit after which the router returns. -/
theorem Routed.last (stops : visit.ending.goesOn = false) :
    Routed router request server admits (visit.candidate :: rest) visit.fallbackUsed unvisited []
      visit.events (.ok (visit.ending.result request)) [visit] where
  quiet := by simp
  ordered := List.prefix_append [visit.candidate] rest
  first := by simp
  fallbacks := by simp
  lawful := by simpa using lawful
  inTime := by simp
  reported := lawful.reported
  returned result same := by
    obtain rfl := Except.ok.inj same
    refine ⟨(List.append_nil _).symm, rfl, fun goesOn => ?_⟩
    have impossible := goesOn visit rfl
    rw [stops] at impossible
    nomatch impossible
  dropped error impossible := nomatch impossible

end Steps

variable (router request)

theorem tryProviders_routed (source : ProviderCallSource) (candidates : List (ProviderCandidate P))
    (fallbackUsed : Bool) (lastError : Option MemcoreError)
    {outcome : Except Dropped (MemcoreResult T)}
    (run : Runs server admits
      (tryProviders router request source candidates fallbackUsed lastError) state trace outcome
      final) :
    ∃ visits, Routed router request server admits candidates fallbackUsed
      (exhaustedError request lastError) [] trace outcome visits := by
  induction candidates generalizing fallbackUsed lastError state trace with
  | nil =>
    cases run
    refine ⟨[], .of_none (by simp) rfl ?_ (fun _ impossible => nomatch impossible)⟩
    rintro result ⟨⟩
    exact ⟨rfl, rfl, rfl⟩
  | cons candidate rest inductionHypothesis =>
    rw [tryProviders_cons] at run
    rcases Runs.of_bind run with
      ⟨error, rfl, visiting⟩ | ⟨ending, _, events, later, rfl, visiting, run⟩
    · rcases visitCandidate_run router request visiting with
        ⟨_, _, _, _, impossible, _⟩ | ⟨_, cut⟩
      · nomatch impossible
      · refine ⟨[], .of_none (by simp) cut.reported (fun _ impossible => nomatch impossible) ?_⟩
        exact fun _ _ => ⟨trace, rfl, .inr ⟨candidate, List.prefix_append [candidate] rest, cut⟩⟩
    · rcases visitCandidate_run router request visiting with
        ⟨visit, rfl, rfl, rfl, same, lawful⟩ | ⟨⟨_, impossible⟩, _⟩
      · obtain rfl := Except.ok.inj same
        by_cases more : visit.ending.goesOn = true
        · rw [if_pos more] at run
          obtain ⟨visits, routed⟩ := inductionHypothesis _ _ run
          exact ⟨visit :: visits, routed.cons lawful more⟩
        · rw [if_neg more] at run
          cases run
          rw [List.append_nil]
          exact ⟨[visit], .last lawful (Bool.eq_false_iff.mpr more)⟩
      · nomatch impossible

variable {router request} in
/-- The use that the visits are made for has more before them, and a candidate at least. -/
theorem Routed.opened {candidates : List (ProviderCandidate P)} {fallbackUsed : Bool}
    {unvisited other : MemcoreError} {opening later : List (MeteredEvent P T)}
    {outcome : Except Dropped (MemcoreResult T)} {visits : List (Visit P T)}
    (routed : Routed router request server admits candidates fallbackUsed unvisited [] later outcome
      visits) (quiet : ∀ event ∈ opening, IsQuiet event.call) (some : candidates ≠ []) :
    Routed router request server admits candidates fallbackUsed other opening (opening ++ later)
      outcome visits where
  quiet := quiet
  ordered := routed.ordered
  first := routed.first
  fallbacks := routed.fallbacks
  lawful := routed.lawful
  inTime := routed.inTime
  reported := by
    rw [reports_append, reports_of_quiet quiet]
    exact routed.reported
  returned result same := by
    obtain ⟨rfl, result_eq, complete⟩ := routed.returned result same
    refine ⟨rfl, ?_, complete⟩
    cases visits using List.reverseRecOn with
    | nil => exact absurd (complete (by simp)).symm some
    | append_singleton visits visit => simpa using result_eq
  dropped error same := by
    obtain ⟨goOn, rest, rfl, ended⟩ := routed.dropped error same
    exact ⟨goOn, rest, by simp, ended⟩

theorem executeWithFallback_routed {outcome : Except Dropped (MemcoreResult T)}
    (run : Runs server admits (executeWithFallback router request) state trace outcome final) :
    ∃ opening visits, Routed router request server admits request.providersToTry false
      (.internal "no provider candidates configured") opening trace outcome visits := by
  unfold executeWithFallback at run
  by_cases none : request.candidates.isEmpty = true
  · rw [if_pos none] at run
    cases run
    refine ⟨[], [], .of_none (by simp) rfl ?_ (fun _ impossible => nomatch impossible)⟩
    rintro result ⟨⟩
    have empty := List.isEmpty_iff.mp none
    simp [RouterRequest.providersToTry, empty]
  · rw [if_neg none] at run
    have some : request.providersToTry ≠ [] := by
      have nonempty : request.candidates ≠ [] := fun empty => none (List.isEmpty_iff.mpr empty)
      unfold RouterRequest.providersToTry
      split
      · exact nonempty
      · simpa using nonempty
    dsimp only at run
    split at run
    · have quiet : ∀ answer, IsQuiet (⟨.route .callSource, answer⟩ : MeteredEvent P T).call :=
        fun _ => trivial
      rcases Runs.of_bind run with ⟨error, rfl, read⟩ | ⟨source, _, reading, _, rfl, read, tries⟩
      · obtain ⟨_, _, _, rfl, _, _⟩ := @Runs.of_call (meteredPorts P T) _ _ _ _ _ _ _ _ _ _ read
        refine ⟨[], [], .of_none (by simp) rfl (fun _ impossible => nomatch impossible) ?_⟩
        exact fun _ _ => ⟨_, rfl, .inl fun event listed => List.mem_singleton.mp listed ▸ quiet _⟩
      · obtain ⟨_, _, _, rfl, _, _⟩ := @Runs.of_call (meteredPorts P T) _ _ _ _ _ _ _ _ _ _ read
        obtain ⟨visits, routed⟩ := tryProviders_routed router request source _ false .none tries
        exact ⟨_, visits, routed.opened
          (fun event listed => List.mem_singleton.mp listed ▸ quiet (.ok source)) some⟩
    · obtain ⟨visits, routed⟩ := tryProviders_routed router request .apiRequest _ false .none run
      exact ⟨[], visits, routed.opened (by simp) some⟩

end Runs

end Metered

/-! ## Order and accounting -/

open InMemoryProviderUsageRecorder Metered

/-- Every use of the router is a list of visits, and leaves the recorder with as many requests
more as there are visits. -/
theorem executeWithFallback_visits {P T σ χ : Type} (server : Server (meteredPorts P T) Dropped σ χ)
    (admits : σ → MeteredCall P → χ → Prop) (router : ProviderFallbackRouter)
    (request : RouterRequest P) {state final : σ} {trace : List (MeteredEvent P T)}
    {outcome : Except Dropped (MemcoreResult T)}
    (run : Runs server admits (Metered.executeWithFallback router request) state trace outcome
      final) :
    ∃ opening visits, Routed router request server admits request.providersToTry false
        (.internal "no provider candidates configured") opening trace outcome visits ∧
      ∀ earlier own : List MeasuredUsageEvent,
        own.map (fun event => event.toProviderUsageReport) = reports trace →
        (buildSnapshot (recordAll (earlier ++ own))).totalRequests =
            saturatingAdd u64Max (buildSnapshot (recordAll (earlier ++ own))).totalSuccesses
              (buildSnapshot (recordAll (earlier ++ own))).totalErrors ∧
          (earlier.length + visits.length ≤ u64Max →
            (buildSnapshot (recordAll (earlier ++ own))).totalRequests =
                earlier.length + visits.length ∧
              (buildSnapshot (recordAll (earlier ++ own))).totalRequests =
                (buildSnapshot (recordAll (earlier ++ own))).totalSuccesses +
                  (buildSnapshot (recordAll (earlier ++ own))).totalErrors) := by
  obtain ⟨opening, visits, routed⟩ := executeWithFallback_routed router request run
  refine ⟨opening, visits, routed, fun earlier own handedOver => ?_⟩
  have same : own.length = visits.length := by
    rw [← List.length_map, handedOver, routed.reported, List.length_map]
  rw [← same, ← List.length_append]
  exact requests_balance (earlier ++ own)

/-- The recorder in memory merges what a program hands to it. -/
theorem recordingServer_records {P T α : Type} {breaker : CircuitBreakerConfig}
    {guardrails : ProviderGuardrailConfig} {admits : RecordingWorld → MeteredCall P →
      RecordingChoice T → Prop} {program : MeteredProgram P T α} {world final : RecordingWorld}
    {trace : List (MeteredEvent P T)} {outcome : Except Dropped α}
    (run : Runs (recordingServer P T breaker guardrails) admits program world trace outcome final) :
    ∃ own : List MeasuredUsageEvent,
      own.map (fun event => event.toProviderUsageReport) = reports trace ∧
      final.records = own.foldl (fun records event => mergeEvent event records) world.records := by
  induction run with
  | done value world => exact ⟨[], rfl, rfl⟩
  | fail error world => exact ⟨[], rfl, rfl⟩
  | ask call resume world final choice trace outcome _ _ _ inductionHypothesis =>
    obtain ⟨own, handedOver, merged⟩ := inductionHypothesis
    cases call with
    | recordRequest report =>
      refine ⟨choice.measure report :: own, ?_, merged⟩
      exact congrArg (report :: ·) handedOver
    | route call => exact ⟨own, handedOver, merged⟩
    | judge input => exact ⟨own, handedOver, merged⟩

/-! ### A sample -/

/-- Two mocks, the second as a fallback for the first. -/
def sampleFallback : RouterRequest Unit where
  capability := .llm
  operationName := "op"
  fallbackEnabled := true
  candidates := [⟨⟨"mock", .llm⟩, (), none⟩, ⟨⟨"mock-2", .llm⟩, (), none⟩]

/-- The first provider times out, and the second one answers. -/
theorem executeWithFallback_visits_sample : ∃ trace outcome final,
    Runs (recordingServer Unit Unit {} {}) (fun _ _ _ => True)
      (Metered.executeWithFallback { policy := ⟨0⟩ } sampleFallback) ⟨.fresh, []⟩ trace outcome
      final ∧
    outcome = .ok (.ok ()) ∧
    ∃ opening visits, Routed { policy := ⟨0⟩ } sampleFallback (recordingServer Unit Unit {} {})
        (fun _ _ _ => True) sampleFallback.candidates false
        (.internal "no provider candidates configured") opening trace outcome visits ∧
      (buildSnapshot final.records).totalRequests = visits.length := by
  let timeout : RecordingChoice Unit := { routing := { answer := some .elapsed } }
  let answer : RecordingChoice Unit := { routing := { answer := some (.completed (.ok ())) } }
  obtain ⟨trace, outcome, final, run, answered⟩ := exists_run_of_replay
    (recordingServer Unit Unit {} {}) (fun _ _ _ => True)
    [timeout, timeout, timeout, timeout, answer, answer, answer, answer]
    (Metered.executeWithFallback { policy := ⟨0⟩ } sampleFallback) ⟨.fresh, []⟩
    (fun result => result.2.1.toOption.any fun (result : MemcoreResult Unit) =>
      result.toOption.isSome) (by decide +kernel)
  obtain ⟨opening, visits, routed, accounts⟩ := executeWithFallback_visits _ _ _ _ run
  obtain ⟨own, handedOver, merged⟩ := recordingServer_records run
  refine ⟨trace, outcome, final, run, ?_, opening, visits, routed, ?_⟩
  · rcases outcome with error | error | _
    · nomatch answered
    · nomatch answered
    · rfl
  · have few : visits.length ≤ 2 :=
      Nat.le_trans (List.length_map _).ge routed.ordered.length_le
    have fits : ([] : List MeasuredUsageEvent).length + visits.length ≤ u64Max := by
      refine Nat.le_trans ?_ (show 2 ≤ u64Max by decide)
      simpa using few
    have counted := ((accounts [] own handedOver).2 fits).1
    rw [merged]
    simpa [recordAll] using counted

end Memcore
