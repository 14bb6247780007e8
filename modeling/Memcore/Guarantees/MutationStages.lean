import Memcore.Engine.Operations

/-!
# Stages of a mutating operation

Seen from its calls, a mutating operation goes through stages: at first it has
written nothing, then it may have changed the active facts, and at last it has
purged the tenant's cached contexts, after which it writes no more. An operation
that returns is never left between the last two. One that fails is, exactly when
an answer made it return early; which answers do is defined here, call by call.
-/
namespace Memcore

open Ports Programs

/-- How far a mutating operation has come. The last stage is reached only through
an answer that the world does not give. -/
inductive Status where
  | untouched | touched | purged | unreal
  deriving DecidableEq

/-- The stage after one more answer. -/
def statusAfter (status : Status) (event : EngineEvent) : Status :=
  if status = .unreal then .unreal
  else match event with
    | ⟨.facts (.insertFact _ _), .ok _⟩ => .touched
    | ⟨.facts (.updateFact _ _), .ok _⟩ => .touched
    | ⟨.facts (.softDeleteFact _ _), .ok _⟩ => .touched
    | ⟨.facts (.deleteUserData _), .ok _⟩ => .touched
    | ⟨.facts (.deleteFactsOlderThan _ _ dryRun), .ok result⟩ =>
        if dryRun = true ∨ (result : RetentionPruneResult).count = 0 then status else .touched
    | ⟨.facts (.getFact tenant _), .ok found⟩ =>
        if (found : Option Fact).all fun fact => decide (fact.tenant = tenant) then status
        else .unreal
    | ⟨.cache (.invalidateUser _ _), .ok _⟩ => .purged
    | ⟨.cache (.invalidateUser _ _), .error _⟩ => .unreal
    | _ => status

/-- The stage after a trace. -/
def statusOf (trace : List EngineEvent) : Status := trace.foldl statusAfter .untouched

@[simp] theorem statusOf_nil : statusOf [] = .untouched := rfl

@[simp] theorem statusOf_snoc (trace : List EngineEvent) (event : EngineEvent) :
    statusOf (trace ++ [event]) = statusAfter (statusOf trace) event := by
  simp [statusOf]

/-- The calls that write to the fact store. -/
def WritesFacts : Port → Prop
  | .facts (.getFact _ _) | .facts (.searchFacts _) => False
  | .facts _ => True
  | _ => False

/-- Whether an event is the recording of an audit event. -/
def isRecording : EngineEvent → Bool
  | ⟨.events (.recordEvent _ _), _⟩ => true
  | _ => false

namespace EngineOperation

/-- Whether an operation goes on after an answer. Any error makes it return early,
except that a missing vector matters only to the deletion of a memory, and that
audit events matter only to an import that restores them, where the first event of
a replacement is its own note. A missing fact matters unless it is looked up by an
import, and what the model answers has to pass its checks. -/
def CarriesOn (operation : EngineOperation) (before : List EngineEvent) :
    EngineEvent → Prop
  | ⟨.provider (.extractFacts _ _ _), answer⟩ =>
      ∃ candidates, answer = .ok candidates ∧
        ∀ candidate ∈ candidates, validateCandidate candidate = .ok ()
  | ⟨.provider (.classifyFactOperation _ _ _), answer⟩ =>
      ∃ decision, answer = .ok decision ∧ ∃ normalized, normalizeOperation decision = .ok normalized
  | ⟨.facts (.getFact _ _), answer⟩ => match operation with
      | importUserData _ => ∃ found, answer = .ok found
      | _ => ∃ fact, answer = .ok (some fact)
  | ⟨.vectors (.deleteByFactId _ _), answer⟩ => match operation with
      | deleteMemory _ => answer = .ok ()
      | _ => ∀ error, answer = .error error → error.isNotFound = true
  | ⟨.events (.recordEvent _ _), answer⟩ => match operation with
      | importUserData input => (∃ event, answer = .ok event) ∨
          input.mode = .replace ∧ before.any isRecording = false
      | _ => True
  | ⟨.cache _, _⟩ => True
  | ⟨_, answer⟩ => ∃ value, answer = .ok value

/-- Every answer of a trace is one after which the operation goes on. -/
def CarriedOn (operation : EngineOperation) (trace : List EngineEvent) : Prop :=
  ∀ before event after, trace = before ++ event :: after → operation.CarriesOn before event

/-- The calls after whose errors every operation returns. -/
def StopsOnError : Port → Prop
  | .vectors (.deleteByFactId _ _) | .events (.recordEvent _ _) | .cache _ => False
  | _ => True

theorem stops {port : Port} (strict : StopsOnError port) (operation : EngineOperation)
    (before : List EngineEvent) (error : MemcoreError) :
    ¬ operation.CarriesOn before ⟨port, .error error⟩ := by
  cases port with
  | facts call => cases call <;> cases operation <;> simp [CarriesOn]
  | vectors call => cases call <;> first | exact strict.elim | simp [CarriesOn]
  | events call => cases call <;> first | exact strict.elim | simp [CarriesOn]
  | provider call => cases call <;> simp [CarriesOn]
  | cache call => exact strict.elim
  | system call => simp [CarriesOn]
  | coordinator call => simp [CarriesOn]

theorem carriedOn_nil (operation : EngineOperation) : operation.CarriedOn [] := by
  intro before event after split
  simp at split

theorem CarriedOn.last {operation : EngineOperation} {trace : List EngineEvent}
    {event : EngineEvent} (carried : operation.CarriedOn (trace ++ [event])) :
    operation.CarriesOn trace event :=
  carried trace event [] rfl

theorem CarriedOn.earlier {operation : EngineOperation} {seen later : List EngineEvent}
    (carried : operation.CarriedOn later) (earlier : seen <+: later) :
    operation.CarriedOn seen := by
  obtain ⟨more, rfl⟩ := earlier
  intro before event after split
  exact carried before event (after ++ more) (by rw [split]; simp)

end EngineOperation

/-- Calls of the tenant only, and no write after the purge. -/
def stageProtocol (tenant : TenantContext) : Protocol enginePorts MemcoreError (List EngineEvent) :=
  .recording fun seen port => MutatorCall tenant port ∧ (WritesFacts port → statusOf seen ≠ .purged)

/-! ## Parts of an operation before the purge -/

variable {operation : EngineOperation} {tenant : TenantContext} {α β : Type}

/-- An early return is accounted for when no fact was touched or some answer made
the operation return. -/
def Accounted (operation : EngineOperation) (seen : List EngineEvent) : Prop :=
  operation.CarriedOn seen → statusOf seen ≠ .touched

/-- What holds after a part of an operation, before the purge. -/
def proceeding (operation : EngineOperation) (seen : List EngineEvent)
    (good : α → List EngineEvent → Prop) : MemcoreResult α → List EngineEvent → Prop
  | .ok value, later => statusOf later ≠ .purged ∧ seen <+: later ∧ good value later
  | .error _, later => Accounted operation later

/-- A part that follows the protocol, does not purge, and accounts for its errors. -/
def Proceeds (operation : EngineOperation) (tenant : TenantContext)
    (program : EngineProgram α) (seen : List EngineEvent)
    (good : α → List EngineEvent → Prop) : Prop :=
  Ensures (stageProtocol tenant).spec program (proceeding operation seen good) seen

/-- One part after the other. -/
theorem proceeds_bind {program : EngineProgram α} {next : α → EngineProgram β}
    {seen : List EngineEvent} (middle : α → List EngineEvent → Prop)
    {good : β → List EngineEvent → Prop} (first : Proceeds operation tenant program seen middle)
    (second : ∀ value later, statusOf later ≠ .purged → seen <+: later → middle value later →
      Proceeds operation tenant (next value) later good) :
    Proceeds operation tenant (program >>= next) seen good := by
  refine (ensures_bind _ _ _ _ _).mpr
    (Ensures.mono (stageProtocol tenant).spec_monotone first fun outcome later holds => ?_)
  cases outcome with
  | error error => exact holds
  | ok value =>
    obtain ⟨unpurged, extends', middleHolds⟩ := holds
    refine (andThen_ok _ _ _ _ _).mpr (Ensures.mono (stageProtocol tenant).spec_monotone
      (second value later unpurged extends' middleHolds) fun outcome final finished => ?_)
    cases outcome with
    | error error => exact finished
    | ok value => exact ⟨finished.1, extends'.trans finished.2.1, finished.2.2⟩

theorem proceeds_pure {seen : List EngineEvent} {good : α → List EngineEvent → Prop} {value : α}
    (unpurged : statusOf seen ≠ .purged) (holds : good value seen) :
    Proceeds operation tenant (pure value) seen good :=
  (ensures_pure _ _ _ _).mpr ⟨unpurged, List.prefix_rfl, holds⟩

theorem proceeds_fail {seen : List EngineEvent} {good : α → List EngineEvent → Prop}
    {error : MemcoreError} (accounted : Accounted operation seen) :
    Proceeds operation tenant (Program.fail error) seen good :=
  (ensures_fail _ _ _ _).mpr accounted

theorem proceeds_check {seen : List EngineEvent} {good : α → List EngineEvent → Prop}
    {outcome : MemcoreResult α} (unpurged : statusOf seen ≠ .purged)
    (passing : ∀ value, outcome = .ok value → good value seen)
    (failing : ∀ error, outcome = .error error → Accounted operation seen) :
    Proceeds operation tenant (Program.check outcome) seen good := by
  refine (ensures_check _ _ _ _).mpr ?_
  cases outcome with
  | ok value => exact ⟨unpurged, List.prefix_rfl, passing value rfl⟩
  | error error => exact failing error rfl

theorem Proceeds.weaken {program : EngineProgram α} {seen : List EngineEvent}
    {strong weak : α → List EngineEvent → Prop}
    (proceeds : Proceeds operation tenant program seen strong)
    (weaker : ∀ value later, seen <+: later → strong value later → weak value later) :
    Proceeds operation tenant program seen weak := by
  refine Ensures.mono (stageProtocol tenant).spec_monotone proceeds fun outcome later holds => ?_
  cases outcome with
  | ok value => exact ⟨holds.1, holds.2.1, weaker value later holds.2.1 holds.2.2⟩
  | error error => exact holds

/-- A call answered with an error that the operation does not carry on from. -/
theorem ensures_seen {port : Port} {seen : List EngineEvent}
    {post : MemcoreResult port.Answer → List EngineEvent → Prop}
    (own : MutatorCall tenant port) (unpurged : statusOf seen ≠ .purged)
    (answered : ∀ answer, post answer (seen ++ [⟨port, answer⟩])) :
    Ensures (stageProtocol tenant).spec (perform port) post seen :=
  (@ensures_call enginePorts MemcoreError _ (stageProtocol tenant).spec seen port post).mpr
    ⟨⟨own, fun _ => unpurged⟩, answered⟩

/-- Only an invalidation purges. -/
theorem unpurged_snoc {port : Port} (notCache : ∀ call, port ≠ .cache call)
    {seen : List EngineEvent} (unpurged : statusOf seen ≠ .purged)
    (answer : MemcoreResult port.Answer) : statusOf (seen ++ [⟨port, answer⟩]) ≠ .purged := by
  rw [statusOf_snoc]
  unfold statusAfter
  split
  · simp
  · cases port with
    | facts call =>
      cases call <;> cases answer <;> dsimp only <;> (try split) <;>
        first | exact unpurged | simp
    | cache call => exact absurd rfl (notCache call)
    | _ => exact unpurged

theorem proceeds_perform {port : Port} {seen : List EngineEvent}
    {good : port.Answer → List EngineEvent → Prop} (own : MutatorCall tenant port)
    (unpurged : statusOf seen ≠ .purged) (strict : EngineOperation.StopsOnError port)
    (holds : ∀ value, good value (seen ++ [⟨port, .ok value⟩])) :
    Proceeds operation tenant (perform port) seen good := by
  refine ensures_seen own unpurged fun answer => ?_
  cases answer with
  | ok value =>
    have notCache : ∀ call, port ≠ .cache call := by
      rintro call rfl
      exact strict.elim
    exact ⟨unpurged_snoc notCache unpurged _, List.prefix_append _ _, holds value⟩
  | error error => exact fun carried => absurd carried.last (operation.stops strict seen error)

/-! ## Parts that write no fact -/

/-- Nothing was touched that had not been before. -/
def Calm (seen later : List EngineEvent) : Prop :=
  statusOf seen ≠ .touched → statusOf later ≠ .touched

theorem QuietCall.status {port : Port} (isQuiet : QuietCall tenant port)
    (status : Status) (answer : MemcoreResult port.Answer) :
    statusAfter status ⟨port, answer⟩ = status ∨ statusAfter status ⟨port, answer⟩ = .unreal := by
  unfold statusAfter
  split
  · exact .inr rfl
  · cases port with
    | facts call =>
      cases call <;> first | exact isQuiet.elim | skip
      all_goals
        cases answer
        · exact .inl rfl
        · first
            | exact .inl rfl
            | dsimp only
              split
              · exact .inl rfl
              · exact .inr rfl
    | vectors call => cases call <;> first | exact isQuiet.elim | exact .inl rfl
    | cache call => exact isQuiet.elim
    | coordinator call => exact isQuiet.elim
    | _ => exact .inl rfl

theorem QuietCall.calm {port : Port} (isQuiet : QuietCall tenant port)
    (seen : List EngineEvent) (answer : MemcoreResult port.Answer) :
    Calm seen (seen ++ [⟨port, answer⟩]) := by
  intro untouched
  rw [statusOf_snoc]
  rcases isQuiet.status (statusOf seen) answer with same | unreal
  · rwa [same]
  · simp [unreal]

theorem Calm.trans {first second third : List EngineEvent} (early : Calm first second)
    (late : Calm second third) : Calm first third := late ∘ early

/-- A quiet call whose errors make the operation return. -/
theorem proceeds_quiet {port : Port} {seen : List EngineEvent}
    {good : port.Answer → List EngineEvent → Prop} (isQuiet : QuietCall tenant port)
    (unpurged : statusOf seen ≠ .purged)
    (strict : EngineOperation.StopsOnError port)
    (holds : ∀ value, Calm seen (seen ++ [⟨port, .ok value⟩]) →
      good value (seen ++ [⟨port, .ok value⟩])) :
    Proceeds operation tenant (perform port) seen good :=
  proceeds_perform (quietCall_mutatorCall port isQuiet) unpurged strict
    fun value => holds value (isQuiet.calm seen (.ok value))

/-- The best effort to record an event never fails on its own. -/
theorem recordEventBestEffort_proceeds (engine : MemoryEngine) {seen : List EngineEvent}
    (factId : Option Uuid) (kind : MemoryEventOperation)
    (previousContent newContent : Option String) (metadata : Value)
    (unpurged : statusOf seen ≠ .purged) :
    Proceeds operation tenant (recordEventBestEffort engine tenant
      (MemoryEvent.new engine tenant factId kind previousContent newContent metadata)) seen
      fun _ later => Calm seen later ∧
        (engine.eventStore = true → later.any isRecording = true) := by
  refine proceeds_bind (fun _ later => Calm seen later) ?_
    fun event later unpurged _ calm => ?_
  · refine proceeds_bind _ (proceeds_quiet trivial unpurged trivial fun _ calm => calm)
      fun id later unpurged _ calm => ?_
    refine proceeds_bind _ (proceeds_quiet trivial unpurged trivial fun _ calm => calm)
      fun createdAt later unpurged _ calmer => ?_
    exact proceeds_pure unpurged (calm.trans calmer)
  · split
    · refine proceeds_bind (fun _ final => Calm later final ∧
        final.any isRecording = true) ?_ fun outcome final unpurged _ holds => ?_
      · have isQuiet : QuietCall tenant (.events (.recordEvent tenant event)) := rfl
        refine (ensures_attempt _ _ _ _).mpr (ensures_seen rfl unpurged fun answer => ?_)
        refine ⟨unpurged_snoc (by simp) unpurged answer, List.prefix_append _ _,
          isQuiet.calm later answer, ?_⟩
        simp [isRecording]
      · exact proceeds_pure unpurged ⟨calm.trans holds.1, fun _ => holds.2⟩
    · rename_i missing
      exact proceeds_pure unpurged ⟨calm, fun present => absurd present missing⟩

/-! ## Parts that write -/

theorem calm_vectors (seen : List EngineEvent) (call : VectorStoreCall)
    (answer : MemcoreResult call.Answer) : Calm seen (seen ++ [⟨.vectors call, answer⟩]) := by
  intro untouched
  rw [statusOf_snoc]
  unfold statusAfter
  split
  · simp
  · exact untouched

/-- Whatever it is answered, the deletion of vectors that may be missing goes on or
is accounted for, unless a deletion of a memory makes it. -/
theorem deleteVectorIfPresent_proceeds (tolerates : ∀ input, operation ≠ .deleteMemory input)
    {seen : List EngineEvent} (factId : Uuid) (unpurged : statusOf seen ≠ .purged) :
    Proceeds operation tenant (deleteVectorIfPresent tenant factId) seen
      fun _ later => Calm seen later := by
  refine proceeds_bind (fun outcome later => Calm seen later ∧
    ∀ error, outcome = .error error → operation.CarriedOn later → error.isNotFound = true) ?_
    fun outcome later unpurged _ known => ?_
  · refine (ensures_attempt _ _ _ _).mpr (ensures_seen rfl unpurged fun answer => ?_)
    refine ⟨unpurged_snoc (by simp) unpurged answer, List.prefix_append _ _,
      calm_vectors seen (.deleteByFactId tenant factId) answer, ?_⟩
    intro error same carried
    have goesOn := carried.last
    cases operation with
    | deleteMemory input => exact absurd rfl (tolerates input)
    | _ => exact goesOn error same
  · cases outcome with
    | ok value => exact proceeds_pure unpurged known.1
    | error error =>
      dsimp only
      split
      · exact proceeds_pure unpurged known.1
      · rename_i fatal
        exact proceeds_fail fun carried => absurd (known.2 error rfl carried) fatal

theorem upsertFactVector_proceeds {seen : List EngineEvent} (fact : Fact)
    (precomputedEmbedding : Option (List ℚ)) (unpurged : statusOf seen ≠ .purged) :
    Proceeds operation tenant (upsertFactVector tenant fact precomputedEmbedding) seen
      fun _ _ => True := by
  refine proceeds_bind (fun _ _ => True) ?_ fun embedding later unpurged _ _ => ?_
  · cases precomputedEmbedding with
    | some embedding => exact proceeds_pure unpurged trivial
    | none => exact proceeds_quiet trivial unpurged trivial fun _ _ => trivial
  · refine proceeds_bind (fun _ _ => True) ?_ fun record later unpurged _ _ => ?_
    · refine proceeds_bind _ (proceeds_quiet trivial unpurged trivial fun _ calm => calm)
        fun id later unpurged _ _ => proceeds_pure unpurged trivial
    · exact proceeds_perform rfl unpurged trivial fun _ => trivial

/-- A new fact made of a candidate passes its checks if the candidate passed them. -/
theorem candidateToFact_proceeds (valid : tenant.Valid) {candidate : CandidateFact}
    {seen : List EngineEvent} (unpurged : statusOf seen ≠ .purged)
    (acceptable : operation.CarriedOn seen → validateCandidate candidate = .ok ()) :
    Proceeds operation tenant (candidateToFact tenant candidate) seen
      fun fact _ => fact.Valid := by
  refine proceeds_bind _ (proceeds_quiet trivial unpurged trivial fun _ calm => calm)
    fun createdAt later unpurged earlier _ => ?_
  refine proceeds_bind _ (proceeds_quiet trivial unpurged trivial fun _ calm => calm)
    fun id later unpurged earlier' _ => ?_
  refine proceeds_check unpurged (fun fact created => ?_) fun error failed carried => ?_
  · obtain ⟨rfl, valid⟩ := (Fact.new_ok _ fact).mp created
    exact valid
  obtain ⟨content, confidence, importance⟩ := (validateCandidate_ok candidate).mp
    (acceptable (carried.earlier (earlier.trans earlier')))
  have created := (Fact.new_ok ⟨id, tenant.orgId, tenant.userId, candidate.memoryType,
    candidate.content, none, .userMessage, candidate.confidence, candidate.importance,
    candidate.validAt, none, createdAt, createdAt, candidate.metadata⟩ _).mpr
    ⟨rfl, valid, content, confidence, importance⟩
  exact absurd (failed.symm.trans created) (by simp)

/-- A required fact belongs to the tenant, unless the answer was not the world's. -/
theorem requireFact_proceeds (needs : ∀ input, operation ≠ .importUserData input)
    {seen : List EngineEvent} (factId : Uuid) (unpurged : statusOf seen ≠ .purged) :
    Proceeds operation tenant (requireFact tenant factId) seen fun fact later =>
      statusOf later = .unreal ∨ fact.tenant = tenant := by
  refine proceeds_bind (fun found later => (found = none → ¬ operation.CarriedOn later) ∧
    ∀ fact, found = some fact → statusOf later = .unreal ∨ fact.tenant = tenant) ?_
    fun found later unpurged _ known => ?_
  · refine proceeds_quiet rfl unpurged trivial fun found _ => ⟨fun absent carried => ?_, ?_⟩
    · have goesOn := carried.last
      cases operation with
      | importUserData input => exact absurd rfl (needs input)
      | _ =>
        obtain ⟨fact, same⟩ := goesOn
        simp [absent] at same
    · rintro fact rfl
      by_cases own : fact.tenant = tenant
      · exact .inr own
      · left
        rw [statusOf_snoc]
        unfold statusAfter
        split
        · rfl
        · simp [own]
  · cases found with
    | none => exact proceeds_fail fun carried => absurd carried (known.1 rfl)
    | some fact => exact proceeds_pure unpurged (known.2 fact rfl)

theorem mergeCandidateIntoFact_proceeds (valid : tenant.Valid) {candidate : CandidateFact}
    {existing : Fact} {seen : List EngineEvent} (unpurged : statusOf seen ≠ .purged)
    (own : statusOf seen = .unreal ∨ existing.tenant = tenant)
    (acceptable : operation.CarriedOn seen → validateCandidate candidate = .ok ()) :
    Proceeds operation tenant (mergeCandidateIntoFact existing candidate) seen
      fun fact _ => fact.Valid := by
  refine proceeds_bind (fun _ later => statusOf later = .unreal ∨ existing.tenant = tenant)
    (proceeds_quiet trivial unpurged trivial fun instant _ => ?_)
    fun updatedAt later unpurged earlier own => ?_
  · refine own.imp_left fun unreal => ?_
    rw [statusOf_snoc, unreal]
    rfl
  · refine proceeds_check unpurged (fun fact created => ?_) fun error failed carried => ?_
    · obtain ⟨rfl, valid⟩ := (Fact.new_ok _ fact).mp created
      exact valid
    rcases own with unreal | own
    · simp [unreal]
    · obtain ⟨content, confidence, importance⟩ := (validateCandidate_ok candidate).mp
        (acceptable (carried.earlier earlier))
      have created := (Fact.new_ok { existing with
        memoryType := candidate.memoryType
        content := candidate.content
        confidence := candidate.confidence
        importance := candidate.importance
        validAt := candidate.validAt
        updatedAt := updatedAt
        metadata := candidate.metadata } _).mpr
        ⟨rfl, show existing.tenant.Valid from own ▸ valid, content, confidence, importance⟩
      exact absurd (failed.symm.trans created) (by simp)

/-- Applying a decision on a candidate that passed its checks. Without an effect
nothing is touched. -/
theorem applyFactOperation_proceeds (valid : tenant.Valid)
    (adds : ∃ input, operation = .addMemory input) {candidate : CandidateFact}
    {decision : FactOperationDecision} (precomputedEmbedding : Option (List ℚ))
    {seen : List EngineEvent} (unpurged : statusOf seen ≠ .purged)
    (acceptable : operation.CarriedOn seen → validateCandidate candidate = .ok ())
    (decided : operation.CarriedOn seen → ∃ normalized, normalizeOperation decision = .ok normalized) :
    Proceeds operation tenant
      (applyFactOperation tenant candidate decision precomputedEmbedding) seen
      fun result later => result = .noOp → Calm seen later := by
  obtain ⟨input, rfl⟩ := adds
  refine proceeds_bind (fun _ later => later = seen) (proceeds_check unpurged
    (fun _ _ => rfl) fun error failed carried => ?_) fun normalized later unpurged _ same => ?_
  · obtain ⟨normalized, succeeded⟩ := decided carried
    exact absurd (failed.symm.trans succeeded) (by simp)
  · subst same
    cases normalized with
    | noOp => exact proceeds_pure unpurged fun _ => id
    | add =>
      refine proceeds_bind _ (candidateToFact_proceeds valid unpurged acceptable)
        fun fact later unpurged _ factValid => ?_
      refine proceeds_bind (fun _ _ => True) (proceeds_perform ⟨rfl, factValid⟩ unpurged trivial
        fun _ => trivial) fun inserted later unpurged _ _ => ?_
      refine proceeds_bind _ (upsertFactVector_proceeds inserted _ unpurged)
        fun _ later unpurged _ _ => ?_
      exact proceeds_pure unpurged (by simp)
    | update targetFactId =>
      refine proceeds_bind _ (requireFact_proceeds (by simp) targetFactId unpurged)
        fun existing later unpurged earlier own => ?_
      refine proceeds_bind _ (mergeCandidateIntoFact_proceeds valid unpurged own
        fun carried => acceptable (carried.earlier earlier))
        fun fact later unpurged _ factValid => ?_
      refine proceeds_bind (fun _ _ => True) (proceeds_perform ⟨rfl, factValid⟩ unpurged trivial
        fun _ => trivial) fun stored later unpurged _ _ => ?_
      refine proceeds_bind (fun _ _ => True) ?_ fun _ later unpurged _ _ =>
        proceeds_pure unpurged (by simp)
      exact proceeds_bind _ (deleteVectorIfPresent_proceeds (by simp) _ unpurged)
        fun _ later unpurged _ _ => upsertFactVector_proceeds _ _ unpurged
    | delete targetFactId =>
      refine proceeds_bind _ (requireFact_proceeds (by simp) targetFactId unpurged)
        fun existing later unpurged _ _ => ?_
      refine proceeds_bind (fun _ _ => True) (proceeds_perform rfl unpurged trivial
        fun _ => trivial) fun _ later unpurged _ _ => ?_
      exact proceeds_bind _ (deleteVectorIfPresent_proceeds (by simp) _ unpurged)
        fun _ later unpurged _ _ => proceeds_pure unpurged (by simp)

/-! ## The loop over the candidates -/

/-- An output that reports no change comes with no touched fact. -/
def Counted (output : AddMemoryOutput) (seen : List EngineEvent) : Prop :=
  output.added + output.updated + output.deleted = 0 → statusOf seen ≠ .touched

variable (engine : MemoryEngine)

theorem skipDuplicate_proceeds {seen : List EngineEvent} {output : AddMemoryOutput}
    (existingFactId : Uuid) (reason : String) (unpurged : statusOf seen ≠ .purged)
    (counted : Counted output seen) :
    Proceeds operation tenant (skipDuplicate engine tenant output existingFactId reason) seen
      Counted :=
  proceeds_bind _ (recordEventBestEffort_proceeds engine _ _ _ _ _ unpurged)
    fun _ _ unpurged _ recorded => proceeds_pure unpurged fun none => recorded.1 (counted none)

theorem countResult_proceeds (input : AddMemoryInput) {seen : List EngineEvent}
    {output : AddMemoryOutput} (decision : FactOperationDecision) {result : LifecycleApplyResult}
    (unpurged : statusOf seen ≠ .purged)
    (counted : result = .noOp → Counted output seen) :
    Proceeds operation input.tenant (countResult engine input output decision result) seen
      Counted := by
  cases result with
  | noOp =>
    exact proceeds_bind _ (recordEventBestEffort_proceeds engine _ _ _ _ _ unpurged)
      fun _ _ unpurged _ recorded =>
        proceeds_pure unpurged fun none => recorded.1 (counted rfl none)
  | added fact =>
    refine proceeds_bind _ (recordEventBestEffort_proceeds engine _ _ _ _ _ unpurged)
      fun _ _ unpurged _ _ => proceeds_pure unpurged fun none => ?_
    simp only at none
    omega
  | updated previous updated =>
    refine proceeds_bind _ (recordEventBestEffort_proceeds engine _ _ _ _ _ unpurged)
      fun _ _ unpurged _ _ => proceeds_pure unpurged fun none => ?_
    simp only at none
    omega
  | deleted fact =>
    refine proceeds_bind _ (recordEventBestEffort_proceeds engine _ _ _ _ _ unpurged)
      fun _ _ unpurged _ _ => proceeds_pure unpurged fun none => ?_
    simp only at none
    omega

theorem detectEmbeddingDuplicate_proceeds (memoryType : MemoryType) (embedding : List ℚ)
    (config : EmbeddingDeduplicationConfig) {seen : List EngineEvent}
    (unpurged : statusOf seen ≠ .purged) :
    Proceeds operation tenant (detectEmbeddingDuplicate tenant memoryType embedding config) seen
      fun _ later => Calm seen later := by
  unfold detectEmbeddingDuplicate
  split
  · exact proceeds_pure unpurged id
  · exact proceeds_bind _ (proceeds_quiet rfl unpurged trivial fun _ calm => calm)
      fun _ _ unpurged _ calm => proceeds_pure unpurged calm

theorem embedAndApply_proceeds (input : AddMemoryInput) (valid : input.tenant.Valid)
    {seen : List EngineEvent} {output : AddMemoryOutput} {candidate : CandidateFact}
    (unpurged : statusOf seen ≠ .purged) (counted : Counted output seen)
    (acceptable : (EngineOperation.addMemory input).CarriedOn seen →
      validateCandidate candidate = .ok ()) :
    Proceeds (.addMemory input) input.tenant (embedAndApply engine input output candidate) seen
      Counted := by
  refine proceeds_bind _ (proceeds_quiet trivial unpurged trivial fun _ calm => calm)
    fun embedding first unpurged earlier calm => ?_
  refine proceeds_bind _ (detectEmbeddingDuplicate_proceeds _ _ _ unpurged)
    fun duplicate second unpurged earlier' calmer => ?_
  have calm := calm.trans calmer
  have earlier := earlier.trans earlier'
  split
  · exact skipDuplicate_proceeds engine _ _ unpurged fun none => calm (counted none)
  · refine proceeds_bind _ (proceeds_quiet rfl unpurged trivial fun _ calm => calm)
      fun related third unpurged earlier' calmer => ?_
    have calm := calm.trans calmer
    have earlier := earlier.trans earlier'
    refine proceeds_bind (fun decision later => Calm third later ∧
      ((EngineOperation.addMemory input).CarriedOn later →
        ∃ normalized, normalizeOperation decision = .ok normalized))
      (proceeds_quiet trivial unpurged trivial fun decision calm => ⟨calm, fun carried => ?_⟩)
      fun decision fourth unpurged earlier' decided => ?_
    · obtain ⟨_, same, normal⟩ := carried.last
      exact Except.ok.inj same ▸ normal
    · have calm := calm.trans decided.1
      have earlier := earlier.trans earlier'
      refine proceeds_bind _ (applyFactOperation_proceeds valid ⟨input, rfl⟩ _ unpurged
        (fun carried => acceptable (carried.earlier earlier)) decided.2)
        fun result fifth unpurged _ effect => ?_
      exact countResult_proceeds engine input decision unpurged
        fun same none => (calm.trans (effect same)) (counted none)

theorem addCandidate_proceeds (input : AddMemoryInput) (valid : input.tenant.Valid)
    {seen : List EngineEvent} {output : AddMemoryOutput} {extracted : CandidateFact}
    (unpurged : statusOf seen ≠ .purged) (counted : Counted output seen)
    (acceptable : (EngineOperation.addMemory input).CarriedOn seen →
      validateCandidate extracted = .ok ()) :
    Proceeds (.addMemory input) input.tenant (addCandidate engine input output extracted) seen
      Counted := by
  refine proceeds_bind (fun _ later => later = seen) (proceeds_check unpurged
    (fun _ _ => rfl) fun error failed carried => ?_) fun _ later unpurged _ same => ?_
  · exact absurd (failed.symm.trans (acceptable carried)) (by simp)
  · subst same
    have adjusted : (EngineOperation.addMemory input).CarriedOn later →
        validateCandidate (ImportanceScorer.adjust extracted) = .ok () :=
      fun carried => validateCandidate_adjust extracted (acceptable carried)
    dsimp only
    split
    · exact proceeds_pure unpurged counted
    · refine proceeds_bind _ (proceeds_quiet rfl unpurged trivial fun _ calm => calm)
        fun existing final unpurged earlier calm => ?_
      split
      · exact skipDuplicate_proceeds engine _ _ unpurged fun none => calm (counted none)
      · exact embedAndApply_proceeds engine input valid unpurged
          (fun none => calm (counted none)) fun carried => adjusted (carried.earlier earlier)

/-- Induction on the candidates: each starts where the one before it has ended. -/
theorem addCandidates_proceeds (input : AddMemoryInput) (valid : input.tenant.Valid)
    (candidates : List CandidateFact) {seen : List EngineEvent} {output : AddMemoryOutput}
    (unpurged : statusOf seen ≠ .purged) (counted : Counted output seen)
    (acceptable : (EngineOperation.addMemory input).CarriedOn seen →
      ∀ candidate ∈ candidates, validateCandidate candidate = .ok ()) :
    Proceeds (.addMemory input) input.tenant (addCandidates engine input output candidates) seen
      Counted := by
  induction candidates generalizing seen output with
  | nil => exact proceeds_pure unpurged counted
  | cons candidate candidates inductionHypothesis =>
    refine proceeds_bind _ (addCandidate_proceeds engine input valid unpurged counted
      fun carried => acceptable carried candidate List.mem_cons_self)
      fun output later unpurged earlier counted => ?_
    exact inductionHypothesis unpurged counted fun carried other member =>
      acceptable (carried.earlier earlier) other (List.mem_cons_of_mem _ member)

/-! ## The operations -/

/-- What an operation promises of its stage at the end. -/
def promise (operation : EngineOperation) : MemcoreResult α → List EngineEvent → Prop
  | .ok _, seen => statusOf seen ≠ .touched
  | .error _, seen => Accounted operation seen

/-- A part before the purge, and then the rest of the operation. -/
theorem Proceeds.finish {program : EngineProgram α} {next : α → EngineProgram β}
    {seen : List EngineEvent} (good : α → List EngineEvent → Prop)
    (first : Proceeds operation tenant program seen good)
    (rest : ∀ value later, statusOf later ≠ .purged → seen <+: later → good value later →
      Ensures (stageProtocol tenant).spec (next value) (promise operation) later) :
    Ensures (stageProtocol tenant).spec (program >>= next) (promise operation) seen := by
  refine (ensures_bind _ _ _ _ _).mpr
    (Ensures.mono (stageProtocol tenant).spec_monotone first fun outcome later holds => ?_)
  cases outcome with
  | error error => exact holds
  | ok value => exact rest value later holds.1 holds.2.1 holds.2.2

theorem promise_pure {seen : List EngineEvent} {value : α} (settled : statusOf seen ≠ .touched) :
    Ensures (stageProtocol tenant).spec (pure value : EngineProgram α) (promise operation)
      seen :=
  (ensures_pure _ _ _ _).mpr settled

/-- The purge at the end settles everything. -/
theorem promise_invalidate (enabled : engine.contextCacheConfig.enabled = true)
    {seen : List EngineEvent} (unpurged : statusOf seen ≠ .purged) {value : α} :
    Ensures (stageProtocol tenant).spec
      (do invalidateUserContextCache engine tenant; return value) (promise operation) seen := by
  have answered (answer : MemcoreResult ℕ) : statusOf
      (seen ++ [⟨.cache (.invalidateUser tenant.orgId tenant.userId), answer⟩]) ≠ .touched := by
    rw [statusOf_snoc]
    unfold statusAfter
    split
    · simp
    · cases answer <;> simp
  simp only [invalidateUserContextCache, enabled, if_true, ensures_bind, ensures_attempt]
  refine ensures_seen rfl unpurged fun answer => ?_
  simp only [andThen_ok, ensures_pure]
  exact answered answer

/-- A check before the first call. -/
theorem promise_checked {outcome : MemcoreResult α} {next : α → EngineProgram β}
    (rest : ∀ value, outcome = .ok value →
      Ensures (stageProtocol tenant).spec (next value) (promise operation) []) :
    Ensures (stageProtocol tenant).spec (Program.check outcome >>= next) (promise operation)
      [] := by
  simp only [ensures_bind, ensures_check]
  cases outcome with
  | ok value => exact rest value rfl
  | error error => exact fun _ => by simp

theorem addMemory_promise (enabled : engine.contextCacheConfig.enabled = true)
    (input : AddMemoryInput) :
    Ensures (stageProtocol input.tenant).spec (addMemory engine input)
      (promise (.addMemory input)) [] := by
  refine promise_checked fun _ passes => promise_checked fun _ _ => ?_
  have valid := (validateTenant_ok input.tenant).mp passes
  refine Proceeds.finish (fun _ seen => statusOf seen ≠ .touched) ?_
    fun _ first unpurged _ untouched => ?_
  · unfold bindUsageAttribution
    split
    · exact proceeds_quiet ⟨rfl, rfl⟩ (by simp) trivial fun _ calm => calm (by simp)
    · exact proceeds_pure (by simp) (by simp)
  · refine Proceeds.finish (fun candidates later => statusOf later ≠ .touched ∧
      ((EngineOperation.addMemory input).CarriedOn later →
        ∀ candidate ∈ candidates, validateCandidate candidate = .ok ()))
      (proceeds_quiet trivial unpurged trivial fun candidates calm =>
        ⟨calm untouched, fun carried => ?_⟩)
      fun candidates second unpurged _ start => ?_
    · obtain ⟨_, same, acceptable⟩ := carried.last
      exact Except.ok.inj same ▸ acceptable
    · refine Proceeds.finish _ (addCandidates_proceeds engine input valid candidates unpurged
        (fun _ => start.1) start.2) fun output third unpurged _ counted => ?_
      split
      · exact promise_invalidate engine enabled unpurged
      · rename_i none
        exact promise_pure (counted (by omega))

theorem deleteMemory_promise (enabled : engine.contextCacheConfig.enabled = true)
    (input : DeleteMemoryInput) :
    Ensures (stageProtocol input.tenant).spec (deleteMemory engine input)
      (promise (.deleteMemory input)) [] := by
  refine promise_checked fun _ _ => ?_
  refine (requireFact_proceeds (by simp) input.memoryId (by simp)).finish _
    fun fact first unpurged _ _ => ?_
  refine Proceeds.finish (fun _ _ => True)
    (proceeds_perform rfl unpurged trivial fun _ => trivial) fun _ second unpurged _ _ => ?_
  refine Proceeds.finish (fun _ _ => True) ?_ fun _ third unpurged _ _ => ?_
  · refine ensures_seen rfl unpurged fun answer => ?_
    cases answer with
    | ok value => exact ⟨unpurged_snoc (by simp) unpurged _, List.prefix_append _ _, trivial⟩
    | error error => exact fun carried => absurd carried.last (by simp [EngineOperation.CarriesOn])
  · exact (recordEventBestEffort_proceeds engine _ _ _ _ _ unpurged).finish _
      fun _ fourth unpurged _ _ => promise_invalidate engine enabled unpurged

theorem deleteVectorsIfPresent_proceeds (tolerates : ∀ input, operation ≠ .deleteMemory input)
    (factIds : List Uuid) {seen : List EngineEvent} (unpurged : statusOf seen ≠ .purged) :
    Proceeds operation tenant (deleteVectorsIfPresent tenant factIds) seen
      fun _ later => Calm seen later := by
  induction factIds generalizing seen with
  | nil => exact proceeds_pure unpurged id
  | cons factId factIds inductionHypothesis =>
    refine proceeds_bind _ (deleteVectorIfPresent_proceeds tolerates factId unpurged)
      fun _ _ unpurged _ calm => ?_
    exact (inductionHypothesis unpurged).weaken fun _ _ _ calmer => calm.trans calmer

/-- A pass that reports no deletion has touched nothing. -/
theorem expireFacts_proceeds (input : ApplyRetentionInput) :
    Proceeds (.applyRetention input) input.tenant (expireFacts input) []
      fun counts later => input.dryRun = true ∨ counts.2 = 0 → statusOf later ≠ .touched := by
  unfold expireFacts
  split
  · exact proceeds_pure (by simp) fun _ => by simp
  · refine proceeds_bind _ (proceeds_quiet trivial (by simp) trivial fun _ calm => calm)
      fun current first unpurged _ calm => ?_
    have untouched : statusOf first ≠ .touched := calm (by simp)
    refine proceeds_bind (fun (result : RetentionPruneResult) later =>
      input.dryRun = true ∨ result.count = 0 → statusOf later ≠ .touched)
      (proceeds_perform rfl unpurged trivial fun result none => ?_)
      fun (result : RetentionPruneResult) second unpurged _ counted => ?_
    · rw [statusOf_snoc]
      unfold statusAfter
      split
      · simp
      · simpa only [if_pos none] using untouched
    · split
      · rename_i dry
        exact proceeds_pure unpurged fun _ => counted (.inl dry)
      · exact proceeds_bind _ (deleteVectorsIfPresent_proceeds (by simp) _ unpurged)
          fun _ _ unpurged _ calm => proceeds_pure unpurged fun none => calm (counted none)

theorem applyRetention_promise (enabled : engine.contextCacheConfig.enabled = true)
    (input : ApplyRetentionInput) :
    Ensures (stageProtocol input.tenant).spec (applyRetention engine input)
      (promise (.applyRetention input)) [] := by
  refine promise_checked fun _ _ => ?_
  dsimp only
  split
  · exact promise_pure (by simp)
  · refine (expireFacts_proceeds input).finish _ fun counts first unpurged _ counted => ?_
    refine Proceeds.finish (fun _ later => Calm first later) ?_
      fun events second unpurged _ calm => ?_
    · unfold expireEvents
      split
      · refine proceeds_bind _ (proceeds_quiet trivial unpurged trivial fun _ calm => calm)
          fun _ _ unpurged _ calm => ?_
        exact proceeds_bind _ (proceeds_quiet rfl unpurged trivial fun _ calm => calm)
          fun _ _ unpurged _ calmer => proceeds_pure unpurged (calm.trans calmer)
      · exact proceeds_pure unpurged id
    · split
      · exact promise_invalidate engine enabled unpurged
      · rename_i unreported
        refine promise_pure (calm (counted ?_))
        simp only [Bool.and_eq_true, Bool.not_eq_true', decide_eq_true_eq, not_and] at unreported
        by_cases dry : input.dryRun = true
        · exact .inl dry
        · exact .inr (by have := unreported (by simpa using dry); omega)

theorem forgetUser_promise (enabled : engine.contextCacheConfig.enabled = true)
    (input : ForgetUserInput) :
    Ensures (stageProtocol input.tenant).spec (forgetUser engine input)
      (promise (.forgetUser input)) [] := by
  refine promise_checked fun _ _ => ?_
  refine Proceeds.finish (fun _ _ => True)
    (proceeds_perform rfl (by simp) trivial fun _ => trivial) fun _ _ unpurged _ _ => ?_
  refine Proceeds.finish (fun _ _ => True)
    (proceeds_perform rfl unpurged trivial fun _ => trivial) fun _ _ unpurged _ _ => ?_
  exact (recordEventBestEffort_proceeds engine _ _ _ _ _ unpurged).finish _
    fun _ _ unpurged _ _ => promise_invalidate engine enabled unpurged

/-! ## The import -/

theorem importFact_proceeds (input : ImportUserDataInput) (valid : input.tenant.Valid)
    (payload : ValidPayload input.payload input.tenant input.restoreEvents) {exported : Fact}
    (member : exported ∈ input.payload.facts) {seen : List EngineEvent}
    (unpurged : statusOf seen ≠ .purged) :
    Proceeds (.importUserData input) input.tenant (importFact input exported) seen
      fun _ _ => True := by
  refine proceeds_bind _ (proceeds_quiet rfl unpurged trivial fun _ calm => calm)
    fun existing _ unpurged _ _ => ?_
  refine proceeds_bind (fun _ _ => True) ?_ fun factId _ unpurged _ _ => ?_
  · unfold resolveImportFactId
    split
    · exact proceeds_quiet trivial unpurged trivial fun _ _ => trivial
    · exact proceeds_pure unpurged trivial
  · refine proceeds_bind (fun fact _ => fact.Valid) (proceeds_check unpurged ?_ ?_)
      fun fact _ unpurged _ factValid => ?_
    · intro fact created
      obtain ⟨rfl, factValid⟩ := (Fact.new_ok _ fact).mp created
      exact factValid
    · intro error failed
      exact absurd (failed.symm.trans (payload.factForImport_ok valid member factId)) (by simp)
    · refine proceeds_bind (fun _ _ => True) (proceeds_perform ⟨rfl, factValid⟩ unpurged
        trivial fun _ => trivial) fun _ _ unpurged _ _ => ?_
      refine proceeds_bind _ (proceeds_quiet trivial unpurged trivial fun _ calm => calm)
        fun embedding _ unpurged _ _ => ?_
      refine proceeds_bind (fun _ _ => True) ?_ fun record _ unpurged _ _ => ?_
      · exact proceeds_bind _ (proceeds_quiet trivial unpurged trivial fun _ calm => calm)
          fun _ _ unpurged _ _ => proceeds_pure unpurged trivial
      · exact proceeds_perform rfl unpurged trivial fun _ => trivial

theorem importFacts_proceeds (input : ImportUserDataInput) (valid : input.tenant.Valid)
    (payload : ValidPayload input.payload input.tenant input.restoreEvents)
    {exported : List Fact} (members : ∀ fact ∈ exported, fact ∈ input.payload.facts)
    {seen : List EngineEvent} (unpurged : statusOf seen ≠ .purged) :
    Proceeds (.importUserData input) input.tenant (importFacts input exported) seen
      fun _ _ => True := by
  induction exported generalizing seen with
  | nil => exact proceeds_pure unpurged trivial
  | cons fact rest inductionHypothesis =>
    refine proceeds_bind _ (importFact_proceeds input valid payload
      (members fact List.mem_cons_self) unpurged) fun _ _ unpurged _ _ => ?_
    exact proceeds_bind _ (inductionHypothesis
      (fun other member => members other (List.mem_cons_of_mem _ member)) unpurged)
      fun _ _ unpurged _ _ => proceeds_pure unpurged trivial

/-- A failed restoration is accounted for, since a replacement has already recorded
its own note. -/
theorem restoreEventsFrom_proceeds (input : ImportUserDataInput) (exported : List MemoryEvent)
    {seen : List EngineEvent} (unpurged : statusOf seen ≠ .purged)
    (noted : input.mode = .replace → seen.any isRecording = true) :
    Proceeds (.importUserData input) input.tenant (restoreEventsFrom input exported) seen
      fun _ _ => True := by
  have still {earlier later : List EngineEvent} (extends' : earlier <+: later)
      (noted : input.mode = .replace → earlier.any isRecording = true)
      (replaces : input.mode = .replace) : later.any isRecording = true := by
    obtain ⟨more, rfl⟩ := extends'
    simp [noted replaces]
  induction exported generalizing seen with
  | nil => exact proceeds_pure unpurged trivial
  | cons event rest inductionHypothesis =>
    refine proceeds_bind (fun _ _ => True) ?_ fun restored middle unpurged earlier _ => ?_
    · exact proceeds_bind _ (proceeds_quiet trivial unpurged trivial fun _ calm => calm)
        fun _ _ unpurged _ _ => proceeds_pure unpurged trivial
    · have noted := still earlier noted
      refine proceeds_bind (fun _ _ => True) ?_ fun _ later unpurged earlier _ => ?_
      · refine ensures_seen rfl unpurged fun answer => ?_
        cases answer with
        | ok value =>
          exact ⟨unpurged_snoc (by simp) unpurged _, List.prefix_append _ _, trivial⟩
        | error error =>
          refine fun carried => absurd carried.last ?_
          rintro (⟨value, wrong⟩ | ⟨replaces, unnoted⟩)
          · simp at wrong
          · simp [noted replaces] at unnoted
      · exact proceeds_bind _ (inductionHypothesis unpurged (still earlier noted))
          fun _ _ unpurged _ _ => proceeds_pure unpurged trivial

theorem importUserData_promise (enabled : engine.contextCacheConfig.enabled = true)
    (input : ImportUserDataInput) :
    Ensures (stageProtocol input.tenant).spec (importUserData engine input)
      (promise (.importUserData input)) [] := by
  refine promise_checked fun _ passes => ?_
  have valid := (validateTenant_ok input.tenant).mp passes
  dsimp only
  split
  · exact promise_pure (by simp)
  · split
    · exact (ensures_fail _ _ _ _).mpr fun _ => by simp
    · rename_i accepted
      have payload := (collectImportValidation_valid input.payload input.tenant
        input.restoreEvents).mp (by simpa using accepted)
      refine Proceeds.finish (fun _ later => input.mode = .replace →
        engine.eventStore = true → later.any isRecording = true) ?_
        fun replaced first unpurged _ noted => ?_
      · unfold replaceExisting
        split
        · refine proceeds_bind (fun _ _ => True) (proceeds_perform rfl (by simp) trivial
            fun _ => trivial) fun _ _ unpurged _ _ => ?_
          refine proceeds_bind (fun _ _ => True) (proceeds_perform rfl unpurged trivial
            fun _ => trivial) fun _ _ unpurged _ _ => ?_
          exact proceeds_bind _ (recordEventBestEffort_proceeds engine _ _ _ _ _ unpurged)
            fun _ _ unpurged _ recorded => proceeds_pure unpurged fun _ => recorded.2
        · rename_i appends
          exact proceeds_pure (by simp) fun replaces => absurd replaces appends
      · refine (importFacts_proceeds input valid payload (fun _ member => member)
          unpurged).finish _ fun count second unpurged earlier _ => ?_
        refine Proceeds.finish (fun _ _ => True) ?_ fun _ third unpurged _ _ =>
          promise_invalidate engine enabled unpurged
        unfold restoreEvents
        split
        · rename_i restoring
          simp only [Bool.and_eq_true] at restoring
          refine restoreEventsFrom_proceeds input _ unpurged fun replaces => ?_
          obtain ⟨more, rfl⟩ := earlier
          simp [noted replaces restoring.2]
        · exact proceeds_pure unpurged trivial

/-- Every mutating operation keeps its promise about the stage. -/
theorem operation_promise (enabled : engine.contextCacheConfig.enabled = true)
    {operation : EngineOperation} (mutates : operation.Mutates) :
    Ensures (stageProtocol operation.tenant).spec (operation.program engine)
      (promise operation) [] := by
  have forget {α : Type} {program : EngineProgram α} {tenant : TenantContext}
      (kept : Ensures (stageProtocol tenant).spec program (promise operation) []) :
      Ensures (stageProtocol tenant).spec (do let _ ← program) (promise operation) [] := by
    refine (ensures_bind _ _ _ _ _).mpr (Ensures.mono (stageProtocol tenant).spec_monotone kept
      fun outcome later holds => ?_)
    cases outcome with
    | ok value => exact (ensures_pure _ _ _ _).mpr holds
    | error error => exact holds
  cases operation with
  | addMemory input => exact forget (addMemory_promise engine enabled input)
  | deleteMemory input => exact forget (deleteMemory_promise engine enabled input)
  | applyRetention input => exact forget (applyRetention_promise engine enabled input)
  | forgetUser input => exact forget (forgetUser_promise engine enabled input)
  | importUserData input => exact forget (importUserData_promise engine enabled input)
  | _ => exact mutates.elim

end Memcore
