import Memcore.Domain.JsonReader
import Memcore.Guarantees.RedactionPanics
import Memcore.Guarantees.WriteParity
import Memcore.Jobs.RunHistory

/-!
# What the history says of a run

The runner counts every run alike: there is at least one attempt to make, and a run was
retried if it made more than one. So a run is read back from its row as it was, apart from its
message, unless it made no attempt, which the column of attempts is read as one. Before that,
the message has to survive its redaction and the cut at 512 bytes.
-/
namespace Memcore

open KeyedTables Pages ByteTexts Programs

/-! ## The runs that a runner produces -/

section Produced

variable {σ : Type}

/-- A request to a runner hands a run to the history. -/
def RunnerRequest.Produces (store : BackgroundJobLockStore σ) (request : RunnerRequest)
    (run : BackgroundJobRun) : Prop :=
  ∃ world trace outcome final, Runs (runnerServer store) (fun _ _ _ => True) request.program world
    trace outcome final ∧ ∃ event ∈ trace, event.call = .insertRun run

/-- At least one attempt was to be made, and a run with more than one was retried. -/
structure BackgroundJobRun.WellCounted (run : BackgroundJobRun) : Prop where
  maxAttempts : 1 ≤ run.maxAttempts
  retried : run.retried = decide (1 < run.attemptCount)

/-- Only well counted runs are handed to the history. -/
def insertsWellCounted (call : RunnerCall) : Prop :=
  ∀ run, call = .insertRun run → run.WellCounted

/-- Whatever is answered, only well counted runs are handed to the history, and what is
returned is good. -/
abbrev CountsWell {α : Type} (program : RunnerProgram α) (good : α → Prop) : Prop :=
  Succeeds (@Protocol.restricting runnerPorts MemcoreError insertsWellCounted).spec program
    (fun value _ => good value) ()

namespace CountsWell

variable {α β : Type} {good : β → Prop}

theorem pure {value : β} (isGood : good value) : CountsWell (Pure.pure value) good :=
  (succeeds_pure _ _ _ _).mpr isGood

theorem bind {program : RunnerProgram α} {next : α → RunnerProgram β} {middle : α → Prop}
    (first : CountsWell program middle)
    (second : ∀ value, middle value → CountsWell (next value) good) :
    CountsWell (program >>= next) good :=
  Succeeds.bind (Protocol.spec_monotone _) first fun value _ isGood => second value isGood

theorem call (request : RunnerCall) {next : request.Answer → RunnerProgram β}
    (inserts : insertsWellCounted request) (returns : ∀ answer, CountsWell (next answer) good) :
    CountsWell (runnerCall request >>= next) good :=
  (@Protocol.restricting runnerPorts MemcoreError insertsWellCounted).succeeds_call request inserts
    returns

theorem attempt (request : RunnerCall) {next : MemcoreResult request.Answer → RunnerProgram β}
    (inserts : insertsWellCounted request) (returns : ∀ answer, CountsWell (next answer) good) :
    CountsWell ((runnerCall request).attempt >>= next) good :=
  (@Protocol.restricting runnerPorts MemcoreError insertsWellCounted).succeeds_attempt request
    inserts returns

theorem lone (request : RunnerCall) (inserts : insertsWellCounted request) :
    CountsWell (runnerCall request) (fun _ => True) := by
  apply (succeeds_iff _ _ _ _).mpr
  apply (@ensures_call runnerPorts MemcoreError Unit _ _ request _).mpr
  refine ⟨inserts, ?_⟩
  rintro (error | answer)
  · trivial
  · trivial

end CountsWell

theorem ended_wellCounted (status : BackgroundJobStatus) (code : String)
    (kind : BackgroundJobKind) (message : String) (startedAt : Instant) :
    (BackgroundJobRun.ended status code kind message startedAt).WellCounted :=
  ⟨le_refl 1, rfl⟩

theorem totalAttempts_pos (policy : BackgroundJobRetryPolicy) : 1 ≤ policy.totalAttempts := by
  unfold BackgroundJobRetryPolicy.totalAttempts
  split <;> omega

namespace BackgroundJobRunner

variable {runner : BackgroundJobRunner}

theorem failedRun_wellCounted {kind : BackgroundJobKind} {startedAt : Instant}
    {maxAttempts : ℕ} (positive : 1 ≤ maxAttempts) (attemptsMade : ℕ) (error : MemcoreError) :
    (failedRun kind startedAt attemptsMade maxAttempts error).WellCounted where
  maxAttempts := positive
  retried := by
    show decide (1 < attemptsMade) = decide (1 < max attemptsMade 1)
    exact decide_eq_decide.mpr (by omega)

theorem isShutdownRequested_counts :
    CountsWell runner.isShutdownRequested (fun _ => True) := by
  unfold isShutdownRequested
  cases runner.shutdownToken with
  | none => exact .pure trivial
  | some token => exact .lone (.isCancelled token) (fun _ => nofun)

theorem recordRun_counts {run : BackgroundJobRun} (counted : run.WellCounted) :
    CountsWell (runner.recordRun run) (fun _ => True) := by
  unfold recordRun
  refine .call (.recordRun runner.state run) (fun _ => nofun) fun _ => ?_
  split
  · refine .attempt (.insertRun run) ?_ fun _ => .pure trivial
    rintro other ⟨⟩
    exact counted
  · exact .pure trivial

theorem acquireLock_counts (kind : BackgroundJobKind) :
    CountsWell (runner.acquireLock kind) fun result => ∀ run, result = .error run →
      run.WellCounted := by
  have refused (message code : String) :
      CountsWell (do
        let now ← runnerCall .utcNow
        return .error { BackgroundJobRun.skipped kind message now with errorCode := some code })
        fun result : Except BackgroundJobRun (Option AcquiredJobLock) =>
          ∀ run, result = .error run → run.WellCounted := by
    refine .call .utcNow (fun _ => nofun) fun now => .pure ?_
    rintro run ⟨⟩
    exact ⟨le_refl 1, rfl⟩
  unfold acquireLock
  split
  · exact .pure fun _ => nofun
  · split
    · exact refused _ _
    · refine .attempt (.tryAcquireLock kind runner.lockOwnerId runner.lockTtl) (fun _ => nofun)
        fun answer => ?_
      rcases answer with error | (_ | lock)
      · exact refused _ _
      · exact refused _ _
      · exact .pure fun _ => nofun

theorem releaseLock_counts (kind : BackgroundJobKind) (lock : Option AcquiredJobLock) :
    CountsWell (runner.releaseLock kind lock) (fun _ => True) := by
  unfold releaseLock
  split
  · exact .pure trivial
  · exact .attempt (.releaseLock kind runner.lockOwnerId) (fun _ => nofun) fun _ => .pure trivial

theorem executeAttempts_counts (kind : BackgroundJobKind) (startedAt deadline : Instant)
    {maxAttempts : ℕ} (positive : 1 ≤ maxAttempts) (left attemptsMade : ℕ) :
    CountsWell (runner.executeAttempts kind startedAt deadline maxAttempts left attemptsMade)
      fun result => ∀ run ∈ result, run.WellCounted := by
  have past {run : BackgroundJobRun} (counted : run.WellCounted) :
      CountsWell (pure (some run)) fun result => ∀ run ∈ result, run.WellCounted := by
    refine .pure ?_
    rintro other ⟨⟩
    exact counted
  induction left generalizing attemptsMade with
  | zero => exact past (failedRun_wellCounted positive _ _)
  | succ left inductionHypothesis =>
    rw [executeAttempts]
    refine .bind isShutdownRequested_counts fun requested _ => ?_
    cases requested with
    | true => exact past ⟨positive, rfl⟩
    | false =>
      refine .call (.beginRunOnce runner.state kind) (fun _ => nofun) fun _ => ?_
      refine .call (.awaitRunOnce runner.state kind runner.shutdownToken deadline _) (fun _ => nofun)
        fun bodyEnd => ?_
      rcases bodyEnd with (error | report) | _ | _
      · show CountsWell (if _ then _ else _) _
        split
        · exact past (failedRun_wellCounted positive _ _)
        · refine .call (.sleep runner.shutdownToken deadline) (fun _ => nofun) fun sleepEnd => ?_
          cases sleepEnd with
          | elapsed => exact inductionHypothesis (attemptsMade + 1)
          | shutdownRequested => exact past ⟨positive, rfl⟩
          | timedOut => exact .pure fun _ => nofun
      · exact past ⟨positive, rfl⟩
      · exact past ⟨positive, rfl⟩
      · exact .pure fun _ => nofun

theorem execute_counts (job : BackgroundJobDefinition) :
    CountsWell (runner.execute job) BackgroundJobRun.WellCounted := by
  have positive := totalAttempts_pos runner.retryPolicy
  rw [execute]
  refine .call .utcNow (fun _ => nofun) fun startedAt => ?_
  refine .bind (executeAttempts_counts _ _ _ positive _ _) fun result counted => ?_
  cases result with
  | some run => exact .pure (counted run rfl)
  | none => exact .call .utcNow (fun _ => nofun) fun now => .pure ⟨positive, rfl⟩

theorem recorded_counts {run : BackgroundJobRun} (counted : run.WellCounted) :
    CountsWell (do runner.recordRun run; return run) (fun _ => True) :=
  .bind (recordRun_counts counted) fun _ _ => .pure trivial

theorem runJob_counts (job : BackgroundJobDefinition) :
    CountsWell (runner.runJob job) (fun _ => True) := by
  rw [runJob]
  refine .bind isShutdownRequested_counts fun requested _ => ?_
  cases requested with
  | true =>
    exact .call .utcNow (fun _ => nofun) fun now => recorded_counts (ended_wellCounted _ _ _ _ _)
  | false =>
    refine .call (.tryBegin runner.state job.kind) (fun _ => nofun) fun free => ?_
    cases free with
    | false =>
      exact .call .utcNow (fun _ => nofun) fun now => recorded_counts (ended_wellCounted _ _ _ _ _)
    | true =>
      refine .bind (acquireLock_counts job.kind) ?_
      rintro (run | lock) refused
      · exact recorded_counts (refused run rfl)
      · refine .bind (execute_counts job) fun run counted => ?_
        exact .bind (releaseLock_counts job.kind lock) fun _ _ => recorded_counts counted

theorem runDueJobs_counts (now : Instant) (jobs : List BackgroundJobDefinition) :
    CountsWell (runner.runDueJobs now jobs) (fun _ => True) := by
  induction jobs with
  | nil => exact .pure trivial
  | cons job rest inductionHypothesis =>
    rw [runDueJobs]
    refine .bind isShutdownRequested_counts fun requested _ => ?_
    cases requested with
    | true => exact .pure trivial
    | false =>
      cases job.enabled with
      | false => exact inductionHypothesis
      | true =>
        refine .call (.isDue runner.state job now) (fun _ => nofun) fun due => ?_
        cases due with
        | false => exact inductionHypothesis
        | true =>
          refine .bind (runJob_counts job) fun run _ => ?_
          exact .bind inductionHypothesis fun runs _ => .pure trivial

theorem runManual_counts (kind : BackgroundJobKind) :
    CountsWell (runner.runManual kind) (fun _ => True) := by
  unfold runManual
  split
  · exact (succeeds_fail _ _ _ _).mpr trivial
  · exact runJob_counts _

end BackgroundJobRunner

theorem RunnerRequest.counts (request : RunnerRequest) :
    CountsWell request.program (fun _ => True) := by
  cases request with
  | runDueOnce runner =>
    show CountsWell runner.runDueOnce _
    unfold BackgroundJobRunner.runDueOnce
    split
    · exact .pure trivial
    · refine .bind BackgroundJobRunner.isShutdownRequested_counts fun requested _ => ?_
      cases requested with
      | true => exact .pure trivial
      | false =>
        exact .call .utcNow (fun _ => nofun) fun now => BackgroundJobRunner.runDueJobs_counts now _
  | runManual runner kind =>
    exact .bind (BackgroundJobRunner.runManual_counts kind) fun _ _ => .pure trivial

/-- Every run that a runner produces is well counted. -/
theorem RunnerRequest.Produces.wellCounted {store : BackgroundJobLockStore σ}
    {request : RunnerRequest} {run : BackgroundJobRun} (produced : request.Produces store run) :
    run.WellCounted := by
  obtain ⟨world, trace, outcome, final, runs, event, member, inserts⟩ := produced
  exact runs.within (.of_ensures ((succeeds_iff _ _ _ _).mp request.counts)) event member run
    inserts

end Produced

/-! ## Messages -/

/-- A message is redacted without a slice inside a character, and where it is cut afterwards a
character ends. -/
structure CutWhole (message : String) : Prop where
  markers : MarkersUncut defaultRedactionConfig message.toList
  boundary : ∀ redacted, ByteOffsets.redactStr message.toList = .ok redacted →
    byteLength redacted ≤ 512 ∨ ∃ front, front <+: redacted ∧ byteLength front = 512

theorem sanitize_ok_iff (message : String) :
    (∃ out, sanitizeBackgroundJobErrorMessage message = .ok out) ↔ CutWhole message := by
  have uncut : (∃ out, ByteOffsets.redactStr message.toList = .ok out) ↔ _ :=
    (redactor_panics_iff defaultRedactionConfig message.toList).2
  cases redacts : ByteOffsets.redactStr message.toList with
  | error stop =>
    rw [redacts] at uncut
    constructor
    · rintro ⟨out, sanitized⟩
      rw [sanitizeBackgroundJobErrorMessage, redacts] at sanitized
      nomatch sanitized
    · intro whole
      obtain ⟨out, impossible⟩ := uncut.mpr whole.markers
      nomatch impossible
  | ok redacted =>
    have sanitized : sanitizeBackgroundJobErrorMessage message =
        if 512 < byteLength redacted then
          (sliceTo 512 redacted).map fun front => String.ofList (front ++ "...".toList)
        else .ok (String.ofList redacted) := by
      rw [sanitizeBackgroundJobErrorMessage, redacts, ok_bind]
      split
      · cases sliceTo 512 redacted <;> rfl
      · rfl
    rw [sanitized]
    constructor
    · rintro ⟨out, cut⟩
      refine ⟨uncut.mp ⟨redacted, redacts⟩, ?_⟩
      rintro other same
      obtain rfl : redacted = other := Except.ok.inj (redacts.symm.trans same)
      by_cases long : 512 < byteLength redacted
      · rw [if_pos long] at cut
        cases front : sliceTo 512 redacted with
        | error stop =>
          rw [front] at cut
          nomatch cut
        | ok front => exact .inr ⟨_, sliceTo_ok_iff.mp front⟩
      · exact .inl (not_lt.mp long)
    · intro whole
      split
      next long =>
        rcases whole.boundary redacted redacts with short | ⟨front, ends⟩
        · omega
        · exact ⟨_, by rw [sliceTo_ok_iff.mpr ends]; rfl⟩
      next => exact ⟨_, rfl⟩

/-- A message in the history has at most 515 bytes. -/
theorem sanitize_bounded {message out : String}
    (sanitized : sanitizeBackgroundJobErrorMessage message = .ok out) :
    byteLength out.toList ≤ 515 := by
  cases redacts : ByteOffsets.redactStr message.toList with
  | error stop =>
    rw [sanitizeBackgroundJobErrorMessage, redacts] at sanitized
    nomatch sanitized
  | ok redacted =>
    rw [sanitizeBackgroundJobErrorMessage, redacts, ok_bind] at sanitized
    split at sanitized
    next long =>
      cases cut : sliceTo 512 redacted with
      | error stop =>
        rw [cut] at sanitized
        nomatch sanitized
      | ok front =>
        rw [cut] at sanitized
        obtain rfl := Except.ok.inj sanitized
        have bytes := (sliceTo_ok_iff.mp cut).2
        rw [String.toList_ofList, byteLength_append, bytes]
        decide
    next short =>
      obtain rfl := Except.ok.inj sanitized
      rw [String.toList_ofList]
      omega

/-- No pattern of the redactor begins with the character. -/
def BeginsNoPattern (character : Char) : Prop :=
  ∀ pattern ∈ recognisedPatterns, pattern.head? ≠ some character.toLower

/-- A message in which no pattern can begin is left as it is. -/
theorem redactStr_unmarked {message : List Char}
    (unmarked : ∀ character ∈ message, BeginsNoPattern character) :
    ByteOffsets.redactStr message = .ok message := by
  have unseen {pattern : List Char} {rule : Scanners.Rule Char} (redacts : Redacts pattern rule) :
      ∀ before symbol rest, symbol :: rest <:+ message →
        rule.sees before (symbol :: rest ++ []) = .nothing := by
    intro before symbol rest suffix
    rw [List.append_nil]
    apply redacts.unseen
    by_contra found
    rw [Bool.not_eq_false, begins_iff, lowered_cons] at found
    have member := suffix.subset List.mem_cons_self
    cases shape : lowered pattern with
    | nil => exact patterns_nonempty _ redacts.recognised shape
    | cons first others =>
      rw [shape, List.cons_prefix_cons] at found
      exact unmarked symbol member _ redacts.recognised (by rw [shape, found.1]; rfl)
  have alone (rules : List (Scanners.Rule Char))
      (redact : ∀ rule ∈ rules, ∃ pattern, Redacts pattern rule) :
      Scanners.passes rules message = some message := by
    induction rules with
    | nil => rfl
    | cons rule rules inductionHypothesis =>
      obtain ⟨pattern, redacts⟩ := redact rule List.mem_cons_self
      have scanned := Scanners.scan_unseen (unseen redacts) none
      rw [Scanners.scan_nil, Scanners.emit_some, List.append_nil] at scanned
      rw [Scanners.passes_some scanned]
      exact inductionHypothesis fun other member => redact other (List.mem_cons_of_mem _ member)
  rw [ByteOffsets.redactStr, ByteOffsets.redactStrWithConfig_follows, redactStrWithConfig,
    alone _ fun rule => rule_redacts]
  rfl

/-! ## What is stored for a run -/

/-- The numbers of a run are smaller than their columns: attempts and other counts than 2^63,
the duration than 2^64. -/
structure RecordedJobRun.CountsFit (run : RecordedJobRun) : Prop where
  attemptCount : run.attemptCount < 2 ^ 63
  maxAttempts : run.maxAttempts < 2 ^ 63
  orgCount : run.orgCount < 2 ^ 63
  affectedCount : run.affectedCount < 2 ^ 63
  durationMs : ∀ duration ∈ run.durationMs, duration < 2 ^ 64

/-- The run reads back from the texts that are stored for it. -/
structure RowTexts.CarriesJobRun (texts : RowTexts) (run : RecordedJobRun) : Prop where
  id : texts.parseUuid (Uuid.toText run.id) = .ok run.id
  startedAt : texts.Represents run.startedAt
  finishedAt : ∀ instant ∈ run.finishedAt, texts.Represents instant
  metadata : ∃ text, texts.jsonToString (jobRunMetadata run) = .ok text ∧
    texts.jsonFromStr text = .ok (jobRunMetadata run) ∧ Texts.isBlank text = false

/-- The stored form of a run with its message. -/
def RecordedJobRun.storedWith (run : RecordedJobRun) (message : Option String) :
    StoredBackgroundJobRun where
  id := run.id
  kind := run.kind
  status := run.status
  startedAt := run.startedAt
  finishedAt := run.finishedAt
  durationMs := run.durationMs
  attemptCount := run.attemptCount
  maxAttempts := run.maxAttempts
  retried := run.retried
  errorCode := run.errorCode
  errorMessage := message
  metadata := some (jobRunMetadata run)

section Stored

variable {run : RecordedJobRun} {stored : StoredBackgroundJobRun}

theorem ofRun_ok_iff : (∃ stored, StoredBackgroundJobRun.ofRun run = .ok stored) ↔
    ∀ message ∈ run.errorMessage, CutWhole message := by
  unfold StoredBackgroundJobRun.ofRun
  cases run.errorMessage with
  | none => simp
  | some message =>
    simp only [Option.mem_some_iff, forall_eq', ← sanitize_ok_iff]
    cases sanitized : sanitizeBackgroundJobErrorMessage message with
    | error stop => simp [sanitized]
    | ok out => simp [sanitized]

theorem ofRun_eq (converts : StoredBackgroundJobRun.ofRun run = .ok stored) :
    stored = run.storedWith stored.errorMessage ∧
      ∀ message ∈ stored.errorMessage, byteLength message.toList ≤ 515 := by
  unfold StoredBackgroundJobRun.ofRun at converts
  cases present : run.errorMessage with
  | none =>
    rw [present] at converts
    obtain rfl := Except.ok.inj converts
    exact ⟨rfl, nofun⟩
  | some message =>
    rw [present] at converts
    cases sanitized : sanitizeBackgroundJobErrorMessage message with
    | error stop => simp [sanitized] at converts
    | ok out =>
      rw [Option.mapM_some, sanitized] at converts
      obtain rfl := Except.ok.inj converts
      refine ⟨rfl, ?_⟩
      rintro _ ⟨⟩
      exact sanitize_bounded sanitized

theorem asU64_integer {count : ℕ} (fits : count < 2 ^ 63) :
    (Value.integer count).asU64 = some count := by
  have bounds : 0 ≤ (count : ℤ) ∧ (count : ℤ) < 2 ^ 64 := by omega
  rw [Value.asU64, if_pos bounds, Int.toNat_natCast]

/-- The stored form stands for the run, apart from the message. -/
theorem toRun_storedWith (counted : run.WellCounted) (fits : run.CountsFit)
    (attempted : run.attemptCount ≠ 0) (message : Option String) :
    (run.storedWith message).toRun =
      { run with errorMessage := message } := by
  have orgCount : ((jobRunMetadata run).get "org_count").bind Value.asU64 = some run.orgCount := by
    rw [show (jobRunMetadata run).get "org_count" = some (.integer run.orgCount) from
      by simp [jobRunMetadata, Value.get, Value.asObject, Value.lookup], Option.bind_some,
      asU64_integer fits.orgCount]
  have affectedCount : ((jobRunMetadata run).get "affected_count").bind Value.asU64 =
      some run.affectedCount := by
    rw [show (jobRunMetadata run).get "affected_count" = some (.integer run.affectedCount) from
      by simp [jobRunMetadata, Value.get, Value.asObject, Value.lookup], Option.bind_some,
      asU64_integer fits.affectedCount]
  have retried : (((jobRunMetadata run).get "retry").bind (Value.get "retried")).bind Value.asBool =
      some run.retried := by
    simp [jobRunMetadata, Value.get, Value.asObject, Value.lookup, Value.asBool]
  have maxAttempts : run.maxAttempts ≠ 0 := by
    have positive := counted.maxAttempts
    omega
  have again : (run.retried || run.retried || decide (1 < run.attemptCount)) = run.retried := by
    rw [counted.retried, Bool.or_self, Bool.or_self]
  simp only [StoredBackgroundJobRun.toRun, RecordedJobRun.storedWith, Option.bind_some, orgCount,
    affectedCount, retried, attempted, maxAttempts, if_false, Option.getD_some, again]

/-- An attempt count in a column is read back, unless it is zero. -/
theorem attemptsFromColumn_asI64 {count : ℕ} (fits : count < 2 ^ 63) (positive : count ≠ 0) :
    SqliteBackgroundJobRunStore.attemptsFromColumn (asI64 count) = count := by
  have bounded : count < 2 ^ 64 := by omega
  rw [SqliteBackgroundJobRunStore.attemptsFromColumn, asU64_asI64 bounded, asI64_small fits,
    if_pos (by omega)]

theorem metadataToStr_ok {texts : RowTexts} {metadata : Value} {text : String}
    (prints : texts.jsonToString metadata = .ok text) :
    SqliteBackgroundJobRunStore.metadataToStr texts (some metadata) = .ok (some text) := by
  rw [SqliteBackgroundJobRunStore.metadataToStr, prints]

theorem jobDatetime_ok {texts : RowTexts} {instant : Instant} (reads : texts.Represents instant) :
    SqliteBackgroundJobRunStore.datetimeFromStr texts (texts.toRfc3339 instant) = .ok instant := by
  rw [SqliteBackgroundJobRunStore.datetimeFromStr, reads]

/-- The row of a run is read back with the attempts that its columns hold. -/
theorem rowToRun_bindRun {texts : RowTexts} (fits : run.CountsFit)
    (carries : texts.CarriesJobRun run) (message : Option String) {text : String}
    (parses : texts.jsonFromStr text = .ok (jobRunMetadata run))
    (notBlank : Texts.isBlank text = false) :
    SqliteBackgroundJobRunStore.rowToRun texts
        (SqliteBackgroundJobRunStore.bindRun texts (run.storedWith message) (some text)) =
      .ok { run.storedWith message with
        attemptCount := SqliteBackgroundJobRunStore.attemptsFromColumn (asI64 run.attemptCount)
        maxAttempts :=
          SqliteBackgroundJobRunStore.attemptsFromColumn (asI64 run.maxAttempts) } := by
  have readId : SqliteBackgroundJobRunStore.rowId texts (Uuid.toText run.id) = .ok run.id := by
    rw [SqliteBackgroundJobRunStore.rowId, carries.id]
  have finishedAt : (run.finishedAt.map texts.toRfc3339).mapM
      (SqliteBackgroundJobRunStore.datetimeFromStr texts) = .ok run.finishedAt := by
    cases present : run.finishedAt with
    | none => rfl
    | some instant =>
      rw [Option.map_some, Option.mapM_some, jobDatetime_ok (carries.finishedAt instant present)]
      rfl
  have metadata : SqliteBackgroundJobRunStore.metadataFromStr texts (some text) =
      .ok (some (jobRunMetadata run)) := by
    rw [SqliteBackgroundJobRunStore.metadataFromStr, if_neg (by simp [notBlank]), parses]
  have durationMs : (run.durationMs.map asI64).map asU64 = run.durationMs := by
    cases present : run.durationMs with
    | none => rfl
    | some duration =>
      rw [Option.map_some, Option.map_some, asU64_asI64 (fits.durationMs duration present)]
  simp only [SqliteBackgroundJobRunStore.rowToRun, SqliteBackgroundJobRunStore.bindRun,
    RecordedJobRun.storedWith, readId, BackgroundJobKind.fromStr_asStr,
    BackgroundJobStatus.fromStr_asStr, jobDatetime_ok carries.startedAt, finishedAt, metadata,
    durationMs, bind, Except.bind, pure, Except.pure]

end Stored

/-! ## Listings -/

section Listings

open SqliteBackgroundJobRunStore

variable {texts : RowTexts} {encoding : CursorEncoding} {query : BackgroundJobRunQuery}
  {rows : JobRunRows}

def JobRunRow.position (row : JobRunRow) : String ×ₗ String := toLex (row.startedAt, row.id)

theorem jobRowComesFirst_iff (left right : JobRunRow) :
    rowComesFirst left right ↔ right.position ≤ left.position := by
  rw [JobRunRow.position, JobRunRow.position, Prod.Lex.toLex_le_toLex]
  exact Iff.rfl

/-- The rows that a query selects, from the latest start on. -/
def listedJobRows (texts : RowTexts) (query : BackgroundJobRunQuery) (rows : JobRunRows) :
    List JobRunRow :=
  (rows.rows.filter (selectsRun texts query)).insertionSort rowComesFirst

theorem mem_listedJobRows (row : JobRunRow) : row ∈ listedJobRows texts query rows ↔
    row ∈ rows.rows ∧ selectsRun texts query row = true := by
  rw [listedJobRows, List.mem_insertionSort, List.mem_filter]

/-- A row is on a page unless a whole page of selected rows comes before it. -/
theorem mem_jobPage_iff {row : JobRunRow} (stored : row ∈ rows.rows)
    (selected : selectsRun texts query row = true) (limit : ℕ) :
    row ∈ (listedJobRows texts query rows).take limit ↔
      rows.rows.countP (fun other =>
        selectsRun texts query other && !decide (rowComesFirst row other)) < limit := by
  have distinct : ((rows.rows.filter (selectsRun texts query)).map JobRunRow.position).Nodup := by
    apply List.pairwise_map.mpr
    apply ((List.pairwise_map.mp rows.distinct).filter _).imp
    intro left right different same
    exact different (Prod.mk.inj (toLex_inj.mp same)).2
  have counted : (listedJobRows texts query rows).countP
        (fun other => decide (row.position < other.position)) =
      rows.rows.countP fun other =>
        selectsRun texts query other && !decide (rowComesFirst row other) := by
    rw [listedJobRows, (List.perm_insertionSort _ _).countP_eq, List.countP_filter]
    apply List.countP_congr
    intro other _
    simp only [jobRowComesFirst_iff, Bool.and_eq_true, decide_eq_true_eq, Bool.not_eq_true',
      decide_eq_false_iff_not, not_le, and_comm]
  have descending : Descending JobRunRow.position (listedJobRows texts query rows) :=
    descending_insertionSort jobRowComesFirst_iff distinct
  rw [descending.mem_take_iff ((mem_listedJobRows row).mpr ⟨stored, selected⟩), counted]

theorem items_buildPage {α : Type} {items : List α} {limit : ℕ} {toCursor : α → PageCursor}
    {page : Page α String} (built : buildPage encoding items limit toCursor = .ok page) :
    page.items = items.take limit := by
  unfold buildPage at built
  split at built
  · split at built
    · cases encoded : encodeCursor encoding _ with
      | error error =>
        rw [encoded] at built
        nomatch built
      | ok next =>
        rw [encoded] at built
        obtain rfl := Except.ok.inj built
        rfl
    · nomatch built
  next short =>
    obtain rfl := Except.ok.inj built
    exact (List.take_of_length_le (not_lt.mp short)).symm

/-- The runs of a page are read from the first of the selected rows. -/
theorem queryRuns_page {page : BackgroundJobRunQueryResult}
    (listed : queryRuns texts encoding query rows = .ok page) :
    ∃ limit, validateBackgroundJobRunLimit query.limit = .ok limit ∧
      List.Forall₂ (fun row found => rowToRun texts row = .ok found)
        ((listedJobRows texts query rows).take limit) page.runs := by
  obtain ⟨limit, valid, rest⟩ := (bind_ok _ _ _).mp listed
  obtain ⟨runs, read, rest⟩ := (bind_ok _ _ _).mp rest
  obtain ⟨cut, built, returned⟩ := (bind_ok _ _ _).mp rest
  obtain rfl := Except.ok.inj returned
  have pairs := List.forall₂_take limit (SqlTables.forall₂_of_mapM read)
  rw [List.take_take, pageFetchLimit, min_eq_left (Nat.le_succ limit)] at pairs
  exact ⟨limit, valid, (items_buildPage built).symm ▸ pairs⟩

theorem rowToRun_id {row : JobRunRow} {found : StoredBackgroundJobRun}
    (reads : rowToRun texts row = .ok found) : texts.parseUuid row.id = .ok found.id := by
  obtain ⟨id, readId, rest⟩ := (bind_ok _ _ _).mp reads
  obtain ⟨kind, _, rest⟩ := (bind_ok _ _ _).mp rest
  obtain ⟨status, _, rest⟩ := (bind_ok _ _ _).mp rest
  obtain ⟨startedAt, _, rest⟩ := (bind_ok _ _ _).mp rest
  obtain ⟨finishedAt, _, rest⟩ := (bind_ok _ _ _).mp rest
  obtain ⟨metadata, _, returned⟩ := (bind_ok _ _ _).mp rest
  obtain rfl := Except.ok.inj returned
  unfold rowId at readId
  split at readId
  next other parsed =>
    obtain rfl := Except.ok.inj readId
    exact parsed
  next => nomatch readId

theorem validLimit_pos {limit valid : ℕ}
    (validated : validateBackgroundJobRunLimit limit = .ok valid) : 0 < valid := by
  unfold validateBackgroundJobRunLimit at validated
  split at validated
  · obtain rfl := Except.ok.inj validated
    decide
  · split at validated
    · nomatch validated
    · obtain rfl := Except.ok.inj validated
      omega

/-- What the queries of a history say of a run that was inserted among others: a page shows it
as it was, and shows it if it is selected and not too many selected rows come first. A query
that selects none of the others is answered. -/
structure ListsRun (texts : RowTexts) (encoding : CursorEncoding) (run : RecordedJobRun)
    (others inserted : JobRunRows) (query : BackgroundJobRunQuery) : Prop where
  faithful : ∀ page, queryRuns texts encoding query inserted = .ok page →
    ∀ found ∈ page.runs, found.id = run.id → found.toRun = run
  complete : ∀ page limit row, queryRuns texts encoding query inserted = .ok page →
    validateBackgroundJobRunLimit query.limit = .ok limit →
    inserted.find? (Uuid.toText run.id) = some row → selectsRun texts query row = true →
    inserted.rows.countP (fun other =>
      selectsRun texts query other && !decide (rowComesFirst row other)) < limit →
    ∃ found ∈ page.runs, found.id = run.id
  answered : ∀ limit, validateBackgroundJobRunLimit query.limit = .ok limit →
    (∀ other ∈ others.rows, selectsRun texts query other = false) →
    ∃ page, queryRuns texts encoding query inserted = .ok page

section Inserted

variable {run : RecordedJobRun} {own : JobRunRow} {read : StoredBackgroundJobRun}

/-- A query that selects none of the others lists at most the run. -/
theorem queryRuns_only {limit : ℕ}
    (valid : validateBackgroundJobRunLimit query.limit = .ok limit)
    (absent : ∀ other ∈ rows.rows, other.id ≠ own.id)
    (unselected : ∀ other ∈ rows.rows, selectsRun texts query other = false)
    (reads : rowToRun texts own = .ok read) :
    queryRuns texts encoding query (rows.put own) =
      .ok ⟨if selectsRun texts query own then [read] else [], none⟩ := by
  have none : rows.rows.filter (selectsRun texts query) = [] := by
    apply List.filter_eq_nil_iff.mpr
    intro other member
    rw [unselected other member]
    exact Bool.false_ne_true
  have few : listedJobRows texts query (rows.put own) =
      if selectsRun texts query own then [own] else [] := by
    rw [listedJobRows, Table.rows_put_of_fresh rows absent, List.filter_append, none,
      List.nil_append, List.filter_singleton]
    cases selectsRun texts query own <;> rfl
  have readsAll : ((listedJobRows texts query (rows.put own)).take (pageFetchLimit limit)).mapM
      (rowToRun texts) = .ok (if selectsRun texts query own then [read] else []) := by
    rw [few, pageFetchLimit]
    split
    · rw [List.take_succ_cons, List.take_nil, List.mapM_cons, reads]
      rfl
    · rfl
  have short : (if selectsRun texts query own then [read] else []).length ≤ limit := by
    have positive := validLimit_pos valid
    split
    · exact positive
    · exact Nat.zero_le _
  refine (bind_ok _ _ _).mpr ⟨limit, valid, (bind_ok _ _ _).mpr ⟨_, readsAll, ?_⟩⟩
  exact (bind_ok _ _ _).mpr ⟨_, if_neg (not_lt.mpr short), rfl⟩

/-- Every query shows what the row of the run is read as. -/
theorem listsRun_of_reads (ownId : own.id = Uuid.toText run.id)
    (parses : texts.parseUuid (Uuid.toText run.id) = .ok run.id)
    (fresh : ∀ other ∈ rows.rows, texts.parseUuid other.id ≠ .ok run.id)
    (reads : rowToRun texts own = .ok read) (stands : read.toRun = run) :
    ListsRun texts encoding run rows (rows.put own) query := by
  have absent : ∀ other ∈ rows.rows, other.id ≠ own.id := by
    intro other member same
    exact fresh other member (by rw [same, ownId, parses])
  have shape : (rows.put own).rows = rows.rows ++ [own] := Table.rows_put_of_fresh rows absent
  refine ⟨?_, ?_, ?_⟩
  · intro page listed found member same
    obtain ⟨limit, _, pairs⟩ := queryRuns_page listed
    obtain ⟨row, among, readsRow⟩ := SqlTables.mem_of_forall₂ pairs member
    have stored := ((mem_listedJobRows row).mp (List.mem_of_mem_take among)).1
    rw [shape, List.mem_append, List.mem_singleton] at stored
    rcases stored with earlier | rfl
    · exact absurd ((rowToRun_id readsRow).trans (congrArg _ same)) (fresh row earlier)
    · obtain rfl := Except.ok.inj (reads.symm.trans readsRow)
      exact stands
  · intro page limit row listed valid found selected room
    obtain ⟨_, valid', pairs⟩ := queryRuns_page listed
    obtain rfl := Except.ok.inj (valid.symm.trans valid')
    obtain ⟨stored, same⟩ := (Table.find?_eq_some _ _ _).mp found
    have among := (mem_jobPage_iff stored selected limit).mpr room
    obtain ⟨record, member, readsRow⟩ := SqlTables.mem_of_forall₂ pairs.flip among
    refine ⟨record, member, ?_⟩
    have parsed := rowToRun_id readsRow
    rw [same, parses] at parsed
    exact (Except.ok.inj parsed).symm
  · intro limit valid unselected
    exact ⟨_, queryRuns_only valid absent unselected reads⟩

theorem insertRun_fresh {stored : StoredBackgroundJobRun} {metadata : Value} {text : String}
    (present : stored.metadata = some metadata)
    (prints : texts.jsonToString metadata = .ok text)
    (parses : texts.parseUuid (Uuid.toText stored.id) = .ok stored.id)
    (fresh : ∀ other ∈ rows.rows, texts.parseUuid other.id ≠ .ok stored.id) :
    insertRun texts stored rows = (.ok stored, rows.put (bindRun texts stored (some text))) := by
  have absent : rows.find? (bindRun texts stored (some text)).id = none := by
    apply (Table.find?_eq_none _ _).mpr
    intro other member same
    exact fresh other member (by rw [same]; exact parses)
  rw [insertRun, present, metadataToStr_ok prints]
  simp only [SqlTables.insert_of_absent rows absent]

end Inserted

end Listings

/-! ## Runs that are kept -/

section Kept

open SqliteBackgroundJobRunStore

variable {texts : RowTexts} {encoding : CursorEncoding} {run : RecordedJobRun}

/-- The run is stored without a panic, with a message of at most 515 bytes. Inserted into a
history that has no run under its identifier, it is listed as it was, apart from the message. -/
def KeptInHistory (texts : RowTexts) (encoding : CursorEncoding) (run : RecordedJobRun) : Prop :=
  ∃ stored, StoredBackgroundJobRun.ofRun run = .ok stored ∧
    (∀ message ∈ stored.errorMessage, byteLength message.toList ≤ 515) ∧
    ∀ rows : JobRunRows, (∀ other ∈ rows.rows, texts.parseUuid other.id ≠ .ok run.id) →
      ∃ inserted, insertRun texts stored rows = (.ok stored, inserted) ∧
        ∀ query, ListsRun texts encoding { run with errorMessage := stored.errorMessage } rows
          inserted query

theorem kept_of_attempted (counted : run.WellCounted) (fits : run.CountsFit)
    (carries : texts.CarriesJobRun run) (attempted : run.attemptCount ≠ 0)
    (whole : ∀ message ∈ run.errorMessage, CutWhole message) :
    KeptInHistory texts encoding run := by
  obtain ⟨stored, converts⟩ := ofRun_ok_iff.mpr whole
  obtain ⟨shape, bounded⟩ := ofRun_eq converts
  obtain ⟨text, prints, parses, notBlank⟩ := carries.metadata
  have maxAttempts : run.maxAttempts ≠ 0 := by
    have positive := counted.maxAttempts
    omega
  have reads := rowToRun_bindRun fits carries stored.errorMessage parses notBlank
  rw [attemptsFromColumn_asI64 fits.attemptCount attempted,
    attemptsFromColumn_asI64 fits.maxAttempts maxAttempts] at reads
  refine ⟨stored, converts, bounded, fun rows fresh => ?_⟩
  rw [shape]
  refine ⟨_, insertRun_fresh rfl prints carries.id fresh, fun query => ?_⟩
  exact listsRun_of_reads rfl carries.id fresh reads
    (toRun_storedWith counted fits attempted stored.errorMessage)

/-- A query of the whole history. -/
def wholeHistory : BackgroundJobRunQuery := ⟨none, none, none, none, 1, none⟩

theorem attempted_of_kept (fits : run.CountsFit) (carries : texts.CarriesJobRun run)
    (kept : KeptInHistory texts encoding run) : run.attemptCount ≠ 0 := by
  intro unattempted
  obtain ⟨stored, converts, _, listed⟩ := kept
  obtain ⟨message, rfl⟩ : ∃ message, stored = run.storedWith message := ⟨_, (ofRun_eq converts).1⟩
  obtain ⟨text, prints, parses, notBlank⟩ := carries.metadata
  have reads := rowToRun_bindRun fits carries message parses notBlank
  have fresh : ∀ other ∈ (Table.empty : JobRunRows).rows, texts.parseUuid other.id ≠ .ok run.id :=
    fun _ member => nomatch member
  obtain ⟨inserted, inserts, lists⟩ := listed .empty fresh
  have only := @insertRun_fresh texts .empty (run.storedWith message) _ _ rfl prints carries.id
    fresh
  have same : inserted = Table.empty.put (bindRun texts (run.storedWith message) (some text)) :=
    congrArg Prod.snd (inserts.symm.trans only)
  have answered := @queryRuns_only texts encoding wholeHistory Table.empty _ _ 1 rfl
    (fun _ member => nomatch member) (fun _ member => nomatch member) reads
  have selected : selectsRun texts wholeHistory
      (bindRun texts (run.storedWith message) (some text)) = true := rfl
  rw [if_pos selected, ← same] at answered
  have shown := (lists wholeHistory).faithful _ answered _ List.mem_cons_self rfl
  have attempts := congrArg (fun shown : RecordedJobRun => shown.attemptCount) shown
  rw [unattempted] at attempts
  nomatch attempts

/-- A run that the runner produces comes back from the history as it was, apart from its
message, just when it made an attempt and its message can be redacted and cut. -/
theorem jobHistory_keeps_iff {σ : Type} (store : BackgroundJobLockStore σ)
    (request : RunnerRequest) (texts : RowTexts) (encoding : CursorEncoding)
    (run : RecordedJobRun) (produced : request.Produces store run.toBackgroundJobRun)
    (fits : run.CountsFit) (carries : texts.CarriesJobRun run) :
    KeptInHistory texts encoding run ↔
      run.attemptCount ≠ 0 ∧ ∀ message ∈ run.errorMessage, CutWhole message := by
  constructor
  · intro kept
    refine ⟨attempted_of_kept fits carries kept, ?_⟩
    obtain ⟨stored, converts, _⟩ := kept
    exact ofRun_ok_iff.mp ⟨stored, converts⟩
  · rintro ⟨attempted, whole⟩
    exact kept_of_attempted produced.wellCounted fits carries attempted whole

end Kept

/-! ## Samples -/

section Sample

/-- A runner of one job, with a history and a token for shutdowns. -/
def sampleHistoryRunner : BackgroundJobRunner where
  jobsEnabled := true
  jobs := Table.empty.put ⟨.memoryRetention, true, 3600 * 1000000000⟩
  state := 0
  historyEnabled := true
  runStore := true
  lockEnabled := false
  lockOwnerId := "0"
  lockTtl := 0
  lockStore := false
  retryPolicy := ⟨true, 2⟩
  shutdownToken := some 0

/-- The texts of the sample, with the JSON of metadata. -/
def sampleJobTexts : RowTexts where
  toTimestampText := sampleRowTexts.toTimestampText
  parseUuid := sampleRowTexts.parseUuid
  jsonToString value := .ok (value.print fun _ => "0.0")
  jsonFromStr text :=
    match Value.read (fun _ => some 0) text with
    | some value => .ok value
    | none => .error "expected value at line 1 column 1"

/-- The body reports success, or a shutdown is requested before it begins. -/
def sampleJobRun (cancelled : Bool) : RecordedJobRun where
  id := 1
  kind := .memoryRetention
  status := if cancelled then .cancelled else .succeeded
  startedAt := 0
  finishedAt := some 0
  durationMs := some 0
  attemptCount := if cancelled then 0 else 1
  maxAttempts := 3
  retried := false
  errorCode := if cancelled then some "SHUTDOWN_REQUESTED" else none
  errorMessage := if cancelled then some "shutdown requested" else none
  orgCount := 0
  affectedCount := 0

theorem sampleJobRun_fits (cancelled : Bool) : (sampleJobRun cancelled).CountsFit := by
  cases cancelled <;> exact ⟨by decide, by decide, by decide, by decide, by decide⟩

theorem sampleJobRun_carries (cancelled : Bool) :
    sampleJobTexts.CarriesJobRun (sampleJobRun cancelled) := by
  have epoch : sampleJobTexts.Represents 0 := by
    show sampleJobTexts.parseFromRfc3339 (sampleJobTexts.toRfc3339 0) = .ok 0
    decide +kernel
  refine ⟨by show sampleJobTexts.parseUuid (Uuid.toText 1) = .ok 1; decide +kernel, epoch, ?_, ?_⟩
  · rintro instant ⟨⟩
    exact epoch
  · refine ⟨_, rfl, ?_, ?_⟩
    · have read := Value.read_print Value.floatTexts_constant
        (jobRunMetadata (sampleJobRun cancelled))
      simp only [sampleJobTexts, read]
      rfl
    · cases cancelled <;> decide +kernel

def insertsSample (cancelled : Bool) (event : Event runnerPorts MemcoreError) : Bool :=
  match event.call with
  | .insertRun run => decide (run = (sampleJobRun cancelled).toBackgroundJobRun)
  | _ => false

theorem sampleJobRun_produced (cancelled : Bool) :
    (RunnerRequest.runManual sampleHistoryRunner .memoryRetention).Produces
      mockBackgroundJobLockStore (sampleJobRun cancelled).toBackgroundJobRun := by
  let world : RunnerWorld JobLocks := ⟨0, fun _ => .new 100, .empty, fun _ => false⟩
  let choice (cancels : Bool) : RunnerChoice := ⟨0, fun _ => cancels, none, none,
    .finished (.ok ⟨.succeeded, 0, none, none⟩), .elapsed⟩
  have replayed : ∃ trace outcome final, Runs (runnerServer mockBackgroundJobLockStore)
      (fun _ _ _ => True) (RunnerRequest.runManual sampleHistoryRunner .memoryRetention).program
      world trace outcome final ∧ trace.any (insertsSample cancelled) = true := by
    apply exists_run_of_replay (runnerServer mockBackgroundJobLockStore) (fun _ _ _ => True)
      ([choice false, choice false, choice false] ++ List.replicate (if cancelled then 3 else 5)
        (choice cancelled)) _ world (fun result => result.1.any (insertsSample cancelled))
    cases cancelled <;> decide
  obtain ⟨trace, outcome, final, run, inserted⟩ := replayed
  obtain ⟨event, member, inserts⟩ := List.any_eq_true.mp inserted
  refine ⟨world, trace, outcome, final, run, event, member, ?_⟩
  unfold insertsSample at inserts
  split at inserts
  next same => rw [same, of_decide_eq_true inserts]
  next => nomatch inserts

def sampleJobEncoding : CursorEncoding where
  toJson _ := .error "not among the samples"
  fromJson _ := .error "expected value at line 1 column 1"
  encode _ := ""
  decode _ := .error "invalid byte"

theorem jobHistory_keeps_iff_sample :
    KeptInHistory sampleJobTexts sampleJobEncoding (sampleJobRun false) :=
  (jobHistory_keeps_iff mockBackgroundJobLockStore _ _ _ _ (sampleJobRun_produced false)
    (sampleJobRun_fits false) (sampleJobRun_carries false)).mpr ⟨by decide, nofun⟩

/-- A shutdown before the first attempt leaves a run that the history shows with one attempt. -/
theorem unattempted_run_not_kept :
    (RunnerRequest.runManual sampleHistoryRunner .memoryRetention).Produces
        mockBackgroundJobLockStore (sampleJobRun true).toBackgroundJobRun ∧
      (sampleJobRun true).CountsFit ∧ sampleJobTexts.CarriesJobRun (sampleJobRun true) ∧
      ¬ KeptInHistory sampleJobTexts sampleJobEncoding (sampleJobRun true) := by
  refine ⟨sampleJobRun_produced true, sampleJobRun_fits true, sampleJobRun_carries true, ?_⟩
  intro kept
  exact attempted_of_kept (sampleJobRun_fits true) (sampleJobRun_carries true) kept rfl

/-- A letter of one byte, and 256 letters of two. -/
theorem accented_message_panics :
    ¬ CutWhole (String.ofList ('x' :: List.replicate 256 'é')) := by
  intro whole
  have unmarked : ∀ character ∈ 'x' :: List.replicate 256 'é', BeginsNoPattern character := by
    intro character member
    unfold BeginsNoPattern
    rcases List.mem_cons.mp member with rfl | accented
    · decide +kernel
    · obtain rfl := List.eq_of_mem_replicate accented
      decide +kernel
  have redacts := redactStr_unmarked unmarked
  rw [← String.toList_ofList (l := 'x' :: List.replicate 256 'é')] at redacts
  rcases whole.boundary _ redacts with short | ⟨front, ends⟩
  · revert short
    rw [String.toList_ofList]
    decide +kernel
  · have cut := sliceTo_ok_iff.mpr ends
    rw [String.toList_ofList] at cut
    have panics : sliceTo 512 ('x' :: List.replicate 256 'é') = .error .panicked := by
      decide +kernel
    rw [panics] at cut
    nomatch cut

end Sample

end Memcore
