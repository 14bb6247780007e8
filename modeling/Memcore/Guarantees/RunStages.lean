import Memcore.Jobs.Runner

/-!
# The stages of a run

How far a call of a runner has come with a run can be told from the answers that it got: the
slot was taken, the lock was granted or the body started, the execution is over. The program of
a runner makes each call in its stage only.
-/
namespace Memcore

open Programs

inductive RunStage where
  | outside
  | begun (kind : BackgroundJobKind)
  | executing (kind : BackgroundJobKind)
  | finished (kind : BackgroundJobKind)
  deriving DecidableEq

/-- The body will not be started again after this end of it. -/
def BodyEnd.isLast (mayRetry : Bool) : BodyEnd → Bool
  | finished (.error error) => !(mayRetry && isRetryableJobError error)
  | _ => true

namespace RunStage

/-- The kind whose slot is taken. -/
def slot : RunStage → Option BackgroundJobKind
  | outside => none
  | begun kind | executing kind | finished kind => some kind

/-- The execution is over. -/
def leave : RunStage → RunStage
  | executing kind => finished kind
  | stage => stage

/-- The stage after the answer to a call. -/
def next (stage : RunStage) : (call : RunnerCall) → MemcoreResult call.Answer → RunStage
  | .tryBegin _ kind, .ok true => begun kind
  | .tryAcquireLock kind _ _, .ok (some _) => executing kind
  | .beginRunOnce _ kind, _ => executing kind
  | .isCancelled _, .ok true => stage.leave
  | .awaitRunOnce _ _ _ _ mayRetry, .ok bodyEnd =>
      if bodyEnd.isLast mayRetry then stage.leave else stage
  | .sleep _ _, .ok sleepEnd => if sleepEnd = .elapsed then stage else stage.leave
  | .recordRun _ _, _ => outside
  | _, _ => stage

theorem slot_leave (stage : RunStage) : stage.leave.slot = stage.slot := by
  cases stage <;> rfl

end RunStage

/-- The calls that a runner makes in a stage. -/
def runnerProtocol (runner : BackgroundJobRunner) :
    Protocol runnerPorts MemcoreError RunStage where
  allows stage call := match call with
    | .tryBegin state _ => state = runner.state ∧ stage = .outside
    | .tryAcquireLock kind ownerId _ => ownerId = runner.lockOwnerId ∧ stage = .begun kind
    | .beginRunOnce state kind => state = runner.state ∧
        (stage = .executing kind ∨ stage = .begun kind ∧ runner.lockEnabled = false)
    | .awaitRunOnce state kind _ _ _ => state = runner.state ∧ stage = .executing kind
    | .releaseLock kind ownerId => ownerId = runner.lockOwnerId ∧ stage = .finished kind
    | .recordRun state run => state = runner.state ∧
        (stage = .outside ∨ stage.slot = some run.kind)
    | _ => True
  next := RunStage.next

namespace BackgroundJobRunner

variable {runner : BackgroundJobRunner} {stage : RunStage} {α β : Type}

/-- Begun in a stage, a program keeps to the protocol and its results are good. -/
abbrev Keeps (runner : BackgroundJobRunner) (program : RunnerProgram α)
    (good : α → RunStage → Prop) (stage : RunStage) : Prop :=
  Succeeds (runnerProtocol runner).spec program good stage

theorem keeps_pure {value : α} {good : α → RunStage → Prop} (holds : good value stage) :
    Keeps runner (pure value) good stage :=
  (succeeds_pure _ _ _ _).mpr holds

/-- Sequencing. -/
theorem keeps_bind {program : RunnerProgram α} {next : α → RunnerProgram β}
    {middle : α → RunStage → Prop} {good : β → RunStage → Prop}
    (first : Keeps runner program middle stage)
    (second : ∀ value later, middle value later → Keeps runner (next value) good later) :
    Keeps runner (program >>= next) good stage :=
  Succeeds.bind (runnerProtocol runner).spec_monotone first second

/-- A call, and what follows it. -/
theorem keeps_call (call : RunnerCall) {next : call.Answer → RunnerProgram β}
    {good : β → RunStage → Prop} (allowed : (runnerProtocol runner).allows stage call)
    (returns : ∀ answer, Keeps runner (next answer) good (stage.next call (.ok answer))) :
    Keeps runner (runnerCall call >>= next) good stage :=
  (runnerProtocol runner).succeeds_call call allowed returns

/-- A call that may fail, and what follows it. -/
theorem keeps_attempt (call : RunnerCall) {next : MemcoreResult call.Answer → RunnerProgram β}
    {good : β → RunStage → Prop} (allowed : (runnerProtocol runner).allows stage call)
    (returns : ∀ answer, Keeps runner (next answer) good (stage.next call answer)) :
    Keeps runner ((runnerCall call).attempt >>= next) good stage :=
  (runnerProtocol runner).succeeds_attempt call allowed returns

/-- A requested shutdown ends an execution. -/
theorem keeps_isShutdownRequested : Keeps runner runner.isShutdownRequested
    (fun requested later => later = if requested then stage.leave else stage) stage := by
  unfold isShutdownRequested
  cases runner.shutdownToken with
  | none => exact keeps_pure rfl
  | some token =>
    apply (succeeds_iff _ _ _ _).mpr
    apply (@ensures_call runnerPorts MemcoreError RunStage (runnerProtocol runner).spec stage
      (.isCancelled token) _).mpr
    refine ⟨trivial, ?_⟩
    intro answer
    rcases answer with error | (_ | _)
    · trivial
    · exact rfl
    · exact rfl

/-- Afterwards nothing is held. -/
theorem keeps_recordRun {run : BackgroundJobRun}
    (own : stage = .outside ∨ stage.slot = some run.kind) :
    Keeps runner (runner.recordRun run) (fun _ later => later = .outside) stage := by
  unfold recordRun
  apply keeps_call (.recordRun runner.state run) ⟨rfl, own⟩
  intro _
  split
  · apply keeps_attempt (.insertRun run) trivial
    intro _
    exact keeps_pure rfl
  · exact keeps_pure rfl

/-- A run may execute: it was granted the lock, or needs none. -/
def MayExecute (runner : BackgroundJobRunner) (kind : BackgroundJobKind) (stage : RunStage) :
    Prop :=
  stage = .executing kind ∨ stage = .begun kind ∧ runner.lockEnabled = false

/-- An execution is over, with a record of its kind if it was not dropped. -/
def IsOver (runner : BackgroundJobRunner) (kind : BackgroundJobKind)
    (result : Option BackgroundJobRun) (stage : RunStage) : Prop :=
  (stage = .finished kind ∨ stage = .begun kind ∧ runner.lockEnabled = false) ∧
    ∀ run ∈ result, run.kind = kind

theorem keeps_over {kind : BackgroundJobKind} {result : Option BackgroundJobRun}
    (own : ∀ run ∈ result, run.kind = kind) :
    Keeps runner (pure result) (runner.IsOver kind) (.finished kind) :=
  keeps_pure ⟨.inl rfl, own⟩

theorem keeps_executeAttempts {kind : BackgroundJobKind} {startedAt deadline : Instant}
    {maxAttempts left attemptsMade : ℕ} (counted : left + attemptsMade = maxAttempts)
    (remain : 0 < left) (may : runner.MayExecute kind stage) :
    Keeps runner (runner.executeAttempts kind startedAt deadline maxAttempts left attemptsMade)
      (runner.IsOver kind) stage := by
  induction left generalizing attemptsMade stage with
  | zero => omega
  | succ left inductionHypothesis =>
    rw [executeAttempts]
    apply keeps_bind keeps_isShutdownRequested
    rintro requested later rfl
    cases requested with
    | true =>
      refine keeps_pure ⟨?_, ?_⟩
      · rcases may with rfl | ⟨rfl, lockless⟩
        · exact .inl rfl
        · exact .inr ⟨rfl, lockless⟩
      · rintro run ⟨⟩
        rfl
    | false =>
      apply keeps_call (.beginRunOnce runner.state kind) ⟨rfl, may⟩
      intro _
      apply keeps_call (.awaitRunOnce runner.state kind runner.shutdownToken deadline _) ⟨rfl, rfl⟩
      intro bodyEnd
      rcases bodyEnd with (error | report) | _ | _
      · have stays (onwards : Bool) (same : (runner.retryPolicy.enabled &&
            decide (attemptsMade + 1 < maxAttempts) && isRetryableJobError error) = onwards) :
            (RunStage.executing kind).next (.awaitRunOnce runner.state kind runner.shutdownToken
              deadline (runner.retryPolicy.enabled && decide (attemptsMade + 1 < maxAttempts)))
              (.ok (.finished (.error error))) =
                if onwards then .executing kind else .finished kind := by
          subst same
          simp only [RunStage.next, BodyEnd.isLast, RunStage.leave, Bool.not_eq_true']
          split <;> simp_all
        cases retries : (runner.retryPolicy.enabled && decide (attemptsMade + 1 < maxAttempts) &&
            isRetryableJobError error) with
        | false =>
          rw [stays false retries]
          simp only [retries]
          exact keeps_over (by rintro run ⟨⟩; rfl)
        | true =>
          rw [stays true retries]
          simp only [retries, Bool.not_true, Bool.false_eq_true, if_false, if_true]
          simp only [Bool.and_eq_true, decide_eq_true_eq] at retries
          apply keeps_call (.sleep runner.shutdownToken deadline) trivial
          intro sleepEnd
          cases sleepEnd with
          | elapsed => exact inductionHypothesis (by omega) (by omega) (.inl rfl)
          | shutdownRequested => exact keeps_over (by rintro run ⟨⟩; rfl)
          | timedOut => exact keeps_over (by simp)
      · exact keeps_over (by rintro run ⟨⟩; rfl)
      · exact keeps_over (by rintro run ⟨⟩; rfl)
      · exact keeps_over (by simp)

theorem keeps_execute {job : BackgroundJobDefinition} (may : runner.MayExecute job.kind stage) :
    Keeps runner (runner.execute job) (fun run => runner.IsOver job.kind (some run)) stage := by
  have positive : 0 < runner.retryPolicy.totalAttempts := by
    unfold BackgroundJobRetryPolicy.totalAttempts
    split <;> omega
  rw [execute]
  apply keeps_call .utcNow trivial
  intro startedAt
  apply keeps_bind (keeps_executeAttempts (Nat.add_zero _) positive may)
  rintro result later ⟨past, own⟩
  cases result with
  | some run => exact keeps_pure ⟨past, own⟩
  | none =>
    apply keeps_call .utcNow trivial
    intro now
    exact keeps_pure ⟨past, by rintro run ⟨⟩; rfl⟩

/-- Either the run may execute, or it is to record that it does not. -/
theorem keeps_acquireLock (kind : BackgroundJobKind) :
    Keeps runner (runner.acquireLock kind) (fun result later => match result with
      | .ok lock => runner.MayExecute kind later ∧ (runner.lockEnabled = false → lock = none)
      | .error run => later = .begun kind ∧ run.kind = kind) (.begun kind) := by
  unfold acquireLock
  cases enabled : runner.lockEnabled with
  | false => exact keeps_pure ⟨.inr ⟨rfl, enabled⟩, fun _ => rfl⟩
  | true =>
    cases stored : runner.lockStore with
    | false =>
      apply keeps_call .utcNow trivial
      intro now
      exact keeps_pure ⟨rfl, rfl⟩
    | true =>
      apply keeps_attempt (.tryAcquireLock kind runner.lockOwnerId runner.lockTtl) ⟨rfl, rfl⟩
      intro answer
      rcases answer with error | (_ | lock)
      · apply keeps_call .utcNow trivial
        intro now
        exact keeps_pure ⟨rfl, rfl⟩
      · apply keeps_call .utcNow trivial
        intro now
        exact keeps_pure ⟨rfl, rfl⟩
      · exact keeps_pure ⟨.inl rfl, by simp⟩

theorem keeps_releaseLock {kind : BackgroundJobKind} {lock : Option AcquiredJobLock}
    {run : BackgroundJobRun} (past : runner.IsOver kind (some run) stage) :
    Keeps runner (runner.releaseLock kind lock) (fun _ => runner.IsOver kind (some run)) stage := by
  unfold releaseLock
  rcases past with ⟨rfl | ⟨rfl, lockless⟩, own⟩
  · split
    · exact keeps_pure ⟨.inl rfl, own⟩
    · apply keeps_attempt (.releaseLock kind runner.lockOwnerId) ⟨rfl, rfl⟩
      intro _
      exact keeps_pure ⟨.inl rfl, own⟩
  · rw [lockless]
    exact keeps_pure ⟨.inr ⟨rfl, lockless⟩, own⟩

/-- A run that is recorded leaves nothing held. -/
theorem keeps_recorded {run : BackgroundJobRun}
    (own : stage = .outside ∨ stage.slot = some run.kind) :
    Keeps runner (do runner.recordRun run; return run) (fun _ later => later = .outside) stage := by
  apply keeps_bind (keeps_recordRun own)
  rintro _ later rfl
  exact keeps_pure rfl

theorem keeps_runJob (job : BackgroundJobDefinition) :
    Keeps runner (runner.runJob job) (fun _ later => later = .outside) .outside := by
  rw [runJob]
  apply keeps_bind keeps_isShutdownRequested
  rintro requested later rfl
  cases requested with
  | true =>
    apply keeps_call .utcNow trivial
    intro now
    exact keeps_recorded (.inl rfl)
  | false =>
    apply keeps_call (.tryBegin runner.state job.kind) ⟨rfl, rfl⟩
    intro free
    cases free with
    | false =>
      apply keeps_call .utcNow trivial
      intro now
      exact keeps_recorded (.inl rfl)
    | true =>
      apply keeps_bind (keeps_acquireLock job.kind)
      rintro (run | lock) later acquired
      · obtain ⟨rfl, own⟩ := acquired
        exact keeps_recorded (.inr (congrArg some own.symm))
      · apply keeps_bind (keeps_execute acquired.1)
        intro run later past
        apply keeps_bind (keeps_releaseLock past)
        rintro _ later ⟨isOver, own⟩
        have kind : some job.kind = some run.kind := congrArg some (own run rfl).symm
        apply keeps_recorded (.inr _)
        rcases isOver with rfl | ⟨rfl, _⟩
        · exact kind
        · exact kind

theorem keeps_runDueJobs (now : Instant) (jobs : List BackgroundJobDefinition) :
    Keeps runner (runner.runDueJobs now jobs) (fun _ later => later = .outside) .outside := by
  induction jobs with
  | nil => exact keeps_pure rfl
  | cons job rest inductionHypothesis =>
    rw [runDueJobs]
    apply keeps_bind keeps_isShutdownRequested
    rintro requested later rfl
    cases requested with
    | true => exact keeps_pure rfl
    | false =>
      cases job.enabled with
      | false => exact inductionHypothesis
      | true =>
        apply keeps_call (.isDue runner.state job now) trivial
        intro due
        cases due with
        | false => exact inductionHypothesis
        | true =>
          apply keeps_bind (keeps_runJob job)
          rintro run later rfl
          apply keeps_bind inductionHypothesis
          rintro runs later rfl
          exact keeps_pure rfl

theorem keeps_runDueOnce : Keeps runner runner.runDueOnce (fun _ later => later = .outside)
    .outside := by
  unfold runDueOnce
  split
  · exact keeps_pure rfl
  · apply keeps_bind keeps_isShutdownRequested
    rintro requested later rfl
    cases requested with
    | true => exact keeps_pure rfl
    | false =>
      apply keeps_call .utcNow trivial
      intro now
      exact keeps_runDueJobs now _

theorem keeps_runManual (kind : BackgroundJobKind) :
    Keeps runner (runner.runManual kind) (fun _ later => later = .outside) .outside := by
  unfold runManual
  split
  · exact (succeeds_fail _ _ _ _).mpr trivial
  · exact keeps_runJob _

end BackgroundJobRunner

/-- Every request keeps to the protocol of its runner. -/
theorem RunnerRequest.keeps (request : RunnerRequest) :
    request.runner.Keeps request.program (fun _ later => later = .outside) .outside := by
  cases request with
  | runDueOnce runner => exact runner.keeps_runDueOnce
  | runManual runner kind =>
    apply BackgroundJobRunner.keeps_bind (BackgroundJobRunner.keeps_runManual kind)
    rintro run later rfl
    exact BackgroundJobRunner.keeps_pure rfl

end Memcore
