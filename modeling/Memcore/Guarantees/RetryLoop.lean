import Memcore.Foundations.Expansion
import Memcore.Jobs.Retry

/-!
# What the retry loop reports

One attempt ends the loop or leaves an error after which the loop may go on, and the loop is
a sequence of attempts. What is asked of a whole run is told from its calls: how many
invocations there were, which of the calls ended the run, and that no invocation follows a
call that ends it. A shutdown that was seen during an attempt ends the run even if the
operation still returned an error that would be retried, since the token stays cancelled.
-/
namespace Memcore

open Programs

/-- What a call has told: the outcome of an operation, or that a shutdown was requested. -/
inductive RetryNews where
  | returned (run : BackgroundJobRun)
  | failed (error : MemcoreError)
  | shutdown

def RetryNews.ofResult : MemcoreResult BackgroundJobRun → RetryNews
  | .ok run => returned run
  | .error error => failed error

def retryNews : RetryEvent → Option RetryNews
  | ⟨.awaitOperation, .ok result⟩ => some (.ofResult result)
  | ⟨.selectOperation, .ok (some result)⟩ => some (.ofResult result)
  | ⟨.timeoutOperation, .ok (some result)⟩ => some (.ofResult result)
  | ⟨.selectOperation, .ok none⟩ => some .shutdown
  | ⟨.timeoutOperation, .ok none⟩ => some .shutdown
  | ⟨.isCancelled, .ok requested⟩ => if (requested : Bool) then some .shutdown else none
  | ⟨.selectSleep, .ok requested⟩ => if (requested : Bool) then some .shutdown else none
  | _ => none

/-- The status of a run that ends on some news. -/
def RetryNews.status : RetryNews → BackgroundJobStatus
  | returned run => run.status
  | failed _ => .failed
  | shutdown => .cancelled

/-- News after which no invocation may follow. -/
def RetryNews.ends : RetryNews → Bool
  | returned _ => true
  | failed error => !isRetryableJobError error
  | shutdown => true

def isInvocation : RetryEvent → Bool
  | ⟨.operation, _⟩ => true
  | _ => false

/-- An event that tells of the end. -/
def tellsEnd (event : RetryEvent) : Bool := (retryNews event).any RetryNews.ends

def invocations (trace : List RetryEvent) : ℕ := trace.countP isInvocation

/-- No invocation follows an event that tells of the end. -/
def StopsInTime (trace : List RetryEvent) : Prop :=
  trace.Pairwise fun earlier later => tellsEnd earlier = true → isInvocation later = false

/-- The run is about the last event of the trace. -/
def EndsAsReported (trace : List RetryEvent) (run : BackgroundJobRun) : Prop :=
  ∃ last news, trace.getLast? = some last ∧ retryNews last = some news ∧ run.status = news.status

/-! ## One call -/

abbrev RetryRun {α : Type} (program : RetryProgram α) (state : Bool) (trace : List RetryEvent)
    (outcome : MemcoreResult α) (final : Bool) : Prop :=
  Runs retryServer anyRetryChoice program state trace outcome final

/-- The surroundings answer every call, and the token stays cancelled. -/
theorem retryServer_serve (choice : RetryChoice) (request : RetryCall) (state : Bool) :
    ∃ value, retryServer.serve choice request state = (.ok value, state || choice.requested) := by
  cases request <;> exact ⟨_, rfl⟩

/-- A run that begins with a call goes on with the answer. -/
theorem RetryRun.of_call {α : Type} {request : RetryCall}
    {next : request.Answer → RetryProgram α} {state final : Bool} {trace : List RetryEvent}
    {outcome : MemcoreResult α}
    (run : RetryRun (retryCall request >>= next) state trace outcome final) :
    ∃ choice value rest, retryServer.ready choice request state = true ∧
      retryServer.serve choice request state = (.ok value, state || choice.requested) ∧
      trace = ⟨request, .ok value⟩ :: rest ∧
      RetryRun (next value) (state || choice.requested) rest outcome final := by
  rcases Runs.of_bind run with
    ⟨error, _, first⟩ | ⟨value, middle, before, after, rfl, first, second⟩
  · obtain ⟨choice, _, _, _, same, _⟩ := Runs.of_call first
    obtain ⟨value, served⟩ := retryServer_serve choice request state
    rw [served] at same
    simp at same
  · obtain ⟨choice, isReady, _, rfl, same, rfl⟩ := Runs.of_call first
    obtain ⟨other, served⟩ := retryServer_serve choice request state
    rw [served] at same second
    obtain rfl := Except.ok.inj same
    exact ⟨choice, value, after, isReady, served, rfl, second⟩

theorem RetryRun.of_pure {α : Type} {value : α} {state final : Bool} {trace : List RetryEvent}
    {outcome : MemcoreResult α} (run : RetryRun (pure value) state trace outcome final) :
    trace = [] ∧ outcome = .ok value ∧ final = state := by
  cases run
  exact ⟨rfl, rfl, rfl⟩

/-! ## One attempt -/

/-- What the end of an attempt has told. -/
def attemptNews : Option (MemcoreResult BackgroundJobRun) → RetryNews
  | none => .shutdown
  | some result => .ofResult result

section Attempts

variable {kind : BackgroundJobKind} {policy : BackgroundJobRetryPolicy} {shutdownToken : Bool}
  {startedAt : Instant} {state final : Bool} {trace : List RetryEvent}

/-- After an attempt the loop ends at once or in a delay, or goes on with an error that may be
retried. -/
theorem settleAttempt_law {attemptNumber : ℕ} (positive : 0 < attemptNumber)
    {result : Option (MemcoreResult BackgroundJobRun)}
    {outcome : MemcoreResult (BackgroundJobRun ⊕ MemcoreError)}
    (run : RetryRun (settleAttempt kind policy shutdownToken startedAt attemptNumber result) state
      trace outcome final) :
    (state = true → final = true) ∧
      ((∃ ended : BackgroundJobRun, outcome = .ok (.inl ended) ∧
          ended.attemptCount = attemptNumber ∧
          (trace = [] ∧ ended.status = (attemptNews result).status ∨
            trace = [⟨.selectSleep, .ok true⟩] ∧ ended.status = .cancelled)) ∨
        ∃ error, outcome = .ok (.inr error) ∧ result = some (.error error) ∧
          isRetryableJobError error = true ∧ attemptNumber < policy.totalAttempts ∧
            (trace = [⟨.sleep, .ok ()⟩] ∧ shutdownToken = false ∨
              trace = [⟨.selectSleep, .ok false⟩] ∧ shutdownToken = true)) := by
  cases result with
  | none =>
    obtain ⟨rfl, rfl, rfl⟩ := run.of_pure
    exact ⟨id, .inl ⟨_, rfl, rfl, .inl ⟨rfl, rfl⟩⟩⟩
  | some result =>
    cases result with
    | ok report =>
      obtain ⟨rfl, rfl, rfl⟩ := run.of_pure
      exact ⟨id, .inl ⟨_, rfl, rfl, .inl ⟨rfl, rfl⟩⟩⟩
    | error error =>
      have counted : (BackgroundJobRunner.failedRun kind startedAt attemptNumber
          policy.totalAttempts error).attemptCount = attemptNumber := max_eq_left positive
      simp only [settleAttempt] at run
      split_ifs at run with forGood exhausted
      · obtain ⟨rfl, rfl, rfl⟩ := run.of_pure
        exact ⟨id, .inl ⟨_, rfl, counted, .inl ⟨rfl, rfl⟩⟩⟩
      · obtain ⟨rfl, rfl, rfl⟩ := run.of_pure
        exact ⟨id, .inl ⟨_, rfl, counted, .inl ⟨rfl, rfl⟩⟩⟩
      · simp only [Bool.or_eq_true, Bool.not_eq_true', not_or, Bool.not_eq_false] at forGood
        have more : attemptNumber < policy.totalAttempts := by omega
        cases shutdownToken with
        | false =>
          have delays : backoff false = retryCall .sleep >>= fun _ => pure false := rfl
          rw [delays, Program.bind_assoc] at run
          obtain ⟨choice, value, rest, _, served, rfl, later⟩ := RetryRun.of_call run
          obtain ⟨rfl, rfl, rfl⟩ := later.of_pure
          refine ⟨fun requested => by simp [requested], .inr ⟨error, rfl, rfl, forGood.2, more, ?_⟩⟩
          exact .inl ⟨rfl, rfl⟩
        | true =>
          obtain ⟨choice, value, rest, _, served, rfl, later⟩ := RetryRun.of_call run
          have persists : state = true → (state || choice.requested) = true := by
            intro requested
            simp [requested]
          cases value with
          | true =>
            obtain ⟨rfl, rfl, rfl⟩ := later.of_pure
            exact ⟨persists, .inl ⟨_, rfl, rfl, .inr ⟨rfl, rfl⟩⟩⟩
          | false =>
            obtain ⟨rfl, rfl, rfl⟩ := later.of_pure
            exact ⟨persists, .inr ⟨error, rfl, rfl, forGood.2, more, .inr ⟨rfl, rfl⟩⟩⟩

/-- What an attempt does, after a number of attempts: it ends with a run about its last event,
or leaves an error after which the loop goes on. -/
structure AttemptLaw (shutdownToken state : Bool) (maxAttempts attemptsMade : ℕ)
    (trace : List RetryEvent) (final : Bool) (result : BackgroundJobRun ⊕ MemcoreError) :
    Prop where
  inTime : StopsInTime trace
  persists : state = true → final = true
  stopped : shutdownToken = true → state = true → invocations trace = 0 ∧ result.isLeft = true
  ended : ∀ run, result = .inl run → invocations trace ≤ 1 ∧
    run.attemptCount = attemptsMade + invocations trace ∧ EndsAsReported trace run
  continued : ∀ error, result = .inr error → invocations trace = 1 ∧
    attemptsMade + 1 < maxAttempts ∧
      ((∃ event ∈ trace, tellsEnd event = true) → shutdownToken = true ∧ final = true)

/-- Awaiting the operation invokes nothing. The last event tells how the attempt has ended; an
earlier one tells of the end only if the token is cancelled. -/
theorem attemptResultOf_law {α : Type}
    {next : Option (MemcoreResult BackgroundJobRun) → RetryProgram α} {outcome : MemcoreResult α}
    (run : RetryRun (attemptResultOf shutdownToken >>= next) state trace outcome final) :
    ∃ before last result middle rest, trace = before ++ last :: rest ∧
      RetryRun (next result) middle rest outcome final ∧ (state = true → middle = true) ∧
      (∀ event ∈ before ++ [last], isInvocation event = false) ∧
      retryNews last = some (attemptNews result) ∧
      ((∃ event ∈ before, tellsEnd event = true) → shutdownToken = true ∧ middle = true) := by
  cases shutdownToken with
  | false =>
    have awaits : attemptResultOf false =
      retryCall .awaitOperation >>= fun result => pure (some result) := rfl
    rw [awaits, Program.bind_assoc] at run
    obtain ⟨choice, result, rest, _, _, rfl, later⟩ := RetryRun.of_call run
    refine ⟨[], _, some result, _, rest, rfl, later, fun requested => by simp [requested], ?_, rfl,
      by simp⟩
    simp [isInvocation]
  | true =>
    obtain ⟨afterwards, races, finishes, waits⟩ : ∃ afterwards, attemptResultOf true =
        retryCall .selectOperation >>= afterwards ∧
          (∀ result, afterwards (some result) = pure (some result)) ∧
            afterwards none = retryCall .timeoutOperation := ⟨_, rfl, fun _ => rfl, rfl⟩
    rw [races, Program.bind_assoc] at run
    obtain ⟨choice, first, rest, isReady, served, rfl, later⟩ := RetryRun.of_call run
    cases first with
    | some result =>
      rw [finishes] at later
      refine ⟨[], _, some result, _, rest, rfl, later, fun requested => by simp [requested], ?_,
        rfl, by simp⟩
      simp [isInvocation]
    | none =>
      have lost : choice.lost = true := by
        by_contra won
        rw [Bool.not_eq_true] at won
        simp [retryServer, won] at served
      have cancelled : (state || choice.requested) = true := by
        simpa [retryServer, lost] using isReady
      rw [cancelled, waits] at later
      obtain ⟨second, result, rest, _, _, rfl, finished⟩ := RetryRun.of_call later
      refine ⟨[_], _, result, _, rest, rfl, finished, fun _ => rfl, ?_, ?_, fun _ => ⟨rfl, rfl⟩⟩
      · simp [isInvocation]
      · cases result <;> rfl

/-- Events that tell of no end, and then events that invoke nothing. -/
theorem stopsInTime_append {before after : List RetryEvent}
    (quiet : ∀ event ∈ before, tellsEnd event = false)
    (calm : ∀ event ∈ after, isInvocation event = false) : StopsInTime (before ++ after) := by
  refine List.pairwise_append.mpr ⟨?_, ?_, ?_⟩
  · refine List.Pairwise.imp_of_mem ?_ (List.pairwise_of_forall fun _ _ => trivial)
    intro earlier later listed _ _ tells
    rw [quiet earlier listed] at tells
    nomatch tells
  · refine List.Pairwise.imp_of_mem ?_ (List.pairwise_of_forall fun _ _ => trivial)
    exact fun _ listed _ _ => calm _ listed
  · intro earlier _ later listed _
    exact calm later listed

/-- The law of an attempt that has not been stopped before its invocation. -/
theorem attempt_law {start : List RetryEvent} {attemptsMade : ℕ} {begun : Bool}
    (quiet : ∀ event ∈ start, tellsEnd event = false ∧ isInvocation event = false)
    (persists : state = true → begun = true)
    (unstopped : shutdownToken = true → state = false)
    {outcome : MemcoreResult (BackgroundJobRun ⊕ MemcoreError)}
    (run : RetryRun (retryCall .operation >>= fun _ => attemptResultOf shutdownToken >>=
      settleAttempt kind policy shutdownToken startedAt (attemptsMade + 1)) begun trace outcome
      final) :
    ∃ result, outcome = .ok result ∧
      AttemptLaw shutdownToken state policy.totalAttempts attemptsMade (start ++ trace) final
        result := by
  obtain ⟨choice, value, rest, _, _, rfl, awaiting⟩ := RetryRun.of_call run
  obtain ⟨before, last, result, middle, delay, rfl, settling, awaitKeeps, calm, news, seen⟩ :=
    attemptResultOf_law awaiting
  obtain ⟨settleKeeps, shape⟩ := settleAttempt_law (Nat.succ_pos _) settling
  have keeps : state = true → final = true := fun requested =>
    settleKeeps (awaitKeeps (by simp [persists requested]))
  have delayCalm : ∀ event ∈ delay, isInvocation event = false := by
    rcases shape with ⟨_, _, _, ⟨rfl, _⟩ | ⟨rfl, _⟩⟩ | ⟨_, _, _, _, _, ⟨rfl, _⟩ | ⟨rfl, _⟩⟩ <;>
      simp [isInvocation]
  have behind : ∀ event ∈ before ++ last :: delay, isInvocation event = false := by
    intro event member
    rw [List.append_cons] at member
    exact (List.mem_append.mp member).elim (calm event) (delayCalm event)
  have ahead : ∀ event ∈ start ++ [⟨.operation, .ok value⟩], tellsEnd event = false := by
    intro event member
    rcases List.mem_append.mp member with early | one
    · exact (quiet event early).1
    · exact List.mem_singleton.mp one ▸ rfl
  have inTime : StopsInTime (start ++ ⟨.operation, .ok value⟩ :: (before ++ last :: delay)) := by
    rw [List.append_cons]
    exact stopsInTime_append ahead behind
  have once : invocations (start ++ ⟨.operation, .ok value⟩ :: (before ++ last :: delay)) = 1 := by
    rw [invocations, List.countP_append, List.countP_cons,
      List.countP_eq_zero.mpr fun event member => by simp [(quiet event member).2],
      List.countP_eq_zero.mpr fun event member => by simp [behind event member]]
    rfl
  have endsLast (tail : List RetryEvent) (event : RetryEvent) : (start ++
      ⟨.operation, .ok value⟩ :: (before ++ (tail ++ [event]))).getLast? = some event := by
    rw [← List.append_assoc before, ← List.cons_append, ← List.append_assoc, List.getLast?_concat]
  have notStopped : shutdownToken = true → state = true →
      ∀ result : BackgroundJobRun ⊕ MemcoreError, invocations (start ++ ⟨.operation, .ok value⟩ ::
        (before ++ last :: delay)) = 0 ∧ result.isLeft = true := by
    intro token stopped
    rw [unstopped token] at stopped
    nomatch stopped
  rcases shape with ⟨ended, rfl, counted, ending⟩ | ⟨error, rfl, rfl, retried, more, delayed⟩
  · refine ⟨.inl ended, rfl, inTime, keeps, fun token stopped => notStopped token stopped _, ?_, ?_⟩
    · rintro _ ⟨rfl⟩
      refine ⟨once.le, by rw [once, counted], ?_⟩
      rcases ending with ⟨rfl, status⟩ | ⟨rfl, status⟩
      · exact ⟨last, _, endsLast [] last, news, status⟩
      · exact ⟨_, .shutdown, endsLast [last] _, rfl, status⟩
    · rintro _ ⟨⟩
  · refine ⟨.inr error, rfl, inTime, keeps, fun token stopped => notStopped token stopped _, ?_, ?_⟩
    · rintro _ ⟨⟩
    · rintro _ _
      refine ⟨once, more, ?_⟩
      rintro ⟨event, member, tells⟩
      have silent : tellsEnd last = false := by
        rw [tellsEnd, news]
        simp [attemptNews, RetryNews.ofResult, RetryNews.ends, retried]
      have delaySilent : ∀ event ∈ delay, tellsEnd event = false := by
        rcases delayed with ⟨rfl, _⟩ | ⟨rfl, _⟩ <;> simp [tellsEnd, retryNews]
      have early : event ∈ before := by
        by_contra notBefore
        rw [List.append_cons] at member
        rcases List.mem_append.mp member with inAhead | inBehind
        · rw [ahead event inAhead] at tells
          nomatch tells
        · rcases List.mem_cons.mp ((List.mem_append.mp inBehind).resolve_left notBefore) with
            rfl | inDelay
          · rw [silent] at tells
            nomatch tells
          · rw [delaySilent event inDelay] at tells
            nomatch tells
      obtain ⟨token, cancelled⟩ := seen ⟨event, early, tells⟩
      exact ⟨token, settleKeeps cancelled⟩

/-- The law of one attempt. -/
theorem attemptOnce_law {attemptsMade : ℕ}
    {outcome : MemcoreResult (BackgroundJobRun ⊕ MemcoreError)}
    (run : RetryRun (attemptOnce kind policy shutdownToken startedAt attemptsMade) state trace
      outcome final) :
    ∃ result, outcome = .ok result ∧
      AttemptLaw shutdownToken state policy.totalAttempts attemptsMade trace final result := by
  cases shutdownToken with
  | false =>
    have quiet : ∀ event ∈ ([] : List RetryEvent),
        tellsEnd event = false ∧ isInvocation event = false := by simp
    exact attempt_law quiet id (by simp) run
  | true =>
    obtain ⟨choice, cancelled, rest, _, served, rfl, later⟩ := RetryRun.of_call run
    cases cancelled with
    | true =>
      obtain ⟨rfl, rfl, rfl⟩ := later.of_pure
      refine ⟨_, rfl, ?_, fun requested => by simp [requested], fun _ _ => ⟨rfl, rfl⟩, ?_, ?_⟩
      · exact List.pairwise_singleton _ _
      · rintro _ ⟨rfl⟩
        exact ⟨Nat.zero_le _, rfl, _, .shutdown, rfl, rfl, rfl⟩
      · rintro _ ⟨⟩
    | false =>
      have uncancelled : (state || choice.requested) = false :=
        Except.ok.inj (congrArg Prod.fst served)
      rw [Bool.or_eq_false_iff] at uncancelled
      have stateFalse := uncancelled.1
      have quiet : ∀ event ∈ ([⟨.isCancelled, .ok false⟩] : List RetryEvent),
          tellsEnd event = false ∧ isInvocation event = false := by
        simp [tellsEnd, retryNews, isInvocation]
      exact attempt_law quiet (fun requested => by simp [requested]) (fun _ => stateFalse) later

/-! ## The loop -/

/-- What the attempts that are left do. -/
structure LoopLaw (shutdownToken state : Bool) (left attemptsMade : ℕ) (trace : List RetryEvent)
    (run : BackgroundJobRun) : Prop where
  inTime : StopsInTime trace
  bounded : invocations trace ≤ left
  counted : run.attemptCount = attemptsMade + invocations trace
  ended : EndsAsReported trace run
  stopped : shutdownToken = true → state = true → invocations trace = 0

theorem EndsAsReported.append (before : List RetryEvent) {after : List RetryEvent}
    {run : BackgroundJobRun} (ends : EndsAsReported after run) : EndsAsReported (before ++ after) run := by
  obtain ⟨last, news, isLast, told, status⟩ := ends
  refine ⟨last, news, ?_, told, status⟩
  rw [List.getLast?_append, isLast, Option.some_or]

/-- Each attempt keeps the law of the attempts after it: by induction on those left. -/
theorem attemptLoop_law (left attemptsMade : ℕ) (someLeft : 0 < left)
    (total : attemptsMade + left = policy.totalAttempts) (finalError : Option MemcoreError)
    {outcome : MemcoreResult BackgroundJobRun}
    (run : RetryRun (attemptLoop kind policy shutdownToken startedAt left attemptsMade finalError)
      state trace outcome final) :
    ∃ result, outcome = .ok result ∧
      LoopLaw shutdownToken state left attemptsMade trace result := by
  induction left generalizing attemptsMade finalError state trace with
  | zero => exact absurd someLeft (lt_irrefl 0)
  | succ left inductionHypothesis =>
    rcases Runs.of_bind run with ⟨error, _, failed⟩ |
      ⟨result, middle, before, after, rfl, first, rest⟩
    · obtain ⟨result, impossible, _⟩ := attemptOnce_law failed
      nomatch impossible
    · obtain ⟨_, same, law⟩ := attemptOnce_law first
      obtain rfl := Except.ok.inj same
      cases result with
      | inl ended =>
        obtain ⟨rfl, rfl, rfl⟩ := RetryRun.of_pure rest
        obtain ⟨once, counted, ends⟩ := law.ended ended rfl
        rw [List.append_nil]
        exact ⟨ended, rfl, law.inTime, once.trans (by omega), counted, ends,
          fun token requested => (law.stopped token requested).1⟩
      | inr error =>
        obtain ⟨once, more, seen⟩ := law.continued error rfl
        obtain ⟨last, rfl, later⟩ := inductionHypothesis (attemptsMade + 1) (by omega) (by omega)
          (some error) rest
        have both : invocations (before ++ after) = 1 + invocations after := by
          rw [invocations, List.countP_append]
          exact congrArg (· + _) once
        refine ⟨last, rfl, ?_, ?_, ?_, later.ended.append before, ?_⟩
        · refine List.pairwise_append.mpr ⟨law.inTime, later.inTime, ?_⟩
          intro earlier inBefore other inAfter tells
          obtain ⟨token, requested⟩ := seen ⟨earlier, inBefore, tells⟩
          have none := List.countP_eq_zero.mp (later.stopped token requested) other inAfter
          simpa using none
        · have bounded := later.bounded
          omega
        · have counted := later.counted
          omega
        · intro token requested
          have impossible := (law.stopped token requested).2
          nomatch impossible

end Attempts

/-- The retry loop, for any policy, with or without a token, any outcomes of the operation and
any time at which a shutdown is requested: how often it invokes the operation, when it stops
doing so, and what it reports. -/
theorem executeBackgroundJobWithRetries_law (kind : BackgroundJobKind)
    (policy : BackgroundJobRetryPolicy) (shutdownToken : Bool) {state final : Bool}
    {trace : List RetryEvent} {outcome : MemcoreResult BackgroundJobRun}
    (run : RetryRun (executeBackgroundJobWithRetriesAndShutdown kind policy shutdownToken) state
      trace outcome final) :
    ∃ result, outcome = .ok result ∧ invocations trace ≤ policy.totalAttempts ∧
      StopsInTime trace ∧ result.attemptCount = invocations trace ∧ EndsAsReported trace result := by
  obtain ⟨choice, startedAt, rest, _, _, rfl, loop⟩ := RetryRun.of_call run
  have positive : 0 < policy.totalAttempts := by
    unfold BackgroundJobRetryPolicy.totalAttempts
    split_ifs <;> omega
  obtain ⟨result, rfl, law⟩ := attemptLoop_law policy.totalAttempts 0 positive (Nat.zero_add _)
    none loop
  have same : invocations (⟨.utcNow, .ok startedAt⟩ :: rest) = invocations rest := rfl
  refine ⟨result, rfl, same ▸ law.bounded, ?_, ?_, ?_⟩
  · refine List.pairwise_cons.mpr ⟨fun _ _ tells => ?_, law.inTime⟩
    simp [tellsEnd, retryNews] at tells
  · rw [same, law.counted, Nat.zero_add]
  · exact law.ended.append [⟨.utcNow, .ok startedAt⟩]

instance (state : Bool) (call : RetryCall) (choice : RetryChoice) :
    Decidable (anyRetryChoice state call choice) :=
  inferInstanceAs (Decidable True)

/-- Two attempts whose error is retried, and a shutdown in the second delay. -/
theorem executeBackgroundJobWithRetries_law_sample : ∃ trace outcome final,
    RetryRun (executeBackgroundJobWithRetriesAndShutdown .memoryRetention ⟨true, 2⟩ true) false
      trace outcome final ∧
    ∃ result, outcome = .ok result ∧ invocations trace ≤ 3 ∧ StopsInTime trace ∧
      result.attemptCount = invocations trace ∧ EndsAsReported trace result := by
  let quiet : RetryChoice := ⟨false, 0, .error .rateLimited, false⟩
  let stopping : RetryChoice := ⟨true, 0, .error .rateLimited, true⟩
  obtain ⟨trace, outcome, final, run, _⟩ := exists_run_of_replay retryServer anyRetryChoice
    [quiet, quiet, quiet, quiet, quiet, quiet, quiet, quiet, stopping]
    (executeBackgroundJobWithRetriesAndShutdown .memoryRetention ⟨true, 2⟩ true) false
    (fun result => result.2.1.toOption.any fun (run : BackgroundJobRun) =>
      decide (run.status = .cancelled ∧ run.attemptCount = 2)) (by decide)
  exact ⟨trace, outcome, final, run, executeBackgroundJobWithRetries_law _ _ _ run⟩

/-! ## The runner's attempts are the loop -/

/-- What a body reports when its run is that of an operation. -/
def reportOf (run : BackgroundJobRun) : JobReport :=
  ⟨run.status, run.startedAt, run.errorCode, run.errorMessage⟩

/-- How a body ends, from the result of the operation. -/
def bodyEndOf : Option (MemcoreResult BackgroundJobRun) → BodyEnd
  | none => .shutdownTimeout
  | some (.ok run) => .finished (.ok (reportOf run))
  | some (.error error) => .finished (.error error)

/-- The runner's calls around a body carried out by those of the loop; its interval does not
pass. The other calls are not made there. -/
def standalone : (call : RunnerCall) → RetryProgram call.Answer
  | .isCancelled _ => retryCall .isCancelled
  | .utcNow => retryCall .utcNow
  | .beginRunOnce _ _ => retryCall .operation
  | .awaitRunOnce _ _ token _ _ => do
      let result ← attemptResultOf token.isSome
      return bodyEndOf result
  | .sleep token _ => do
      let stopped ← backoff token.isSome
      return if stopped then .shutdownRequested else .elapsed
  | _ => .fail (.internal "not a call of an attempt")

theorem carry_runnerCall (request : RunnerCall) :
    (runnerCall request).carry standalone = standalone request :=
  @Program.carry_call runnerPorts retryPorts MemcoreError standalone request

theorem isShutdownRequested_carry (runner : BackgroundJobRunner) :
    runner.isShutdownRequested.carry standalone =
      isTokenCancelled runner.shutdownToken.isSome := by
  unfold BackgroundJobRunner.isShutdownRequested
  cases runner.shutdownToken with
  | none => rfl
  | some token => exact carry_runnerCall (.isCancelled token)

theorem executeAttempts_carry (runner : BackgroundJobRunner) (kind : BackgroundJobKind)
    (startedAt deadline : Instant) (left attemptsMade : ℕ) (someLeft : 0 < left)
    (total : attemptsMade + left = runner.retryPolicy.totalAttempts)
    (finalError : Option MemcoreError) :
    (runner.executeAttempts kind startedAt deadline runner.retryPolicy.totalAttempts left
        attemptsMade).carry standalone =
      attemptLoop kind runner.retryPolicy runner.shutdownToken.isSome startedAt left attemptsMade
        finalError >>= fun run => pure (some { run with kind := kind }) := by
  induction left generalizing attemptsMade finalError with
  | zero => exact absurd someLeft (lt_irrefl 0)
  | succ left inductionHypothesis =>
    unfold BackgroundJobRunner.executeAttempts attemptLoop attemptOnce
    rw [Program.bind_assoc, Program.bind_assoc, Program.carry_bind, isShutdownRequested_carry]
    refine congrArg (isTokenCancelled _ >>= ·) (funext fun requested => ?_)
    cases requested with
    | true => rfl
    | false =>
      simp only [Bool.false_eq_true, if_false]
      rw [Program.bind_assoc, Program.bind_assoc, Program.carry_bind]
      rw [carry_runnerCall]
      refine congrArg (retryCall .operation >>= ·) (funext fun _ => ?_)
      rw [Program.carry_bind, carry_runnerCall, standalone, Program.bind_assoc]
      refine congrArg (attemptResultOf _ >>= ·) (funext fun result => ?_)
      cases result with
      | none => rfl
      | some result =>
        cases result with
        | ok report => rfl
        | error error =>
          show @Program.carry runnerPorts retryPorts MemcoreError _ standalone
            (if _ then _ else _) = (if _ then _ else _) >>= _
          by_cases forGood : (!runner.retryPolicy.enabled || !isRetryableJobError error) = true
          · have noRetry : (!(runner.retryPolicy.enabled &&
                decide (attemptsMade + 1 < runner.retryPolicy.totalAttempts) &&
                isRetryableJobError error)) = true := by
              revert forGood
              cases runner.retryPolicy.enabled <;> cases isRetryableJobError error <;> simp
            rw [if_pos noRetry, if_pos forGood]
            rfl
          · rw [if_neg forGood]
            simp only [Bool.or_eq_true, Bool.not_eq_true', not_or, Bool.not_eq_false] at forGood
            obtain ⟨enabled, retryable⟩ := forGood
            by_cases exhausted : runner.retryPolicy.totalAttempts ≤ attemptsMade + 1
            · rw [if_pos exhausted, if_pos (by simp [exhausted])]
              rfl
            · rw [if_neg exhausted, if_neg (by simp [enabled, retryable]; omega),
                Program.carry_bind, carry_runnerCall, standalone, Program.bind_assoc,
                Program.bind_assoc]
              refine congrArg (backoff _ >>= ·) (funext fun stopped => ?_)
              cases stopped with
              | true => rfl
              | false =>
                exact inductionHypothesis (attemptsMade + 1) (by omega) (by omega) (some error)

end Memcore
