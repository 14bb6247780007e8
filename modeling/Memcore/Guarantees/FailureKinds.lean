import Memcore.Guarantees.CallBudget

/-!
# Kinds of failures after the last attempt

After its last attempt a call of a provider fails with an error that counts against the
health of the provider, or with another one. The text of the last error is put into a new
provider error, which is classified anew by its text. What the text of a provider error
says survives this, since nothing that is put in front of it can be mistaken for one of
the phrases that the classification looks for. A rate limit and the other timeouts are
known by their kind alone, and the kind is lost with the new text.
-/
namespace Memcore

open Programs

/-! ## The operations of the providers -/

/-- The operations that the router is asked for. -/
inductive ProviderOperation where
  | extractFacts | classifyFactOperation | summarizeMemory | embedText | embedBatch
  deriving DecidableEq

def ProviderOperation.name : ProviderOperation → String
  | extractFacts => "llm_extract_facts"
  | classifyFactOperation => "llm_classify_fact_operation"
  | summarizeMemory => "llm_summarize_memory"
  | embedText => "embedding_embed_text"
  | embedBatch => "embedding_embed_batch"

/-! ## Texts that the classification does not notice -/

/-- The phrases that are looked for without regard to case. -/
def loweredPhrases : List String :=
  ["unauthorized", "forbidden", "invalid api key", "api key is unauthorized", "invalid json",
    "malformed", "dimension mismatch", "validation", "unsupported model", "timed out",
    "http request failed", "temporarily unavailable", "service unavailable"]

/-- The codes that are looked for, in both of their spellings. -/
def statusPhrases : List String :=
  ["400", "401", "403", "422", "429", "500", "502", "503", "504"].flatMap fun code =>
    ["(" ++ code ++ ")", "status " ++ code]

/-- A text in lowercase in which none of the phrases begins. -/
structure Unnoticed (text : String) : Prop where
  lowered : text.toList.map Char.toLower = text.toList
  clear : ∀ phrase ∈ loweredPhrases ++ statusPhrases,
    Texts.clearOf phrase.toList text.toList = true

/-- What can be checked of a fixed text. -/
instance (text : String) : Decidable (Unnoticed text) :=
  decidable_of_iff (text.toList.map Char.toLower = text.toList ∧
      ∀ phrase ∈ loweredPhrases ++ statusPhrases,
        Texts.clearOf phrase.toList text.toList = true)
    ⟨fun both => ⟨both.1, both.2⟩, fun unnoticed => ⟨unnoticed.lowered, unnoticed.clear⟩⟩

namespace Unnoticed

variable {text : String} (unnoticed : Unnoticed text) (rest : String)
include unnoticed

theorem contains_lowered {phrase : String} (listed : phrase ∈ loweredPhrases) :
    Texts.contains (Texts.toAsciiLowercase (text ++ rest)) phrase =
      Texts.contains (Texts.toAsciiLowercase rest) phrase := by
  have clear := unnoticed.clear phrase (List.mem_append_left _ listed)
  rw [Texts.contains, Texts.contains, Texts.toList_toAsciiLowercase,
    Texts.toList_toAsciiLowercase, String.toList_append, List.map_append, unnoticed.lowered]
  exact Texts.occursIn_append_of_clear clear _

theorem contains_status {phrase : String} (listed : phrase ∈ statusPhrases) :
    Texts.contains (text ++ rest) phrase = Texts.contains rest phrase := by
  have clear := unnoticed.clear phrase (List.mem_append_right _ listed)
  rw [Texts.contains, Texts.contains, String.toList_append]
  exact Texts.occursIn_append_of_clear clear _

theorem containsHttpStatus {code : String}
    (bracketed : "(" ++ code ++ ")" ∈ statusPhrases) (spelled : "status " ++ code ∈ statusPhrases) :
    containsHttpStatus (text ++ rest) code = Memcore.containsHttpStatus rest code := by
  rw [Memcore.containsHttpStatus, Memcore.containsHttpStatus,
    unnoticed.contains_status rest bracketed, unnoticed.contains_status rest spelled]

/-- An unnoticed text may be dropped from the beginning of a message. -/
theorem retryable_append :
    isRetryableProviderMessage (text ++ rest) = isRetryableProviderMessage rest := by
  have lowered : ∀ phrases : List String, (∀ phrase ∈ phrases, phrase ∈ loweredPhrases) →
      phrases.any (Texts.contains (Texts.toAsciiLowercase (text ++ rest))) =
        phrases.any (Texts.contains (Texts.toAsciiLowercase rest)) := by
    intro phrases listed
    rw [Bool.eq_iff_iff, List.any_eq_true, List.any_eq_true]
    constructor
    · rintro ⟨phrase, member, found⟩
      exact ⟨phrase, member, (unnoticed.contains_lowered rest (listed _ member)) ▸ found⟩
    · rintro ⟨phrase, member, found⟩
      exact ⟨phrase, member, (unnoticed.contains_lowered rest (listed _ member)).symm ▸ found⟩
  have statuses : ∀ codes : List String, (∀ code ∈ codes,
      "(" ++ code ++ ")" ∈ statusPhrases ∧ "status " ++ code ∈ statusPhrases) →
      codes.any (Memcore.containsHttpStatus (text ++ rest)) =
        codes.any (Memcore.containsHttpStatus rest) := by
    intro codes listed
    rw [Bool.eq_iff_iff, List.any_eq_true, List.any_eq_true]
    constructor
    · rintro ⟨code, member, found⟩
      have same := unnoticed.containsHttpStatus rest (listed _ member).1 (listed _ member).2
      exact ⟨code, member, same ▸ found⟩
    · rintro ⟨code, member, found⟩
      have same := unnoticed.containsHttpStatus rest (listed _ member).1 (listed _ member).2
      exact ⟨code, member, same.symm ▸ found⟩
  unfold isRetryableProviderMessage
  simp only
  rw [lowered _ (by decide), lowered _ (by decide), lowered _ (by decide),
    statuses _ (by decide), statuses _ (by decide)]

end Unnoticed

/-- Digits alone are not noticed: every phrase begins with another character. -/
theorem unnoticed_number (number : ℕ) : Unnoticed (toString number) := by
  have digits : ∀ character ∈ (toString number).toList, character.isDigit = true :=
    fun _ => Texts.isDigit_of_mem_toString
  constructor
  · have lowered : ∀ character ∈ (toString number).toList, character.toLower = id character := by
      intro character member
      have digit := digits character member
      simp only [Char.isDigit, Bool.and_eq_true, decide_eq_true_eq] at digit
      have notUpper : ¬('A'.val ≤ character.val ∧ character.val ≤ 'Z'.val) := by
        grind
      unfold Char.toLower
      rw [dif_neg notUpper, id]
    rw [List.map_congr_left lowered, List.map_id]
  · intro phrase listed
    have begins : ∀ phrase ∈ loweredPhrases ++ statusPhrases,
        phrase.toList.head?.any (fun symbol => !symbol.isDigit) = true := by decide
    have begun := begins phrase listed
    cases spelled : phrase.toList with
    | nil => simp [spelled] at begun
    | cons symbol more =>
      rw [spelled] at begun
      apply Texts.clearOf_of_first_absent
      intro occurs
      simp [digits symbol occurs] at begun

theorem unnoticed_head (operation : ProviderOperation) :
    Unnoticed (operation.name ++ " failed after ") := by
  cases operation <;> decide

/-- The text of a failure is classified as the text of the error in it. -/
theorem retryable_wrapped (operation : ProviderOperation) (attempts : ℕ) (message : String) :
    isRetryableProviderMessage (operation.name ++ " failed after " ++ toString attempts ++
      " attempts: " ++ message) = isRetryableProviderMessage message := by
  have afterNumber : Unnoticed " attempts: " := by decide
  calc isRetryableProviderMessage (operation.name ++ " failed after " ++ toString attempts ++
        " attempts: " ++ message)
      = isRetryableProviderMessage ((operation.name ++ " failed after ") ++
          (toString attempts ++ (" attempts: " ++ message))) := by
        simp only [String.append_assoc]
    _ = isRetryableProviderMessage (toString attempts ++ (" attempts: " ++ message)) :=
        (unnoticed_head operation).retryable_append _
    _ = isRetryableProviderMessage (" attempts: " ++ message) :=
        (unnoticed_number attempts).retryable_append _
    _ = isRetryableProviderMessage message := afterNumber.retryable_append message

/-! ## The kind of an error and its text -/

/-- The text of an error shows that it counts against the health of a provider: it is a
provider error, or a timeout whose text would be taken for one. -/
def MemcoreError.kindInText : MemcoreError → Bool
  | .rateLimited => false
  | .timeout message => isRetryableProviderMessage message
  | _ => true

/-- A provider error is judged by its text alone. -/
theorem health_providerError (message : String) :
    isProviderHealthFailure (.providerError message) = isRetryableProviderMessage message := by
  unfold isProviderHealthFailure
  split
  · rename_i opened
    have known : MemcoreError.providerError message = .providerCircuitOpen :=
      of_decide_eq_true opened
    rw [MemcoreError.providerError.inj known]
    decide
  · rfl

/-- Of the errors that count against the health of a provider, those whose text shows it
still do as the cause of a failure, and no others. -/
theorem executionFailure_health_iff (operation : ProviderOperation)
    (policy : ProviderExecutionPolicy) {error : MemcoreError}
    (health : isProviderHealthFailure error = true) (attempts : ℕ) (anyTimedOut : Bool) :
    isProviderHealthFailure
        (executionFailure operation.name policy error attempts anyTimedOut).error = true ↔
      error.kindInText = true := by
  have retryable : isRetryableProviderError error = true := by
    unfold isProviderHealthFailure at health
    split at health
    · nomatch health
    · exact health
  unfold executionFailure
  by_cases elapsed : error.isProviderTimeout = true
  · have known : error = .providerTimeout := of_decide_eq_true elapsed
    have shown : MemcoreError.providerTimeout.kindInText = true := by decide
    rw [if_pos elapsed, known]
    exact iff_of_true (known ▸ health) shown
  · rw [if_neg elapsed, if_neg (by rw [retryable]; decide)]
    show isProviderHealthFailure (.providerError _) = true ↔ _
    rw [health_providerError, retryable_wrapped]
    cases error with
    | rateLimited => decide
    | timeout message =>
      have before : Unnoticed "timeout: " := by decide
      exact iff_of_eq (congrArg (· = true) (before.retryable_append message))
    | providerError message =>
      have before : Unnoticed "provider error: " := by decide
      refine iff_of_true ?_ rfl
      rw [health_providerError] at health
      exact (before.retryable_append message).trans health
    | _ => nomatch retryable

/-! ## The error of the last attempt -/

section Attempts

variable {P T : Type}

/-- The error of the latest attempt after one more event, if that attempt has failed. -/
def latestError (latest : Option MemcoreError) : RouterEvent P T → Option MemcoreError
  | ⟨.invoke _, .ok answer⟩ =>
      match (attemptResult false answer).1 with
      | .error error => some error
      | .ok _ => none
  | _ => latest

/-- Every call is allowed; the stage is the error of the latest attempt. -/
def latestErrorProtocol (P T : Type) : Protocol (routerPorts P T) Dropped (Option MemcoreError) where
  allows _ _ := True
  next latest call answer := latestError latest ⟨call, answer⟩

/-- The error of the last attempt in the events of a run. -/
def lastAttemptError (trace : List (RouterEvent P T)) : Option MemcoreError :=
  (latestErrorProtocol P T).after none trace

/-- A failure is made from the error of the latest attempt. -/
def MadeFrom (operationName : String) (policy : ProviderExecutionPolicy)
    (latest : Option MemcoreError) :
    Except ProviderExecutionFailure (ProviderExecutionOutcome T) → Prop
  | .ok _ => True
  | .error failure => ∃ error attempts anyTimedOut, latest = some error ∧
      failure = executionFailure operationName policy error attempts anyTimedOut

/-- A call leads to the stage after it, whatever is answered. -/
theorem succeeds_latest {call : RouterCall P} {good : call.Answer T → Option MemcoreError → Prop}
    {latest : Option MemcoreError}
    (after : ∀ answer, good answer (latestError latest ⟨call, .ok answer⟩)) :
    Succeeds (latestErrorProtocol P T).spec (route call) good latest := by
  apply (succeeds_iff _ _ _ _).mpr
  apply (@ensures_call (routerPorts P T) Dropped _ _ latest call _).mpr
  refine ⟨trivial, fun answer => ?_⟩
  cases answer with
  | error gone => trivial
  | ok answer => exact after answer

/-- The result of an attempt does not depend on the earlier ones. -/
theorem fst_attemptResult (anyTimedOut : Bool) (answer : ProviderAnswer T) :
    (attemptResult anyTimedOut answer).1 = (attemptResult false answer).1 := by
  cases answer <;> rfl

theorem providerAttempts_madeFrom (operationName : String) (policy : ProviderExecutionPolicy)
    (candidate : ProviderCandidate P) (retries attempt : ℕ) (anyTimedOut : Bool)
    (latest : Option MemcoreError) :
    Succeeds (latestErrorProtocol P T).spec
      (providerAttempts operationName policy candidate retries attempt anyTimedOut :
        RouterProgram P T _) (fun value latest => MadeFrom operationName policy latest value)
      latest := by
  induction retries generalizing attempt anyTimedOut latest with
  | zero =>
    unfold providerAttempts
    apply (succeeds_bind _ _ _ _ _).mpr
    apply succeeds_latest
    intro answer
    rw [latestError, ← fst_attemptResult anyTimedOut answer]
    cases attemptResult anyTimedOut answer with
    | mk result timedOut =>
      cases result with
      | ok value => exact (succeeds_pure _ _ _ _).mpr trivial
      | error error =>
        simp only [ite_self]
        exact (succeeds_pure _ _ _ _).mpr ⟨error, attempt + 1, timedOut, rfl, rfl⟩
  | succ retries inductionHypothesis =>
    unfold providerAttempts
    apply (succeeds_bind _ _ _ _ _).mpr
    apply succeeds_latest
    intro answer
    rw [latestError, ← fst_attemptResult anyTimedOut answer]
    cases attemptResult anyTimedOut answer with
    | mk result timedOut =>
      cases result with
      | ok value => exact (succeeds_pure _ _ _ _).mpr trivial
      | error error =>
        by_cases final : isRetryableProviderError error = false
        · simp only [final, if_true]
          exact (succeeds_pure _ _ _ _).mpr ⟨error, attempt + 1, timedOut, rfl, rfl⟩
        · simp only [final]
          apply (succeeds_bind _ _ _ _ _).mpr
          apply succeeds_latest
          intro resumed
          exact inductionHypothesis _ _ _

end Attempts

/-! ## The failure of a call -/

/-- When a call of a provider has used up its attempts and the last one failed with an
error that counts against the health of the provider, the error of the call counts too
exactly when the text of that last error shows its kind. -/
theorem exhausted_retries_keep_kind_iff {P T σ χ : Type}
    {server : Server (routerPorts P T) Dropped σ χ} {admits : σ → RouterCall P → χ → Prop}
    (operation : ProviderOperation) (policy : ProviderExecutionPolicy)
    (candidate : ProviderCandidate P) {state final : σ} {trace : List (RouterEvent P T)}
    {failure : ProviderExecutionFailure} {error : MemcoreError}
    (run : Runs server admits
      (executeProviderCall operation.name policy candidate : RouterProgram P T _) state trace
      (.ok (.error failure)) final)
    (last : lastAttemptError trace = some error)
    (health : isProviderHealthFailure error = true) :
    isProviderHealthFailure failure.error = true ↔ error.kindInText = true := by
  have conforms : Succeeds (latestErrorProtocol P T).spec
      (executeProviderCall operation.name policy candidate : RouterProgram P T _)
      (fun value latest => MadeFrom operation.name policy latest value) none :=
    providerAttempts_madeFrom _ _ _ _ _ _ _
  obtain ⟨made, _⟩ := run.follows (latestErrorProtocol P T) (fun _ _ => True)
    (fun _ _ _ _ _ _ _ _ => trivial) ((succeeds_iff _ _ _ _).mp conforms) trivial
  obtain ⟨cause, attempts, anyTimedOut, found, same⟩ := made
  have known : cause = error := Option.some.inj (found.symm.trans last)
  rw [same, known]
  exact executionFailure_health_iff operation policy health attempts anyTimedOut

/-! ## Two failures -/

/-- The choices of attempts that all end with one error, with the waits between them. -/
def failingAttempts (error : MemcoreError) (count : ℕ) : List (RouterChoice Unit) :=
  List.replicate (2 * count - 1) { answer := some (.completed (.error error)) }

/-- An overloaded provider whose answer carries the code. -/
def unavailableError : MemcoreError := .providerError "OpenAI API error (503): unavailable"

/-- One attempt after the other at a provider, three at most. -/
def sampleCall : RouterProgram Unit Unit
    (Except ProviderExecutionFailure (ProviderExecutionOutcome Unit)) :=
  executeProviderCall ProviderOperation.extractFacts.name {} ⟨⟨"openai", .llm⟩, (), none⟩

/-- A request with a second provider to fall back on. -/
def fallbackRequest : RouterRequest Unit where
  capability := .llm
  operationName := ProviderOperation.extractFacts.name
  fallbackEnabled := true
  candidates := [⟨⟨"openai", .llm⟩, (), none⟩, ⟨⟨"anthropic", .llm⟩, (), none⟩]

/-- The last attempt ended with an error, and the error of the call counts against the
health of the provider or not. -/
def showsFailure (last : MemcoreError) (counts : Bool)
    (result : List (RouterEvent Unit Unit) × Except Dropped (Except ProviderExecutionFailure
      (ProviderExecutionOutcome Unit)) × RouterWorld) : Bool :=
  decide (lastAttemptError result.1 = some last) && match result.2.1 with
    | .ok (.error failure) => isProviderHealthFailure failure.error == counts
    | _ => false

/-- The names of the providers invoked and the keys under which failures were recorded. -/
def invokedAndRecorded (trace : List (RouterEvent Unit Unit)) : List String × List String :=
  (trace.filterMap fun event => match event.call with
      | .invoke candidate => some candidate.providerId.name
      | _ => none,
    trace.filterMap fun event => match event.call with
      | .recordFailure key => some key
      | _ => none)

theorem exhausted_retries_keep_kind_iff_sample :
    ∃ trace failure final, Runs (routerServer Unit Unit {} {}) (fun _ _ _ => True) sampleCall
      .fresh trace (.ok (.error failure)) final ∧
        isProviderHealthFailure failure.error = true := by
  obtain ⟨trace, outcome, final, run, shows⟩ := exists_run_of_replay
    (routerServer Unit Unit {} {}) (fun _ _ _ => True) (failingAttempts unavailableError 3)
    sampleCall .fresh (showsFailure unavailableError true) (by decide +kernel)
  rcases outcome with gone | failure | value
  · simp [showsFailure] at shows
  · simp only [showsFailure, Bool.and_eq_true, decide_eq_true_eq] at shows
    exact ⟨trace, failure, final, run,
      (exhausted_retries_keep_kind_iff .extractFacts {} _ run shows.1 (by decide)).mpr rfl⟩
  · simp [showsFailure] at shows

/-- A provider is rate limited three times. The error of the call does not count against
the health of the provider any more, so a request records nothing with the breaker and
leaves its second candidate alone. -/
theorem rate_limit_forgotten :
    isProviderHealthFailure .rateLimited = true ∧
      (∃ trace outcome final, Runs (routerServer Unit Unit {} {}) (fun _ _ _ => True) sampleCall
        .fresh trace outcome final ∧
          showsFailure .rateLimited false (trace, outcome, final) = true) ∧
      ∃ trace outcome final, Runs (routerServer Unit Unit {} {}) (fun _ _ _ => True)
        (executeWithFallback {} fallbackRequest : RouterProgram Unit Unit _) .fresh
        trace outcome final ∧
          decide (invokedAndRecorded trace = (["openai", "openai", "openai"], [])) = true := by
  refine ⟨rfl, ?_, ?_⟩
  · apply exists_run_of_replay _ _ (failingAttempts .rateLimited 3)
    decide +kernel
  · let idle : RouterChoice Unit := {}
    apply exists_run_of_replay _ _ (idle :: (failingAttempts .rateLimited 3 ++ [idle])) _ _
      (fun result => decide (invokedAndRecorded result.1 = (["openai", "openai", "openai"], [])))
    decide +kernel

end Memcore
