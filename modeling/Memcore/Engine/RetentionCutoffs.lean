import Memcore.Engine.Memories

/-!
# Retention within the calendar

The cut-off of a retention period is the clock less a number of days, and the subtraction
panics when the result lies before the earliest instant of the calendar. A policy may ask for
any number of days. Here retention returns nothing when its task has panicked; what the stores
were asked until then stays done. Within the calendar it is the retention on unbounded instants.
-/
namespace Memcore

open Ports Programs

/-- The clock less a number of days; nothing where the subtraction panics. -/
def cutoffAt (earliest current : Instant) (count : ℕ) : Option Instant :=
  if earliest ≤ current - days count then some (current - days count) else none

/-- Expire the facts of a tenant that are older than a cut-off. -/
def expireFactsBefore (input : ApplyRetentionInput) (cutoff : Instant) :
    EngineProgram (ℕ × ℕ) := do
  let result ← deleteFactsOlderThan input.tenant cutoff input.dryRun
  if input.dryRun then return (result.count, 0)
  else
    deleteVectorsIfPresent input.tenant result.factIds
    return (result.count, result.count)

def expireFactsFrom (earliest : Instant) (input : ApplyRetentionInput) :
    EngineProgram (Option (ℕ × ℕ)) :=
  match input.policy.factDaysActive with
  | none => return some (0, 0)
  | some factDays => do
      let current ← now
      match cutoffAt earliest current factDays with
      | none => return none
      | some cutoff => some <$> expireFactsBefore input cutoff

/-- Expire the events of a tenant that are older than a cut-off. -/
def expireEventsBefore (input : ApplyRetentionInput) (cutoff : Instant) :
    EngineProgram (ℕ × ℕ) := do
  let count ← deleteEventsOlderThan input.tenant cutoff input.dryRun
  return (count, if input.dryRun then 0 else count)

def expireEventsFrom (earliest : Instant) (engine : MemoryEngine) (input : ApplyRetentionInput) :
    EngineProgram (Option (ℕ × ℕ)) :=
  match input.policy.eventDaysActive, engine.eventStore with
  | some eventDays, true => do
      let current ← now
      match cutoffAt earliest current eventDays with
      | none => return none
      | some cutoff => some <$> expireEventsBefore input cutoff
  | _, _ => return some (0, 0)

/-- The report, and the invalidation that facts were deleted. -/
def reportRetention (engine : MemoryEngine) (input : ApplyRetentionInput) (facts events : ℕ × ℕ) :
    EngineProgram ApplyRetentionOutput := do
  let output := ⟨input.dryRun, facts.1, facts.2, events.1, events.2⟩
  if !input.dryRun && decide (0 < facts.2) then
    invalidateUserContextCache engine input.tenant
    return output
  else return output

def applyRetentionFrom (earliest : Instant) (engine : MemoryEngine)
    (input : ApplyRetentionInput) : EngineProgram (Option ApplyRetentionOutput) := do
  Program.check (validateTenant input.tenant)
  if !input.policy.enabled then return some (.zero input.dryRun)
  else
    match ← expireFactsFrom earliest input with
    | none => return none
    | some facts =>
        match ← expireEventsFrom earliest engine input with
        | none => return none
        | some events => some <$> reportRetention engine input facts events

/-- The cut-offs that retention computes lie in the calendar. -/
structure CutoffsInCalendar (earliest : Instant) (engine : MemoryEngine)
    (policy : RetentionPolicy) (clock : Instant) : Prop where
  facts : ∀ count ∈ policy.factDaysActive, earliest ≤ clock - days count
  events : engine.eventStore = true →
    ∀ count ∈ policy.eventDaysActive, earliest ≤ clock - days count

/-! ## Evaluation -/

section Evaluation

variable {σ : Type} {serve : (port : Port) → σ → MemcoreResult port.Answer × σ}
  {earliest clock : Instant} {engine : MemoryEngine} {input : ApplyRetentionInput} {state : σ}

/-- What has returned, has not panicked. -/
def returned {α : Type} (result : MemcoreResult α × σ) : MemcoreResult (Option α) × σ :=
  (result.1.map some, result.2)

theorem evaluate_perform (port : Port) :
    (perform port).evaluate serve state = serve port state :=
  @Program.evaluate_call enginePorts MemcoreError σ serve state port

/-- The second part returns in the same way, wherever the first part has returned. -/
theorem returned_bind {α β : Type} {first : EngineProgram (Option α)} {plain : EngineProgram α}
    {next : Option α → EngineProgram (Option β)} {rest : α → EngineProgram β}
    (same : first.evaluate serve state = returned (plain.evaluate serve state))
    (later : ∀ value state, (next (some value)).evaluate serve state =
      returned ((rest value).evaluate serve state)) :
    (first >>= next).evaluate serve state = returned ((plain >>= rest).evaluate serve state) := by
  rw [Program.evaluate_bind, Program.evaluate_bind, same, returned]
  cases (plain.evaluate serve state).1 with
  | ok value => exact later value _
  | error error => rfl

variable (clockReads : ∀ state, serve (.system .now) state = (.ok clock, state))
include clockReads

theorem evaluate_expireFactsFrom
    (inCalendar : ∀ count ∈ input.policy.factDaysActive, earliest ≤ clock - days count) :
    (expireFactsFrom earliest input).evaluate serve state =
      returned ((expireFacts input).evaluate serve state) := by
  unfold expireFactsFrom expireFacts
  cases active : input.policy.factDaysActive with
  | none => rfl
  | some factDays =>
    have reads : now.evaluate serve state = (.ok clock, state) :=
      (evaluate_perform _).trans (clockReads state)
    dsimp only
    rw [Program.evaluate_bind_ok reads, Program.evaluate_bind_ok reads, cutoffAt,
      if_pos (inCalendar factDays active)]
    exact Program.evaluate_map some (expireFactsBefore input (clock - days factDays))

theorem evaluate_expireEventsFrom (inCalendar : engine.eventStore = true →
      ∀ count ∈ input.policy.eventDaysActive, earliest ≤ clock - days count) :
    (expireEventsFrom earliest engine input).evaluate serve state =
      returned ((expireEvents engine input).evaluate serve state) := by
  unfold expireEventsFrom expireEvents
  cases active : input.policy.eventDaysActive with
  | none => rfl
  | some eventDays =>
    cases configured : engine.eventStore with
    | false => rfl
    | true =>
      have reads : now.evaluate serve state = (.ok clock, state) :=
        (evaluate_perform _).trans (clockReads state)
      dsimp only
      rw [Program.evaluate_bind_ok reads, Program.evaluate_bind_ok reads, cutoffAt,
        if_pos (inCalendar configured eventDays active)]
      exact Program.evaluate_map some (expireEventsBefore input (clock - days eventDays))

/-- Within the calendar, retention is that on unbounded instants. -/
theorem evaluate_applyRetentionFrom
    (inCalendar : CutoffsInCalendar earliest engine input.policy clock) :
    (applyRetentionFrom earliest engine input).evaluate serve state =
      returned ((applyRetention engine input).evaluate serve state) := by
  unfold applyRetentionFrom applyRetention
  rw [Program.evaluate_bind, Program.evaluate_bind, Program.evaluate_check]
  cases validateTenant input.tenant with
  | error error => rfl
  | ok value =>
    dsimp only
    split_ifs with disabled
    · rfl
    · apply returned_bind (evaluate_expireFactsFrom clockReads inCalendar.facts)
      intro facts later
      apply returned_bind (evaluate_expireEventsFrom clockReads inCalendar.events)
      intro events last
      exact Program.evaluate_map some (reportRetention engine input facts events)

end Evaluation

end Memcore
