import Memcore.Providers.CircuitBreaker

/-!
# An open circuit stays open, a half-open one stays narrow

Any number of calls share one entry. Each is admitted by a check, and each admitted
call may record one outcome at any later time. Between the instant at which the
circuit opens and the end of its reset timeout no call is to be admitted, and while
it is half open no more calls are to be outstanding than it may admit.

Both laws fail for outcomes that arrive late. A success closes the circuit whatever
its state, also when it comes from a call that was admitted before the circuit opened,
whereas a failure is ignored by an open circuit. And the slots of the half-open circuit
count the calls that it has admitted since it turned, not those still outstanding from
before. Without such outcomes both laws hold in every run.
-/
namespace Memcore

inductive BreakerCall where
  | checkAllow | recordSuccess | recordFailure
  deriving DecidableEq

/-- One entry, the admitted calls without a recorded outcome, the latest instant, and
the instants at which the circuit has opened. -/
structure CircuitWorld where
  entry : CircuitEntry
  outstanding : ℕ
  clock : Instant
  openings : List Instant

namespace CircuitWorld

/-- A new entry, before any call. -/
def fresh (clock : Instant) : CircuitWorld := ⟨.new, 0, clock, []⟩

/-- One operation of the breaker at an instant. -/
def step (config : CircuitBreakerConfig) (now : Instant) (call : BreakerCall)
    (world : CircuitWorld) : CircuitWorld :=
  match call with
  | .checkAllow =>
      let checked := checkAllow config now world.entry
      { world with
        entry := checked.2
        outstanding := world.outstanding + if checked.1.isOk then 1 else 0
        clock := now }
  | .recordSuccess =>
      { world with
        entry := recordSuccess config world.entry
        outstanding := world.outstanding - 1
        clock := now }
  | .recordFailure =>
      let recorded := recordFailure config now world.entry
      { entry := recorded
        outstanding := world.outstanding - 1
        clock := now
        openings := if world.entry.state ≠ .opened ∧ recorded.state = .opened then
          now :: world.openings else world.openings }

/-- The clock does not go backwards, and an outcome belongs to an outstanding call. -/
def Legal (now : Instant) (call : BreakerCall) (world : CircuitWorld) : Prop :=
  world.clock ≤ now ∧ (call = .checkAllow ∨ 0 < world.outstanding)

/-- No success is recorded while the circuit is open and its time has not passed, and
no outstanding call is left when a check turns the circuit half open. -/
def InTime (config : CircuitBreakerConfig) (now : Instant) (call : BreakerCall)
    (world : CircuitWorld) : Prop :=
  match call with
  | .checkAllow => world.entry.state = .opened → resetElapsed config now world.entry = true →
      world.outstanding = 0
  | .recordSuccess => world.entry.state = .opened → resetElapsed config now world.entry = true
  | .recordFailure => True

instance (now : Instant) (call : BreakerCall) (world : CircuitWorld) :
    Decidable (world.Legal now call) :=
  inferInstanceAs (Decidable (_ ∧ _))

instance (config : CircuitBreakerConfig) (now : Instant) (call : BreakerCall)
    (world : CircuitWorld) : Decidable (world.InTime config now call) := by
  unfold InTime
  cases call <;> infer_instance

/-- The worlds reached by legal operations that meet a condition, each at its instant. -/
inductive Reached (config : CircuitBreakerConfig)
    (condition : Instant → BreakerCall → CircuitWorld → Prop) : CircuitWorld → Prop where
  | start (clock : Instant) : Reached config condition (fresh clock)
  | step {world : CircuitWorld} (now : Instant) (call : BreakerCall)
      (reached : Reached config condition world) (legal : world.Legal now call)
      (met : condition now call world) : Reached config condition (world.step config now call)

/-- The operations in order, provided that each is legal. -/
def replay (config : CircuitBreakerConfig) :
    List (Instant × BreakerCall) → CircuitWorld → Option CircuitWorld
  | [], world => some world
  | (now, call) :: rest, world =>
      if world.Legal now call then replay config rest (world.step config now call) else none

theorem replay_reached {config : CircuitBreakerConfig} (calls : List (Instant × BreakerCall))
    {world last : CircuitWorld} (reached : Reached config (fun _ _ _ => True) world)
    (replayed : replay config calls world = some last) :
    Reached config (fun _ _ _ => True) last := by
  induction calls generalizing world with
  | nil => exact Option.some.inj replayed ▸ reached
  | cons head rest inductionHypothesis =>
    obtain ⟨now, call⟩ := head
    by_cases legal : world.Legal now call
    · rw [replay, if_pos legal] at replayed
      exact inductionHypothesis (.step now call reached legal trivial) replayed
    · rw [replay, if_neg legal] at replayed
      nomatch replayed

/-- No call is admitted from the last opening of the circuit to its reset timeout, nor
from any earlier one. -/
def StaysOpen (config : CircuitBreakerConfig) (world : CircuitWorld) : Prop :=
  ∀ now, world.clock ≤ now → ∀ opened ∈ world.openings,
    now < opened + config.resetTimeout → (checkAllow config now world.entry).1.isOk = false

/-- While the circuit is half open, only so many admitted calls are outstanding. -/
def StaysNarrow (config : CircuitBreakerConfig) (world : CircuitWorld) : Prop :=
  world.entry.state = .halfOpen → world.outstanding ≤ config.halfOpenMaxCalls

/-- What carries both laws. An open circuit knows its last opening; any other has
waited since each of them; and a half-open one counts all outstanding calls. -/
structure Sound (config : CircuitBreakerConfig) (world : CircuitWorld) : Prop where
  disabled : config.enabled = false → world.entry.state = .closed ∧ world.openings = []
  past : ∀ opened ∈ world.openings, opened ≤ world.clock
  since : world.entry.state = .opened → ∃ last, world.entry.openedAt = some last ∧
    last ≤ world.clock ∧ ∀ opened ∈ world.openings, opened ≤ last
  waited : world.entry.state ≠ .opened →
    ∀ opened ∈ world.openings, opened + config.resetTimeout ≤ world.clock
  counted : world.entry.state = .halfOpen → world.outstanding = world.entry.halfOpenCalls ∧
    world.entry.halfOpenCalls ≤ config.halfOpenMaxCalls

section Steps

variable {config : CircuitBreakerConfig} {world : CircuitWorld} {now : Instant}

theorem Sound.fresh (config : CircuitBreakerConfig) (clock : Instant) :
    (CircuitWorld.fresh clock).Sound config where
  disabled _ := ⟨rfl, rfl⟩
  past := by simp [CircuitWorld.fresh]
  since impossible := nomatch impossible
  waited _ := by simp [CircuitWorld.fresh]
  counted impossible := nomatch impossible

/-- After its reset timeout an open circuit has waited since every opening. -/
theorem Sound.elapsed (sound : world.Sound config) (forward : world.clock ≤ now)
    (state : world.entry.state = .opened) (elapsed : resetElapsed config now world.entry = true) :
    ∀ opened ∈ world.openings, opened + config.resetTimeout ≤ now := by
  intro opened listed
  obtain ⟨last, since, reached, latest⟩ := sound.since state
  have waited := (resetElapsed_iff since (le_trans reached forward)).mp elapsed
  have earlier := latest opened listed
  unfold Instant at *
  omega

theorem Sound.checkAllow (sound : world.Sound config) (forward : world.clock ≤ now)
    (inTime : world.InTime config now .checkAllow) :
    (world.step config now .checkAllow).Sound config := by
  have past : ∀ opened ∈ world.openings, opened ≤ now :=
    fun opened listed => le_trans (sound.past opened listed) forward
  have waited (other : world.entry.state ≠ .opened) :
      ∀ opened ∈ world.openings, opened + config.resetTimeout ≤ now :=
    fun opened listed => le_trans (sound.waited other opened listed) forward
  rcases checkAllow_cases config now world.entry with ⟨disabled, same⟩ | ⟨enabled, closed, same⟩ |
    ⟨enabled, opened, _, same⟩ | ⟨enabled, met, half, turned, slots⟩
  · have closed := (sound.disabled disabled).1
    simp only [CircuitWorld.step, same]
    exact ⟨sound.disabled, past, by simp [closed], fun _ => waited (by simp [closed]),
      by simp [closed]⟩
  · simp only [CircuitWorld.step, same]
    exact ⟨by simp [enabled], past, by simp [closed], fun _ => waited (by simp [closed]),
      by simp [closed]⟩
  · obtain ⟨last, since, reached, latest⟩ := sound.since opened
    simp only [CircuitWorld.step, same]
    exact ⟨by simp [enabled], past, fun _ => ⟨last, since, le_trans reached forward, latest⟩,
      by simp [opened], by simp [opened]⟩
  · -- The circuit is half open now, with all outstanding calls in its slots.
    have before : world.outstanding = met.halfOpenCalls ∧
        met.halfOpenCalls ≤ config.halfOpenMaxCalls ∧
        ∀ opened ∈ world.openings, opened + config.resetTimeout ≤ now := by
      rcases turned with ⟨state, rfl⟩ | ⟨state, elapsed, rfl⟩
      · obtain ⟨all, few⟩ := sound.counted state
        exact ⟨all, few, waited (by simp [state])⟩
      · exact ⟨inTime state elapsed, Nat.zero_le _, sound.elapsed forward state elapsed⟩
    obtain ⟨all, few, since⟩ := before
    rcases slots with ⟨_, same⟩ | ⟨room, same⟩
    · simp only [CircuitWorld.step, same]
      refine ⟨by simp [enabled], past, by simp [half], fun _ => since, fun _ => ⟨?_, few⟩⟩
      simpa [Except.isOk, Except.toBool] using all
    · simp only [CircuitWorld.step, same]
      refine ⟨by simp [enabled], past, by simp [half], fun _ => since, fun _ => ⟨?_, room⟩⟩
      simpa [Except.isOk, Except.toBool] using all

theorem Sound.recordSuccess (sound : world.Sound config) (forward : world.clock ≤ now)
    (inTime : world.InTime config now .recordSuccess) :
    (world.step config now .recordSuccess).Sound config := by
  have past : ∀ opened ∈ world.openings, opened ≤ now :=
    fun opened listed => le_trans (sound.past opened listed) forward
  by_cases disabled : config.enabled = false
  · have same : Memcore.recordSuccess config world.entry = world.entry := by
      simp only [Memcore.recordSuccess, disabled, if_true]
    obtain ⟨closed, none⟩ := sound.disabled disabled
    simp only [CircuitWorld.step, same]
    exact ⟨sound.disabled, past, by simp [closed], by simp [none], by simp [closed]⟩
  · have enabled : config.enabled = true := by simpa using disabled
    have waited : ∀ opened ∈ world.openings, opened + config.resetTimeout ≤ now := by
      by_cases state : world.entry.state = .opened
      · exact sound.elapsed forward state (inTime state)
      · exact fun opened listed => le_trans (sound.waited state opened listed) forward
    simp only [CircuitWorld.step, recordSuccess_enabled enabled]
    exact ⟨by simp [enabled], past, by simp [CircuitEntry.new], fun _ => waited,
      by simp [CircuitEntry.new]⟩

theorem Sound.recordFailure (sound : world.Sound config) (forward : world.clock ≤ now) :
    (world.step config now .recordFailure).Sound config := by
  have past : ∀ opened ∈ world.openings, opened ≤ now :=
    fun opened listed => le_trans (sound.past opened listed) forward
  rcases recordFailure_cases config now world.entry with ⟨disabled, same⟩ |
    ⟨enabled, state, same⟩ | ⟨enabled, state, same⟩ | ⟨enabled, state, count, same⟩
  · obtain ⟨closed, none⟩ := sound.disabled disabled
    simp only [CircuitWorld.step, same, closed, none]
    exact ⟨fun _ => by simp [closed], by simp, by simp [closed], by simp, by simp [closed]⟩
  · obtain ⟨last, since, reached, latest⟩ := sound.since state
    simp only [CircuitWorld.step, same, state]
    exact ⟨by simp [enabled], past, fun _ => ⟨last, since, le_trans reached forward, latest⟩,
      by simp [state], by simp [state]⟩
  · have waited : ∀ opened ∈ world.openings, opened + config.resetTimeout ≤ now :=
      fun opened listed => le_trans (sound.waited (by simp [state]) opened listed) forward
    simp only [CircuitWorld.step, same, state]
    exact ⟨by simp [enabled], past, by simp, fun _ => waited, by simp⟩
  · have opens : (world.step config now .recordFailure).openings = now :: world.openings := by
      simp only [CircuitWorld.step, same]
      exact if_pos ⟨state, trivial⟩
    refine ⟨by simp [enabled], ?_, fun _ => ⟨now, ?_, le_refl _, ?_⟩, ?_, ?_⟩
    · rw [opens]
      simpa [CircuitWorld.step] using past
    · simp only [CircuitWorld.step, same]
    · rw [opens]
      simpa using past
    · simp [CircuitWorld.step, same]
    · simp [CircuitWorld.step, same]

/-- Every operation keeps what carries the laws. -/
theorem Sound.step (sound : world.Sound config) (call : BreakerCall)
    (legal : world.Legal now call) (inTime : world.InTime config now call) :
    (world.step config now call).Sound config := by
  cases call with
  | checkAllow => exact sound.checkAllow legal.1 inTime
  | recordSuccess => exact sound.recordSuccess legal.1 inTime
  | recordFailure => exact sound.recordFailure legal.1

theorem Sound.staysOpen (sound : world.Sound config) : world.StaysOpen config := by
  intro now forward opened listed early
  have refused (waited : opened + config.resetTimeout ≤ now) :
      (Memcore.checkAllow config now world.entry).1.isOk = false :=
    absurd early (not_lt.mpr waited)
  have waits (other : world.entry.state ≠ .opened) : opened + config.resetTimeout ≤ now :=
    le_trans (sound.waited other opened listed) forward
  rcases checkAllow_cases config now world.entry with ⟨disabled, _⟩ | ⟨_, closed, _⟩ |
    ⟨_, _, _, same⟩ | ⟨_, _, _, ⟨state, _⟩ | ⟨state, elapsed, _⟩, _⟩
  · have none := (sound.disabled disabled).2
    rw [none] at listed
    nomatch listed
  · exact refused (waits (by simp [closed]))
  · rw [same]
    rfl
  · exact refused (waits (by simp [state]))
  · exact refused (sound.elapsed forward state elapsed opened listed)

theorem Sound.staysNarrow (sound : world.Sound config) : world.StaysNarrow config := by
  intro half
  obtain ⟨all, few⟩ := sound.counted half
  omega

end Steps

end CircuitWorld

open CircuitWorld

/-- One failure opens the circuit, for ten nanoseconds. -/
def briefCircuit : CircuitBreakerConfig := { failureThreshold := 1, resetTimeout := 10 }

end Memcore
