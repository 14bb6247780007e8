import Memcore.Foundations.Interleaving

/-!
# Programs that are dropped

A program of a pool may be dropped while it waits for an answer. It makes no more calls, and what
it has in its hands is released. A program is in progress from its first call until it returns,
fails or is dropped; how far it is then is known from its own events.

Conditions on steps and on drops may look at the whole pool.
-/
namespace Programs

open Program

variable {ports : Interface} {ε α σ χ γ : Type}

namespace Protocol

/-- A call must be allowed, and any possible answer may come back. -/
def specWith (protocol : Protocol ports ε γ)
    (possible : (call : ports.Call) → Except ε (ports.Answer call) → Prop) : Spec ports ε γ :=
  fun call stage post => protocol.allows stage call ∧
    ∀ answer, possible call answer → post answer (protocol.next stage call answer)

theorem specWith_monotone (protocol : Protocol ports ε γ)
    (possible : (call : ports.Call) → Except ε (ports.Answer call) → Prop) :
    (protocol.specWith possible).Monotone := by
  intro call stage strong weak weaker holds
  exact ⟨holds.1, fun answer isPossible => weaker _ _ (holds.2 answer isPossible)⟩

end Protocol

namespace Pool

/-- Whether a program waits for an answer. -/
def isWaiting : Program ports ε α → Bool
  | .ask _ _ => true
  | _ => false

/-- Whether a program has made a call and is not over. -/
def inProgress (pool : Pool ports ε α σ) (thread : ℕ) : Bool :=
  isWaiting (pool.threads thread) && pool.trace.any fun entry => entry.1 == thread

/-- A program is gone, and what it had is released. -/
def drop (release : ℕ → History ports ε → σ → σ) (gone : ε) (pool : Pool ports ε α σ)
    (thread : ℕ) : Pool ports ε α σ where
  world := release thread pool.trace pool.world
  threads := Function.update pool.threads thread (.fail gone)
  trace := pool.trace

/-- The pools of every interleaving in which programs in progress may be dropped. -/
inductive ReachesDropping (server : Server ports ε σ χ)
    (permits : Pool ports ε α σ → ℕ → ports.Call → χ → Prop)
    (drops : Pool ports ε α σ → ℕ → Prop) (release : ℕ → History ports ε → σ → σ) (gone : ε)
    (first : Pool ports ε α σ) : Pool ports ε α σ → Prop where
  | start : ReachesDropping server permits drops release gone first first
  | step (pool : Pool ports ε α σ) (thread : ℕ) (call : ports.Call)
      (resume : Except ε (ports.Answer call) → Program ports ε α) (choice : χ)
      (reached : ReachesDropping server permits drops release gone first pool)
      (waiting : pool.threads thread = .ask call resume)
      (isReady : server.ready choice call pool.world = true)
      (permitted : permits pool thread call choice) :
      ReachesDropping server permits drops release gone first
        (pool.answer server thread call resume choice)
  | drop (pool : Pool ports ε α σ) (thread : ℕ)
      (reached : ReachesDropping server permits drops release gone first pool)
      (underway : pool.inProgress thread = true) (permitted : drops pool thread) :
      ReachesDropping server permits drops release gone first (pool.drop release gone thread)

section Stages

variable (protocol : Protocol ports ε γ) (starts : ℕ → γ) (past : γ)

/-- How far a program is by its own events. -/
def stageOf (thread : ℕ) (trace : History ports ε) : γ :=
  track (fun stage event => protocol.next stage event.call event.answer) (starts thread) thread
    trace

/-- How far the programs are, for those that are in progress. -/
def stages (pool : Pool ports ε α σ) (thread : ℕ) : γ :=
  if pool.inProgress thread then stageOf protocol starts thread pool.trace else past

variable {protocol starts past} {pool : Pool ports ε α σ} {thread : ℕ}

/-- Before its first call a program is where it starts. -/
theorem stages_of_waiting (waiting : isWaiting (pool.threads thread) = true) :
    pool.stages protocol starts past thread = stageOf protocol starts thread pool.trace ∨
      pool.stages protocol starts past thread = past ∧
        stageOf protocol starts thread pool.trace = starts thread := by
  by_cases underway : pool.inProgress thread = true
  · left
    exact if_pos underway
  · right
    refine ⟨if_neg underway, track_absent _ _ ?_⟩
    intro entry listed same
    apply underway
    rw [inProgress, waiting, Bool.true_and, List.any_eq_true]
    exact ⟨entry, listed, beq_iff_eq.mpr same⟩

theorem stages_of_idle (idle : pool.inProgress thread = false) :
    pool.stages protocol starts past thread = past := by
  rw [stages, idle]
  exact if_neg Bool.false_ne_true

/-- A step moves one program. -/
theorem stages_answer {server : Server ports ε σ χ} {call : ports.Call}
    {resume : Except ε (ports.Answer call) → Program ports ε α} {choice : χ}
    (ends : isWaiting (resume (server.serve choice call pool.world).1) = false →
      protocol.next (stageOf protocol starts thread pool.trace) call
        (server.serve choice call pool.world).1 = past) :
    (pool.answer server thread call resume choice).stages protocol starts past =
      Function.update (pool.stages protocol starts past) thread
        (protocol.next (stageOf protocol starts thread pool.trace) call
          (server.serve choice call pool.world).1) := by
  funext other
  by_cases same : other = thread
  · subst same
    rw [Function.update_self]
    cases onwards : isWaiting (resume (server.serve choice call pool.world).1) with
    | false =>
      rw [ends onwards]
      apply stages_of_idle
      simp [inProgress, answer, onwards]
    | true =>
      have underway : (pool.answer server other call resume choice).inProgress other = true := by
        simp [inProgress, answer, onwards]
      rw [stages, if_pos underway]
      exact track_own _ _ _ _ _
  · rw [Function.update_of_ne same]
    have threads : (pool.answer server thread call resume choice).threads other =
        pool.threads other := Function.update_of_ne same _ _
    have underway : (pool.answer server thread call resume choice).inProgress other =
        pool.inProgress other := by
      have different : (thread == other) = false := beq_eq_false_iff_ne.mpr (Ne.symm same)
      rw [inProgress, inProgress, threads]
      simp [answer, different]
    rw [stages, stages, underway, stageOf, stageOf]
    rw [show (pool.answer server thread call resume choice).trace = _ :: pool.trace from rfl,
      track_other _ _ _ _ (Ne.symm same)]

/-- A drop ends one program. -/
theorem stages_drop {release : ℕ → History ports ε → σ → σ} {gone : ε} :
    (pool.drop release gone thread).stages protocol starts past =
      Function.update (pool.stages protocol starts past) thread past := by
  funext other
  by_cases same : other = thread
  · subst same
    rw [Function.update_self]
    apply stages_of_idle
    simp [inProgress, drop, isWaiting]
  · rw [Function.update_of_ne same]
    have underway : (pool.drop release gone thread).inProgress other = pool.inProgress other := by
      simp [inProgress, drop, Function.update_of_ne same]
    rw [stages, stages, underway]
    rfl

end Stages

/-- A relation between the state and how far the programs are that every allowed, permitted step
and every permitted drop keeps holds throughout. The programs end at the last stage. -/
theorem ReachesDropping.invariant {server : Server ports ε σ χ}
    {permits : Pool ports ε α σ → ℕ → ports.Call → χ → Prop}
    {drops : Pool ports ε α σ → ℕ → Prop} {release : ℕ → History ports ε → σ → σ} {gone : ε}
    {first pool : Pool ports ε α σ}
    (reached : ReachesDropping server permits drops release gone first pool)
    {protocol : Protocol ports ε γ}
    {possible : (call : ports.Call) → Except ε (ports.Answer call) → Prop} {starts : ℕ → γ}
    {past : γ} {invariant : σ → (ℕ → γ) → Prop}
    (answers : ∀ choice call world, possible call (server.serve choice call world).1)
    (keeps : ∀ (pool : Pool ports ε α σ) thread call resume choice,
      invariant pool.world (pool.stages protocol starts past) →
      pool.threads thread = .ask call resume →
      protocol.allows (stageOf protocol starts thread pool.trace) call →
      server.ready choice call pool.world = true → permits pool thread call choice →
        invariant (server.serve choice call pool.world).2
          (Function.update (pool.stages protocol starts past) thread
            (protocol.next (stageOf protocol starts thread pool.trace) call
              (server.serve choice call pool.world).1)))
    (releases : ∀ (pool : Pool ports ε α σ) thread,
      invariant pool.world (pool.stages protocol starts past) →
      pool.inProgress thread = true → drops pool thread →
        invariant (release thread pool.trace pool.world)
          (Function.update (pool.stages protocol starts past) thread past))
    (follow : ∀ thread, Ensures (protocol.specWith possible) (first.threads thread)
      (fun _ later => later = past) (starts thread))
    (fresh : first.trace = []) (initially : invariant first.world fun _ => past) :
    invariant pool.world (pool.stages protocol starts past) := by
  have conforms : invariant pool.world (pool.stages protocol starts past) ∧
      ∀ thread, isWaiting (pool.threads thread) = true →
        Ensures (protocol.specWith possible) (pool.threads thread)
          (fun _ later => later = past) (stageOf protocol starts thread pool.trace) := by
    induction reached with
    | start =>
      constructor
      · have nobody : first.stages protocol starts past = fun _ => past := by
          funext thread
          apply stages_of_idle
          simp [inProgress, fresh]
        rw [nobody]
        exact initially
      · intro thread _
        rw [fresh]
        exact follow thread
    | step pool thread call resume choice _ waiting isReady permitted inductionHypothesis =>
      obtain ⟨holds, follow⟩ := inductionHypothesis
      have conforms := follow thread (by rw [waiting]; rfl)
      rw [waiting, ensures_ask] at conforms
      have onwards : Ensures (protocol.specWith possible)
          (resume (server.serve choice call pool.world).1) (fun _ later => later = past)
          (protocol.next (stageOf protocol starts thread pool.trace) call
            (server.serve choice call pool.world).1) :=
        conforms.2 _ (answers choice call pool.world)
      constructor
      · rw [stages_answer]
        · exact keeps pool thread call resume choice holds waiting conforms.1 isReady permitted
        · intro ended
          cases program : resume (server.serve choice call pool.world).1 with
          | done value =>
            rw [program] at onwards
            exact (ensures_done _ _ _ _).mp onwards
          | fail error =>
            rw [program] at onwards
            exact (ensures_fail _ _ _ _).mp onwards
          | ask next resumed =>
            rw [program] at ended
            cases ended
      · intro other waitingLater
        by_cases same : other = thread
        · subst same
          have moved : stageOf protocol starts other
              (pool.answer server other call resume choice).trace =
                protocol.next (stageOf protocol starts other pool.trace) call
                  (server.serve choice call pool.world).1 := track_own _ _ _ _ _
          rw [moved]
          simpa only [answer, Function.update_self] using onwards
        · have still : stageOf protocol starts other
              (pool.answer server thread call resume choice).trace =
                stageOf protocol starts other pool.trace :=
            track_other _ _ _ _ (Ne.symm same)
          have threads : (pool.answer server thread call resume choice).threads other =
              pool.threads other := Function.update_of_ne same _ _
          rw [still, threads]
          rw [threads] at waitingLater
          exact follow other waitingLater
    | drop pool thread _ underway permitted inductionHypothesis =>
      obtain ⟨holds, follow⟩ := inductionHypothesis
      constructor
      · rw [stages_drop]
        exact releases pool thread holds underway permitted
      · intro other waitingLater
        by_cases same : other = thread
        · subst same
          rw [show (pool.drop release gone other).threads other = .fail gone from
            Function.update_self _ _ _] at waitingLater
          cases waitingLater
        · have threads : (pool.drop release gone thread).threads other = pool.threads other :=
            Function.update_of_ne same _ _
          rw [threads] at waitingLater ⊢
          exact follow other waitingLater
  exact conforms.1

/-- What is reached under some conditions is reached under weaker ones. -/
theorem ReachesDropping.mono {server : Server ports ε σ χ}
    {strong weak : Pool ports ε α σ → ℕ → ports.Call → χ → Prop}
    {strongDrops weakDrops : Pool ports ε α σ → ℕ → Prop}
    {release : ℕ → History ports ε → σ → σ} {gone : ε} {first pool : Pool ports ε α σ}
    (reached : ReachesDropping server strong strongDrops release gone first pool)
    (weaker : ∀ pool thread call choice, strong pool thread call choice →
      weak pool thread call choice)
    (weakerDrops : ∀ pool thread, strongDrops pool thread → weakDrops pool thread) :
    ReachesDropping server weak weakDrops release gone first pool := by
  induction reached with
  | start => exact .start
  | step pool thread call resume choice _ waiting isReady permitted inductionHypothesis =>
    exact .step pool thread call resume choice inductionHypothesis waiting isReady
      (weaker _ _ _ _ permitted)
  | drop pool thread _ underway permitted inductionHypothesis =>
    exact .drop pool thread inductionHypothesis underway (weakerDrops _ _ permitted)

/-- Whether no program is in progress. -/
def isQuiet (pool : Pool ports ε α σ) : Bool :=
  pool.trace.all fun entry => !isWaiting (pool.threads entry.1)

theorem isQuiet_iff (pool : Pool ports ε α σ) :
    pool.isQuiet = true ↔ ∀ thread, pool.inProgress thread = false := by
  rw [isQuiet, List.all_eq_true]
  constructor
  · intro quiet thread
    by_contra underway
    rw [Bool.not_eq_false, inProgress, Bool.and_eq_true, List.any_eq_true] at underway
    obtain ⟨waiting, entry, listed, same⟩ := underway
    have past := quiet entry listed
    rw [eq_of_beq same, waiting] at past
    cases past
  · intro quiet entry listed
    have past := quiet entry.1
    have called : (pool.trace.any fun other => other.1 == entry.1) = true :=
      List.any_eq_true.mpr ⟨entry, listed, beq_self_eq_true _⟩
    rw [inProgress, called, Bool.and_true] at past
    rw [past]
    rfl

section Schedules

variable (server : Server ports ε σ χ) (permits : Pool ports ε α σ → ℕ → ports.Call → χ → Prop)
  (drops : Pool ports ε α σ → ℕ → Prop) (release : ℕ → History ports ε → σ → σ) (gone : ε)
  [∀ pool thread call choice, Decidable (permits pool thread call choice)]
  [∀ pool thread, Decidable (drops pool thread)]

/-- A schedule names the programs that move, each with the choice made for its call, or that are
dropped. -/
def runDropping : List (ℕ × Option χ) → Pool ports ε α σ → Option (Pool ports ε α σ)
  | [], pool => some pool
  | (thread, none) :: schedule, pool =>
      if pool.inProgress thread = true ∧ drops pool thread then
        runDropping schedule (pool.drop release gone thread)
      else none
  | (thread, some choice) :: schedule, pool =>
      match pool.threads thread with
      | .ask call resume =>
          if server.ready choice call pool.world = true ∧ permits pool thread call choice then
            runDropping schedule (pool.answer server thread call resume choice)
          else none
      | _ => none

variable {first : Pool ports ε α σ}

theorem runDropping_reaches {schedule : List (ℕ × Option χ)} {pool last : Pool ports ε α σ}
    (reached : ReachesDropping server permits drops release gone first pool)
    (completed : runDropping server permits drops release gone schedule pool = some last) :
    ReachesDropping server permits drops release gone first last := by
  induction schedule generalizing pool with
  | nil =>
    obtain rfl := Option.some.inj completed
    exact reached
  | cons entry schedule inductionHypothesis =>
    obtain ⟨thread, _ | choice⟩ := entry
    · simp only [runDropping, Option.ite_none_right_eq_some] at completed
      obtain ⟨⟨underway, permitted⟩, rest⟩ := completed
      exact inductionHypothesis (.drop pool thread reached underway permitted) rest
    · cases waiting : pool.threads thread with
      | done value => simp [runDropping, waiting] at completed
      | fail error => simp [runDropping, waiting] at completed
      | ask call resume =>
        simp only [runDropping, waiting, Option.ite_none_right_eq_some] at completed
        obtain ⟨⟨isReady, permitted⟩, rest⟩ := completed
        exact inductionHypothesis
          (.step pool thread call resume choice reached waiting isReady permitted) rest

/-- A schedule that completes and passes a test shows that there is such a pool. -/
theorem exists_reached_of_runDropping (schedule : List (ℕ × Option χ))
    (test : Pool ports ε α σ → Bool)
    (passes : (runDropping server permits drops release gone schedule first).any test = true) :
    ∃ pool, ReachesDropping server permits drops release gone first pool ∧ test pool = true := by
  obtain ⟨pool, completed, passed⟩ := (Option.any_eq_true _ _).mp passes
  exact ⟨pool, runDropping_reaches server permits drops release gone .start completed, passed⟩

end Schedules

end Pool

end Programs
