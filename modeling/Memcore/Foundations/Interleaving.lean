import Memcore.Foundations.Programs
import Mathlib.Algebra.BigOperators.Ring.Finset
import Mathlib.Algebra.Order.BigOperators.Group.Finset
import Mathlib.Data.Nat.Notation
import Mathlib.Logic.Function.Basic

/-!
# Interleaved programs

A pool is a state shared by numbered programs, together with the trace of the
calls answered so far. One step answers the next call of one program, so the
reachable pools are those of every interleaving of the programs, in every order.
Nothing is assumed of the scheduler: fairness and progress are out of scope.

A condition on steps is part of reachability. It may look at the shared state, at
the trace and at the choice that is made, and a run meets it when every step does.
-/
namespace Programs

open Program

variable {ports : Interface} {ε α σ χ γ : Type}

/-- What has been answered to whom, most recent first. -/
abbrev History (ports : Interface) (ε : Type) : Type := List (ℕ × Event ports ε)

/-- What is known of a program from its own events, the earliest first. -/
def track (next : γ → Event ports ε → γ) (start : γ) (thread : ℕ) : History ports ε → γ
  | [] => start
  | (other, event) :: trace =>
      if other = thread then next (track next start thread trace) event
      else track next start thread trace

@[simp] theorem track_nil (next : γ → Event ports ε → γ) (start : γ) (thread : ℕ) :
    track next start thread [] = start := rfl

@[simp] theorem track_own (next : γ → Event ports ε → γ) (start : γ) (thread : ℕ)
    (event : Event ports ε) (trace : History ports ε) :
    track next start thread ((thread, event) :: trace) =
      next (track next start thread trace) event := if_pos rfl

@[simp] theorem track_other (next : γ → Event ports ε → γ) (start : γ) {thread other : ℕ}
    (event : Event ports ε) (trace : History ports ε) (different : other ≠ thread) :
    track next start thread ((other, event) :: trace) = track next start thread trace :=
  if_neg different

/-- Events of other programs leave a program where it was. -/
theorem track_silent (next : γ → Event ports ε → γ) (start : γ) {thread : ℕ}
    {more : History ports ε} (trace : History ports ε)
    (silent : ∀ entry ∈ more, entry.1 ≠ thread) :
    track next start thread (more ++ trace) = track next start thread trace := by
  induction more with
  | nil => rfl
  | cons entry more inductionHypothesis =>
    obtain ⟨other, event⟩ := entry
    have different : other ≠ thread := silent _ List.mem_cons_self
    rw [List.cons_append, track_other next start event _ different]
    exact inductionHypothesis fun later listed => silent later (List.mem_cons_of_mem _ listed)

/-- What a program has no event of leaves it where it started. -/
theorem track_absent (next : γ → Event ports ε → γ) (start : γ) {thread : ℕ}
    {trace : History ports ε} (absent : ∀ entry ∈ trace, entry.1 ≠ thread) :
    track next start thread trace = start := by
  have silent := track_silent next start [] absent
  rwa [List.append_nil] at silent

/-! ## What has been written -/

/-- The value of a register that some events write, from what was there first. -/
def lastWrite {ν : Type} (writes : ℕ → Event ports ε → Option ν) (first : ν) : History ports ε → ν
  | [] => first
  | (thread, event) :: earlier => (writes thread event).getD (lastWrite writes first earlier)

/-- The events after a program's own latest event of a kind. -/
def since (test : Event ports ε → Bool) (thread : ℕ) : History ports ε → History ports ε
  | [] => []
  | (other, event) :: earlier =>
      if other = thread ∧ test event = true then [] else (other, event) :: since test thread earlier

/-- What came before a program's own latest event of a kind. -/
def upTo (test : Event ports ε → Bool) (thread : ℕ) : History ports ε → History ports ε
  | [] => []
  | (other, event) :: earlier =>
      if other = thread ∧ test event = true then earlier else upTo test thread earlier

theorem upTo_own {test : Event ports ε → Bool} {thread : ℕ} {event : Event ports ε}
    (passes : test event = true) (trace : History ports ε) :
    upTo test thread ((thread, event) :: trace) = trace := if_pos ⟨rfl, passes⟩

theorem upTo_skip {test : Event ports ε → Bool} {thread other : ℕ} {event : Event ports ε}
    (skipped : other ≠ thread ∨ test event = false) (trace : History ports ε) :
    upTo test thread ((other, event) :: trace) = upTo test thread trace := by
  apply if_neg
  rintro ⟨same, passes⟩
  rcases skipped with different | fails
  · exact different same
  · rw [fails] at passes
    contradiction

/-- After a program's own write, the register holds what was written then or since. -/
theorem lastWrite_since {ν : Type} {writes : ℕ → Event ports ε → Option ν} (first : ν)
    {test : Event ports ε → Bool} {thread : ℕ} {good : ν → Prop} {trace : History ports ε}
    (wrote : ∃ entry ∈ trace, entry.1 = thread ∧ test entry.2 = true)
    (own : ∀ entry ∈ trace, entry.1 = thread → test entry.2 = true →
      ∃ value, writes entry.1 entry.2 = some value ∧ good value)
    (others : ∀ entry ∈ since test thread trace, ∀ value,
      writes entry.1 entry.2 = some value → good value) : good (lastWrite writes first trace) := by
  induction trace with
  | nil =>
    obtain ⟨entry, listed, _⟩ := wrote
    exact absurd listed List.not_mem_nil
  | cons latest earlier inductionHypothesis =>
    obtain ⟨other, event⟩ := latest
    by_cases mine : other = thread ∧ test event = true
    · obtain ⟨value, written, isGood⟩ := own _ List.mem_cons_self mine.1 mine.2
      rw [lastWrite, written]
      exact isGood
    · rw [since, if_neg mine] at others
      cases written : writes other event with
      | some value =>
        rw [lastWrite, written]
        exact others _ List.mem_cons_self value written
      | none =>
        rw [lastWrite, written]
        refine inductionHypothesis ?_ (fun entry listed => own entry (List.mem_cons_of_mem _ listed))
          fun entry listed => others entry (List.mem_cons_of_mem _ listed)
        obtain ⟨entry, listed, owner, passes⟩ := wrote
        rcases List.mem_cons.mp listed with rfl | listed
        · exact absurd ⟨owner, passes⟩ mine
        · exact ⟨entry, listed, owner, passes⟩

/-- Every event is right, given what came before it. -/
def Throughout (right : ℕ → Event ports ε → History ports ε → Prop) : History ports ε → Prop
  | [] => True
  | (thread, event) :: earlier => right thread event earlier ∧ Throughout right earlier

theorem Throughout.holds {right : ℕ → Event ports ε → History ports ε → Prop}
    {later earlier : History ports ε} {thread : ℕ} {event : Event ports ε}
    (throughout : Throughout right (later ++ (thread, event) :: earlier)) :
    right thread event earlier := by
  induction later with
  | nil => exact throughout.1
  | cons latest later inductionHypothesis => exact inductionHypothesis throughout.2

/-! ## Counting events -/

/-- The number of events that pass a test. -/
def tally (test : Event ports ε → Bool) (trace : History ports ε) : ℕ :=
  trace.countP fun entry => test entry.2

/-- The number of one program's events that pass a test. -/
def tallyOf (thread : ℕ) (test : Event ports ε → Bool) (trace : History ports ε) : ℕ :=
  trace.countP fun entry => decide (entry.1 = thread) && test entry.2

section Counting

variable (test : Event ports ε → Bool) (thread : ℕ) (event : Event ports ε)
  (trace : History ports ε)

@[simp] theorem tally_nil : tally test ([] : History ports ε) = 0 := rfl

@[simp] theorem tallyOf_nil : tallyOf thread test ([] : History ports ε) = 0 := rfl

theorem tally_cons : tally test ((thread, event) :: trace) =
    tally test trace + if test event then 1 else 0 :=
  List.countP_cons

theorem tallyOf_own : tallyOf thread test ((thread, event) :: trace) =
    tallyOf thread test trace + if test event then 1 else 0 := by
  simp [tallyOf, List.countP_cons]

theorem tallyOf_other {other : ℕ} (different : other ≠ thread) :
    tallyOf thread test ((other, event) :: trace) = tallyOf thread test trace := by
  simp [tallyOf, different]

/-- All events are events of some program. -/
theorem tally_eq_sum (threads : Finset ℕ) (known : ∀ entry ∈ trace, entry.1 ∈ threads) :
    tally test trace = ∑ thread ∈ threads, tallyOf thread test trace := by
  induction trace with
  | nil => simp
  | cons entry trace inductionHypothesis =>
    obtain ⟨other, event⟩ := entry
    have listed : other ∈ threads := known _ List.mem_cons_self
    have rest := inductionHypothesis fun later stored => known later (List.mem_cons_of_mem _ stored)
    have each (thread : ℕ) : tallyOf thread test ((other, event) :: trace) =
        tallyOf thread test trace + if other = thread then (if test event then 1 else 0) else 0 := by
      by_cases same : other = thread
      · subst same
        rw [tallyOf_own, if_pos rfl]
      · rw [tallyOf_other test thread event trace same, if_neg same, Nat.add_zero]
    rw [tally_cons, rest, Finset.sum_congr rfl fun thread _ => each thread, Finset.sum_add_distrib,
      Finset.sum_ite_eq, if_pos listed]

/-- A bound that every program keeps to is one for all of them together. -/
theorem tally_le (other : Event ports ε → Bool) (factor : ℕ)
    (each : ∀ thread, tallyOf thread test trace ≤ factor * tallyOf thread other trace) :
    tally test trace ≤ factor * tally other trace := by
  have known : ∀ entry ∈ trace, entry.1 ∈ (trace.map Prod.fst).toFinset := by
    intro entry listed
    simpa using ⟨entry.2, listed⟩
  rw [tally_eq_sum test trace _ known, tally_eq_sum other trace _ known, Finset.mul_sum]
  exact Finset.sum_le_sum fun thread _ => each thread

end Counting

/-- Programs that share one state. A finished program stays in its place. -/
structure Pool (ports : Interface) (ε α σ : Type) where
  world : σ
  threads : ℕ → Program ports ε α
  trace : History ports ε

namespace Pool

/-- The pool in which nothing has been answered yet. -/
def start (world : σ) (threads : ℕ → Program ports ε α) : Pool ports ε α σ :=
  ⟨world, threads, []⟩

/-- Answer the call that a program waits for and record the answer. -/
def answer (server : Server ports ε σ χ) (pool : Pool ports ε α σ) (thread : ℕ)
    (call : ports.Call) (resume : Except ε (ports.Answer call) → Program ports ε α)
    (choice : χ) : Pool ports ε α σ where
  world := (server.serve choice call pool.world).2
  threads := Function.update pool.threads thread
    (resume (server.serve choice call pool.world).1)
  trace := (thread, ⟨call, (server.serve choice call pool.world).1⟩) :: pool.trace

/-- The pools of every interleaving whose steps are all permitted. -/
inductive Reaches (server : Server ports ε σ χ)
    (permits : σ → History ports ε → ℕ → ports.Call → χ → Prop)
    (first : Pool ports ε α σ) : Pool ports ε α σ → Prop where
  | start : Reaches server permits first first
  | step (pool : Pool ports ε α σ) (thread : ℕ) (call : ports.Call)
      (resume : Except ε (ports.Answer call) → Program ports ε α) (choice : χ)
      (reached : Reaches server permits first pool)
      (waiting : pool.threads thread = .ask call resume)
      (isReady : server.ready choice call pool.world = true)
      (permitted : permits pool.world pool.trace thread call choice) :
      Reaches server permits first (pool.answer server thread call resume choice)

/-- Reaching in two stretches is reaching. -/
theorem Reaches.append {server : Server ports ε σ χ}
    {permits : σ → History ports ε → ℕ → ports.Call → χ → Prop}
    {first middle last : Pool ports ε α σ} (reached : Reaches server permits first middle)
    (onwards : Reaches server permits middle last) : Reaches server permits first last := by
  induction onwards with
  | start => exact reached
  | step pool thread call resume choice _ waiting isReady permitted inductionHypothesis =>
    exact .step pool thread call resume choice inductionHypothesis waiting isReady permitted

/-- What is reached under a condition is reached under a weaker one. -/
theorem Reaches.mono {server : Server ports ε σ χ}
    {strong weak : σ → History ports ε → ℕ → ports.Call → χ → Prop}
    (weaker : ∀ world trace thread call choice, strong world trace thread call choice →
      weak world trace thread call choice)
    {first pool : Pool ports ε α σ} (reached : Reaches server strong first pool) :
    Reaches server weak first pool := by
  induction reached with
  | start => exact .start
  | step pool thread call resume choice _ waiting isReady permitted inductionHypothesis =>
    exact .step pool thread call resume choice inductionHypothesis waiting isReady
      (weaker _ _ _ _ _ permitted)

/-- Whether a program has returned. -/
def hasReturned : Program ports ε α → Bool
  | .done _ => true
  | _ => false

theorem hasReturned_iff (program : Program ports ε α) :
    hasReturned program = true ↔ ∃ value, program = .done value := by
  cases program with
  | done value => exact iff_of_true rfl ⟨value, rfl⟩
  | fail error => exact iff_of_false Bool.false_ne_true nofun
  | ask call resume => exact iff_of_false Bool.false_ne_true nofun

/-- A program that has returned stays so. -/
theorem Reaches.finished {server : Server ports ε σ χ}
    {permits : σ → History ports ε → ℕ → ports.Call → χ → Prop} {first pool : Pool ports ε α σ}
    (reached : Reaches server permits first pool) {thread : ℕ} {value : α}
    (returned : first.threads thread = .done value) : pool.threads thread = .done value := by
  induction reached with
  | start => exact returned
  | step pool other call resume choice _ waiting _ _ inductionHypothesis =>
    have different : thread ≠ other := by
      rintro rfl
      rw [inductionHypothesis] at waiting
      nomatch waiting
    exact (Function.update_of_ne different _ _).trans inductionHypothesis

/-- A program that has returned makes no more calls. -/
theorem Reaches.silent {server : Server ports ε σ χ}
    {permits : σ → History ports ε → ℕ → ports.Call → χ → Prop}
    {first pool : Pool ports ε α σ} (reached : Reaches server permits first pool) {thread : ℕ}
    {value : α} (returned : first.threads thread = .done value) :
    ∃ more, pool.trace = more ++ first.trace ∧ ∀ entry ∈ more, entry.1 ≠ thread := by
  induction reached with
  | start => exact ⟨[], rfl, fun entry listed => absurd listed List.not_mem_nil⟩
  | step pool other call resume choice before waiting _ _ inductionHypothesis =>
    obtain ⟨more, extended, silent⟩ := inductionHypothesis
    have different : other ≠ thread := by
      rintro rfl
      rw [before.finished returned] at waiting
      nomatch waiting
    refine ⟨_ :: more, congrArg _ extended, fun entry listed => ?_⟩
    rcases List.mem_cons.mp listed with rfl | listed
    · exact different
    · exact silent entry listed

/-- A schedule names the program that moves and the choice made for its call. The
result is absent when a step is impossible or not permitted. -/
def run (server : Server ports ε σ χ)
    (permits : σ → History ports ε → ℕ → ports.Call → χ → Prop)
    [∀ world trace thread call choice, Decidable (permits world trace thread call choice)] :
    List (ℕ × χ) → Pool ports ε α σ → Option (Pool ports ε α σ)
  | [], pool => some pool
  | (thread, choice) :: schedule, pool =>
      match pool.threads thread with
      | .ask call resume =>
          if server.ready choice call pool.world = true ∧
              permits pool.world pool.trace thread call choice then
            run server permits schedule (pool.answer server thread call resume choice)
          else none
      | _ => none

/-- A completed schedule reaches its pool. -/
theorem run_reaches (server : Server ports ε σ χ)
    (permits : σ → History ports ε → ℕ → ports.Call → χ → Prop)
    [∀ world trace thread call choice, Decidable (permits world trace thread call choice)]
    (schedule : List (ℕ × χ)) (first last : Pool ports ε α σ)
    (completed : run server permits schedule first = some last) :
    Reaches server permits first last := by
  induction schedule generalizing first with
  | nil =>
    simp only [run, Option.some.injEq] at completed
    exact completed ▸ .start
  | cons entry schedule inductionHypothesis =>
    obtain ⟨thread, choice⟩ := entry
    cases waiting : first.threads thread with
    | done value => simp [run, waiting] at completed
    | fail error => simp [run, waiting] at completed
    | ask call resume =>
      simp only [run, waiting, Option.ite_none_right_eq_some] at completed
      obtain ⟨⟨isReady, permitted⟩, rest⟩ := completed
      exact (Reaches.step first thread call resume choice .start waiting isReady
        permitted).append (inductionHypothesis _ rest)

/-- A schedule that completes and passes a test shows that there is such a pool. -/
theorem exists_reached_of_run (server : Server ports ε σ χ)
    (permits : σ → History ports ε → ℕ → ports.Call → χ → Prop)
    [∀ world trace thread call choice, Decidable (permits world trace thread call choice)]
    (schedule : List (ℕ × χ)) (first : Pool ports ε α σ) (test : Pool ports ε α σ → Bool)
    (passes : (run server permits schedule first).any test = true) :
    ∃ pool, Reaches server permits first pool ∧ test pool = true := by
  obtain ⟨pool, completed, passed⟩ := (Option.any_eq_true _ _).mp passes
  exact ⟨pool, run_reaches server permits schedule first pool completed, passed⟩

/-- Two schedules, one after the other, and a test for what each of them reaches. -/
theorem exists_stretches_of_run (server : Server ports ε σ χ)
    (permits : σ → History ports ε → ℕ → ports.Call → χ → Prop)
    [∀ world trace thread call choice, Decidable (permits world trace thread call choice)]
    (schedule onwards : List (ℕ × χ)) (first : Pool ports ε α σ)
    (test finalTest : Pool ports ε α σ → Bool)
    (passes : ((run server permits schedule first).any fun pool =>
      test pool && (run server permits onwards pool).any finalTest) = true) :
    ∃ pool last, Reaches server permits first pool ∧ test pool = true ∧
      Reaches server permits pool last ∧ finalTest last = true := by
  obtain ⟨pool, reached, both⟩ := exists_reached_of_run server permits schedule first _ passes
  obtain ⟨tested, rest⟩ := (Bool.and_eq_true _ _).mp both
  obtain ⟨last, onward, final⟩ := exists_reached_of_run server permits onwards pool _ rest
  exact ⟨pool, last, reached, tested, onward, final⟩

section Invariants

variable {server : Server ports ε σ χ}
  {permits : σ → History ports ε → ℕ → ports.Call → χ → Prop}

/-- Every program follows its protocol from its stage and keeps its promise. -/
def Follow (protocols : ℕ → Protocol ports ε γ) (promise : ℕ → Except ε α → γ → Prop)
    (pool : Pool ports ε α σ) (stages : ℕ → γ) : Prop :=
  ∀ thread, Ensures (protocols thread).spec (pool.threads thread) (promise thread)
    (stages thread)

/-- A relation between the state, the trace and all stages that every allowed,
permitted step keeps holds throughout, with the programs still on their protocols. -/
theorem Reaches.invariant {first pool : Pool ports ε α σ}
    (reached : Reaches server permits first pool)
    {protocols : ℕ → Protocol ports ε γ} {promise : ℕ → Except ε α → γ → Prop}
    {invariant : σ → History ports ε → (ℕ → γ) → Prop}
    (keeps : ∀ world trace stages thread call choice, invariant world trace stages →
      (protocols thread).allows (stages thread) call →
      server.ready choice call world = true → permits world trace thread call choice →
        invariant (server.serve choice call world).2
          ((thread, ⟨call, (server.serve choice call world).1⟩) :: trace)
          (Function.update stages thread
            ((protocols thread).next (stages thread) call (server.serve choice call world).1)))
    {stages : ℕ → γ} (follow : Follow protocols promise first stages)
    (initially : invariant first.world first.trace stages) :
    ∃ stages, invariant pool.world pool.trace stages ∧ Follow protocols promise pool stages := by
  induction reached with
  | start => exact ⟨stages, initially, follow⟩
  | step pool thread call resume choice _ waiting isReady permitted inductionHypothesis =>
    obtain ⟨stages, holds, follow⟩ := inductionHypothesis
    have conforms := follow thread
    rw [waiting, ensures_ask] at conforms
    refine ⟨_, keeps _ _ _ _ _ choice holds conforms.1 isReady permitted, fun other => ?_⟩
    by_cases same : other = thread
    · subst same
      simpa only [answer, Function.update_self] using conforms.2 _
    · simpa only [answer, Function.update_of_ne same] using follow other

/-- A program that has returned has kept its promise. -/
theorem Follow.returned {protocols : ℕ → Protocol ports ε γ}
    {promise : ℕ → Except ε α → γ → Prop} {pool : Pool ports ε α σ} {stages : ℕ → γ}
    (follow : Follow protocols promise pool stages) {thread : ℕ} {value : α}
    (returned : pool.threads thread = .done value) :
    promise thread (.ok value) (stages thread) := by
  have conforms := follow thread
  rwa [returned, ensures_done] at conforms

/-- A program at a call is allowed to make it. -/
theorem Follow.allowed {protocols : ℕ → Protocol ports ε γ}
    {promise : ℕ → Except ε α → γ → Prop} {pool : Pool ports ε α σ} {stages : ℕ → γ}
    (follow : Follow protocols promise pool stages) {thread : ℕ} {call : ports.Call}
    {resume : Except ε (ports.Answer call) → Program ports ε α}
    (waiting : pool.threads thread = .ask call resume) :
    (protocols thread).allows (stages thread) call := by
  have conforms := follow thread
  rw [waiting, ensures_ask] at conforms
  exact conforms.1

end Invariants

end Pool

end Programs
