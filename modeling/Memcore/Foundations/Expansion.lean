import Memcore.Foundations.Programs

/-!
# Programs over other calls

A call that is atomic at one level may be a program at the level below. Expanding a program
carries out each of its calls by such a program. The outcome of a call, an error included, is
handed back as a value, so that a failure of the lower level is never caught above. Carrying a
program over is the case in which the two levels fail in the same way.

The rules say how to verify the lower level: verify the upper one against what the programs
that carry out its calls guarantee.
-/
namespace Programs

open Program

variable {ports target further : Interface} {ε δ α β τ : Type}

namespace Program

/-- Carry out every call by a program over other calls. The outcome becomes a value. -/
def expand (handler : (call : ports.Call) → Program target δ (Except ε (ports.Answer call))) :
    Program ports ε α → Program target δ (Except ε α)
  | done value => done (.ok value)
  | fail error => done (.error error)
  | ask call resume => (handler call).bind fun answer => (resume answer).expand handler

/-- Carry out every call by a program over other calls that fails as the call does. -/
def carry (handler : (call : ports.Call) → Program target ε (ports.Answer call)) :
    Program ports ε α → Program target ε α
  | done value => done value
  | fail error => fail error
  | ask call resume => (handler call).attempt.bind fun answer => (resume answer).carry handler

section Laws

variable (handler : (call : ports.Call) → Program target ε (ports.Answer call))

@[simp] theorem carry_pure (value : α) :
    (pure value : Program ports ε α).carry handler = pure value := rfl

/-- Sequencing after an attempt whose outcome is looked at. -/
theorem attempt_bind_attempt (first : Program target ε α)
    (second : Except ε α → Program target ε β) :
    (first.attempt.bind second).attempt = first.attempt.bind fun answer => (second answer).attempt := by
  induction first with
  | done value => rfl
  | fail error => rfl
  | ask call resume inductionHypothesis =>
    exact congrArg (ask call) (funext inductionHypothesis)

theorem attempt_bind_bind (first : Program target ε α)
    (second : Except ε α → Program target ε β) {η : Type} (third : β → Program target ε η) :
    (first.attempt.bind second).bind third =
      first.attempt.bind fun answer => (second answer).bind third :=
  bind_assoc first.attempt second third

/-- Both parts of a sequence are carried over. -/
theorem carry_bind (program : Program ports ε α) (next : α → Program ports ε β) :
    (program >>= next).carry handler =
      program.carry handler >>= fun value => (next value).carry handler := by
  show (program.bind next).carry handler =
    (program.carry handler).bind fun value => (next value).carry handler
  induction program with
  | done value => rfl
  | fail error => rfl
  | ask call resume inductionHypothesis =>
    show (handler call).attempt.bind (fun answer => ((resume answer).bind next).carry handler) =
      ((handler call).attempt.bind fun answer => (resume answer).carry handler).bind _
    rw [attempt_bind_bind]
    exact congrArg _ (funext inductionHypothesis)

/-- An attempt and then its outcome as it stands are the program. -/
theorem attempt_check (program : Program target ε α) :
    program.attempt.bind Program.check = program := by
  induction program with
  | done value => rfl
  | fail error => rfl
  | ask call resume inductionHypothesis =>
    exact congrArg (ask call) (funext inductionHypothesis)

/-- One call is carried out by its program. -/
theorem carry_call (request : ports.Call) :
    (call request : Program ports ε (ports.Answer request)).carry handler = handler request := by
  refine Eq.trans ?_ (attempt_check (handler request))
  refine congrArg (handler request).attempt.bind (funext fun answer => ?_)
  cases answer <;> rfl

/-- Carried out by itself, every call stays. -/
theorem carry_self (program : Program ports ε α) : program.carry Program.call = program := by
  induction program with
  | done value => rfl
  | fail error => rfl
  | ask call resume inductionHypothesis =>
    refine congrArg (ask call) (funext fun answer => ?_)
    cases answer <;> exact inductionHypothesis _

theorem carry_attempt_bind (first : Program ports ε β)
    (next : Except ε β → Program ports ε α) :
    (first.attempt.bind next).carry handler =
      (first.carry handler).attempt.bind fun answer => (next answer).carry handler := by
  induction first with
  | done value => rfl
  | fail error => rfl
  | ask call resume inductionHypothesis =>
    show (handler call).attempt.bind (fun answer => ((resume answer).attempt.bind next).carry handler)
      = ((handler call).attempt.bind fun answer => (resume answer).carry handler).attempt.bind _
    rw [attempt_bind_attempt, attempt_bind_bind]
    exact congrArg _ (funext inductionHypothesis)

/-- Carrying over twice is carrying over by programs that are carried over. -/
theorem carry_carry (onwards : (call : target.Call) → Program further ε (target.Answer call))
    (program : Program ports ε α) : (program.carry handler).carry onwards =
      program.carry fun call => (handler call).carry onwards := by
  induction program with
  | done value => rfl
  | fail error => rfl
  | ask call resume inductionHypothesis =>
    show ((handler call).attempt.bind _).carry onwards = _
    rw [carry_attempt_bind]
    exact congrArg _ (funext inductionHypothesis)

/-- Calls that are carried out within what is allowed below keep the whole program there. -/
theorem Within.carry {allowed : ports.Call → Prop} {below : target.Call → Prop}
    (within : ∀ request, allowed request → (handler request).Within below)
    {program : Program ports ε α} (allows : program.Within allowed) :
    (program.carry handler).Within below := by
  induction allows with
  | done value => exact .done value
  | fail error => exact .fail error
  | ask isAllowed _ inductionHypothesis =>
    exact (within _ isAllowed).attempt.bind inductionHypothesis

end Laws

end Program

/-! ## Rules -/

section Rules

variable (spec : Spec target δ τ)

/-- What a call guarantees that is carried out under a specification of the other calls. -/
def Spec.through (handler : (call : ports.Call) → Program target δ (Except ε (ports.Answer call))) :
    Spec ports ε τ :=
  fun call state post => Succeeds spec (handler call) post state

/-- The same for a call that fails as its program does. -/
def Spec.under (handler : (call : ports.Call) → Program target δ (ports.Answer call)) :
    Spec ports δ τ :=
  fun call state post => Ensures spec (handler call) post state

theorem Spec.under_monotone (monotone : spec.Monotone)
    (handler : (call : ports.Call) → Program target δ (ports.Answer call)) :
    (spec.under handler).Monotone :=
  fun _ _ _ _ weaker holds => Ensures.mono monotone holds weaker

theorem Spec.through_monotone (monotone : spec.Monotone)
    (handler : (call : ports.Call) → Program target δ (Except ε (ports.Answer call))) :
    (spec.through handler).Monotone :=
  fun _ _ _ _ weaker holds => Succeeds.mono monotone holds weaker

/-- An expanded program succeeds as the program does above. -/
theorem succeeds_expand
    (handler : (call : ports.Call) → Program target δ (Except ε (ports.Answer call)))
    (program : Program ports ε α) (post : Except ε α → τ → Prop) (state : τ) :
    Succeeds spec (program.expand handler) post state ↔
      Ensures (spec.through handler) program post state := by
  induction program generalizing state with
  | done value =>
    exact (succeeds_pure spec state (Except.ok value : Except ε α) post).trans
      (ensures_done (spec.through handler) state post value).symm
  | fail error =>
    exact (succeeds_pure spec state (Except.error error : Except ε α) post).trans
      (ensures_fail (spec.through handler) state post error).symm
  | ask call resume inductionHypothesis =>
    have same : (fun answer later => Succeeds spec ((resume answer).expand handler) post later) =
        fun answer later => Ensures (spec.through handler) (resume answer) post later := by
      funext answer later
      exact propext (inductionHypothesis answer later)
    refine Iff.trans ?_ (ensures_ask (spec.through handler) state call resume post).symm
    rw [← same]
    exact succeeds_bind spec state (handler call) (fun answer => (resume answer).expand handler) post

/-- A program that is carried over ensures what it ensures above. -/
theorem ensures_carry (handler : (call : ports.Call) → Program target δ (ports.Answer call))
    (program : Program ports δ α) (post : Except δ α → τ → Prop) (state : τ) :
    Ensures spec (program.carry handler) post state ↔
      Ensures (spec.under handler) program post state := by
  induction program generalizing state with
  | done value =>
    exact (ensures_done spec state post value).trans
      (ensures_done (spec.under handler) state post value).symm
  | fail error =>
    exact (ensures_fail spec state post error).trans
      (ensures_fail (spec.under handler) state post error).symm
  | ask call resume inductionHypothesis =>
    have same : (fun answer later => Ensures spec ((resume answer).carry handler) post later) =
        fun answer later => Ensures (spec.under handler) (resume answer) post later := by
      funext answer later
      exact propext (inductionHypothesis answer later)
    refine Iff.trans ?_ (ensures_ask (spec.under handler) state call resume post).symm
    rw [← same]
    refine (ensures_bind spec state (handler call).attempt
      (fun answer => (resume answer).carry handler) post).trans ?_
    exact ensures_attempt spec state (handler call) _

end Rules

end Programs
