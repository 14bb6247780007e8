import Mathlib.Logic.Basic

/-!
# Programs as trees of atomic calls

A program asks its surroundings for one atomic call at a time and resumes with
the answer, which may be an error. The same tree can be run to completion alone
or be interleaved with others, since nothing but its calls touches the shared
state. A server answers calls: it owns the state and receives, for each call, a
choice standing for everything that the surroundings contribute.

Reasoning goes through one predicate transformer. A specification says what may
be assumed of the answer to a call, and `Ensures` folds it over the tree. Servers
and stage protocols are both specifications, and a protocol that a server
simulates carries its conclusions over to every run on that server.
-/
namespace Programs

/-- The calls a program may make, and the type of answer that each receives. -/
structure Interface where
  Call : Type
  Answer : Call → Type

/-- A program returns a value, fails, or asks for one call and resumes with its
answer. Resumption is given the error too, so that a program may tolerate it. -/
inductive Program (ports : Interface) (ε α : Type) : Type where
  | done (value : α) : Program ports ε α
  | fail (error : ε) : Program ports ε α
  | ask (call : ports.Call) (resume : Except ε (ports.Answer call) → Program ports ε α) :
      Program ports ε α

/-- One call together with the answer that it received. -/
structure Event (ports : Interface) (ε : Type) where
  call : ports.Call
  answer : Except ε (ports.Answer call)

variable {ports : Interface} {ε α β σ χ τ γ : Type}

namespace Program

/-- Continue with the returned value; a failure skips the continuation. -/
def bind : Program ports ε α → (α → Program ports ε β) → Program ports ε β
  | done value, next => next value
  | fail error, _ => fail error
  | ask call resume, next => ask call fun answer => (resume answer).bind next

instance : Monad (Program ports ε) where
  pure := done
  bind := bind

theorem bind_assoc (first : Program ports ε α) (second : α → Program ports ε β)
    {δ : Type} (third : β → Program ports ε δ) :
    (first >>= second) >>= third = first >>= fun value => second value >>= third := by
  show (first.bind second).bind third = first.bind fun value => (second value).bind third
  induction first with
  | done value => rfl
  | fail error => rfl
  | ask call resume inductionHypothesis =>
    exact congrArg (ask call) (funext inductionHypothesis)

/-- Make one call and fail with the error that it is answered with, if any. -/
def call (request : ports.Call) : Program ports ε (ports.Answer request) :=
  ask request fun
    | .ok value => done value
    | .error error => fail error

/-- Run a program and return its outcome as a value, so that it cannot fail. -/
def attempt : Program ports ε α → Program ports ε (Except ε α)
  | done value => done (.ok value)
  | fail error => done (.error error)
  | ask call resume => ask call fun answer => (resume answer).attempt

/-- A check that makes no call: it returns or fails as it stands. -/
def check : Except ε α → Program ports ε α
  | .ok value => done value
  | .error error => fail error

end Program

open Program

/-! ## Specifications of the answers to calls -/

/-- What a call made in a state guarantees about its answer and the next state. -/
def Spec (ports : Interface) (ε τ : Type) : Type :=
  (call : ports.Call) → τ → (Except ε (ports.Answer call) → τ → Prop) → Prop

/-- A specification that passes from one postcondition to a weaker one. -/
def Spec.Monotone (spec : Spec ports ε τ) : Prop :=
  ∀ call state (strong weak : Except ε (ports.Answer call) → τ → Prop),
    (∀ answer next, strong answer next → weak answer next) →
      spec call state strong → spec call state weak

/-- The postcondition holds however the calls are answered within the
specification. -/
def Ensures (spec : Spec ports ε τ) :
    Program ports ε α → (Except ε α → τ → Prop) → τ → Prop
  | done value, post, state => post (.ok value) state
  | fail error, post, state => post (.error error) state
  | ask call resume, post, state =>
      spec call state fun answer next => Ensures spec (resume answer) post next

/-- The postcondition of a first part whose returned value the rest consumes. -/
def andThen (spec : Spec ports ε τ) (next : α → Program ports ε β)
    (post : Except ε β → τ → Prop) : Except ε α → τ → Prop
  | .ok value, state => Ensures spec (next value) post state
  | .error error, state => post (.error error) state

section Rules

variable (spec : Spec ports ε τ) (state : τ)

@[simp] theorem andThen_ok (next : α → Program ports ε β) (post : Except ε β → τ → Prop)
    (value : α) : andThen spec next post (.ok value) state ↔
      Ensures spec (next value) post state := Iff.rfl

@[simp] theorem andThen_error (next : α → Program ports ε β) (post : Except ε β → τ → Prop)
    (error : ε) : andThen spec next post (.error error) state ↔
      post (.error error) state := Iff.rfl

@[simp] theorem ensures_done (post : Except ε α → τ → Prop) (value : α) :
    Ensures spec (done value : Program ports ε α) post state ↔ post (.ok value) state := Iff.rfl

@[simp] theorem ensures_pure (post : Except ε α → τ → Prop) (value : α) :
    Ensures spec (pure value : Program ports ε α) post state ↔ post (.ok value) state := Iff.rfl

@[simp] theorem ensures_fail (post : Except ε α → τ → Prop) (error : ε) :
    Ensures spec (fail error : Program ports ε α) post state ↔ post (.error error) state := Iff.rfl

theorem ensures_ask (call : ports.Call)
    (resume : Except ε (ports.Answer call) → Program ports ε α)
    (post : Except ε α → τ → Prop) : Ensures spec (ask call resume) post state ↔
      spec call state fun answer next => Ensures spec (resume answer) post next := Iff.rfl

/-- Sequencing composes: the second part starts where the first one ends. -/
@[simp] theorem ensures_bind (program : Program ports ε α) (next : α → Program ports ε β)
    (post : Except ε β → τ → Prop) :
    Ensures spec (program >>= next) post state ↔
      Ensures spec program (andThen spec next post) state := by
  show Ensures spec (program.bind next) post state ↔ _
  induction program generalizing state with
  | done value => rfl
  | fail error => rfl
  | ask call resume inductionHypothesis =>
    have same : (fun answer later => Ensures spec ((resume answer).bind next) post later) =
        fun answer later => Ensures spec (resume answer) (andThen spec next post) later := by
      funext answer later
      exact propext (inductionHypothesis answer later)
    show spec call state _ ↔ spec call state _
    rw [same]

/-- A single call guarantees what the specification says of it. The two cases of
its answer are the two continuations of the call. -/
theorem ensures_call (request : ports.Call)
    (post : Except ε (ports.Answer request) → τ → Prop) :
    Ensures spec (call request) post state ↔ spec request state post := by
  have same : (fun answer next => Ensures spec
      (match answer with
        | .ok value => done value
        | .error error => fail error : Program ports ε (ports.Answer request)) post next) = post := by
    funext answer next
    cases answer <;> rfl
  exact iff_of_eq (congrArg (spec request state) same)

@[simp] theorem ensures_attempt (program : Program ports ε α)
    (post : Except ε (Except ε α) → τ → Prop) :
    Ensures spec program.attempt post state ↔
      Ensures spec program (fun outcome => post (.ok outcome)) state := by
  induction program generalizing state with
  | done value => rfl
  | fail error => rfl
  | ask call resume inductionHypothesis =>
    have same : (fun answer next => Ensures spec (resume answer).attempt post next) =
        fun answer next => Ensures spec (resume answer) (fun outcome => post (.ok outcome)) next := by
      funext answer next
      exact propext (inductionHypothesis answer next)
    show spec call state _ ↔ spec call state _
    rw [same]

@[simp] theorem ensures_check (outcome : Except ε α) (post : Except ε α → τ → Prop) :
    Ensures spec (check outcome : Program ports ε α) post state ↔ post outcome state := by
  cases outcome <;> rfl

variable {spec state}

/-- Weakening of the postcondition, for specifications that admit it. -/
theorem Ensures.mono (monotone : spec.Monotone) {program : Program ports ε α}
    {strong weak : Except ε α → τ → Prop}
    (ensured : Ensures spec program strong state)
    (weaker : ∀ outcome final, strong outcome final → weak outcome final) :
    Ensures spec program weak state := by
  induction program generalizing state with
  | done value => exact weaker _ _ ensured
  | fail error => exact weaker _ _ ensured
  | ask call resume inductionHypothesis =>
    exact monotone call state _ _ (fun answer next holds => inductionHypothesis answer holds) ensured

end Rules

/-! ## Partial correctness -/

/-- A postcondition on returned values; failures promise nothing. -/
def onSuccess (good : α → τ → Prop) : Except ε α → τ → Prop
  | .ok value, state => good value state
  | .error _, _ => True

/-- Whenever the program returns, the value and the state are good. -/
def Succeeds (spec : Spec ports ε τ) (program : Program ports ε α) (good : α → τ → Prop)
    (state : τ) : Prop :=
  Ensures spec program (onSuccess good) state

@[simp] theorem onSuccess_ok (good : α → τ → Prop) (value : α) (state : τ) :
    onSuccess good (.ok value : Except ε α) state ↔ good value state := Iff.rfl

@[simp] theorem onSuccess_error (good : α → τ → Prop) (error : ε) (state : τ) :
    onSuccess good (.error error) state ↔ True := Iff.rfl

section SuccessRules

variable (spec : Spec ports ε τ) (state : τ)

theorem succeeds_iff (program : Program ports ε α) (good : α → τ → Prop) :
    Succeeds spec program good state ↔ Ensures spec program (onSuccess good) state := Iff.rfl

@[simp] theorem succeeds_pure (value : α) (good : α → τ → Prop) :
    Succeeds spec (pure value : Program ports ε α) good state ↔ good value state := Iff.rfl

@[simp] theorem succeeds_fail (error : ε) (good : α → τ → Prop) :
    Succeeds spec (fail error : Program ports ε α) good state ↔ True := Iff.rfl

/-- Sequencing: the second part starts where the first one returned. -/
@[simp] theorem succeeds_bind (program : Program ports ε α) (next : α → Program ports ε β)
    (good : β → τ → Prop) : Succeeds spec (program >>= next) good state ↔
      Succeeds spec program (fun value later => Succeeds spec (next value) good later) state := by
  have same : andThen spec next (onSuccess good) =
      onSuccess fun value later => Succeeds spec (next value) good later := by
    funext outcome later
    cases outcome <;> rfl
  rw [Succeeds, ensures_bind, same]
  rfl

@[simp] theorem succeeds_check (outcome : Except ε α) (good : α → τ → Prop) :
    Succeeds spec (check outcome : Program ports ε α) good state ↔
      ∀ value, outcome = .ok value → good value state := by
  cases outcome with
  | ok value => simp [Succeeds, onSuccess]
  | error error => simp [Succeeds, onSuccess]

/-- An attempt always returns, with the outcome as its value. -/
@[simp] theorem succeeds_attempt (program : Program ports ε α)
    (good : Except ε α → τ → Prop) :
    Succeeds spec program.attempt good state ↔ Ensures spec program good state :=
  ensures_attempt spec state program (onSuccess good)

variable {spec state}

theorem Succeeds.mono (monotone : spec.Monotone) {program : Program ports ε α}
    {strong weak : α → τ → Prop} (succeeds : Succeeds spec program strong state)
    (weaker : ∀ value final, strong value final → weak value final) :
    Succeeds spec program weak state := by
  refine Ensures.mono monotone succeeds fun outcome final => ?_
  cases outcome with
  | ok value => exact weaker value final
  | error error => exact id

/-- Sequencing through a condition that holds between the two parts. -/
theorem Succeeds.bind (monotone : spec.Monotone) {program : Program ports ε α}
    {next : α → Program ports ε β} {middle : α → τ → Prop} {good : β → τ → Prop}
    (first : Succeeds spec program middle state)
    (second : ∀ value later, middle value later → Succeeds spec (next value) good later) :
    Succeeds spec (program >>= next) good state :=
  (succeeds_bind spec state program next good).mpr (first.mono monotone second)

end SuccessRules

/-! ## Failures that leave a safe state -/

/-- A postcondition on returned values, and a condition on the state after a failure. -/
def orSafe (safe : τ → Prop) (good : α → τ → Prop) : Except ε α → τ → Prop
  | .ok value, state => good value state
  | .error _, state => safe state

/-- Whenever the program returns, the value and the state are good, and whenever it
fails, the state is safe. -/
def Secures (spec : Spec ports ε τ) (program : Program ports ε α) (safe : τ → Prop)
    (good : α → τ → Prop) (state : τ) : Prop :=
  Ensures spec program (orSafe safe good) state

section SafetyRules

variable (spec : Spec ports ε τ) (safe : τ → Prop) (state : τ)

theorem secures_iff (program : Program ports ε α) (good : α → τ → Prop) :
    Secures spec program safe good state ↔ Ensures spec program (orSafe safe good) state := Iff.rfl

theorem secures_pure (value : α) (good : α → τ → Prop) :
    Secures spec (pure value : Program ports ε α) safe good state ↔ good value state := Iff.rfl

theorem secures_fail (error : ε) (good : α → τ → Prop) :
    Secures spec (fail error : Program ports ε α) safe good state ↔ safe state := Iff.rfl

/-- Sequencing: a failure of the first part is a failure of the whole. -/
theorem secures_bind (program : Program ports ε α) (next : α → Program ports ε β)
    (good : β → τ → Prop) : Secures spec (program >>= next) safe good state ↔
      Secures spec program safe (fun value later => Secures spec (next value) safe good later)
        state := by
  have same : andThen spec next (orSafe safe good) =
      orSafe safe fun value later => Secures spec (next value) safe good later := by
    funext outcome later
    cases outcome <;> rfl
  rw [Secures, ensures_bind, same]
  rfl

variable {spec safe state}

/-- A check may fail where the state is safe. -/
theorem secures_check {outcome : Except ε α} {good : α → τ → Prop} (isSafe : safe state)
    (enough : ∀ value, outcome = .ok value → good value state) :
    Secures spec (check outcome : Program ports ε α) safe good state := by
  apply (ensures_check _ _ _ _).mpr
  cases outcome with
  | ok value => exact enough value rfl
  | error error => exact isSafe

theorem Secures.mono (monotone : spec.Monotone) {program : Program ports ε α}
    {strong weak : α → τ → Prop} (secures : Secures spec program safe strong state)
    (weaker : ∀ value final, strong value final → weak value final) :
    Secures spec program safe weak state := by
  apply Ensures.mono monotone secures
  intro outcome final
  cases outcome with
  | ok value => exact weaker value final
  | error error => exact id

/-- Sequencing through a condition that holds between the two parts. -/
theorem Secures.bind (monotone : spec.Monotone) {program : Program ports ε α}
    {next : α → Program ports ε β} {middle : α → τ → Prop} {good : β → τ → Prop}
    (first : Secures spec program safe middle state)
    (second : ∀ value later, middle value later → Secures spec (next value) safe good later) :
    Secures spec (program >>= next) safe good state :=
  (secures_bind spec safe state program next good).mpr (first.mono monotone second)

/-- Nothing but the state matters when every outcome is to be safe. -/
theorem secures_safe {program : Program ports ε α} (monotone : spec.Monotone)
    (ensured : Ensures spec program (fun _ final => safe final) state) :
    Secures spec program safe (fun _ final => safe final) state := by
  apply Ensures.mono monotone ensured
  intro outcome final isSafe
  cases outcome <;> exact isSafe

end SafetyRules

/-! ## The calls that a program can make -/

namespace Program

/-- Whatever is answered, the program makes none but allowed calls. -/
inductive Within (allowed : ports.Call → Prop) : Program ports ε α → Prop where
  | done (value : α) : Within allowed (done value)
  | fail (error : ε) : Within allowed (fail error)
  | ask {call : ports.Call} {resume : Except ε (ports.Answer call) → Program ports ε α}
      (isAllowed : allowed call) (rest : ∀ answer, Within allowed (resume answer)) :
      Within allowed (ask call resume)

section Within

variable {allowed wider : ports.Call → Prop}

theorem Within.pure (value : α) : (pure value : Program ports ε α).Within allowed :=
  .done value

theorem Within.check (outcome : Except ε α) :
    (check outcome : Program ports ε α).Within allowed := by
  cases outcome with
  | ok value => exact .done value
  | error error => exact .fail error

theorem Within.call {request : ports.Call} (isAllowed : allowed request) :
    (call request : Program ports ε (ports.Answer request)).Within allowed := by
  refine .ask isAllowed fun answer => ?_
  cases answer with
  | ok value => exact .done value
  | error error => exact .fail error

/-- Both parts stay within what is allowed, the second one for any value. -/
theorem Within.bind {program : Program ports ε α} {next : α → Program ports ε β}
    (first : program.Within allowed) (second : ∀ value, (next value).Within allowed) :
    (program >>= next).Within allowed := by
  show (program.bind next).Within allowed
  induction first with
  | done value => exact second value
  | fail error => exact .fail error
  | ask isAllowed _ inductionHypothesis => exact .ask isAllowed inductionHypothesis

/-- Every value that the program may return is good, whatever is answered. -/
inductive Returns (good : α → Prop) : Program ports ε α → Prop where
  | done {value : α} (isGood : good value) : Returns good (done value)
  | fail (error : ε) : Returns good (fail error)
  | ask {call : ports.Call} {resume : Except ε (ports.Answer call) → Program ports ε α}
      (rest : ∀ answer, Returns good (resume answer)) : Returns good (ask call resume)

theorem Returns.check {good : α → Prop} {outcome : Except ε α}
    (passing : ∀ value, outcome = .ok value → good value) :
    (check outcome : Program ports ε α).Returns good := by
  cases outcome with
  | ok value => exact .done (passing value rfl)
  | error error => exact .fail error

theorem Returns.bind {good : β → Prop} {program : Program ports ε α}
    {next : α → Program ports ε β} (second : ∀ value, (next value).Returns good) :
    (program >>= next).Returns good := by
  show (program.bind next).Returns good
  induction program with
  | done value => exact second value
  | fail error => exact .fail error
  | ask call resume inductionHypothesis => exact .ask inductionHypothesis

/-- The second part may rely on what the first one returns. -/
theorem Within.bind_returns {good : α → Prop} {program : Program ports ε α}
    {next : α → Program ports ε β} (first : program.Within allowed)
    (returns : program.Returns good)
    (second : ∀ value, good value → (next value).Within allowed) :
    (program >>= next).Within allowed := by
  show (program.bind next).Within allowed
  induction first with
  | done value =>
    cases returns with
    | done isGood => exact second value isGood
  | fail error => exact .fail error
  | ask isAllowed _ inductionHypothesis =>
    cases returns with
    | ask rest => exact .ask isAllowed fun answer => inductionHypothesis answer (rest answer)

theorem Within.attempt {program : Program ports ε α} (within : program.Within allowed) :
    program.attempt.Within allowed := by
  induction within with
  | done value => exact .done _
  | fail error => exact .done _
  | ask isAllowed _ inductionHypothesis => exact .ask isAllowed inductionHypothesis

theorem Within.mono {program : Program ports ε α} (within : program.Within allowed)
    (wide : ∀ call, allowed call → wider call) : program.Within wider := by
  induction within with
  | done value => exact .done value
  | fail error => exact .fail error
  | ask isAllowed _ inductionHypothesis => exact .ask (wide _ isAllowed) inductionHypothesis

/-- What every allowed call keeps, a program within the allowed calls keeps. -/
theorem Within.keeps {spec : Spec ports ε τ} (monotone : spec.Monotone) (kept : τ → Prop)
    (keeps : ∀ call state, allowed call → kept state → spec call state fun _ next => kept next)
    {program : Program ports ε α} (within : program.Within allowed) {state : τ}
    (initially : kept state) : Ensures spec program (fun _ final => kept final) state := by
  induction within generalizing state with
  | done value => exact initially
  | fail error => exact initially
  | @ask call resume isAllowed _ inductionHypothesis =>
    exact monotone call state _ _ (fun answer _ holds => inductionHypothesis answer holds)
      (keeps call state isAllowed initially)

end Within

end Program

/-! ## Servers and their runs -/

/-- A server answers each call from its state and one choice of the surroundings.
A call that is not ready has to wait; the others are answered at once. -/
structure Server (ports : Interface) (ε σ χ : Type) where
  ready : χ → ports.Call → σ → Bool
  serve : χ → (call : ports.Call) → σ → Except ε (ports.Answer call) × σ

/-- Every admitted choice for which the call is ready may be the one made. -/
def Server.spec (server : Server ports ε σ χ) (admits : σ → ports.Call → χ → Prop) :
    Spec ports ε σ := fun call state post =>
  ∀ choice, server.ready choice call state = true → admits state call choice →
    post (server.serve choice call state).1 (server.serve choice call state).2

theorem Server.spec_monotone (server : Server ports ε σ χ)
    (admits : σ → ports.Call → χ → Prop) : (server.spec admits).Monotone := by
  intro call state strong weak weaker holds choice isReady admitted
  exact weaker _ _ (holds choice isReady admitted)

/-- The runs of a program alone on a server, with the calls answered on the way
in order, the outcome and the final state. -/
inductive Runs (server : Server ports ε σ χ) (admits : σ → ports.Call → χ → Prop) :
    Program ports ε α → σ → List (Event ports ε) → Except ε α → σ → Prop where
  | done (value : α) (state : σ) : Runs server admits (.done value) state [] (.ok value) state
  | fail (error : ε) (state : σ) : Runs server admits (.fail error) state [] (.error error) state
  | ask (call : ports.Call) (resume : Except ε (ports.Answer call) → Program ports ε α)
      (state final : σ) (choice : χ) (trace : List (Event ports ε)) (outcome : Except ε α)
      (isReady : server.ready choice call state = true) (admitted : admits state call choice)
      (rest : Runs server admits (resume (server.serve choice call state).1)
        (server.serve choice call state).2 trace outcome final) :
      Runs server admits (.ask call resume) state
        (⟨call, (server.serve choice call state).1⟩ :: trace) outcome final

section Runs

variable {server : Server ports ε σ χ} {admits : σ → ports.Call → χ → Prop}

/-- What every allowed call keeps, a program within the allowed calls keeps. -/
theorem Program.Within.ensures {allowed : ports.Call → Prop} (kept : σ → Prop)
    (keeps : ∀ state call choice, kept state → allowed call →
      server.ready choice call state = true → admits state call choice →
        kept (server.serve choice call state).2)
    {program : Program ports ε α} (within : program.Within allowed) {state : σ}
    (initially : kept state) :
    Ensures (server.spec admits) program (fun _ final => kept final) state :=
  within.keeps (server.spec_monotone admits) kept
    (fun call before isAllowed holds choice isReady admitted =>
      keeps before call choice holds isAllowed isReady admitted) initially

/-- What the server's specification ensures holds at the end of every run. -/
theorem Runs.ensured {program : Program ports ε α} {state final : σ}
    {trace : List (Event ports ε)} {outcome : Except ε α}
    (run : Runs server admits program state trace outcome final)
    {post : Except ε α → σ → Prop} (ensured : Ensures (server.spec admits) program post state) :
    post outcome final := by
  induction run with
  | done value state => exact ensured
  | fail error state => exact ensured
  | ask call resume state final choice trace outcome isReady admitted rest inductionHypothesis =>
    exact inductionHypothesis (ensured choice isReady admitted)

/-- A program has a run when every call can be answered with an admitted choice.
Trees are well-founded, so no run goes on forever. -/
theorem exists_run (answerable : ∀ state call, ∃ choice,
      server.ready choice call state = true ∧ admits state call choice)
    (program : Program ports ε α) (state : σ) :
    ∃ trace outcome final, Runs server admits program state trace outcome final := by
  induction program generalizing state with
  | done value => exact ⟨[], _, _, .done value state⟩
  | fail error => exact ⟨[], _, _, .fail error state⟩
  | ask call resume inductionHypothesis =>
    obtain ⟨choice, isReady, admitted⟩ := answerable state call
    obtain ⟨trace, outcome, final, rest⟩ := inductionHypothesis
      (server.serve choice call state).1 (server.serve choice call state).2
    exact ⟨_, _, _, .ask call resume state final choice trace outcome isReady admitted rest⟩

/-- A run of one part after the other is a run of the first and, if that has returned,
a run of the second. -/
theorem Runs.of_bind {program : Program ports ε α} {next : α → Program ports ε β}
    {state final : σ} {trace : List (Event ports ε)} {outcome : Except ε β}
    (run : Runs server admits (program >>= next) state trace outcome final) :
    (∃ error, outcome = .error error ∧ Runs server admits program state trace (.error error) final) ∨
      ∃ value middle before after, trace = before ++ after ∧
        Runs server admits program state before (.ok value) middle ∧
        Runs server admits (next value) middle after outcome final := by
  change Runs server admits (program.bind next) state trace outcome final at run
  induction program generalizing state trace with
  | done value => exact .inr ⟨value, state, [], trace, rfl, .done value state, run⟩
  | fail error =>
    cases run with
    | fail => exact .inl ⟨error, rfl, .fail error _⟩
  | ask call resume inductionHypothesis =>
    cases run with
    | ask _ _ _ _ choice trace _ isReady admitted rest =>
      rcases inductionHypothesis _ rest with ⟨error, rfl, failed⟩ |
        ⟨value, middle, before, after, rfl, first, second⟩
      · exact .inl ⟨error, rfl, .ask call resume _ _ choice _ _ isReady admitted failed⟩
      · exact .inr ⟨value, middle, _ :: before, after, rfl,
          .ask call resume _ _ choice _ _ isReady admitted first, second⟩

theorem Runs.of_check {outcome : Except ε α} {state final : σ} {trace : List (Event ports ε)}
    {result : Except ε α}
    (run : Runs server admits (check outcome : Program ports ε α) state trace result final) :
    trace = [] ∧ result = outcome ∧ final = state := by
  cases outcome <;> cases run <;> exact ⟨rfl, rfl, rfl⟩

/-- A run of one call is its answer. -/
theorem Runs.of_call {request : ports.Call} {state final : σ} {trace : List (Event ports ε)}
    {outcome : Except ε (ports.Answer request)}
    (run : Runs server admits (call request) state trace outcome final) :
    ∃ choice, server.ready choice request state = true ∧ admits state request choice ∧
      trace = [⟨request, outcome⟩] ∧ outcome = (server.serve choice request state).1 ∧
        final = (server.serve choice request state).2 := by
  cases run with
  | ask _ _ _ _ choice rest _ isReady admitted tail =>
    cases answer : (server.serve choice request state).1 <;> rw [answer] at tail <;>
      cases tail <;> exact ⟨choice, isReady, admitted, rfl, answer.symm, rfl⟩

/-- A run of a program makes none but the calls that the program is within. -/
theorem Runs.within {allowed : ports.Call → Prop} {program : Program ports ε α}
    (within : program.Within allowed) {state final : σ} {trace : List (Event ports ε)}
    {outcome : Except ε α} (run : Runs server admits program state trace outcome final) :
    ∀ event ∈ trace, allowed event.call := by
  induction run with
  | done value state => simp
  | fail error state => simp
  | ask call resume state final choice trace outcome isReady admitted rest inductionHypothesis =>
    cases within with
    | ask isAllowed later =>
      exact List.forall_mem_cons.mpr ⟨isAllowed, inductionHypothesis (later _)⟩

/-- A run stays a run when more choices are admitted. -/
theorem Runs.widen {wider : σ → ports.Call → χ → Prop}
    (wide : ∀ state call choice, admits state call choice → wider state call choice)
    {program : Program ports ε α} {state final : σ} {trace : List (Event ports ε)}
    {outcome : Except ε α} (run : Runs server admits program state trace outcome final) :
    Runs server wider program state trace outcome final := by
  induction run with
  | done value state => exact .done value state
  | fail error state => exact .fail error state
  | ask call resume state final choice trace outcome isReady admitted rest inductionHypothesis =>
    exact .ask call resume state final choice trace outcome isReady
      (wide _ _ _ admitted) inductionHypothesis

end Runs

/-- Replay a program on given choices. The result is absent when they run out, or
when one is not admitted or leaves the call waiting. -/
def replay (server : Server ports ε σ χ) (admits : σ → ports.Call → χ → Prop)
    [∀ state call choice, Decidable (admits state call choice)] :
    List χ → Program ports ε α → σ → Option (List (Event ports ε) × Except ε α × σ)
  | _, .done value, state => some ([], .ok value, state)
  | _, .fail error, state => some ([], .error error, state)
  | [], .ask _ _, _ => none
  | choice :: choices, .ask call resume, state =>
      if server.ready choice call state = true ∧ admits state call choice then
        (replay server admits choices (resume (server.serve choice call state).1)
          (server.serve choice call state).2).map fun result =>
            (⟨call, (server.serve choice call state).1⟩ :: result.1, result.2)
      else none

/-- A completed replay is a run. -/
theorem replay_runs (server : Server ports ε σ χ) (admits : σ → ports.Call → χ → Prop)
    [∀ state call choice, Decidable (admits state call choice)] (choices : List χ)
    (program : Program ports ε α) (state : σ)
    (result : List (Event ports ε) × Except ε α × σ)
    (replayed : replay server admits choices program state = some result) :
    Runs server admits program state result.1 result.2.1 result.2.2 := by
  induction program generalizing choices state result with
  | done value =>
    simp only [replay, Option.some.injEq] at replayed
    subst replayed
    exact .done value state
  | fail error =>
    simp only [replay, Option.some.injEq] at replayed
    subst replayed
    exact .fail error state
  | ask call resume inductionHypothesis =>
    cases choices with
    | nil => simp [replay] at replayed
    | cons choice choices =>
      simp only [replay, Option.ite_none_right_eq_some, Option.map_eq_some_iff] at replayed
      obtain ⟨⟨isReady, admitted⟩, rest, replayedRest, rfl⟩ := replayed
      exact .ask call resume state rest.2.2 choice rest.1 rest.2.1 isReady admitted
        (inductionHypothesis _ choices _ rest replayedRest)

/-- A replay that completes and passes a test shows that there is such a run. -/
theorem exists_run_of_replay (server : Server ports ε σ χ)
    (admits : σ → ports.Call → χ → Prop)
    [∀ state call choice, Decidable (admits state call choice)] (choices : List χ)
    (program : Program ports ε α) (state : σ)
    (test : List (Event ports ε) × Except ε α × σ → Bool)
    (passes : (replay server admits choices program state).any test = true) :
    ∃ trace outcome final, Runs server admits program state trace outcome final ∧
      test (trace, outcome, final) = true := by
  obtain ⟨result, replayed, passed⟩ := (Option.any_eq_true _ _).mp passes
  exact ⟨_, _, _, replay_runs server admits choices program state result replayed, passed⟩

/-- A replay that succeeds with a property shows that there is such a run. -/
theorem exists_output_of_replay (server : Server ports ε σ χ)
    (admits : σ → ports.Call → χ → Prop)
    [∀ state call choice, Decidable (admits state call choice)] (choices : List χ)
    (program : Program ports ε α) (state : σ) (property : List (Event ports ε) → α → Prop)
    [∀ trace output, Decidable (property trace output)]
    (passes : ((replay server admits choices program state).any fun result =>
      result.2.1.toOption.any fun output => decide (property result.1 output)) = true) :
    ∃ trace output final, Runs server admits program state trace (.ok output) final ∧
      property trace output := by
  obtain ⟨trace, outcome, final, run, passed⟩ := exists_run_of_replay server admits choices
    program state _ passes
  cases outcome with
  | error error => exact absurd passed Bool.false_ne_true
  | ok output => exact ⟨trace, output, final, run, of_decide_eq_true passed⟩

/-! ## Stage protocols -/

/-- A protocol gives a caller a stage. It restricts the calls that may be made in
a stage and says where each answer leads, without any knowledge of the state. -/
structure Protocol (ports : Interface) (ε γ : Type) where
  allows : γ → ports.Call → Prop
  next : γ → (call : ports.Call) → Except ε (ports.Answer call) → γ

namespace Protocol

/-- A call must be allowed, and any answer at all may come back. -/
def spec (protocol : Protocol ports ε γ) : Spec ports ε γ := fun call stage post =>
  protocol.allows stage call ∧ ∀ answer, post answer (protocol.next stage call answer)

theorem spec_monotone (protocol : Protocol ports ε γ) : protocol.spec.Monotone := by
  intro call stage strong weak weaker holds
  exact ⟨holds.1, fun answer => weaker _ _ (holds.2 answer)⟩

/-- The stage reached along a trace, whose first event is the earliest. -/
def after (protocol : Protocol ports ε γ) (stage : γ) (trace : List (Event ports ε)) : γ :=
  trace.foldl (fun reached event => protocol.next reached event.call event.answer) stage

@[simp] theorem after_nil (protocol : Protocol ports ε γ) (stage : γ) :
    protocol.after stage [] = stage := rfl

@[simp] theorem after_cons (protocol : Protocol ports ε γ) (stage : γ) (event : Event ports ε)
    (trace : List (Event ports ε)) : protocol.after stage (event :: trace) =
      protocol.after (protocol.next stage event.call event.answer) trace := rfl

section Rules

variable (protocol : Protocol ports ε γ) {stage : γ} {good : β → γ → Prop}

/-- An allowed call, and what follows it. -/
theorem succeeds_call (request : ports.Call) {next : ports.Answer request → Program ports ε β}
    (allowed : protocol.allows stage request)
    (returns : ∀ answer, Succeeds protocol.spec (next answer) good
      (protocol.next stage request (.ok answer))) :
    Succeeds protocol.spec (Program.call request >>= next) good stage := by
  apply (succeeds_bind _ _ _ _ _).mpr
  apply (succeeds_iff _ _ _ _).mpr
  apply (ensures_call _ _ request _).mpr
  refine ⟨allowed, ?_⟩
  intro answer
  cases answer with
  | ok value => exact returns value
  | error error => trivial

/-- An allowed call that may fail, and what follows it. -/
theorem succeeds_attempt (request : ports.Call)
    {next : Except ε (ports.Answer request) → Program ports ε β}
    (allowed : protocol.allows stage request)
    (returns : ∀ answer, Succeeds protocol.spec (next answer) good
      (protocol.next stage request answer)) :
    Succeeds protocol.spec ((Program.call request).attempt >>= next) good stage := by
  apply (succeeds_bind _ _ _ _ _).mpr
  apply (Programs.succeeds_attempt _ _ _ _).mpr
  apply (ensures_call _ _ request _).mpr
  exact ⟨allowed, returns⟩

end Rules

end Protocol

/-- The protocol without stages. -/
def Protocol.restricting (allowed : ports.Call → Prop) : Protocol ports ε Unit :=
  ⟨fun _ => allowed, fun _ _ _ => ()⟩

/-- A program that conforms to a protocol without stages makes none but allowed calls. -/
theorem Program.Within.of_ensures {allowed : ports.Call → Prop} {program : Program ports ε α}
    {post : Except ε α → Unit → Prop}
    (conforms : Ensures (Protocol.restricting allowed).spec program post ()) :
    program.Within allowed := by
  induction program with
  | done value => exact .done value
  | fail error => exact .fail error
  | ask call resume inductionHypothesis =>
    exact .ask conforms.1 fun answer => inductionHypothesis answer (conforms.2 answer)

/-- The protocol whose stage is the trace so far. -/
def Protocol.recording (allows : List (Event ports ε) → ports.Call → Prop) :
    Protocol ports ε (List (Event ports ε)) :=
  ⟨allows, fun seen call answer => seen ++ [⟨call, answer⟩]⟩

@[simp] theorem Protocol.recording_after (allows : List (Event ports ε) → ports.Call → Prop)
    (seen trace : List (Event ports ε)) :
    (Protocol.recording allows).after seen trace = seen ++ trace := by
  induction trace generalizing seen with
  | nil => simp
  | cons event trace inductionHypothesis =>
    rw [Protocol.after_cons, inductionHypothesis]
    simp [Protocol.recording]

/-- Calls that are allowed in a stage and do not leave it keep a program there. -/
theorem Program.Within.stays (protocol : Protocol ports ε γ) {allowed : ports.Call → Prop}
    {stage : γ} (allows : ∀ call, allowed call → protocol.allows stage call)
    (stays : ∀ call answer, allowed call → protocol.next stage call answer = stage)
    {program : Program ports ε α} (within : program.Within allowed) :
    Ensures protocol.spec program (fun _ later => later = stage) stage := by
  induction within with
  | done value => rfl
  | fail error => rfl
  | @ask call resume isAllowed rest inductionHypothesis =>
    refine ⟨allows call isAllowed, fun answer => ?_⟩
    rw [stays call answer isAllowed]
    exact inductionHypothesis answer

/-- Along every run of a conforming program the state stays related to the stage
reached, provided that each allowed call keeps the relation. The program's own
promise about the final stage holds at the end of the run. -/
theorem Runs.follows {server : Server ports ε σ χ} {admits : σ → ports.Call → χ → Prop}
    (protocol : Protocol ports ε γ) (related : σ → γ → Prop)
    (keeps : ∀ state stage call choice, related state stage → protocol.allows stage call →
      server.ready choice call state = true → admits state call choice →
        related (server.serve choice call state).2
          (protocol.next stage call (server.serve choice call state).1))
    {program : Program ports ε α} {state final : σ} {trace : List (Event ports ε)}
    {outcome : Except ε α} (run : Runs server admits program state trace outcome final)
    {stage : γ} {post : Except ε α → γ → Prop}
    (conforms : Ensures protocol.spec program post stage) (start : related state stage) :
    post outcome (protocol.after stage trace) ∧ related final (protocol.after stage trace) := by
  induction run generalizing stage with
  | done value state => exact ⟨conforms, start⟩
  | fail error state => exact ⟨conforms, start⟩
  | ask call resume state final choice trace outcome isReady admitted rest inductionHypothesis =>
    exact inductionHypothesis (conforms.2 _)
      (keeps state stage call choice start conforms.1 isReady admitted)

/-! ## Evaluation -/

namespace Program

/-- The outcome of a program whose calls are all answered at once, and the state after it. -/
def evaluate (serve : (call : ports.Call) → σ → Except ε (ports.Answer call) × σ) :
    Program ports ε α → σ → Except ε α × σ
  | done value, state => (.ok value, state)
  | fail error, state => (.error error, state)
  | ask call resume, state =>
      (resume (serve call state).1).evaluate serve (serve call state).2

variable (serve : (call : ports.Call) → σ → Except ε (ports.Answer call) × σ) (state : σ)

theorem evaluate_call (request : ports.Call) :
    (call request : Program ports ε (ports.Answer request)).evaluate serve state =
      serve request state := by
  rw [call, evaluate]
  cases answer : (serve request state).1 with
  | ok value => exact congrArg (·, _) answer.symm
  | error error => exact congrArg (·, _) answer.symm

theorem evaluate_attempt (program : Program ports ε α) :
    program.attempt.evaluate serve state =
      (.ok (program.evaluate serve state).1, (program.evaluate serve state).2) := by
  induction program generalizing state with
  | done value => rfl
  | fail error => rfl
  | ask call resume inductionHypothesis => exact inductionHypothesis _ _

theorem evaluate_check (outcome : Except ε α) :
    (check outcome : Program ports ε α).evaluate serve state = (outcome, state) := by
  cases outcome with
  | ok value => rfl
  | error error => rfl

/-- The second part starts where the first one has returned. -/
theorem evaluate_bind (program : Program ports ε α) (next : α → Program ports ε β) :
    (program >>= next).evaluate serve state =
      match (program.evaluate serve state).1 with
      | .ok value => (next value).evaluate serve (program.evaluate serve state).2
      | .error error => (.error error, (program.evaluate serve state).2) := by
  show (program.bind next).evaluate serve state = _
  induction program generalizing state with
  | done value => rfl
  | fail error => rfl
  | ask call resume inductionHypothesis => exact inductionHypothesis _ _

variable {serve state}

theorem evaluate_bind_ok {program : Program ports ε α} {next : α → Program ports ε β} {value : α}
    {middle : σ} (first : program.evaluate serve state = (.ok value, middle)) :
    (program >>= next).evaluate serve state = (next value).evaluate serve middle := by
  rw [evaluate_bind, first]

theorem evaluate_map (change : α → β) (program : Program ports ε α) :
    (change <$> program).evaluate serve state =
      ((program.evaluate serve state).1.map change, (program.evaluate serve state).2) := by
  show (program >>= fun value => pure (change value)).evaluate serve state = _
  rw [evaluate_bind]
  cases (program.evaluate serve state).1 with
  | ok value => rfl
  | error error => rfl

end Program

/-! From here on programs are verified by the rules, and never by unfolding. -/

attribute [irreducible] Ensures Succeeds Secures

end Programs
