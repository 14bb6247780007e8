import Memcore.Foundations.Programs

/-!
# Contracts between programs and servers

A contract says which calls a program may make, and what it may rely on in their
answers. A program honours the contract if it keeps to the first and, given the
second, returns none but good values. A server fulfils it if, as long as the calls
are allowed, it keeps an invariant of its own and answers as promised. Each side
is proved without the other one in sight.
-/
namespace Programs

variable {ports : Interface} {ε α β σ χ : Type}

/-- The calls that are allowed, and what is promised of the answer to each. -/
structure Contract (ports : Interface) (ε : Type) where
  allows : ports.Call → Prop
  promises : (call : ports.Call) → Except ε (ports.Answer call) → Prop

/-- A call must be allowed, and any answer as promised may come back. -/
def Contract.spec (contract : Contract ports ε) : Spec ports ε Unit := fun call _ post =>
  contract.allows call ∧ ∀ answer, contract.promises call answer → post answer ()

theorem Contract.spec_monotone (contract : Contract ports ε) : contract.spec.Monotone := by
  intro call _ strong weak weaker holds
  exact ⟨holds.1, fun answer promised => weaker _ _ (holds.2 answer promised)⟩

namespace Program

variable {contract : Contract ports ε}

/-- The program makes none but allowed calls, and returns none but good values. -/
def Honours (contract : Contract ports ε) (program : Program ports ε α) (good : α → Prop) :
    Prop :=
  Succeeds contract.spec program (fun value _ => good value) ()

theorem Honours.pure {value : α} {good : α → Prop} (isGood : good value) :
    (pure value : Program ports ε α).Honours contract good :=
  (succeeds_pure _ _ _ _).mpr isGood

theorem Honours.fail (error : ε) {good : α → Prop} :
    (fail error : Program ports ε α).Honours contract good :=
  (succeeds_fail _ _ _ _).mpr trivial

theorem Honours.check {outcome : Except ε α} {good : α → Prop}
    (passing : ∀ value, outcome = .ok value → good value) :
    (check outcome : Program ports ε α).Honours contract good :=
  (succeeds_check _ _ _ _).mpr passing

theorem Honours.mono {program : Program ports ε α} {strong weak : α → Prop}
    (honours : program.Honours contract strong) (weaker : ∀ value, strong value → weak value) :
    program.Honours contract weak :=
  Succeeds.mono contract.spec_monotone honours fun value _ => weaker value

/-- The second part may rely on what the first one returns. -/
theorem Honours.bind {program : Program ports ε α} {next : α → Program ports ε β}
    {middle : α → Prop} {good : β → Prop} (first : program.Honours contract middle)
    (second : ∀ value, middle value → (next value).Honours contract good) :
    (program >>= next).Honours contract good :=
  Succeeds.bind contract.spec_monotone first fun value _ => second value

/-- The outcome of an attempt is good if it is no failure. -/
theorem Honours.attempt {program : Program ports ε α} {good : α → Prop}
    (honours : program.Honours contract good) :
    program.attempt.Honours contract fun outcome => ∀ value, outcome = .ok value → good value := by
  refine (succeeds_attempt _ _ _ _).mpr (Ensures.mono contract.spec_monotone
    ((succeeds_iff _ _ _ _).mp honours) fun outcome final holds => ?_)
  rintro value rfl
  exact holds

/-- An allowed call returns what the contract promises. -/
theorem Honours.call {request : ports.Call} (isAllowed : contract.allows request)
    {good : ports.Answer request → Prop}
    (promised : ∀ value, contract.promises request (.ok value) → good value) :
    (call request : Program ports ε (ports.Answer request)).Honours contract good := by
  refine (succeeds_iff _ _ _ _).mpr ((ensures_call _ _ _ _).mpr ⟨isAllowed, ?_⟩)
  intro answer isPromised
  cases answer with
  | ok value => exact promised value isPromised
  | error error => trivial

/-- A program within the allowed calls honours a contract that asks for no more. -/
theorem Within.honours {allowed : ports.Call → Prop} {program : Program ports ε α}
    (within : program.Within allowed) (allows : ∀ call, allowed call → contract.allows call) :
    program.Honours contract fun _ => True := by
  refine (succeeds_iff _ _ _ _).mpr ?_
  induction within with
  | done value => exact (ensures_done _ _ _ _).mpr trivial
  | fail error => exact (ensures_fail _ _ _ _).mpr trivial
  | ask isAllowed _ inductionHypothesis =>
    exact (ensures_ask _ _ _ _ _).mpr
      ⟨allows _ isAllowed, fun answer _ => inductionHypothesis answer⟩

/-- What a program returns whatever is answered, it returns under the contract. -/
theorem Honours.and_returns {program : Program ports ε α} {good also : α → Prop}
    (honours : program.Honours contract good) (returns : program.Returns also) :
    program.Honours contract fun value => good value ∧ also value := by
  have ensured := (succeeds_iff _ _ _ _).mp honours
  refine (succeeds_iff _ _ _ _).mpr ?_
  clear honours
  induction returns with
  | done isAlso => exact (ensures_done _ _ _ _).mpr ⟨(ensures_done _ _ _ _).mp ensured, isAlso⟩
  | fail error => exact (ensures_fail _ _ _ _).mpr trivial
  | ask rest inductionHypothesis =>
    obtain ⟨isAllowed, resuming⟩ := (ensures_ask _ _ _ _ _).mp ensured
    exact (ensures_ask _ _ _ _ _).mpr
      ⟨isAllowed, fun answer promised => inductionHypothesis answer (resuming answer promised)⟩

/-- What a protocol says of the outcome holds of every value that is returned. -/
theorem Returns.of_protocol {γ : Type} {protocol : Protocol ports ε γ} {stage : γ}
    {program : Program ports ε α} {post : Except ε α → γ → Prop}
    (conforms : Ensures protocol.spec program post stage) :
    program.Returns fun value => ∃ final, post (.ok value) final := by
  induction program generalizing stage with
  | done value => exact .done ⟨stage, (ensures_done _ _ _ _).mp conforms⟩
  | fail error => exact .fail error
  | ask call resume inductionHypothesis =>
    have resuming := ((ensures_ask _ _ _ _ _).mp conforms).2
    exact .ask fun answer => inductionHypothesis answer (resuming answer)

end Program

/-- A run of a program that honours the contract, on a server that fulfils it. -/
theorem Runs.honoured {server : Server ports ε σ χ} {admits : σ → ports.Call → χ → Prop}
    (contract : Contract ports ε) (kept : σ → Prop)
    (fulfils : ∀ state call choice, kept state → contract.allows call →
      server.ready choice call state = true → admits state call choice →
        kept (server.serve choice call state).2 ∧
          contract.promises call (server.serve choice call state).1)
    {program : Program ports ε α} {state final : σ} {trace : List (Event ports ε)}
    {outcome : Except ε α} (run : Runs server admits program state trace outcome final)
    {good : α → Prop} (honours : program.Honours contract good) (initially : kept state) :
    kept final ∧ ∀ value, outcome = .ok value → good value := by
  have ensured := (succeeds_iff _ _ _ _).mp honours
  induction run with
  | done value state =>
    refine ⟨initially, fun other returned => ?_⟩
    obtain rfl := Except.ok.inj returned
    exact (ensures_done _ _ _ _).mp ensured
  | fail error state => exact ⟨initially, fun value impossible => nomatch impossible⟩
  | ask call resume state final choice trace outcome isReady admitted rest inductionHypothesis =>
    obtain ⟨isAllowed, resuming⟩ := (ensures_ask _ _ _ _ _).mp ensured
    obtain ⟨still, promised⟩ := fulfils state call choice initially isAllowed isReady admitted
    have later := resuming _ promised
    exact inductionHypothesis ((succeeds_iff _ _ _ _).mpr later) still later

/-- Every answer of a run may be assumed to be one that a log holds which the trace is
part of. -/
theorem Runs.logged {server : Server ports ε σ χ} {admits : σ → ports.Call → χ → Prop}
    {program : Program ports ε α} {state final : σ} {trace log : List (Event ports ε)}
    {outcome : Except ε α} (run : Runs server admits program state trace outcome final)
    (part : trace ⊆ log) :
    Runs server (fun state call choice => admits state call choice ∧
      (⟨call, (server.serve choice call state).1⟩ : Event ports ε) ∈ log) program state trace
      outcome final := by
  induction run with
  | done value state => exact .done value state
  | fail error state => exact .fail error state
  | ask call resume state final choice trace outcome isReady admitted rest inductionHypothesis =>
    obtain ⟨first, later⟩ := List.cons_subset.mp part
    exact .ask call resume state final choice trace outcome isReady ⟨admitted, first⟩
      (inductionHypothesis later)

end Programs
