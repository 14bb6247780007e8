import Memcore.Api.ProviderRequests

/-!
# Whom the use of a provider is charged to

The tenant who is charged and the source of a call pass through slots of the process. A
request keeps to its own tenant and its own source, sets the one slot before anything else
and the other one before it calls a provider, but any other request may write to a slot
before it is read. So an event of usage names the tenant of the request that bound last, and
the guardrails judge a call by what stood in the other slot when the call began.
-/
namespace Memcore

open Programs

variable {P T : Type}

/-! ## The stages of a request -/

/-- Which slots a request has set, and the source that its current call of a router read. -/
structure ServiceStage where
  tagged : Bool
  bound : Bool
  callSource : Option ProviderCallSource

/-- Both slots have been set. -/
def ServiceStage.Ready (stage : ServiceStage) : Prop := stage.tagged = true ∧ stage.bound = true

/-- A router reads the source once it is set, judges by the source that it read, and reports
once there is somebody to charge. -/
def meteredProtocol (P T : Type) : Protocol (meteredPorts P T) Dropped ServiceStage where
  allows stage
    | .route .callSource => stage.tagged = true
    | .route _ => True
    | .judge input => stage.callSource = some input.source
    | .recordRequest _ => stage.bound = true
  next stage
    | .route .callSource, .ok source => { stage with callSource := some source }
    | _, _ => stage

def serviceProtocol (P : Type) (request : ServedRequest) :
    Protocol (servicePorts P) Dropped ServiceStage where
  allows stage
    | .setCallSource source => source = request.source
    | .clearCallSource => True
    | .engine (.system call) => call.ChargesOnly request.tenant
    | .engine _ => True
    | .router call metered => (meteredProtocol P call.Answer).allows stage metered
  next stage
    | .setCallSource _, _ => { stage with tagged := true }
    | .engine (.system (.setUsageAttribution _ _)), _ => { stage with bound := true }
    | .router call metered, answer => (meteredProtocol P call.Answer).next stage metered answer
    | _, _ => stage

/-! ### Routers -/

/-- The calls of a router that do not read the source. -/
def ReadsNoSource : RouterCall P → Prop
  | .callSource => False
  | _ => True

theorem readsNoSource_of_guard (call : RouterCall P) (guard : call.OfGuard) :
    ReadsNoSource call := by
  cases call with
  | callSource => exact guard
  | _ => trivial

theorem readsNoSource_of_attempt {candidate : ProviderCandidate P} (call : RouterCall P)
    (attempt : call.OfAttempt candidate) : ReadsNoSource call := by
  cases call with
  | callSource => exact attempt
  | _ => trivial

section Routers

variable {stage : ServiceStage}

/-- The program returns, if at all, in the stage in which it starts. -/
def Stays {α : Type} (program : MeteredProgram P T α) (stage : ServiceStage) : Prop :=
  Succeeds (meteredProtocol P T).spec program (fun _ later => later = stage) stage

theorem stays_pure {α : Type} (value : α) : Stays (pure value : MeteredProgram P T α) stage :=
  (succeeds_pure _ _ _ _).mpr rfl

theorem stays_bind {α β : Type} {program : MeteredProgram P T α}
    {next : α → MeteredProgram P T β} (first : Stays program stage)
    (second : ∀ value, Stays (next value) stage) : Stays (program >>= next) stage := by
  apply Succeeds.bind (meteredProtocol P T).spec_monotone first
  rintro value later rfl
  exact second value

theorem stays_perform {request : MeteredCall P}
    (allowed : (meteredProtocol P T).allows stage request)
    (unmoved : ∀ answer, (meteredProtocol P T).next stage request answer = stage) :
    Stays (Metered.perform request : MeteredProgram P T _) stage := by
  apply (succeeds_iff _ _ _ _).mpr
  apply (@ensures_call (meteredPorts P T) Dropped ServiceStage _ stage request _).mpr
  refine ⟨allowed, fun answer => ?_⟩
  cases answer with
  | ok value => exact unmoved _
  | error stopped => trivial

theorem stays_plainly {request : RouterCall P} (quiet : ReadsNoSource request) :
    Stays (Metered.plainly request : MeteredProgram P T _) stage := by
  cases request with
  | callSource => exact quiet.elim
  | _ => exact stays_perform trivial fun _ => rfl

theorem stays_silently {α : Type} {program : RouterProgram P T α}
    (within : program.Within ReadsNoSource) : Stays (Metered.silently program) stage := by
  apply (succeeds_iff _ _ _ _).mpr
  apply (ensures_carry _ Metered.plainly program _ stage).mpr
  induction within with
  | done value => exact (ensures_done _ _ _ _).mpr rfl
  | fail error => exact (ensures_fail _ _ _ _).mpr trivial
  | @ask call resume quiet _ inductionHypothesis =>
    apply (ensures_ask _ _ _ _ _).mpr
    apply Ensures.mono (meteredProtocol P T).spec_monotone
      (@ensures_call (meteredPorts P T) Dropped ServiceStage (meteredProtocol P T).spec stage
        (.route call) (fun _ later => later = stage) |>.mpr ⟨?_, ?_⟩)
    · rintro answer later rfl
      exact inductionHypothesis answer
    · cases call with
      | callSource => exact quiet.elim
      | _ => trivial
    · intro answer
      cases call with
      | callSource => exact quiet.elim
      | _ => rfl

theorem stays_recordUsage (report : ProviderUsageReport) (bound : stage.bound = true) :
    Stays (Metered.recordUsage report : MeteredProgram P T _) stage :=
  stays_bind (stays_perform bound fun _ => rfl) fun _ => stays_pure _

variable (router : ProviderFallbackRouter) (request : RouterRequest P)

theorem stays_askGuardrails {input : ProviderCallGuardInput}
    (read : stage.callSource = some input.source) :
    Stays (Metered.askGuardrails router input : MeteredProgram P T _) stage := by
  unfold Metered.askGuardrails
  split
  · exact stays_bind (stays_perform read fun _ => rfl) fun _ =>
      stays_silently ((decideOrError_guards _ _).mono readsNoSource_of_guard)
  · exact stays_pure _

/-- Each candidate is judged by the source that was read, and reported. -/
theorem stays_tryProviders {source : ProviderCallSource} (read : stage.callSource = some source)
    (bound : stage.bound = true) (candidates : List (ProviderCandidate P)) (fallbackUsed : Bool)
    (lastError : Option MemcoreError) :
    Stays (Metered.tryProviders router request source candidates fallbackUsed lastError :
      MeteredProgram P T _) stage := by
  induction candidates generalizing fallbackUsed lastError with
  | nil => exact stays_pure _
  | cons candidate rest inductionHypothesis =>
    unfold Metered.tryProviders
    apply stays_bind (stays_askGuardrails router read)
    rintro (error | _)
    · exact stays_bind (stays_recordUsage _ bound) fun _ => stays_pure _
    apply stays_bind (@stays_plainly P T stage (.checkAllow _) trivial)
    rintro (error | state)
    · exact stays_bind (stays_recordUsage _ bound) fun _ => inductionHypothesis _ _
    apply stays_bind (stays_silently
      ((executeProviderCall_attempts _ _ _).mono readsNoSource_of_attempt))
    rintro (failure | outcome)
    · dsimp only
      split
      · exact stays_bind (stays_plainly trivial) fun _ =>
          stays_bind (stays_recordUsage _ bound) fun _ => inductionHypothesis _ _
      · exact stays_bind (stays_plainly trivial) fun _ =>
          stays_bind (stays_recordUsage _ bound) fun _ => stays_pure _
    · exact stays_bind (stays_plainly trivial) fun _ =>
        stays_bind (stays_recordUsage _ bound) fun _ => stays_pure _

/-- A use of a router that reads the slot of the source keeps to the protocol. -/
theorem executeWithFallback_ready (reading : router.callSourceSlot = true) (ready : stage.Ready) :
    Succeeds (meteredProtocol P T).spec
      (Metered.executeWithFallback router request : MeteredProgram P T _)
      (fun _ later => later.Ready) stage := by
  unfold Metered.executeWithFallback
  by_cases none : request.candidates.isEmpty = true
  · rw [if_pos none]
    exact (succeeds_pure _ _ _ _).mpr ready
  · rw [if_neg none]
    dsimp only
    rw [if_pos reading]
    apply (succeeds_bind _ _ _ _ _).mpr
    apply (succeeds_iff _ _ _ _).mpr
    apply (@ensures_call (meteredPorts P T) Dropped ServiceStage _ stage (.route .callSource) _).mpr
    refine ⟨ready.1, fun answer => ?_⟩
    cases answer with
    | error stopped => trivial
    | ok source =>
      have stays := @stays_tryProviders P T { stage with callSource := some source } router request
        source rfl ready.2
      apply Succeeds.mono (meteredProtocol P T).spec_monotone (stays _ _ _)
      rintro outcome later rfl
      exact ready

end Routers

/-! ### Requests -/

section Requests

variable {request : ServedRequest} {stage : ServiceStage}

/-- A use of a router on behalf of a call is verified with the protocol of routers. -/
theorem ensures_routed {call : ProviderCall} {α : Type} (program : MeteredProgram P call.Answer α)
    (post : Except Dropped α → ServiceStage → Prop) :
    Ensures (serviceProtocol P request).spec (program.carry (routed call)) post stage ↔
      Ensures (meteredProtocol P call.Answer).spec program post stage := by
  have same : @Spec.under (meteredPorts P call.Answer) (servicePorts P) Dropped ServiceStage
      (serviceProtocol P request).spec (routed call) = (meteredProtocol P call.Answer).spec := by
    funext metered stage post
    exact propext (@ensures_call (servicePorts P) Dropped ServiceStage
      (serviceProtocol P request).spec stage (.router call metered) post)
  rw [← same]
  exact ensures_carry _ (routed call) program post stage

variable (wiring : ProviderWiring P)

/-- What a call of the engine guarantees, carried out on behalf of a request. -/
def engineSpec (wiring : ProviderWiring P) (request : ServedRequest) :
    Spec enginePorts MemcoreError ServiceStage :=
  @Spec.through enginePorts (servicePorts P) MemcoreError Dropped ServiceStage
    (serviceProtocol P request).spec (carryOut wiring)

theorem engineSpec_monotone : (engineSpec wiring request).Monotone :=
  @Spec.through_monotone enginePorts (servicePorts P) MemcoreError Dropped ServiceStage _
    (serviceProtocol P request).spec_monotone (carryOut wiring)

theorem serviceCall_succeeds {call : ServiceCall P} {good : call.Answer → ServiceStage → Prop}
    (allowed : (serviceProtocol P request).allows stage call)
    (enough : ∀ value, good value ((serviceProtocol P request).next stage call (.ok value))) :
    Succeeds (serviceProtocol P request).spec (serviceCall call) good stage := by
  apply (succeeds_iff _ _ _ _).mpr
  apply (@ensures_call (servicePorts P) Dropped ServiceStage _ stage call _).mpr
  refine ⟨allowed, fun answer => ?_⟩
  cases answer with
  | ok value => exact enough value
  | error stopped => trivial

/-- The calls of an engine that charges nobody but the tenant. -/
def ChargesOnly (tenant : TenantContext) : Port → Prop
  | .system call => call.ChargesOnly tenant
  | _ => True

theorem mutatorCall_chargesOnly {tenant : TenantContext} (port : Port)
    (own : MutatorCall tenant port) : ChargesOnly tenant port := by
  cases port with
  | system call => exact own
  | _ => trivial

theorem readerCall_chargesOnly {tenant : TenantContext} (port : Port)
    (own : ReaderCall tenant port) : ChargesOnly tenant port := by
  cases port with
  | system call => exact own
  | _ => trivial

theorem searchCall_chargesOnly {tenant : TenantContext} (port : Port)
    (own : SearchCall tenant port) : ChargesOnly tenant port :=
  readerCall_chargesOnly port (searchCall_readerCall port own)

theorem engineCall_ready {port : Port}
    (allowed : (serviceProtocol P request).allows stage (.engine port))
    (ready : ∀ value, ((serviceProtocol P request).next stage (.engine port) (.ok value)).Ready) :
    Succeeds (serviceProtocol P request).spec (serviceCall (.engine port))
      (fun _ later => later.Ready) stage :=
  serviceCall_succeeds allowed ready

/-- With both slots set, the engine may make any call that charges its own tenant. -/
theorem carryOut_ready {port : Port} (charges : ChargesOnly request.tenant port)
    (ready : stage.Ready) :
    Succeeds (serviceProtocol P request).spec (carryOut wiring port)
      (fun _ later => later.Ready) stage := by
  cases port with
  | provider call =>
    apply (succeeds_iff _ _ _ _).mpr
    apply (ensures_routed _ _).mpr
    exact (succeeds_iff _ _ _ _).mp (executeWithFallback_ready wiring.router _ rfl ready)
  | system call =>
    apply @engineCall_ready P request stage (.system call) charges
    cases call with
    | setUsageAttribution orgId userId => exact fun _ => ⟨ready.1, rfl⟩
    | _ => exact fun _ => ready
  | facts call => exact @engineCall_ready P request stage (.facts call) trivial fun _ => ready
  | vectors call => exact @engineCall_ready P request stage (.vectors call) trivial fun _ => ready
  | events call => exact @engineCall_ready P request stage (.events call) trivial fun _ => ready
  | cache call => exact @engineCall_ready P request stage (.cache call) trivial fun _ => ready
  | coordinator call =>
    exact @engineCall_ready P request stage (.coordinator call) trivial fun _ => ready

/-- From there on every such program keeps to the protocol. -/
theorem engine_ready {α : Type} {program : EngineProgram α}
    (within : program.Within (ChargesOnly request.tenant)) (ready : stage.Ready) :
    Ensures (engineSpec wiring request) program
      (fun _ later => later.Ready) stage :=
  within.keeps (engineSpec_monotone wiring) ServiceStage.Ready
    (fun _ _ charges ready => carryOut_ready wiring charges ready) ready

/-- What the engine's part of a request has to keep to, up to where it ends. -/
def Conforms {α : Type} (wiring : ProviderWiring P) (request : ServedRequest)
    (program : EngineProgram α) (stage : ServiceStage) : Prop :=
  Ensures (engineSpec wiring request) program
    (fun _ later => later.tagged = true) stage

theorem conforms_ready {α : Type} {program : EngineProgram α}
    (within : program.Within (ChargesOnly request.tenant)) (ready : stage.Ready) :
    Conforms wiring request program stage :=
  (engine_ready wiring within ready).mono (engineSpec_monotone wiring) fun _ _ ready => ready.1

/-- A program of the engine that may only charge the tenant conforms to the protocol. -/
def Opens {α : Type} (wiring : ProviderWiring P) (request : ServedRequest)
    (program : EngineProgram α) : Prop :=
  program.Within (ChargesOnly request.tenant) →
    ∀ stage : ServiceStage, stage.tagged = true → Conforms wiring request program stage

theorem opens_checked {α β : Type} {outcome : MemcoreResult β} {next : β → EngineProgram α}
    (rest : ∀ value, Opens wiring request (next value)) :
    Opens wiring request (Program.check outcome >>= next) := by
  intro within stage tagged
  apply (ensures_bind _ _ _ _ _).mpr
  apply (ensures_check _ _ _ _).mpr
  cases outcome with
  | ok value => exact rest value within stage tagged
  | error error => exact tagged

theorem conforms_discard {α : Type} {program : EngineProgram α}
    (conforms : Conforms wiring request program stage) :
    Conforms wiring request (do let _ ← program) stage := by
  apply (ensures_bind _ _ _ _ _).mpr
  apply conforms.mono (engineSpec_monotone wiring)
  intro outcome later tagged
  cases outcome with
  | ok value => exact (ensures_pure _ _ _ _).mpr tagged
  | error error => exact tagged

variable {engine : MemoryEngine} (attributing : engine.usageAttribution = true)

include attributing

/-- An engine that binds its tenant first keeps to the protocol. -/
theorem opens_bound {α : Type} {next : Unit → EngineProgram α} :
    Opens wiring request (bindUsageAttribution engine request.tenant >>= next) := by
  intro within stage tagged
  unfold bindUsageAttribution at within ⊢
  rw [if_pos attributing] at within ⊢
  apply (ensures_bind _ _ _ _ _).mpr
  apply (@ensures_call enginePorts MemcoreError ServiceStage _ stage
    (.system (.setUsageAttribution request.tenant.orgId (some request.tenant.userId))) _).mpr
  apply @serviceCall_succeeds P request stage (.engine (.system
    (.setUsageAttribution request.tenant.orgId (some request.tenant.userId)))) _ ⟨rfl, rfl⟩
  rintro (error | _)
  · exact tagged
  · cases within with
    | ask _ rest => exact conforms_ready wiring (rest (.ok ())) ⟨tagged, rfl⟩

/-- Every operation conforms to the protocol of its request. -/
theorem operation_conforms (tagged : stage.tagged = true) :
    Conforms wiring request (request.operation.program engine) stage := by
  obtain ⟨testSource, checks, operation⟩ := request
  cases operation with
  | addMemory input =>
    apply conforms_discard
    have opens : Opens wiring ⟨testSource, checks, .addMemory input⟩ (addMemory engine input) :=
      opens_checked wiring fun _ => opens_checked wiring fun _ => opens_bound wiring attributing
    exact opens ((addMemory_within engine input).mono mutatorCall_chargesOnly) stage tagged
  | searchMemory input =>
    apply conforms_discard
    have opens : Opens wiring ⟨testSource, checks, .searchMemory input⟩ (searchMemory engine input) :=
      opens_checked wiring fun _ => opens_checked wiring fun _ => opens_bound wiring attributing
    exact opens ((searchMemory_within engine input).mono searchCall_chargesOnly) stage tagged
  | buildContext input =>
    apply conforms_discard
    have opens : Opens wiring ⟨testSource, checks, .buildContext input⟩ (buildContext engine input) := by
      unfold buildContext checkContextRequest
      rw [Program.bind_assoc]
      refine opens_checked wiring fun _ => ?_
      rw [Program.bind_assoc]
      refine opens_checked wiring fun _ => ?_
      rw [Program.bind_assoc]
      exact opens_bound wiring attributing
    exact opens ((buildContext_within engine input).mono readerCall_chargesOnly) stage tagged

/-- Once its source is set, a request is handled within its protocol. -/
theorem handler_keeps (tagged : stage.tagged = true) :
    Succeeds (serviceProtocol P request).spec (request.handler engine wiring) (fun _ _ => True)
      stage := by
  unfold ServedRequest.handler
  split
  · exact (succeeds_pure _ _ _ _).mpr trivial
  · apply (succeeds_expand _ _ _ _ _).mpr
    apply (operation_conforms wiring attributing tagged).mono (engineSpec_monotone wiring)
    exact fun _ _ _ => trivial

/-- Every request keeps to its protocol. -/
theorem request_keeps :
    Succeeds (serviceProtocol P request).spec (request.program engine wiring) (fun _ _ => True)
      ⟨false, false, none⟩ := by
  apply (succeeds_bind _ _ _ _ _).mpr
  apply @serviceCall_succeeds P request _ (.setCallSource request.source) _ rfl
  intro _
  apply Succeeds.bind (serviceProtocol P request).spec_monotone
    (handler_keeps wiring attributing rfl)
  intro response later _
  apply (succeeds_bind _ _ _ _ _).mpr
  apply @serviceCall_succeeds P request later .clearCallSource _ trivial
  exact fun _ => (succeeds_pure _ _ _ _).mpr trivial

end Requests

/-! ## The slots -/

abbrev ServiceEvent (P : Type) := Event (servicePorts P) Dropped

abbrev ServiceHistory (P : Type) := Programs.History (servicePorts P) Dropped

def tags : ServiceEvent P → Bool
  | ⟨.setCallSource _, _⟩ => true
  | _ => false

def binds : ServiceEvent P → Bool
  | ⟨.engine (.system (.setUsageAttribution _ _)), _⟩ => true
  | _ => false

/-- A use of a router begins: it reads the source. -/
def beginsCall : ServiceEvent P → Bool
  | ⟨.router _ (.route .callSource), _⟩ => true
  | _ => false

/-- What an event writes to the slot of the source. -/
def writtenSource : ServiceEvent P → Option ProviderCallSource
  | ⟨.setCallSource source, _⟩ => some source
  | ⟨.clearCallSource, _⟩ => some .apiRequest
  | _ => none

/-- The event of usage that is recorded. -/
def recordedUsage : ServiceEvent P → Option ProviderUsageEvent
  | ⟨.router _ (.recordRequest _), .ok usage⟩ => some usage
  | _ => none

/-- What the guardrails are asked. -/
def judgedInput : ServiceEvent P → Option ProviderCallGuardInput
  | ⟨.router _ (.judge input), _⟩ => some input
  | _ => none

/-- The request that was the last one to bind its tenant. -/
def lastBinder (trace : ServiceHistory P) : Option ℕ :=
  lastWrite (fun thread event => if binds event then some (some thread) else none) none trace

/-- The source that stands in the slot, from the one that stood there first. -/
def standingSource (first : ProviderCallSource) (trace : ServiceHistory P) : ProviderCallSource :=
  lastWrite (fun _ event => writtenSource event) first trace

def ProviderUsageEvent.ChargedTo (usage : ProviderUsageEvent) (tenant : TenantContext) : Prop :=
  usage.orgId = some tenant.orgId ∧ usage.userId = some tenant.userId

theorem lastBinder_bound {trace : ServiceHistory P} {thread : ℕ}
    (bound : ∃ entry ∈ trace, entry.1 = thread ∧ binds entry.2 = true) :
    ∃ binder, lastBinder trace = some binder := by
  apply Option.isSome_iff_exists.mp
  apply @lastWrite_since _ _ _ _ none binds thread (fun value => value.isSome = true) trace bound
  · intro entry _ _ passes
    exact ⟨some entry.1, if_pos passes, rfl⟩
  · intro entry _ value written
    obtain ⟨_, same⟩ := Option.ite_none_right_eq_some.mp written
    rw [← Option.some.inj same]
    rfl

section Slots

variable (requests : ℕ → ServedRequest) (first : ProviderCallSource)

/-- An event of usage names the last request that bound, and its own request has bound
before; a call is judged by the source that stood there when it began. -/
structure FollowsSlots (thread : ℕ) (event : ServiceEvent P) (earlier : ServiceHistory P) :
    Prop where
  charged : ∀ usage, recordedUsage event = some usage →
    (∃ binder, lastBinder earlier = some binder ∧ usage.ChargedTo (requests binder).tenant) ∧
      ∃ entry ∈ earlier, entry.1 = thread ∧ binds entry.2 = true
  judged : ∀ input, judgedInput event = some input →
    input.source = standingSource first (upTo beginsCall thread earlier) ∧
      ∃ entry ∈ upTo beginsCall thread earlier, entry.1 = thread ∧ tags entry.2 = true

/-- What stands in the slots, what the requests have written, and what they have read. -/
structure SlotsHold (world : ServiceWorld) (trace : ServiceHistory P)
    (stages : ℕ → ServiceStage) : Prop where
  bearer : ∀ binder, lastBinder trace = some binder → world.engine.usageAttribution =
    some ((requests binder).tenant.orgId, some (requests binder).tenant.userId)
  standing : world.callSource = standingSource first trace
  ownTags : ∀ entry ∈ trace, tags entry.2 = true →
    writtenSource entry.2 = some (requests entry.1).source
  tagged : ∀ thread, (stages thread).tagged = true →
    ∃ entry ∈ trace, entry.1 = thread ∧ tags entry.2 = true
  bound : ∀ thread, (stages thread).bound = true →
    ∃ entry ∈ trace, entry.1 = thread ∧ binds entry.2 = true
  began : ∀ thread source, (stages thread).callSource = some source →
    source = standingSource first (upTo beginsCall thread trace) ∧
      ∃ entry ∈ upTo beginsCall thread trace, entry.1 = thread ∧ tags entry.2 = true
  follows : Throughout (FollowsSlots requests first) trace

variable {requests first} {world later : ServiceWorld} {trace : ServiceHistory P}
  {stages : ℕ → ServiceStage} {thread : ℕ} {event : ServiceEvent P} {stage : ServiceStage}

theorem exists_own_cons {test : ServiceEvent P → Bool} {other : ℕ}
    (before : other ≠ thread → ∃ entry ∈ trace, entry.1 = other ∧ test entry.2 = true)
    (now : other = thread → (∃ entry ∈ trace, entry.1 = other ∧ test entry.2 = true) ∨
      test event = true) :
    ∃ entry ∈ (thread, event) :: trace, entry.1 = other ∧ test entry.2 = true := by
  have kept (earlier : ∃ entry ∈ trace, entry.1 = other ∧ test entry.2 = true) :
      ∃ entry ∈ (thread, event) :: trace, entry.1 = other ∧ test entry.2 = true := by
    obtain ⟨entry, listed, holds⟩ := earlier
    exact ⟨entry, List.mem_cons_of_mem _ listed, holds⟩
  by_cases same : other = thread
  · rcases now same with earlier | passes
    · exact kept earlier
    · exact ⟨_, List.mem_cons_self, same.symm, passes⟩
  · exact kept (before same)

/-- What a step has to be like for the slots to hold what they should. -/
theorem SlotsHold.step (holds : SlotsHold requests first world trace stages)
    (bearer : later.engine.usageAttribution =
      if binds event then some ((requests thread).tenant.orgId, some (requests thread).tenant.userId)
      else world.engine.usageAttribution)
    (standing : later.callSource = (writtenSource event).getD world.callSource)
    (ownTag : tags event = true → writtenSource event = some (requests thread).source)
    (tagged : stage.tagged = true → (stages thread).tagged = true ∨ tags event = true)
    (bound : stage.bound = true → (stages thread).bound = true ∨ binds event = true)
    (unread : beginsCall event = false → stage.callSource = (stages thread).callSource)
    (read : beginsCall event = true → ∀ source, stage.callSource = some source →
      source = world.callSource ∧ (stages thread).tagged = true)
    (follows : FollowsSlots requests first thread event trace) :
    SlotsHold requests first later ((thread, event) :: trace)
      (Function.update stages thread stage) := by
  constructor
  · intro binder last
    rw [bearer]
    cases writes : binds event with
    | true =>
      have same : thread = binder := by simpa [lastBinder, lastWrite, writes] using last
      subst same
      rfl
    | false =>
      have before : lastBinder trace = some binder := by
        simpa [lastBinder, lastWrite, writes] using last
      exact holds.bearer binder before
  · rw [standing, holds.standing]
    rfl
  · intro entry listed passes
    rcases List.mem_cons.mp listed with rfl | listed
    · exact ownTag passes
    · exact holds.ownTags entry listed passes
  · intro other isTagged
    refine exists_own_cons (fun different => ?_) fun same => ?_
    · rw [Function.update_of_ne different] at isTagged
      exact holds.tagged other isTagged
    · subst same
      rw [Function.update_self] at isTagged
      exact (tagged isTagged).imp_left (holds.tagged other)
  · intro other isBound
    refine exists_own_cons (fun different => ?_) fun same => ?_
    · rw [Function.update_of_ne different] at isBound
      exact holds.bound other isBound
    · subst same
      rw [Function.update_self] at isBound
      exact (bound isBound).imp_left (holds.bound other)
  · intro other source reads
    by_cases same : other = thread
    · subst same
      rw [Function.update_self] at reads
      cases begins : beginsCall event with
      | true =>
        obtain ⟨rfl, isTagged⟩ := read begins source reads
        rw [upTo_own begins]
        exact ⟨holds.standing, holds.tagged other isTagged⟩
      | false =>
        rw [upTo_skip (.inr begins)]
        exact holds.began other source ((unread begins).symm.trans reads)
    · rw [Function.update_of_ne same] at reads
      rw [upTo_skip (.inl (Ne.symm same))]
      exact holds.began other source reads
  · exact ⟨follows, holds.follows⟩

end Slots

/-! ## Requests together -/

theorem serve_usageAttribution (platform : Platform) (choice : Choice) (port : Port)
    (world : World) : (World.serve platform choice port world).2.usageAttribution =
      match port with
      | .system (.setUsageAttribution orgId userId) => some (orgId, userId)
      | _ => world.usageAttribution := by
  cases port with
  | system call => cases call <;> rfl
  | coordinator call =>
    simp only [World.serve, World.serveCoordinator]
    split <;> first | rfl | (split <;> rfl)
  | _ =>
    simp only [World.serve, World.unlessFault]
    split <;> rfl

section Runs

variable {engine : MemoryEngine} {wiring : ProviderWiring P} {requests : ℕ → ServedRequest}
  {first : ProviderCallSource} {world : ServiceWorld} {trace : ServiceHistory P}
  {stages : ℕ → ServiceStage} {thread : ℕ}

/-- An event that neither records nor judges. -/
theorem followsSlots_silent {event : ServiceEvent P} (unrecorded : recordedUsage event = none)
    (unjudged : judgedInput event = none) : FollowsSlots requests first thread event trace where
  charged usage recorded := by
    rw [unrecorded] at recorded
    contradiction
  judged input judged := by
    rw [unjudged] at judged
    contradiction

/-- Every step of a request on its protocol keeps the slots. -/
theorem slotsHold_step (holds : SlotsHold requests first world trace stages) (call : ServiceCall P)
    (choice : ServiceChoice)
    (allowed : (serviceProtocol P (requests thread)).allows (stages thread) call) :
    SlotsHold requests first ((serviceServer engine wiring).serve choice call world).2
      ((thread, ⟨call, ((serviceServer engine wiring).serve choice call world).1⟩) :: trace)
      (Function.update stages thread ((serviceProtocol P (requests thread)).next (stages thread) call
        ((serviceServer engine wiring).serve choice call world).1)) := by
  cases call with
  | setCallSource source =>
    obtain rfl : source = (requests thread).source := allowed
    exact holds.step rfl rfl (fun _ => rfl) (fun _ => .inr rfl) .inl (fun _ => rfl) nofun
      (followsSlots_silent rfl rfl)
  | clearCallSource =>
    exact holds.step rfl rfl nofun .inl .inl (fun _ => rfl) nofun (followsSlots_silent rfl rfl)
  | engine port =>
    have served := serve_usageAttribution engine.platform choice.engine port world.engine
    cases port with
    | system call =>
      cases call with
      | setUsageAttribution orgId userId =>
        obtain ⟨rfl, rfl⟩ := allowed
        exact holds.step served rfl nofun .inl (fun _ => .inr rfl) (fun _ => rfl) nofun
          (followsSlots_silent rfl rfl)
      | _ =>
        exact holds.step served rfl nofun .inl .inl (fun _ => rfl) nofun
          (followsSlots_silent rfl rfl)
    | _ =>
      exact holds.step served rfl nofun .inl .inl (fun _ => rfl) nofun (followsSlots_silent rfl rfl)
  | router call metered =>
    cases metered with
    | route request =>
      cases request with
      | callSource =>
        refine holds.step rfl rfl nofun .inl .inl nofun ?_ (followsSlots_silent rfl rfl)
        intro _ source reads
        exact ⟨(Option.some.inj reads).symm, allowed⟩
      | _ =>
        exact holds.step rfl rfl nofun .inl .inl (fun _ => rfl) nofun (followsSlots_silent rfl rfl)
    | judge input =>
      refine holds.step rfl rfl nofun .inl .inl (fun _ => rfl) nofun ⟨nofun, ?_⟩
      intro judged asked
      obtain rfl : input = judged := Option.some.inj asked
      exact holds.began thread _ allowed
    | recordRequest report =>
      have bound := holds.bound thread allowed
      obtain ⟨binder, last⟩ := lastBinder_bound bound
      have bearer := holds.bearer binder last
      refine holds.step rfl rfl nofun .inl .inl (fun _ => rfl) nofun ⟨?_, nofun⟩
      intro usage recorded
      obtain rfl : report.charge world.attribution = usage := Option.some.inj recorded
      refine ⟨⟨binder, last, ?_⟩, bound⟩
      simp only [ProviderUsageEvent.ChargedTo, ProviderUsageReport.charge,
        ServiceWorld.attribution, bearer]
      exact ⟨rfl, rfl⟩

/-! ### Every event of usage and every judgement -/

/-- Any interleaving at all. -/
def anyServiceStep (_ : ServiceWorld) (_ : ServiceHistory P) (_ : ℕ) (_ : ServiceCall P)
    (_ : ServiceChoice) : Prop := True

instance (world : ServiceWorld) (trace : ServiceHistory P) (thread : ℕ) (call : ServiceCall P)
    (choice : ServiceChoice) : Decidable (anyServiceStep world trace thread call choice) :=
  .isTrue trivial

/-- The requests before their first call. -/
abbrev startService (engine : MemoryEngine) (wiring : ProviderWiring P)
    (requests : ℕ → ServedRequest) (world : ServiceWorld) :
    Pool (servicePorts P) Dropped (MemcoreResult Unit) ServiceWorld :=
  .start world fun thread => (requests thread).program engine wiring

/-- What the requests have had recorded, the earliest first. -/
def recordedBy (trace : ServiceHistory P) : List ProviderUsageEvent :=
  trace.reverse.filterMap fun entry => recordedUsage entry.2

theorem recordedBy_cons (event : ServiceEvent P) :
    recordedBy ((thread, event) :: trace) = recordedBy trace ++ (recordedUsage event).toList := by
  cases recorded : recordedUsage event <;>
    simp [recordedBy, List.filterMap_append, recorded]

/-- A call records what its event says. -/
theorem serve_recorded (call : ServiceCall P) (choice : ServiceChoice) (world : ServiceWorld) :
    ((serviceServer engine wiring).serve choice call world).2.recorded = world.recorded ++
      (recordedUsage
        ⟨call, ((serviceServer engine wiring).serve choice call world).1⟩).toList := by
  cases call with
  | router call metered =>
    cases metered with
    | recordRequest report => rfl
    | _ => exact (List.append_nil _).symm
  | _ => exact (List.append_nil _).symm

/-- What is recorded is what the requests have had recorded. -/
theorem reached_recorded {pool : Pool (servicePorts P) Dropped (MemcoreResult Unit) ServiceWorld}
    (reached : Pool.Reaches (serviceServer engine wiring) anyServiceStep
      (startService engine wiring requests world) pool) :
    pool.world.recorded = world.recorded ++ recordedBy pool.trace := by
  induction reached with
  | start => exact (List.append_nil _).symm
  | step pool thread call resume choice _ _ _ _ inductionHypothesis =>
    simp only [Pool.answer]
    rw [serve_recorded, recordedBy_cons, inductionHypothesis, List.append_assoc]

/-- An event of usage is charged to the tenant of the last request that bound before it: to the
tenant of its own request, if since that one has bound no request of another tenant has. -/
structure ChargedToLastBinder (requests : ℕ → ServedRequest) (thread : ℕ)
    (earlier : ServiceHistory P) (usage : ProviderUsageEvent) : Prop where
  last : ∃ binder, lastBinder earlier = some binder ∧ usage.ChargedTo (requests binder).tenant
  own : (∀ entry ∈ since binds thread earlier, binds entry.2 = true →
    (requests entry.1).tenant = (requests thread).tenant) → usage.ChargedTo (requests thread).tenant

/-- A call is judged by the source that stood in the slot when it began: by the source of its
own request, if since that one has set the slot nothing else has been written to it. -/
structure JudgedByStanding (requests : ℕ → ServedRequest) (first : ProviderCallSource)
    (thread : ℕ) (earlier : ServiceHistory P) (input : ProviderCallGuardInput) : Prop where
  standing : input.source = standingSource first (upTo beginsCall thread earlier)
  own : (∀ entry ∈ since tags thread (upTo beginsCall thread earlier), ∀ source,
    writtenSource entry.2 = some source → source = (requests thread).source) →
      input.source = (requests thread).source

theorem FollowsSlots.chargedToLastBinder {event : ServiceEvent P}
    (follows : FollowsSlots requests first thread event trace) {usage : ProviderUsageEvent}
    (recorded : recordedUsage event = some usage) :
    ChargedToLastBinder requests thread trace usage := by
  obtain ⟨⟨binder, last, charged⟩, bound⟩ := follows.charged usage recorded
  refine ⟨⟨binder, last, charged⟩, fun undisturbed => ?_⟩
  have own := @lastWrite_since _ _ _ (fun thread event => if binds event then some (some thread)
      else none) none binds thread (fun value => ∀ binder, value = some binder →
      (requests binder).tenant = (requests thread).tenant) trace bound ?_ ?_
  · rwa [← own binder last]
  · rintro entry _ rfl passes
    refine ⟨some entry.1, if_pos passes, ?_⟩
    rintro binder same
    rw [Option.some.inj same]
  · intro entry listed value written binder same
    obtain ⟨passes, written⟩ := Option.ite_none_right_eq_some.mp written
    obtain rfl : entry.1 = binder := Option.some.inj ((Option.some.inj written).trans same)
    exact undisturbed entry listed passes

theorem mem_of_mem_upTo {test : ServiceEvent P → Bool} {entry : ℕ × ServiceEvent P}
    (listed : entry ∈ upTo test thread trace) : entry ∈ trace := by
  induction trace with
  | nil => exact listed
  | cons latest trace inductionHypothesis =>
    rw [upTo] at listed
    split at listed
    · exact List.mem_cons_of_mem _ listed
    · exact List.mem_cons_of_mem _ (inductionHypothesis listed)

theorem FollowsSlots.judgedByStanding {event : ServiceEvent P}
    (follows : FollowsSlots requests first thread event trace)
    (ownTags : ∀ entry ∈ trace, tags entry.2 = true →
      writtenSource entry.2 = some (requests entry.1).source) {input : ProviderCallGuardInput}
    (judged : judgedInput event = some input) :
    JudgedByStanding requests first thread trace input := by
  obtain ⟨standing, tagged⟩ := follows.judged input judged
  refine ⟨standing, fun undisturbed => ?_⟩
  rw [standing]
  apply @lastWrite_since _ _ _ (fun _ event => writtenSource event) first tags thread
    (fun source => source = (requests thread).source) _ tagged _ undisturbed
  rintro entry listed rfl passes
  exact ⟨_, ownTags entry (mem_of_mem_upTo listed) passes, rfl⟩

theorem slotsHold_start : SlotsHold (P := P) requests world.callSource world []
    fun _ => ⟨false, false, none⟩ where
  bearer _ last := nomatch last
  standing := rfl
  ownTags _ listed := absurd listed List.not_mem_nil
  tagged _ tagged := nomatch tagged
  bound _ bound := nomatch bound
  began _ _ began := nomatch began
  follows := trivial

/-- Whatever the order of the steps, the slots hold what they should. -/
theorem reached_slotsHold (attributing : engine.usageAttribution = true)
    {pool : Pool (servicePorts P) Dropped (MemcoreResult Unit) ServiceWorld}
    (reached : Pool.Reaches (serviceServer engine wiring) anyServiceStep
      (startService engine wiring requests world) pool) :
    ∃ stages, SlotsHold requests world.callSource pool.world pool.trace stages := by
  have follow : Pool.Follow (fun thread => serviceProtocol P (requests thread))
      (fun _ => onSuccess fun _ _ => True) (startService engine wiring requests world)
      fun _ => ⟨false, false, none⟩ :=
    fun thread => (succeeds_iff _ _ _ _).mp (request_keeps wiring attributing)
  obtain ⟨stages, holds, _⟩ := @Pool.Reaches.invariant _ _ _ _ _ _ _ _ _ _ reached
    (fun thread => serviceProtocol P (requests thread)) _ (SlotsHold requests world.callSource)
    (fun _ _ _ _ call choice holds allowed _ _ => slotsHold_step holds call choice allowed) _
    follow slotsHold_start
  exact ⟨stages, holds⟩

theorem usage_follows_slots (engine : MemoryEngine) (attributing : engine.usageAttribution = true)
    (wiring : ProviderWiring P) (requests : ℕ → ServedRequest) (world : ServiceWorld)
    {pool : Pool (servicePorts P) Dropped (MemcoreResult Unit) ServiceWorld}
    (reached : Pool.Reaches (serviceServer engine wiring) anyServiceStep
      (startService engine wiring requests world) pool) :
    pool.world.recorded = world.recorded ++ recordedBy pool.trace ∧
      ∀ (later earlier : ServiceHistory P) (thread : ℕ) (event : ServiceEvent P),
        pool.trace = later ++ (thread, event) :: earlier →
          (∀ usage, recordedUsage event = some usage →
            ChargedToLastBinder requests thread earlier usage) ∧
          ∀ input, judgedInput event = some input →
            JudgedByStanding requests world.callSource thread earlier input := by
  obtain ⟨stages, holds⟩ := reached_slotsHold attributing reached
  refine ⟨reached_recorded reached, fun later earlier thread event split => ?_⟩
  have throughout := holds.follows
  rw [split] at throughout
  have follows := throughout.holds
  refine ⟨fun usage recorded => follows.chargedToLastBinder recorded,
    fun input judged => follows.judgedByStanding (fun entry listed => ?_) judged⟩
  apply holds.ownTags
  rw [split]
  exact List.mem_append_right _ (List.mem_cons_of_mem _ listed)

end Runs

/-! ### A sample -/

section Sample

/-- A mock embedding behind the guardrails as they are by default. -/
def sampleWiring : ProviderWiring Unit where
  providers := []
  summarizerProviders := []
  embeddingProviders := [⟨⟨"mock", .embedding⟩, (), some "mock-embedding"⟩]
  fallbackEnabled := false
  policy := {}
  breaker := {}
  guardrails := {}

def sampleAttributing : MemoryEngine := { MemoryEngine.sample with usageAttribution := true }

def sampleServiceWorld : ServiceWorld := ⟨World.empty 10, .fresh, .apiRequest, []⟩

/-- Searches for different users, the first of them tagged as a load test. -/
def sampleSearches : ℕ → ServedRequest
  | 0 => ⟨some "load-test", .ok (), .searchMemory ⟨sampleTenant, "coffee", 5, none, none⟩⟩
  | _ + 1 => ⟨none, .ok (), .searchMemory ⟨⟨"globex", "bob"⟩, "tea", 5, none, none⟩⟩

/-- A request takes that many steps; the provider answers with an embedding. -/
def serviceSteps (thread count : ℕ) : List (ℕ × ServiceChoice) :=
  List.replicate count (thread, { engine := { embedding := [1] } })

/-- A request sets the source, binds, begins its call, is judged and passes the circuit; after
the provider's answer it tells the circuit and has its usage recorded. -/
theorem usage_follows_slots_sample : ∃ pool,
    Pool.Reaches (serviceServer sampleAttributing sampleWiring) anyServiceStep
      (startService sampleAttributing sampleWiring sampleSearches sampleServiceWorld) pool ∧
    ∃ earlier thread usage, ChargedToLastBinder (P := Unit) sampleSearches thread earlier usage ∧
      usage ∈ pool.world.recorded := by
  obtain ⟨pool, reached, recorded⟩ := Pool.exists_reached_of_run
    (serviceServer sampleAttributing sampleWiring) anyServiceStep (serviceSteps 0 8)
    (startService sampleAttributing sampleWiring sampleSearches sampleServiceWorld)
    (fun pool => pool.trace.any fun entry => (recordedUsage entry.2).isSome) (by decide +kernel)
  obtain ⟨⟨thread, event⟩, listed, isRecorded⟩ := List.any_eq_true.mp recorded
  obtain ⟨usage, same⟩ := Option.isSome_iff_exists.mp isRecorded
  obtain ⟨later, earlier, split⟩ := List.append_of_mem listed
  have follows := usage_follows_slots sampleAttributing rfl sampleWiring sampleSearches _ reached
  refine ⟨pool, reached, earlier, thread, usage, (follows.2 _ _ _ _ split).1 usage same, ?_⟩
  rw [follows.1]
  exact List.mem_append_right _ (List.mem_filterMap.mpr ⟨_, List.mem_reverse.mpr listed, same⟩)

/-- An event that charges another organization than that of its request. -/
def chargesElsewhere (entry : ℕ × ServiceEvent Unit) : Bool :=
  (recordedUsage entry.2).any fun usage : ProviderUsageEvent =>
    decide (usage.orgId ≠ some (sampleSearches entry.1).tenant.orgId)

def judgesOtherwise (entry : ℕ × ServiceEvent Unit) : Bool :=
  (judgedInput entry.2).any fun input : ProviderCallGuardInput =>
    decide (input.source ≠ (sampleSearches entry.1).source)

/-- Of two overlapping requests the first is judged by the source of the second, and the second
has its usage charged to the tenant of the first. -/
theorem usage_charged_elsewhere : ∃ pool,
    Pool.Reaches (serviceServer sampleAttributing sampleWiring) anyServiceStep
      (startService sampleAttributing sampleWiring sampleSearches sampleServiceWorld) pool ∧
    (∃ entry ∈ pool.trace, ∃ usage, recordedUsage entry.2 = some usage ∧
      ¬ usage.ChargedTo (sampleSearches entry.1).tenant) ∧
    ∃ entry ∈ pool.trace, ∃ input, judgedInput entry.2 = some input ∧
      input.source ≠ (sampleSearches entry.1).source := by
  obtain ⟨pool, reached, failing⟩ := Pool.exists_reached_of_run
    (serviceServer sampleAttributing sampleWiring) anyServiceStep
    (serviceSteps 0 1 ++ serviceSteps 1 5 ++ serviceSteps 0 4 ++ serviceSteps 1 3)
    (startService sampleAttributing sampleWiring sampleSearches sampleServiceWorld)
    (fun pool => pool.trace.any chargesElsewhere && pool.trace.any judgesOtherwise)
    (by decide +kernel)
  obtain ⟨charged, judged⟩ := Bool.and_eq_true_iff.mp failing
  obtain ⟨entry, listed, elsewhere⟩ := List.any_eq_true.mp charged
  obtain ⟨usage, recorded, other⟩ := (Option.any_eq_true _ _).mp elsewhere
  obtain ⟨second, secondListed, otherwise⟩ := List.any_eq_true.mp judged
  obtain ⟨input, asked, different⟩ := (Option.any_eq_true _ _).mp otherwise
  exact ⟨pool, reached,
    ⟨entry, listed, usage, recorded, fun same => of_decide_eq_true other same.1⟩,
    second, secondListed, input, asked, of_decide_eq_true different⟩

end Sample

end Memcore
