import Memcore.Engine.Effects

/-!
# Operations and histories

A history is a sequence of operations, each run to its end alone, that starts
with empty stores. Which choices the surroundings may make, and which outcomes an
operation may have, are parameters: a claim about failures admits all of them.
-/
namespace Memcore

open Programs

/-- The engine's operations on memories, with their inputs. -/
inductive EngineOperation where
  | addMemory (input : AddMemoryInput)
  | deleteMemory (input : DeleteMemoryInput)
  | applyRetention (input : ApplyRetentionInput)
  | forgetUser (input : ForgetUserInput)
  | importUserData (input : ImportUserDataInput)
  | exportUserData (input : ExportUserDataInput)
  | searchMemory (input : SearchMemoryInput)
  | buildContext (input : BuildContextInput)
  | refreshStaleContext (input : BuildContextInput)

namespace EngineOperation

/-- Run an operation and forget what it returns. -/
def program (engine : MemoryEngine) : EngineOperation → EngineProgram Unit
  | addMemory input => do let _ ← Memcore.addMemory engine input
  | deleteMemory input => do let _ ← Memcore.deleteMemory engine input
  | applyRetention input => do let _ ← Memcore.applyRetention engine input
  | forgetUser input => do let _ ← Memcore.forgetUser engine input
  | importUserData input => do let _ ← Memcore.importUserData engine input
  | exportUserData input => do let _ ← Memcore.exportUserData engine input
  | searchMemory input => do let _ ← Memcore.searchMemory engine input
  | buildContext input => do let _ ← Memcore.buildContext engine input
  | refreshStaleContext input => Memcore.refreshStaleContext engine input

/-- The tenant that an operation is about. -/
def tenant : EngineOperation → TenantContext
  | addMemory input => input.tenant
  | deleteMemory input => input.tenant
  | applyRetention input => input.tenant
  | forgetUser input => input.tenant
  | importUserData input => input.tenant
  | exportUserData input => input.tenant
  | searchMemory input => input.tenant
  | buildContext input => input.tenant
  | refreshStaleContext input => input.tenant

/-- The operations that may change what is stored. -/
def Mutates : EngineOperation → Prop
  | addMemory _ | deleteMemory _ | applyRetention _ | forgetUser _ | importUserData _ => True
  | _ => False

theorem program_mutator (engine : MemoryEngine) {operation : EngineOperation}
    (mutates : operation.Mutates) :
    (operation.program engine).Within (MutatorCall operation.tenant) := by
  cases operation with
  | addMemory input => exact .bind (addMemory_within engine input) fun _ => .pure _
  | deleteMemory input => exact .bind (deleteMemory_within engine input) fun _ => .pure _
  | applyRetention input => exact .bind (applyRetention_within engine input) fun _ => .pure _
  | forgetUser input => exact .bind (forgetUser_within engine input) fun _ => .pure _
  | importUserData input => exact .bind (importUserData_within engine input) fun _ => .pure _
  | _ => exact mutates.elim

theorem program_reader (engine : MemoryEngine) {operation : EngineOperation}
    (reads : ¬ operation.Mutates) :
    (operation.program engine).Within (ReaderCall operation.tenant) := by
  cases operation with
  | exportUserData input =>
    exact .bind ((exportUserData_within engine input).mono searchCall_readerCall)
      fun _ => .pure _
  | searchMemory input =>
    exact .bind ((searchMemory_within engine input).mono searchCall_readerCall)
      fun _ => .pure _
  | buildContext input => exact .bind (buildContext_within engine input) fun _ => .pure _
  | refreshStaleContext input => exact refreshStaleContext_within engine input
  | _ => exact absurd trivial reads

end EngineOperation

/-- Only operations that return are accepted. -/
def returning : MemcoreResult Unit → Prop := fun outcome => outcome.isOk = true

/-- Operations may fail. -/
def anyOutcome : MemcoreResult Unit → Prop := fun _ => True

instance : DecidablePred returning := fun outcome =>
  inferInstanceAs (Decidable (outcome.isOk = true))

instance : DecidablePred anyOutcome := fun _ => inferInstanceAs (Decidable True)

/-- The worlds that a sequence of operations leads to from empty stores. -/
inductive History (engine : MemoryEngine) (admits : World → Port → Choice → Prop)
    (accepts : MemcoreResult Unit → Prop) : World → Prop where
  | start (maxEntries : ℕ) : History engine admits accepts (World.empty maxEntries)
  | step (world final : World) (operation : EngineOperation) (trace : List EngineEvent)
      (outcome : MemcoreResult Unit) (before : History engine admits accepts world)
      (run : Runs (engineServer engine.platform) admits (operation.program engine) world trace
        outcome final)
      (accepted : accepts outcome) : History engine admits accepts final

/-- What holds of empty stores and is kept by every operation with an accepted
outcome holds throughout. -/
theorem History.invariant {engine : MemoryEngine} {admits : World → Port → Choice → Prop}
    {accepts : MemcoreResult Unit → Prop} {world : World}
    (history : History engine admits accepts world) (kept : World → Prop)
    (initially : ∀ maxEntries, kept (World.empty maxEntries))
    (keeps : ∀ (operation : EngineOperation) (before : World), kept before →
      Ensures (worldSpec engine.platform admits) (operation.program engine)
        (fun outcome final => accepts outcome → kept final) before) : kept world := by
  induction history with
  | start maxEntries => exact initially maxEntries
  | step world final operation trace outcome _ run accepted inductionHypothesis =>
    exact run.ensured (keeps operation world inductionHypothesis) accepted

/-- Whatever fails on the way, every stored fact is valid. -/
theorem History.facts_valid {engine : MemoryEngine} {admits : World → Port → Choice → Prop}
    {accepts : MemcoreResult Unit → Prop} {world : World}
    (history : History engine admits accepts world) :
    ∀ fact ∈ world.facts.facts.rows, fact.Valid := by
  refine history.invariant (fun world => ∀ fact ∈ world.facts.facts.rows, fact.Valid)
    (fun _ _ stored => absurd stored List.not_mem_nil) fun operation before valid => ?_
  by_cases mutates : operation.Mutates
  · refine Ensures.mono worldSpec_monotone (Program.Within.ensures _
      (fun world port choice valid own _ _ => own.serve_valid choice valid)
      (operation.program_mutator engine mutates) valid) fun _ _ still _ => still
  · refine Ensures.mono worldSpec_monotone (Program.Within.ensures
      (fun world => ∀ fact ∈ world.facts.facts.rows, fact.Valid) (fun world port choice valid isReader _ _ => ?_)
      (operation.program_reader engine mutates) valid) fun _ _ still _ => still
    show ∀ fact ∈ (World.serve engine.platform choice port world).2.facts.facts.rows, fact.Valid
    rw [(isReader.serve_stores choice world).1]
    exact valid

/-- The worlds that given operations, whatever their outcomes, lead to from empty stores. -/
inductive Session (engine : MemoryEngine) (admits : World → Port → Choice → Prop) :
    List EngineOperation → World → Prop where
  | start (maxEntries : ℕ) : Session engine admits [] (World.empty maxEntries)
  | step (operations : List EngineOperation) (operation : EngineOperation)
      (world final : World) (trace : List EngineEvent) (outcome : MemcoreResult Unit)
      (before : Session engine admits operations world)
      (run : Runs (engineServer engine.platform) admits (operation.program engine) world trace
        outcome final) : Session engine admits (operation :: operations) final

/-- What holds of empty stores and is kept by all operations that are allowed holds
throughout a session of allowed operations. -/
theorem Session.invariant {engine : MemoryEngine} {admits : World → Port → Choice → Prop}
    {operations : List EngineOperation} {world : World}
    (session : Session engine admits operations world) {allowed : EngineOperation → Prop}
    (allAllowed : ∀ operation ∈ operations, allowed operation) (kept : World → Prop)
    (initially : ∀ maxEntries, kept (World.empty maxEntries))
    (keeps : ∀ (operation : EngineOperation) (before : World), allowed operation → kept before →
      Ensures (worldSpec engine.platform admits) (operation.program engine)
        (fun _ final => kept final) before) : kept world := by
  induction session with
  | start maxEntries => exact initially maxEntries
  | step operations operation world final trace outcome _ run inductionHypothesis =>
    have earlier := inductionHypothesis fun other member =>
      allAllowed other (List.mem_cons_of_mem _ member)
    exact run.ensured (keeps operation world (allAllowed operation List.mem_cons_self) earlier)

/-! ## Histories by replay -/

/-- A platform that is right about the few inputs of the runs below: embeddings of
one dimension, and the digests of one query and of its options. -/
def Platform.sample : Platform where
  cosineSimilarity left right := if left = right then 1 else 0
  stableSha256Hex text :=
    if text = "coffee" then "37290d74ac4d186e3a8e5785d259d2ec04fac91ae28092e7620ec8bc99e830aa"
    else "dcf8965e9a1f128eceae8c13513be52b86a11b071f524d5fe494b16b195951f8"
  redactText text := text
  formatFloat _ := "1.0"
  toRfc3339 _ := "1970-01-01T00:00:00+00:00"
  parseJson _ := none


/-- Replay operations in turn. The result is absent when a replay is, or when an
outcome is not accepted. -/
def replayOperations (engine : MemoryEngine) (admits : World → Port → Choice → Prop)
    [∀ world port choice, Decidable (admits world port choice)]
    (accepts : MemcoreResult Unit → Prop) [DecidablePred accepts] :
    List (EngineOperation × List Choice) → World → Option World
  | [], world => some world
  | (operation, choices) :: rest, world =>
      match replay (engineServer engine.platform) admits choices (operation.program engine)
          world with
      | some (_, outcome, after) =>
          if accepts outcome then replayOperations engine admits accepts rest after else none
      | none => none

theorem replayOperations_history {engine : MemoryEngine}
    {admits : World → Port → Choice → Prop}
    [∀ world port choice, Decidable (admits world port choice)]
    {accepts : MemcoreResult Unit → Prop} [DecidablePred accepts]
    (operations : List (EngineOperation × List Choice)) {world final : World}
    (before : History engine admits accepts world)
    (replayed : replayOperations engine admits accepts operations world = some final) :
    History engine admits accepts final := by
  induction operations generalizing world with
  | nil =>
    obtain rfl : world = final := by simpa [replayOperations] using replayed
    exact before
  | cons entry rest inductionHypothesis =>
    obtain ⟨operation, choices⟩ := entry
    unfold replayOperations at replayed
    split at replayed
    · rename_i trace outcome after found
      by_cases accepted : accepts outcome
      · rw [if_pos accepted] at replayed
        have run := replay_runs _ _ _ _ _ _ found
        exact inductionHypothesis (before.step _ _ _ _ _ run accepted) replayed
      · rw [if_neg accepted] at replayed
        simp at replayed
    · simp at replayed

/-- A replay from empty stores that passes a test shows that there is such a history. -/
theorem exists_history_of_replay {engine : MemoryEngine}
    {admits : World → Port → Choice → Prop}
    [∀ world port choice, Decidable (admits world port choice)]
    {accepts : MemcoreResult Unit → Prop} [DecidablePred accepts] (maxEntries : ℕ)
    (operations : List (EngineOperation × List Choice)) (test : World → Bool)
    (passes : (replayOperations engine admits accepts operations
      (World.empty maxEntries)).any test = true) :
    ∃ world, History engine admits accepts world ∧ test world = true := by
  obtain ⟨world, replayed, passed⟩ := (Option.any_eq_true _ _).mp passes
  exact ⟨world, replayOperations_history operations (.start maxEntries) replayed, passed⟩

/-- A replay of operations, the latest first, shows a session of them. -/
theorem exists_session_of_replay {engine : MemoryEngine}
    {admits : World → Port → Choice → Prop}
    [∀ world port choice, Decidable (admits world port choice)] (maxEntries : ℕ)
    (operations : List (EngineOperation × List Choice)) (test : World → Bool)
    (passes : (replayOperations engine admits anyOutcome operations
      (World.empty maxEntries)).any test = true) :
    ∃ world, Session engine admits (operations.map Prod.fst).reverse world ∧
      test world = true := by
  obtain ⟨final, replayed, passed⟩ := (Option.any_eq_true _ _).mp passes
  have extends_session : ∀ (rest : List (EngineOperation × List Choice)) earlier world,
      Session engine admits earlier world →
      replayOperations engine admits anyOutcome rest world = some final →
        Session engine admits ((rest.map Prod.fst).reverse ++ earlier) final := by
    intro rest
    induction rest with
    | nil =>
      intro earlier world before replayed
      obtain rfl : world = final := by simpa [replayOperations] using replayed
      exact before
    | cons entry rest inductionHypothesis =>
      intro earlier world before replayed
      obtain ⟨operation, choices⟩ := entry
      unfold replayOperations at replayed
      split at replayed
      · rename_i trace outcome after found
        rw [if_pos (show anyOutcome outcome from trivial)] at replayed
        have run := replay_runs _ _ _ _ _ _ found
        have later := inductionHypothesis (operation :: earlier) after
          (.step earlier operation world after trace outcome before run) replayed
        simpa using later
      · simp at replayed
  have session := extends_session operations [] _ (.start maxEntries) replayed
  rw [List.append_nil] at session
  exact ⟨final, session, passed⟩

/-- A user, something the user said, and what the model makes of it. -/
def sampleTenant : TenantContext := ⟨"acme", "ada"⟩

def sampleCandidate : CandidateFact :=
  { memoryType := .preference, content := "Ada prefers coffee without sugar",
    confidence := 9 / 10, importance := 9 / 10, validAt := none, metadata := .object [] }

/-- Adding one memory, for which the model extracts the given candidates. -/
def sampleAdd : EngineOperation :=
  .addMemory ⟨sampleTenant, [⟨.user, "I take my coffee without sugar"⟩], .object []⟩

/-- The choices for adding a candidate under an identifier; the record and the audit
event get the next two. -/
def addChoices (candidate : CandidateFact) (id : Uuid) (embedding : List ℚ) : List Choice :=
  [{ candidates := [candidate] }, {}, { embedding := embedding }, {}, {},
    { decision := ⟨.add, none, none, 1⟩ }, {}, { uuid := id }, {}, { uuid := id + 1 }, {},
    { uuid := id + 2 }, {}]

def sampleAddChoices (id : Uuid) (embedding : List ℚ) : List Choice :=
  addChoices sampleCandidate id embedding

/-- A request for the context whose digests the sample platform knows. -/
def sampleContext : BuildContextInput where
  tenant := sampleTenant
  query := "coffee"
  maxMemories := 5
  memoryTypes := none
  includeMetadata := false
  budget := ⟨1000, 0⟩
  formatOptions := .default
  compressionOptions := ⟨.disabled, 200, true⟩

/-- An engine that caches contexts. -/
def MemoryEngine.sample : MemoryEngine :=
  { MemoryEngine.new .sample with contextCacheConfig := { ContextCacheConfig.default with enabled := true } }

/-- Choices that embed every text alike and make no other contribution. -/
def plainChoices (count : ℕ) : List Choice := List.replicate count { embedding := [1] }

/-- A program among others takes that many turns. -/
def turns (thread count : ℕ) : List (ℕ × Choice) :=
  (plainChoices count).map fun choice => (thread, choice)

/-- An exported fact with the statement of the sample candidate. -/
def sampleFact (id : Uuid) : Fact where
  id := id
  orgId := sampleTenant.orgId
  userId := sampleTenant.userId
  memoryType := sampleCandidate.memoryType
  content := sampleCandidate.content
  summary := none
  source := .userMessage
  confidence := sampleCandidate.confidence
  importance := sampleCandidate.importance
  validAt := none
  invalidAt := none
  recordedAt := 0
  updatedAt := 0
  metadata := .object []

/-- A store with one memory. -/
def sampleFactStore : MockFactStore := MockFactStore.empty.putFact (sampleFact 1)

/-- The import of facts as they were exported. -/
def sampleImport (facts : List Fact) (mode : ImportMode) : ImportUserDataInput where
  tenant := sampleTenant
  payload := ⟨sampleTenant.orgId, sampleTenant.userId, 0, userExportFormatVersion, facts, []⟩
  mode := mode
  restoreEvents := false
  dryRun := false

/-- An engine that compares by words only. -/
def MemoryEngine.wordsOnly : MemoryEngine :=
  { MemoryEngine.new .sample with embeddingDedupConfig := ⟨false, 1, 5⟩ }

/-- A statement of one letter, by the number of the letter. -/
def letterCandidate (number : ℕ) : CandidateFact :=
  { sampleCandidate with content := String.singleton (Char.ofNat (945 + number)) }

/-- The choices for one candidate that is added, the later the greater its number. -/
def letterChoices (number : ℕ) : List Choice :=
  [{}, {}, {}, { decision := ⟨.add, none, none, 1⟩ }, { now := number },
    { uuid := Fin.ofNat _ (3 * number) }, {}, { uuid := Fin.ofNat _ (3 * number + 1) }, {},
    { uuid := Fin.ofNat _ (3 * number + 2) }, {}]

/-- The choices for one conversation from which candidates are extracted and added. -/
def lettersChoices (numbers : List ℕ) : List Choice :=
  { candidates := numbers.map letterCandidate } ::
    (List.range numbers.length).flatMap letterChoices

end Memcore
