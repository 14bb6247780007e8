import Memcore.Engine.Effects

/-!
# Calls that store nothing

Most calls of the engine can only make the set of active facts smaller. What is kept when
facts disappear is kept by every part of an operation that consists of such calls.
-/
namespace Memcore

open Ports Programs

/-- The calls that neither insert a fact nor update one. -/
def ShrinkingCall : Port → Prop
  | .facts (.insertFact _ _) | .facts (.updateFact _ _) => False
  | _ => True

theorem FactStoreCall.active_shrinking (store : MockFactStore) (call : FactStoreCall)
    (shrinking : ShrinkingCall (.facts call)) (fact : Fact)
    (active : (store.serve call).2.Active fact) : store.Active fact := by
  cases call with
  | insertFact tenant inserted => exact shrinking.elim
  | updateFact tenant updated => exact shrinking.elim
  | getFact tenant factId =>
    simpa only [MockFactStore.serve, MockFactStore.getFact_snd] using active
  | searchFacts query => exact active
  | softDeleteFact tenant factId =>
    simp only [MockFactStore.serve] at active
    cases served : (store.softDeleteFact tenant factId).1 with
    | error error => rwa [store.softDeleteFact_error tenant factId error served] at active
    | ok answer => exact ((store.active_softDeleteFact tenant factId served fact).mp active).1
  | deleteUserData tenant => exact ((store.active_deleteUserData tenant fact).mp active).1
  | deleteFactsOlderThan tenant cutoff dryRun =>
    simp only [MockFactStore.serve] at active
    cases dryRun with
    | true => exact active
    | false => exact ((store.active_deleteFactsOlderThan tenant cutoff fact).mp active).1

/-- After a call that stores nothing there are no facts that were not there before. -/
theorem ShrinkingCall.active {platform : Platform} {port : Port} (shrinking : ShrinkingCall port)
    (choice : Choice) {world : World} (fact : Fact)
    (active : (World.serve platform choice port world).2.facts.Active fact) :
    world.facts.Active fact := by
  cases port with
  | facts call =>
    simp only [World.serve, World.unlessFault] at active
    cases fault : choice.fault with
    | some error => simpa only [fault] using active
    | none =>
      simp only [fault] at active
      exact call.active_shrinking world.facts shrinking fact active
  | system call => cases call <;> exact active
  | coordinator call =>
    simp only [World.serve, World.serveCoordinator] at active
    cases call <;> first | exact active | (dsimp only at active; split at active <;> exact active)
  | _ =>
    simp only [World.serve, World.unlessFault] at active
    cases fault : choice.fault <;> simpa only [fault] using active

theorem searchCall_shrinking {tenant : TenantContext} (port : Port)
    (isSearch : SearchCall tenant port) : ShrinkingCall port := by
  cases port with
  | facts call => cases call <;> trivial
  | _ => trivial

theorem quietCall_shrinking {tenant : TenantContext} (port : Port)
    (isQuiet : QuietCall tenant port) : ShrinkingCall port := by
  cases port with
  | facts call => cases call <;> trivial
  | _ => trivial

section Shrinking

variable (engine : MemoryEngine) {tenant : TenantContext}

theorem deleteVectorIfPresent_shrinking (factId : Uuid) :
    (deleteVectorIfPresent tenant factId).Within ShrinkingCall := by
  refine within_attempt trivial fun outcome => ?_
  cases outcome with
  | ok value => exact .pure _
  | error error =>
    dsimp only
    split
    · exact .pure _
    · exact .fail _

theorem upsertFactVector_shrinking (fact : Fact) (precomputedEmbedding : Option (List ℚ)) :
    (upsertFactVector tenant fact precomputedEmbedding).Within ShrinkingCall := by
  refine .bind ?_ fun embedding => .bind (within_step trivial fun _ => .pure _)
    fun record => within_perform trivial
  cases precomputedEmbedding with
  | none => exact within_perform trivial
  | some embedding => exact .pure _

theorem requireFact_shrinking (factId : Uuid) :
    (requireFact tenant factId).Within ShrinkingCall := by
  refine within_step trivial fun found => ?_
  cases found with
  | none => exact .fail _
  | some fact => exact .pure _

theorem applyDelete_shrinking (targetFactId : Uuid) :
    (applyDelete tenant targetFactId).Within ShrinkingCall :=
  .bind (requireFact_shrinking targetFactId) fun _ => within_step trivial fun _ =>
    .bind (deleteVectorIfPresent_shrinking targetFactId) fun _ => .pure _

theorem recordEvent_shrinking {build : EngineProgram MemoryEvent}
    (building : build.Within (SearchCall tenant)) :
    (recordEventBestEffort engine tenant build).Within ShrinkingCall :=
  (recordEventBestEffort_within engine building).mono quietCall_shrinking

theorem invalidateUserContextCache_shrinking :
    (invalidateUserContextCache engine tenant).Within ShrinkingCall := by
  unfold invalidateUserContextCache
  split
  · exact within_attempt trivial fun _ => .pure _
  · exact .pure _

theorem deleteMemory_shrinking (input : DeleteMemoryInput) :
    (deleteMemory engine input).Within ShrinkingCall :=
  within_checked fun _ => .bind (requireFact_shrinking input.memoryId) fun _ =>
    within_step trivial fun _ => within_step trivial fun _ =>
      .bind (recordEvent_shrinking engine (memoryEventNew_within engine _ _ _ _ _)) fun _ =>
        .bind (invalidateUserContextCache_shrinking engine) fun _ => .pure _

theorem deleteVectorsIfPresent_shrinking (factIds : List Uuid) :
    (deleteVectorsIfPresent tenant factIds).Within ShrinkingCall := by
  induction factIds with
  | nil => exact .pure _
  | cons factId factIds inductionHypothesis =>
    exact .bind (deleteVectorIfPresent_shrinking factId) fun _ => inductionHypothesis

theorem expireFacts_shrinking (input : ApplyRetentionInput) :
    (expireFacts input).Within ShrinkingCall := by
  unfold expireFacts
  split
  · exact .pure _
  · refine within_step trivial fun _ => within_step trivial fun result => ?_
    split
    · exact .pure _
    · exact .bind (deleteVectorsIfPresent_shrinking _) fun _ => .pure _

theorem expireEvents_shrinking (input : ApplyRetentionInput) :
    (expireEvents engine input).Within ShrinkingCall := by
  unfold expireEvents
  split
  · exact within_step trivial fun _ => within_step trivial fun _ => .pure _
  · exact .pure _

theorem applyRetention_shrinking (input : ApplyRetentionInput) :
    (applyRetention engine input).Within ShrinkingCall := by
  refine within_checked fun _ => ?_
  split
  · exact .pure _
  · refine .bind (expireFacts_shrinking input) fun _ =>
      .bind (expireEvents_shrinking engine input) fun _ => ?_
    dsimp only
    split
    · exact .bind (invalidateUserContextCache_shrinking engine) fun _ => .pure _
    · exact .pure _

theorem forgetUser_shrinking (input : ForgetUserInput) :
    (forgetUser engine input).Within ShrinkingCall :=
  within_checked fun _ => within_step trivial fun _ => within_step trivial fun _ =>
    .bind (recordEvent_shrinking engine (memoryEventNew_within engine _ _ _ _ _)) fun _ =>
      .bind (invalidateUserContextCache_shrinking engine) fun _ => .pure _

end Shrinking

end Memcore
