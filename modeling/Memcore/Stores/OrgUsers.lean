import Memcore.Stores.FactStore

/-!
# The users of an organisation

The fact store lists the users that have active facts in an organisation, each with the
number of these facts and the time of the latest. One pass over the rows collects a
summary for each user.
-/
namespace Memcore

open KeyedTables

structure OrgUserListQuery where
  orgId : String
  limit : ℕ
  cursor : Option PageCursor

structure OrgUserSummary where
  userId : String
  memoryCount : ℕ
  lastMemoryAt : Option Instant
  deriving DecidableEq

abbrev OrgUserSummaries := Table String OrgUserSummary OrgUserSummary.userId

/-- The earliest instant of the calendar library. -/
def minUtc : Instant := -8334601228800 * 1000000000

/-- The instant that a summary is sorted by. -/
def OrgUserSummary.sortValue (user : OrgUserSummary) : Instant :=
  user.lastMemoryAt.getD minUtc

namespace MockFactStore

/-- One more fact of a user. -/
def aggregateFact (aggregates : OrgUserSummaries) (fact : Fact) : OrgUserSummaries :=
  let entry := (aggregates.find? fact.userId).getD ⟨fact.userId, 0, none⟩
  aggregates.put {
    userId := fact.userId
    memoryCount := entry.memoryCount + 1
    lastMemoryAt := some (match entry.lastMemoryAt with
      | some current => max current fact.updatedAt
      | none => fact.updatedAt) }

/-- The summaries of all users of an organisation. -/
def aggregateUsers (store : MockFactStore) (orgId : String) : OrgUserSummaries :=
  store.facts.rows.foldl (fun aggregates fact =>
    if fact.orgId ≠ orgId || store.isDeleted fact.id then aggregates
    else aggregateFact aggregates fact) Table.empty

/-- Users with later facts first; ties in descending order of the users. -/
def userComesFirst (left right : OrgUserSummary) : Prop :=
  right.sortValue < left.sortValue ∨
    right.sortValue = left.sortValue ∧ right.userId ≤ left.userId

instance : DecidableRel userComesFirst := fun _ _ => inferInstanceAs (Decidable (_ ∨ _ ∧ _))

/-- The first page of the users of an organisation. -/
def listUsersByOrg (store : MockFactStore) (query : OrgUserListQuery) :
    MemcoreResult (List OrgUserSummary) :=
  let users := (store.aggregateUsers query.orgId).rows.filter fun user =>
    query.cursor.all (isAfterCursorInDescOrder user.sortValue user.userId)
  .ok ((users.insertionSort userComesFirst).take (pageFetchLimit query.limit))

/-! ## What a summary says -/

/-- The active facts of an organisation. -/
def activeIn (store : MockFactStore) (orgId : String) : List Fact :=
  store.activeFacts.filter fun fact => decide (fact.orgId = orgId)

/-- The facts of a user among others. -/
def factsOf (userId : String) (facts : List Fact) : List Fact :=
  facts.filter fun fact => decide (fact.userId = userId)

/-- A summary counts the facts of a user and names the instant of the latest of them. It
stands only for a user with facts. -/
structure Summarises (facts : List Fact) (user : OrgUserSummary) : Prop where
  counts : user.memoryCount = (factsOf user.userId facts).length
  latest : ∃ instant, user.lastMemoryAt = some instant ∧
    (∃ fact ∈ factsOf user.userId facts, fact.updatedAt = instant) ∧
    ∀ fact ∈ factsOf user.userId facts, fact.updatedAt ≤ instant

/-- The summary of a user is determined. -/
theorem Summarises.unique {facts : List Fact} {left right : OrgUserSummary}
    (leftSummarises : Summarises facts left) (rightSummarises : Summarises facts right)
    (sameUser : left.userId = right.userId) : left = right := by
  obtain ⟨leftInstant, leftLast, ⟨leftFact, leftMember, leftSame⟩, leftLatest⟩ :=
    leftSummarises.latest
  obtain ⟨rightInstant, rightLast, ⟨rightFact, rightMember, rightSame⟩, rightLatest⟩ :=
    rightSummarises.latest
  rw [sameUser] at leftMember leftLatest
  have upper := rightLatest leftFact leftMember
  have lower := leftLatest rightFact rightMember
  rw [leftSame] at upper
  rw [rightSame] at lower
  have sameInstant : leftInstant = rightInstant := le_antisymm upper lower
  have sameCount : left.memoryCount = right.memoryCount := by
    rw [leftSummarises.counts, rightSummarises.counts, sameUser]
  cases left
  cases right
  simp_all

/-- What the summaries say of the facts collected so far. -/
structure Aggregates (facts : List Fact) (aggregates : OrgUserSummaries) : Prop where
  sound : ∀ user ∈ aggregates.rows, Summarises facts user
  complete : ∀ fact ∈ facts, ∃ user ∈ aggregates.rows, user.userId = fact.userId

theorem factsOf_snoc (userId : String) (facts : List Fact) (fact : Fact) :
    factsOf userId (facts ++ [fact]) =
      if fact.userId = userId then factsOf userId facts ++ [fact] else factsOf userId facts := by
  unfold factsOf
  by_cases own : fact.userId = userId
  · simp [own]
  · simp [own]

/-- A summary stays right when a fact of another user is added. -/
theorem Summarises.other {facts : List Fact} {user : OrgUserSummary}
    (summarises : Summarises facts user) {fact : Fact} (other : user.userId ≠ fact.userId) :
    Summarises (facts ++ [fact]) user := by
  have same : factsOf user.userId (facts ++ [fact]) = factsOf user.userId facts := by
    rw [factsOf_snoc, if_neg (Ne.symm other)]
  constructor
  · rw [same]
    exact summarises.counts
  · rw [same]
    exact summarises.latest

/-- The first fact of a user makes a summary. -/
theorem summarises_first {facts : List Fact} {fact : Fact}
    (absent : factsOf fact.userId facts = []) :
    Summarises (facts ++ [fact]) ⟨fact.userId, 1, some fact.updatedAt⟩ := by
  have only : factsOf fact.userId (facts ++ [fact]) = [fact] := by
    rw [factsOf_snoc, if_pos rfl, absent, List.nil_append]
  constructor
  · rw [only, List.length_singleton]
  · refine ⟨fact.updatedAt, rfl, ?_, ?_⟩
    · rw [only]
      exact ⟨fact, List.mem_singleton_self fact, rfl⟩
    · rw [only]
      intro other member
      rw [List.mem_singleton.mp member]

/-- One more fact of a user raises the count, and the instant if the fact is later. -/
theorem Summarises.next {facts : List Fact} {fact : Fact} {count : ℕ} {instant : Instant}
    (summarises : Summarises facts ⟨fact.userId, count, some instant⟩) :
    Summarises (facts ++ [fact])
      ⟨fact.userId, count + 1, some (max instant fact.updatedAt)⟩ := by
  have counted : count = (factsOf fact.userId facts).length := summarises.counts
  obtain ⟨latest, same, ⟨witness, member, reached⟩, bound⟩ := summarises.latest
  obtain rfl := Option.some.inj same
  have grown : factsOf fact.userId (facts ++ [fact]) = factsOf fact.userId facts ++ [fact] := by
    rw [factsOf_snoc, if_pos rfl]
  constructor
  · rw [grown, List.length_append, List.length_singleton, ← counted]
  · refine ⟨max instant fact.updatedAt, rfl, ?_, ?_⟩
    · rw [grown]
      rcases le_total instant fact.updatedAt with later | earlier
      · exact ⟨fact, by simp, (max_eq_right later).symm⟩
      · exact ⟨witness, List.mem_append_left _ member, reached.trans (max_eq_left earlier).symm⟩
    · rw [grown]
      intro other otherMember
      rcases List.mem_append.mp otherMember with before | added
      · exact le_max_of_le_left (bound other before)
      · rw [List.mem_singleton.mp added]
        exact le_max_right _ _

/-- One fact more is collected. -/
theorem Aggregates.step {facts : List Fact} {aggregates : OrgUserSummaries}
    (before : Aggregates facts aggregates) (fact : Fact) :
    Aggregates (facts ++ [fact]) (aggregateFact aggregates fact) := by
  have entered : ∃ entry, aggregateFact aggregates fact = aggregates.put entry ∧
      entry.userId = fact.userId ∧ Summarises (facts ++ [fact]) entry := by
    cases found : aggregates.find? fact.userId with
    | none =>
      have absent : factsOf fact.userId facts = [] := by
        unfold factsOf
        rw [List.filter_eq_nil_iff]
        intro other member
        obtain ⟨user, stored, same⟩ := before.complete other member
        have different := (aggregates.find?_eq_none _).mp found user stored
        rw [same] at different
        simpa using different
      refine ⟨_, ?_, rfl, summarises_first absent⟩
      rw [aggregateFact, found]
      rfl
    | some user =>
      obtain ⟨stored, same⟩ := (aggregates.find?_eq_some _ _).mp found
      have summarises := before.sound user stored
      obtain ⟨userId, count, lastMemoryAt⟩ := user
      obtain ⟨instant, last, _⟩ := summarises.latest
      obtain rfl : lastMemoryAt = some instant := last
      obtain rfl : userId = fact.userId := same
      refine ⟨_, ?_, rfl, summarises.next⟩
      rw [aggregateFact, found]
      rfl
  obtain ⟨entry, same, own, summarises⟩ := entered
  rw [same]
  constructor
  · intro user stored
    rcases (aggregates.mem_put entry user).mp stored with rfl | ⟨old, other⟩
    · exact summarises
    · exact (before.sound user old).other (own ▸ other)
  · intro other member
    by_cases sameUser : other.userId = fact.userId
    · exact ⟨entry, (aggregates.mem_put _ _).mpr (.inl rfl), own.trans sameUser.symm⟩
    · rcases List.mem_append.mp member with old | added
      · obtain ⟨user, stored, sameOther⟩ := before.complete other old
        refine ⟨user, (aggregates.mem_put _ _).mpr (.inr ⟨stored, ?_⟩), sameOther⟩
        rw [sameOther, own]
        exact sameUser
      · rw [List.mem_singleton.mp added] at sameUser
        exact absurd rfl sameUser

/-- All facts of a list are collected. -/
theorem aggregates_foldl (rest : List Fact) {facts : List Fact} {aggregates : OrgUserSummaries}
    (before : Aggregates facts aggregates) :
    Aggregates (facts ++ rest) (rest.foldl aggregateFact aggregates) := by
  induction rest generalizing facts aggregates with
  | nil => simpa using before
  | cons fact rest inductionHypothesis =>
    have after := inductionHypothesis (before.step fact)
    rwa [List.append_assoc, List.singleton_append] at after

/-- The pass over the rows collects the active facts of the organisation. -/
theorem aggregateUsers_eq (store : MockFactStore) (orgId : String) :
    store.aggregateUsers orgId = (store.activeIn orgId).foldl aggregateFact Table.empty := by
  unfold aggregateUsers activeIn activeFacts
  rw [List.filter_filter, List.foldl_filter]
  congr 1
  funext aggregates fact
  by_cases own : fact.orgId = orgId <;> by_cases deleted : store.isDeleted fact.id = true <;>
    simp [own, deleted]

/-- The summaries of an organisation are those of its users with active facts. -/
theorem mem_aggregateUsers (store : MockFactStore) (orgId : String) (user : OrgUserSummary) :
    user ∈ (store.aggregateUsers orgId).rows ↔ Summarises (store.activeIn orgId) user := by
  have start : Aggregates [] Table.empty := ⟨by simp, by simp⟩
  have collected := aggregates_foldl (store.activeIn orgId) start
  rw [List.nil_append, ← aggregateUsers_eq] at collected
  constructor
  · exact collected.sound user
  · intro summarises
    obtain ⟨_, _, ⟨fact, member, _⟩, _⟩ := summarises.latest
    obtain ⟨memberFacts, ownFact⟩ := List.mem_filter.mp member
    obtain ⟨other, stored, same⟩ := collected.complete fact memberFacts
    have sameUser : user.userId = other.userId := by
      rw [same]
      exact (of_decide_eq_true ownFact).symm
    rw [summarises.unique (collected.sound other stored) sameUser]
    exact stored

end MockFactStore

end Memcore
