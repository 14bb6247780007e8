import Memcore.Engine.Candidates
import Mathlib.Data.Finset.Card
import Mathlib.Order.Bounds.Basic

/-!
# What the comparison by words decides

A candidate is compared with facts of its type by the Jaccard index of their words.
The scan of the facts has two early exits and carries the best index so far; its
decision is told here from the list as a set. A duplicate anywhere in the list
decides, and otherwise the greatest index that is at least moderate, so that the
order of the list decides neither the kind of the answer nor a reason for doubt.
-/
namespace Memcore

/-- Shared words over all words, and one for no words at all. -/
def jaccard (left right : Finset String) : ℚ :=
  if left ∪ right = ∅ then 1 else (left ∩ right).card / (left ∪ right).card

def wordsOf (content : String) : Finset String :=
  (Texts.splitWhitespace (normalizeContent content)).toFinset

def contentOverlap (candidate : CandidateFact) (fact : Fact) : ℚ :=
  jaccard (wordsOf candidate.content) (wordsOf fact.content)

/-- A fact of the type with the same normalized content, or with nearly the same words. -/
def Duplicates (candidate : CandidateFact) (fact : Fact) : Prop :=
  fact.memoryType = candidate.memoryType ∧
    (normalizeContent candidate.content = normalizeContent fact.content ∨
      highSimilarityDuplicateThreshold ≤ contentOverlap candidate fact)

/-- A fact of the type with many words in common. -/
def Resembles (candidate : CandidateFact) (fact : Fact) : Prop :=
  fact.memoryType = candidate.memoryType ∧
    moderateSimilarityThreshold ≤ contentOverlap candidate fact

instance (candidate : CandidateFact) (fact : Fact) : Decidable (Resembles candidate fact) :=
  inferInstanceAs (Decidable (_ ∧ _))

/-- The indices of the facts that resemble a candidate. -/
def resemblances (candidate : CandidateFact) (facts : List Fact) : Set ℚ :=
  {overlap | ∃ fact ∈ facts, Resembles candidate fact ∧ contentOverlap candidate fact = overlap}

/-- The reason that goes with a moderate overlap. -/
def moderateReason (overlap : ℚ) : String :=
  "moderate token overlap (" ++ Texts.twoDecimals overlap ++ ") with existing fact"

inductive DecisionKind where
  | duplicate | similarButDistinct | new
  deriving DecidableEq

def DeduplicationDecision.kind : DeduplicationDecision → DecisionKind
  | duplicate _ _ => .duplicate
  | similarButDistinct _ => .similarButDistinct
  | new => .new

/-! ## The overlap is the Jaccard index -/

theorem tokenSet_toFinset (content : String) : (tokenSet content).toFinset = wordsOf content := by
  ext token
  simp only [tokenSet, wordsOf, List.mem_toFinset, List.mem_dedup]

theorem length_tokenSet (content : String) : (tokenSet content).length = (wordsOf content).card :=
  rfl

theorem tokenSet_isEmpty (content : String) :
    (tokenSet content).isEmpty = true ↔ wordsOf content = ∅ := by
  rw [← tokenSet_toFinset, List.toFinset_eq_empty_iff, List.isEmpty_iff]

/-- The words in common, counted along the words of one side. -/
theorem length_shared (left right : String) :
    ((tokenSet left).filter fun token => decide (token ∈ tokenSet right)).length =
      (wordsOf left ∩ wordsOf right).card := by
  have distinct : (tokenSet left).Nodup := List.nodup_dedup _
  rw [← List.toFinset_card_of_nodup (distinct.filter _)]
  refine congrArg Finset.card ?_
  ext token
  rw [List.mem_toFinset, List.mem_filter, decide_eq_true_eq, Finset.mem_inter,
    ← tokenSet_toFinset, ← tokenSet_toFinset, List.mem_toFinset, List.mem_toFinset]

theorem tokenOverlapRatio_eq_jaccard (left right : String) :
    tokenOverlapRatio left right = jaccard (wordsOf left) (wordsOf right) := by
  simp only [tokenOverlapRatio, jaccard, Bool.and_eq_true, Bool.or_eq_true, tokenSet_isEmpty,
    Finset.union_eq_empty]
  by_cases none : wordsOf left = ∅ ∧ wordsOf right = ∅
  · rw [if_pos none, if_pos none]
  · rw [if_neg none, if_neg none]
    by_cases one : wordsOf left = ∅ ∨ wordsOf right = ∅
    · have shared : wordsOf left ∩ wordsOf right = ∅ := by
        rcases one with empty | empty <;> simp [empty]
      rw [if_pos one, shared, Finset.card_empty, Nat.cast_zero, zero_div]
    · rw [if_neg one, length_shared, length_tokenSet, length_tokenSet]
      have both := Finset.card_union_add_card_inter (wordsOf left) (wordsOf right)
      have total : (wordsOf left).card + (wordsOf right).card -
          (wordsOf left ∩ wordsOf right).card = (wordsOf left ∪ wordsOf right).card := by
        omega
      rw [total]

/-! ## The scan -/

/-- The best index so far after one more. -/
def raise (best : Option ℚ) (overlap : ℚ) : Option ℚ :=
  if best.any fun other => decide (overlap ≤ other) then best else some overlap

/-- The best index after a fact has been considered. -/
def consider (candidate : CandidateFact) (best : Option ℚ) (fact : Fact) : Option ℚ :=
  if Resembles candidate fact then raise best (contentOverlap candidate fact) else best

/-- The decision when no duplicate was met. -/
def withoutDuplicate : Option ℚ → DeduplicationDecision
  | some overlap => .similarButDistinct (moderateReason overlap)
  | none => .new

theorem isGreatest_raise {known : Set ℚ} {best : Option ℚ}
    (greatest : ∀ overlap, best = some overlap → IsGreatest known overlap)
    (empty : best = none → known = ∅) (overlap : ℚ) :
    ∃ better, raise best overlap = some better ∧ IsGreatest (insert overlap known) better := by
  cases best with
  | none =>
    refine ⟨overlap, rfl, ?_⟩
    rw [empty rfl]
    simp [IsGreatest]
  | some before =>
    have both := (greatest before rfl).insert overlap
    by_cases larger : overlap ≤ before
    · refine ⟨before, by simp [raise, larger], ?_⟩
      rwa [max_eq_right larger] at both
    · refine ⟨overlap, by simp [raise, larger], ?_⟩
      rwa [max_eq_left (lt_of_not_ge larger).le] at both

/-- The facts seen so far, one more of them. -/
theorem resemblances_append (candidate : CandidateFact) (facts : List Fact) (fact : Fact) :
    resemblances candidate (facts ++ [fact]) = {overlap | overlap ∈ resemblances candidate facts ∨
      Resembles candidate fact ∧ contentOverlap candidate fact = overlap} := by
  ext overlap
  simp only [resemblances, List.mem_append, List.mem_singleton, Set.mem_ofPred_eq]
  constructor
  · rintro ⟨other, listed | rfl, resembles, same⟩
    · exact .inl ⟨other, listed, resembles, same⟩
    · exact .inr ⟨resembles, same⟩
  · rintro (⟨other, listed, resembles, same⟩ | ⟨resembles, same⟩)
    · exact ⟨other, .inl listed, resembles, same⟩
    · exact ⟨fact, .inr rfl, resembles, same⟩

/-- What the scan carries is the greatest index of the facts it has seen. -/
theorem foldl_consider_greatest (candidate : CandidateFact) (facts : List Fact) :
    (∀ overlap, facts.foldl (consider candidate) none = some overlap →
      IsGreatest (resemblances candidate facts) overlap) ∧
    (facts.foldl (consider candidate) none = none → resemblances candidate facts = ∅) := by
  induction facts using List.reverseRecOn with
  | nil => simp [resemblances]
  | append_singleton facts fact inductionHypothesis =>
    obtain ⟨greatest, empty⟩ := inductionHypothesis
    rw [List.foldl_append, List.foldl_cons, List.foldl_nil, resemblances_append, consider]
    by_cases resembles : Resembles candidate fact
    · obtain ⟨better, raised, isGreatest⟩ :=
        isGreatest_raise greatest empty (contentOverlap candidate fact)
      have known : {overlap | overlap ∈ resemblances candidate facts ∨
          Resembles candidate fact ∧ contentOverlap candidate fact = overlap} =
          insert (contentOverlap candidate fact) (resemblances candidate facts) := by
        ext overlap
        simp only [resembles, true_and, Set.mem_ofPred_eq, Set.mem_insert_iff]
        rw [or_comm, eq_comm]
      rw [if_pos resembles, known, raised]
      refine ⟨fun overlap same => Option.some.inj same ▸ isGreatest, fun impossible => ?_⟩
      simp at impossible
    · rw [if_neg resembles]
      simp only [resembles, false_and, or_false, Set.ofPred_mem_eq]
      exact ⟨greatest, empty⟩

/-! ## The decision -/

/-- A duplicate in the list decides, wherever it is. -/
theorem detectDuplicateFrom_duplicate {candidate : CandidateFact} {facts : List Fact}
    {fact : Fact} (listed : fact ∈ facts) (duplicates : Duplicates candidate fact)
    (best : Option (ℚ × String)) :
    ∃ id reason, detectDuplicateFrom candidate best facts = .duplicate id reason := by
  induction facts generalizing best with
  | nil => exact absurd listed List.not_mem_nil
  | cons existing rest inductionHypothesis =>
    have later : existing ≠ fact → ∀ best, ∃ id reason,
        detectDuplicateFrom candidate best rest = .duplicate id reason := by
      intro different
      exact inductionHypothesis ((List.mem_cons.mp listed).resolve_left (Ne.symm different))
    unfold detectDuplicateFrom
    split_ifs with otherType sameContent
    · refine later ?_ best
      rintro rfl
      exact otherType duplicates.1
    · exact ⟨_, _, rfl⟩
    · dsimp only
      split_ifs with high moderate
      · exact ⟨_, _, rfl⟩
      all_goals
        refine later ?_ _
        rintro rfl
        rw [tokenOverlapRatio_eq_jaccard] at high
        exact duplicates.2.elim sameContent high

/-- Without a duplicate the scan considers every fact, and the best index tells. -/
theorem detectDuplicateFrom_considers {candidate : CandidateFact} {facts : List Fact}
    (noDuplicate : ∀ fact ∈ facts, ¬ Duplicates candidate fact) (best : Option ℚ) :
    detectDuplicateFrom candidate (best.map fun overlap => (overlap, moderateReason overlap))
      facts = withoutDuplicate (facts.foldl (consider candidate) best) := by
  induction facts generalizing best with
  | nil => cases best <;> rfl
  | cons existing rest inductionHypothesis =>
    rw [List.forall_mem_cons] at noDuplicate
    obtain ⟨different, others⟩ := noDuplicate
    have continues := inductionHypothesis others
    rw [List.foldl_cons]
    unfold detectDuplicateFrom
    split_ifs with otherType sameContent
    · rw [consider, if_neg fun resembles => otherType resembles.1]
      exact continues best
    · exact absurd ⟨not_not.mp otherType, .inl sameContent⟩ different
    · have sameType := not_not.mp otherType
      have overlap : tokenOverlapRatio candidate.content existing.content =
          contentOverlap candidate existing := tokenOverlapRatio_eq_jaccard _ _
      have low : ¬ highSimilarityDuplicateThreshold ≤ contentOverlap candidate existing :=
        fun high => different ⟨sameType, .inr high⟩
      have bestOf : (best.map fun overlap => (overlap, moderateReason overlap)).any
          (fun best => decide (contentOverlap candidate existing ≤ best.1)) =
          best.any fun other => decide (contentOverlap candidate existing ≤ other) := by
        cases best <;> rfl
      dsimp only
      rw [overlap, if_neg low, bestOf]
      split_ifs with improves
      · rw [consider, if_pos ⟨sameType, improves.1⟩, raise, if_neg improves.2]
        exact continues (some _)
      · have unchanged : consider candidate best existing = best := by
          unfold consider raise
          split_ifs with resembles known
          · rfl
          · exact absurd ⟨resembles.2, known⟩ improves
          · rfl
        rw [unchanged]
        exact continues best

theorem detectDuplicate_considers {candidate : CandidateFact} {facts : List Fact}
    (noDuplicate : ∀ fact ∈ facts, ¬ Duplicates candidate fact) :
    detectDuplicate candidate facts = withoutDuplicate (facts.foldl (consider candidate) none) :=
  detectDuplicateFrom_considers noDuplicate none

theorem kind_eq_duplicate {decision : DeduplicationDecision} :
    decision.kind = .duplicate ↔ ∃ id reason, decision = .duplicate id reason := by
  cases decision <;> simp [DeduplicationDecision.kind]

theorem detectDuplicate_duplicate_iff (candidate : CandidateFact) (facts : List Fact) :
    (detectDuplicate candidate facts).kind = .duplicate ↔
      ∃ fact ∈ facts, Duplicates candidate fact := by
  constructor
  · intro decided
    by_contra noDuplicate
    push Not at noDuplicate
    rw [detectDuplicate_considers noDuplicate] at decided
    cases best : facts.foldl (consider candidate) none <;>
      simp [best, withoutDuplicate, DeduplicationDecision.kind] at decided
  · rintro ⟨fact, listed, duplicates⟩
    exact kind_eq_duplicate.mpr (detectDuplicateFrom_duplicate listed duplicates none)

theorem noDuplicate_of_kind {candidate : CandidateFact} {facts : List Fact}
    (otherKind : (detectDuplicate candidate facts).kind ≠ .duplicate) :
    ∀ fact ∈ facts, ¬ Duplicates candidate fact := by
  intro fact listed duplicates
  exact otherKind ((detectDuplicate_duplicate_iff candidate facts).mpr ⟨fact, listed, duplicates⟩)

/-- Doubt is answered with the greatest index of a fact that resembles the candidate. -/
theorem detectDuplicate_similar_iff (candidate : CandidateFact) (facts : List Fact)
    (reason : String) : detectDuplicate candidate facts = .similarButDistinct reason ↔
      (∀ fact ∈ facts, ¬ Duplicates candidate fact) ∧
        ∃ overlap, IsGreatest (resemblances candidate facts) overlap ∧
          reason = moderateReason overlap := by
  obtain ⟨greatest, empty⟩ := foldl_consider_greatest candidate facts
  constructor
  · intro decided
    have noDuplicate : ∀ fact ∈ facts, ¬ Duplicates candidate fact :=
      noDuplicate_of_kind (by simp [decided, DeduplicationDecision.kind])
    refine ⟨noDuplicate, ?_⟩
    rw [detectDuplicate_considers noDuplicate] at decided
    cases best : facts.foldl (consider candidate) none with
    | none => simp [best, withoutDuplicate] at decided
    | some overlap =>
      rw [best, withoutDuplicate, DeduplicationDecision.similarButDistinct.injEq] at decided
      exact ⟨overlap, greatest overlap best, decided.symm⟩
  · rintro ⟨noDuplicate, overlap, isGreatest, rfl⟩
    rw [detectDuplicate_considers noDuplicate]
    cases best : facts.foldl (consider candidate) none with
    | none =>
      have member := isGreatest.1
      rw [empty best] at member
      exact absurd member (Set.notMem_empty _)
    | some other =>
      rw [withoutDuplicate, (greatest other best).unique isGreatest]

theorem detectDuplicate_new_iff (candidate : CandidateFact) (facts : List Fact) :
    detectDuplicate candidate facts = .new ↔
      ∀ fact ∈ facts, ¬ Duplicates candidate fact ∧ ¬ Resembles candidate fact := by
  obtain ⟨greatest, empty⟩ := foldl_consider_greatest candidate facts
  constructor
  · intro decided
    have noDuplicate : ∀ fact ∈ facts, ¬ Duplicates candidate fact :=
      noDuplicate_of_kind (by simp [decided, DeduplicationDecision.kind])
    intro fact listed
    refine ⟨noDuplicate fact listed, fun resembles => ?_⟩
    rw [detectDuplicate_considers noDuplicate] at decided
    cases best : facts.foldl (consider candidate) none with
    | none =>
      have member : contentOverlap candidate fact ∈ resemblances candidate facts :=
        ⟨fact, listed, resembles, rfl⟩
      rw [empty best] at member
      exact absurd member (Set.notMem_empty _)
    | some overlap => simp [best, withoutDuplicate] at decided
  · intro distinct
    rw [detectDuplicate_considers fun fact listed => (distinct fact listed).1]
    cases best : facts.foldl (consider candidate) none with
    | none => rfl
    | some overlap =>
      obtain ⟨fact, listed, resembles, _⟩ := (greatest overlap best).1
      exact absurd resembles (distinct fact listed).2

/-- Duplicate detection, for any candidate and any list of facts: which answer is given, with
which reason for doubt, and that the order of the list does not matter for it. -/
theorem detectDuplicate_law (candidate : CandidateFact) (facts : List Fact) :
    ((∃ id reason, detectDuplicate candidate facts = .duplicate id reason) ↔
      ∃ fact ∈ facts, Duplicates candidate fact) ∧
    (∀ reason, detectDuplicate candidate facts = .similarButDistinct reason ↔
      (∀ fact ∈ facts, ¬ Duplicates candidate fact) ∧
        ∃ overlap, IsGreatest (resemblances candidate facts) overlap ∧
          reason = moderateReason overlap) ∧
    (detectDuplicate candidate facts = .new ↔
      ∀ fact ∈ facts, ¬ Duplicates candidate fact ∧ ¬ Resembles candidate fact) ∧
    ∀ others, others.Perm facts →
      (detectDuplicate candidate others).kind = (detectDuplicate candidate facts).kind := by
  refine ⟨?_, detectDuplicate_similar_iff candidate facts, detectDuplicate_new_iff candidate facts,
    ?_⟩
  · rw [← kind_eq_duplicate]
    exact detectDuplicate_duplicate_iff candidate facts
  · intro others reordered
    have duplicate : (detectDuplicate candidate others).kind = .duplicate ↔
        (detectDuplicate candidate facts).kind = .duplicate := by
      rw [detectDuplicate_duplicate_iff, detectDuplicate_duplicate_iff]
      simp only [reordered.mem_iff]
    have new : detectDuplicate candidate others = .new ↔
        detectDuplicate candidate facts = .new := by
      rw [detectDuplicate_new_iff, detectDuplicate_new_iff]
      simp only [reordered.mem_iff]
    revert duplicate new
    cases detectDuplicate candidate others <;> cases detectDuplicate candidate facts <;>
      simp [DeduplicationDecision.kind]

end Memcore
