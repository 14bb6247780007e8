import Memcore.Engine.Ranking
import Memcore.Foundations.KeyedTables
import Memcore.Foundations.Pages
import Mathlib.Data.Prod.Lex

/-!
# Fusion of ranked lists

The source adds up the contributions of the two lists in a hash map and sorts what the map
hands out, which may come in any order. No two entries of a map compare as equal, since
the identifiers of facts break all ties. So there is only one outcome, which is the fusion
that the search is written with.
-/
namespace Memcore

open KeyedTables Pages

/-- The scores added up so far, by fact. -/
abbrev ScoreMap := Table Uuid (Uuid × ℚ) Prod.fst

/-- `*scores.entry(fact_id).or_insert(0.0) += contribution`. -/
def ScoreMap.addTo (scores : ScoreMap) (factId : Uuid) (contribution : ℚ) : ScoreMap :=
  scores.put (factId, ((scores.find? factId).map Prod.snd).getD 0 + contribution)

/-- What one candidate contributes. -/
def contributionOf (candidate : RankedCandidate) (k weight : ℚ) : ℚ :=
  weight * (1 / (k + (max candidate.rank 1 : ℕ)))

/-- Add the candidates of one source, each fact once. -/
def applySource (k weight : ℚ) : List Uuid → ScoreMap → List RankedCandidate → ScoreMap
  | _, scores, [] => scores
  | seen, scores, candidate :: candidates =>
      if candidate.factId ∈ seen then applySource k weight seen scores candidates
      else applySource k weight (candidate.factId :: seen)
        (scores.addTo candidate.factId (contributionOf candidate k weight)) candidates

def collectScores (semanticResults keywordResults : List RankedCandidate) (config : RrfConfig) :
    ScoreMap :=
  let config := config.normalized
  applySource config.k config.keywordWeight []
    (applySource config.k config.semanticWeight [] Table.empty semanticResults) keywordResults

/-- Descending by score, then ascending by identifier. -/
def ranksBefore (left right : Uuid × ℚ) : Prop :=
  right.2 < left.2 ∨ right.2 = left.2 ∧ left.1 ≤ right.1

instance : DecidableRel ranksBefore := fun _ _ => inferInstanceAs (Decidable (_ ∨ _ ∧ _))

/-- An outcome of the fusion: the map hands out its entries in some order, and they are sorted. -/
def FusesTo (semanticResults keywordResults : List RankedCandidate) (config : RrfConfig)
    (fused : List (Uuid × ℚ)) : Prop :=
  ∃ entries : List (Uuid × ℚ),
    entries.Perm (collectScores semanticResults keywordResults config).rows ∧
      fused = entries.insertionSort ranksBefore

/-- Parameters that are used as they are. -/
structure RrfConfig.Valid (config : RrfConfig) : Prop where
  k : 0 < config.k
  semanticWeight : 0 ≤ config.semanticWeight
  keywordWeight : 0 ≤ config.keywordWeight

theorem RrfConfig.Valid.normalized_eq {config : RrfConfig} (valid : config.Valid) :
    config.normalized = config := by
  rw [RrfConfig.normalized, if_pos valid.k, if_pos valid.semanticWeight, if_pos valid.keywordWeight]

/-- The score of a fact in the map. -/
def ScoreMap.score (scores : ScoreMap) (factId : Uuid) : Option ℚ :=
  (scores.find? factId).map Prod.snd

@[simp] theorem score_empty (factId : Uuid) : ScoreMap.score Table.empty factId = none := rfl

theorem score_addTo (scores : ScoreMap) (added : Uuid) (contribution : ℚ) (factId : Uuid) :
    (scores.addTo added contribution).score factId =
      if added = factId then some ((scores.score factId).getD 0 + contribution)
      else scores.score factId := by
  rw [ScoreMap.score, ScoreMap.addTo, Table.find?_put]
  by_cases same : added = factId
  · rw [if_pos same, if_pos same, same]
    rfl
  · rw [if_neg same, if_neg same]
    rfl

theorem mem_rows_iff (scores : ScoreMap) (entry : Uuid × ℚ) :
    entry ∈ scores.rows ↔ scores.score entry.1 = some entry.2 := by
  rw [ScoreMap.score, Option.map_eq_some_iff]
  constructor
  · intro member
    exact ⟨entry, (scores.find?_eq_some entry.1 entry).mpr ⟨member, rfl⟩, rfl⟩
  · rintro ⟨row, found, same⟩
    obtain ⟨member, sameId⟩ := (scores.find?_eq_some entry.1 row).mp found
    rwa [show entry = row from Prod.ext sameId.symm same.symm]

/-- One source adds to the score of a fact by the first candidate that is about it. -/
theorem score_applySource (k weight : ℚ) (seen : List Uuid) (scores : ScoreMap)
    (candidates : List RankedCandidate) (factId : Uuid) :
    (applySource k weight seen scores candidates).score factId =
      if factId ∈ seen then scores.score factId
      else match candidates.find? fun candidate => decide (candidate.factId = factId) with
        | none => scores.score factId
        | some candidate =>
            some ((scores.score factId).getD 0 + contributionOf candidate k weight) := by
  induction candidates generalizing seen scores with
  | nil => simp [applySource]
  | cons candidate candidates inductionHypothesis =>
    rw [applySource]
    by_cases known : candidate.factId ∈ seen
    · rw [if_pos known, inductionHypothesis]
      by_cases asked : factId ∈ seen
      · rw [if_pos asked, if_pos asked]
      · have other : candidate.factId ≠ factId := fun same => asked (same ▸ known)
        rw [if_neg asked, if_neg asked, List.find?_cons_of_neg (by simpa using other)]
    · rw [if_neg known, inductionHypothesis, score_addTo]
      by_cases same : candidate.factId = factId
      · have unseen : factId ∉ seen := same ▸ known
        rw [if_pos (by simp [same]), if_pos same, if_neg unseen,
          List.find?_cons_of_pos (by simpa using same)]
      · rw [if_neg same, List.find?_cons_of_neg (by simpa using same)]
        by_cases asked : factId ∈ seen
        · rw [if_pos (List.mem_cons_of_mem _ asked), if_pos asked]
        · rw [if_neg asked, if_neg (by simpa [asked] using fun hit => same hit.symm)]

/-- Whether a list of candidates is about a fact, and what it contributes then. -/
theorem find?_candidates (candidates : List RankedCandidate) (k weight : ℚ) (factId : Uuid) :
    (factId ∉ candidates.map RankedCandidate.factId ∧
        candidates.find? (fun candidate => decide (candidate.factId = factId)) = none ∧
        contribution candidates k weight factId = 0) ∨
      ∃ candidate, factId ∈ candidates.map RankedCandidate.factId ∧
        candidates.find? (fun candidate => decide (candidate.factId = factId)) = some candidate ∧
        contribution candidates k weight factId = contributionOf candidate k weight := by
  cases found : candidates.find? fun candidate => decide (candidate.factId = factId) with
  | none =>
    refine .inl ⟨?_, rfl, by rw [contribution, found]⟩
    simpa using found
  | some candidate =>
    refine .inr ⟨candidate, ?_, rfl, by rw [contribution, found]; rfl⟩
    have same : candidate.factId = factId := by simpa using List.find?_some found
    exact List.mem_map.mpr ⟨candidate, List.mem_of_find?_eq_some found, same⟩

/-- The map has an entry for each fact of either list, with the sum of both contributions. -/
theorem score_collectScores (semanticResults keywordResults : List RankedCandidate)
    (config : RrfConfig) (factId : Uuid) :
    (collectScores semanticResults keywordResults config).score factId =
      if factId ∈ (semanticResults ++ keywordResults).map RankedCandidate.factId then
        some (contribution semanticResults config.normalized.k config.normalized.semanticWeight factId +
          contribution keywordResults config.normalized.k config.normalized.keywordWeight factId)
      else none := by
  have either : factId ∈ (semanticResults ++ keywordResults).map RankedCandidate.factId ↔
      factId ∈ semanticResults.map RankedCandidate.factId ∨
        factId ∈ keywordResults.map RankedCandidate.factId := by
    rw [List.map_append, List.mem_append]
  rw [collectScores, score_applySource, score_applySource, if_neg List.not_mem_nil,
    if_neg List.not_mem_nil]
  obtain ⟨absent, missed, nothing⟩ | ⟨semantic, present, found, sum⟩ := find?_candidates
    semanticResults config.normalized.k config.normalized.semanticWeight factId
  · obtain ⟨absent', missed', nothing'⟩ | ⟨keyword, present', found', sum'⟩ := find?_candidates
      keywordResults config.normalized.k config.normalized.keywordWeight factId
    · rw [if_neg (fun member => (either.mp member).elim absent absent'), missed, missed']
      rfl
    · rw [if_pos (either.mpr (.inr present')), missed, found', nothing, sum']
      rfl
  · obtain ⟨absent', missed', nothing'⟩ | ⟨keyword, present', found', sum'⟩ := find?_candidates
      keywordResults config.normalized.k config.normalized.keywordWeight factId
    · rw [if_pos (either.mpr (.inl present)), found, missed', sum, nothing']
      simp
    · rw [if_pos (either.mpr (.inl present)), found, found', sum, sum']
      simp

/-- What entries are sorted by: the score, and the identifier the other way round. -/
def rankKey (entry : Uuid × ℚ) : ℚ ×ₗ Uuidᵒᵈ := toLex (entry.2, OrderDual.toDual entry.1)

theorem ranksBefore_iff (left right : Uuid × ℚ) :
    ranksBefore left right ↔ rankKey right ≤ rankKey left := by
  rw [rankKey, rankKey, Prod.Lex.toLex_le_toLex]
  exact Iff.rfl

theorem rankKey_lt_iff (left right : Uuid × ℚ) : rankKey right < rankKey left ↔
    right.2 < left.2 ∨ right.2 = left.2 ∧ left.1 < right.1 := by
  rw [rankKey, rankKey, Prod.Lex.toLex_lt_toLex]
  exact Iff.rfl

theorem nodup_rankKey {entries : List (Uuid × ℚ)} (distinct : (entries.map Prod.fst).Nodup) :
    (entries.map rankKey).Nodup := by
  have distinctEntries : entries.Nodup := distinct.of_map Prod.fst
  apply distinctEntries.map
  intro left right same
  obtain ⟨sameScore, sameId⟩ := Prod.mk.inj (toLex_inj.mp same)
  exact Prod.ext (OrderDual.toDual_inj.mp sameId) sameScore

/-- The entries that the fusion sorts. -/
def fusedEntries (semanticResults keywordResults : List RankedCandidate) (config : RrfConfig) :
    List (Uuid × ℚ) :=
  (((semanticResults ++ keywordResults).map RankedCandidate.factId).dedup).map fun factId => (factId,
    contribution semanticResults config.k config.semanticWeight factId +
      contribution keywordResults config.k config.keywordWeight factId)

theorem reciprocalRankFusion_eq (semanticResults keywordResults : List RankedCandidate)
    (config : RrfConfig) : reciprocalRankFusion semanticResults keywordResults config =
      (fusedEntries semanticResults keywordResults config.normalized).insertionSort ranksBefore :=
  rfl

theorem factIds_fusedEntries (semanticResults keywordResults : List RankedCandidate)
    (config : RrfConfig) : (fusedEntries semanticResults keywordResults config).map Prod.fst =
      ((semanticResults ++ keywordResults).map RankedCandidate.factId).dedup := by
  rw [fusedEntries, List.map_map]
  exact List.map_id _

theorem mem_fusedEntries (semanticResults keywordResults : List RankedCandidate)
    (config : RrfConfig) (entry : Uuid × ℚ) :
    entry ∈ fusedEntries semanticResults keywordResults config ↔
      entry.1 ∈ (semanticResults ++ keywordResults).map RankedCandidate.factId ∧
        entry.2 = contribution semanticResults config.k config.semanticWeight entry.1 +
          contribution keywordResults config.k config.keywordWeight entry.1 := by
  rw [fusedEntries, List.mem_map]
  constructor
  · rintro ⟨factId, member, rfl⟩
    exact ⟨List.mem_dedup.mp member, rfl⟩
  · rintro ⟨member, sum⟩
    exact ⟨entry.1, List.mem_dedup.mpr member, Prod.ext rfl sum.symm⟩

/-- The entries of the map are those that the fusion sorts. -/
theorem perm_collectScores (semanticResults keywordResults : List RankedCandidate)
    (config : RrfConfig) : (collectScores semanticResults keywordResults config).rows.Perm
      (fusedEntries semanticResults keywordResults config.normalized) := by
  have distinct := (collectScores semanticResults keywordResults config).distinct
  have distinctEntries : (fusedEntries semanticResults keywordResults config.normalized).Nodup := by
    apply List.Nodup.of_map Prod.fst
    rw [factIds_fusedEntries]
    exact List.nodup_dedup _
  rw [List.perm_ext_iff_of_nodup (distinct.of_map Prod.fst) distinctEntries]
  intro entry
  rw [mem_rows_iff, score_collectScores, mem_fusedEntries]
  split
  · next present =>
    rw [Option.some.injEq, eq_comm]
    exact ⟨fun same => ⟨present, same⟩, And.right⟩
  · next absent => exact ⟨fun same => (nomatch same), fun both => absurd both.1 absent⟩

/-- The fusion is descending in what it is sorted by, and has the entries of the lists. -/
theorem reciprocalRankFusion_descending (semanticResults keywordResults : List RankedCandidate)
    (config : RrfConfig) :
    Descending rankKey (reciprocalRankFusion semanticResults keywordResults config) := by
  rw [reciprocalRankFusion_eq]
  apply descending_insertionSort ranksBefore_iff
  apply nodup_rankKey
  rw [factIds_fusedEntries]
  exact List.nodup_dedup _

theorem reciprocalRankFusion_perm (semanticResults keywordResults : List RankedCandidate)
    (config : RrfConfig) : (reciprocalRankFusion semanticResults keywordResults config).Perm
      (fusedEntries semanticResults keywordResults config.normalized) := by
  rw [reciprocalRankFusion_eq]
  exact List.perm_insertionSort ranksBefore _

/-- Whatever the order in which the map hands out its entries, the outcome is the fusion. -/
theorem fusesTo_iff (semanticResults keywordResults : List RankedCandidate) (config : RrfConfig)
    (fused : List (Uuid × ℚ)) : FusesTo semanticResults keywordResults config fused ↔
      fused = reciprocalRankFusion semanticResults keywordResults config := by
  have collected := perm_collectScores semanticResults keywordResults config
  constructor
  · rintro ⟨entries, handedOut, rfl⟩
    have distinct : (entries.map Prod.fst).Nodup :=
      (handedOut.map Prod.fst).nodup_iff.mpr
        (collectScores semanticResults keywordResults config).distinct
    apply (descending_insertionSort ranksBefore_iff (nodup_rankKey distinct)).unique
      (reciprocalRankFusion_descending semanticResults keywordResults config)
    exact ((List.perm_insertionSort ranksBefore entries).trans (handedOut.trans collected)).trans
      (reciprocalRankFusion_perm semanticResults keywordResults config).symm
  · rintro rfl
    exact ⟨_, collected.symm, rfl⟩

/-- The fusion of two lists of candidates has one outcome. It holds each fact of either list
once and no other, with the sum of what the first candidate about it contributes in each
list, by descending score and then by ascending identifier. -/
theorem rank_fusion (semanticResults keywordResults : List RankedCandidate) (config : RrfConfig)
    (valid : config.Valid) :
    ∃ fused, (∀ outcome, FusesTo semanticResults keywordResults config outcome ↔ outcome = fused) ∧
      (fused.map Prod.fst).Nodup ∧
      (∀ factId, factId ∈ fused.map Prod.fst ↔
        factId ∈ (semanticResults ++ keywordResults).map RankedCandidate.factId) ∧
      (∀ entry ∈ fused, entry.2 =
        contribution semanticResults config.k config.semanticWeight entry.1 +
          contribution keywordResults config.k config.keywordWeight entry.1) ∧
      fused.Pairwise fun earlier later =>
        later.2 < earlier.2 ∨ later.2 = earlier.2 ∧ earlier.1 < later.1 := by
  have ordered := reciprocalRankFusion_perm semanticResults keywordResults config
  rw [valid.normalized_eq] at ordered
  have factIds := (ordered.map Prod.fst).trans
    (.of_eq (factIds_fusedEntries semanticResults keywordResults config))
  refine ⟨reciprocalRankFusion semanticResults keywordResults config,
    fusesTo_iff semanticResults keywordResults config, ?_, ?_, ?_, ?_⟩
  · exact factIds.nodup_iff.mpr (List.nodup_dedup _)
  · intro factId
    rw [factIds.mem_iff, List.mem_dedup]
  · intro entry member
    exact ((mem_fusedEntries semanticResults keywordResults config entry).mp
      (ordered.mem_iff.mp member)).2
  · have descending := reciprocalRankFusion_descending semanticResults keywordResults config
    exact descending.imp fun lower => (rankKey_lt_iff _ _).mp lower

theorem rank_fusion_sample : RrfConfig.default.Valid ∧
    ∃ fused, (∀ outcome, FusesTo (rankedFrom 1 [3, 5, 3]) (rankedFrom 1 [5, 4]) .default outcome ↔
        outcome = fused) ∧
      (fused.map Prod.fst).Nodup ∧
      (∀ factId, factId ∈ fused.map Prod.fst ↔
        factId ∈ (rankedFrom 1 [3, 5, 3] ++ rankedFrom 1 [5, 4]).map RankedCandidate.factId) ∧
      (∀ entry ∈ fused, entry.2 =
        contribution (rankedFrom 1 [3, 5, 3]) 60 1 entry.1 +
          contribution (rankedFrom 1 [5, 4]) 60 1 entry.1) ∧
      fused.Pairwise fun earlier later =>
        later.2 < earlier.2 ∨ later.2 = earlier.2 ∧ earlier.1 < later.1 := by
  have valid : RrfConfig.default.Valid := ⟨by decide, by decide, by decide⟩
  exact ⟨valid, rank_fusion _ _ _ valid⟩

end Memcore
