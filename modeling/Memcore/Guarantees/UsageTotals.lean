import Memcore.Guarantees.UsageParity
import Memcore.Stores.UsageArithmetic

/-!
# Usage reports add up

The daily buckets part the events that match, and each of them is the summary of its events.
A counter of the summary is the sum of the counters of the buckets, as far as it can count.
Costs are added in another order, day by day, and every addition rounds. They add up when no
sum of some of the costs is rounded, and otherwise may differ in the last place.
-/
namespace Memcore

open Saturation

/-! ## Counters -/

/-- A counter of a summary, and what one event adds to it. -/
structure UsageCounter where
  total : ProviderUsagePersistedSummary → ℕ
  part : ProviderUsageEventRecord → ℕ

/-- One for the events that meet a condition. -/
def oneIf (condition : Bool) : ℕ := if condition then 1 else 0

/-- All sums of a summary but that of the costs. -/
def usageCounters : List UsageCounter :=
  [⟨(·.totalRequests), fun _ => 1⟩,
    ⟨(·.totalSuccesses), fun event => oneIf (decide (event.status = .success))⟩,
    ⟨(·.totalErrors), fun event => oneIf (decide (event.status = .error))⟩,
    ⟨(·.totalRetries), fun event => event.retryCount⟩,
    ⟨(·.totalFallbacks), fun event => oneIf event.fallbackUsed⟩,
    ⟨(·.totalCircuitBlocks), fun event => oneIf event.circuitBlocked⟩,
    ⟨(·.totalTimeouts), fun event => oneIf event.timedOut⟩,
    ⟨(·.totalInputTokens), fun event => event.inputTokens.getD 0⟩,
    ⟨(·.totalOutputTokens), fun event => event.outputTokens.getD 0⟩,
    ⟨(·.totalTokens), fun event => event.totalTokens.getD 0⟩]

section Counters

variable {arithmetic : UsageArithmetic}

/-- A counter that is added to under a condition. -/
theorem addIf_eq {total : ℕ} (fits : total ≤ arithmetic.limit) (condition : Bool) :
    (if condition then arithmetic.add total 1 else total) =
      saturatingAdd arithmetic.limit total (oneIf condition) := by
  cases condition with
  | true => rfl
  | false => exact (Nat.min_eq_left fits).symm

/-- One event adds its part to each counter. -/
theorem count_counter {counter : UsageCounter} (member : counter ∈ usageCounters)
    {summary : ProviderUsagePersistedSummary}
    (fits : counter.total summary ≤ arithmetic.limit) (event : ProviderUsageEventRecord) :
    counter.total (arithmetic.count summary event) =
      saturatingAdd arithmetic.limit (counter.total summary) (counter.part event) := by
  simp only [usageCounters, List.mem_cons, List.not_mem_nil, or_false] at member
  rcases member with rfl | rfl | rfl | rfl | rfl | rfl | rfl | rfl | rfl | rfl
  · rfl
  · have added := addIf_eq fits (decide (event.status = .success))
    rw [← added]
    simp only [UsageArithmetic.count]
    cases event.status <;> rfl
  · have added := addIf_eq fits (decide (event.status = .error))
    rw [← added]
    simp only [UsageArithmetic.count]
    cases event.status <;> rfl
  · rfl
  · exact addIf_eq fits event.fallbackUsed
  · exact addIf_eq fits event.circuitBlocked
  · exact addIf_eq fits event.timedOut
  · rfl
  · rfl
  · rfl

/-- After some events a counter holds the sum of their parts, as far as it can. -/
theorem foldl_count {counter : UsageCounter} (member : counter ∈ usageCounters)
    (events : List ProviderUsageEventRecord) {summary : ProviderUsagePersistedSummary}
    (fits : counter.total summary ≤ arithmetic.limit) :
    counter.total (events.foldl arithmetic.count summary) =
      min (counter.total summary + (events.map counter.part).sum) arithmetic.limit := by
  induction events generalizing summary with
  | nil => exact (Nat.min_eq_left fits).symm
  | cons event events inductionHypothesis =>
    have counted := count_counter member fits event
    have stillFits : counter.total (arithmetic.count summary event) ≤ arithmetic.limit := by
      rw [counted]
      exact saturatingAdd_le _ _
    rw [List.foldl_cons, inductionHypothesis stillFits, counted, List.map_cons, List.sum_cons,
      saturatingAdd]
    omega

/-- Every counter starts at zero. -/
theorem default_counter {counter : UsageCounter} (member : counter ∈ usageCounters) :
    counter.total .default = 0 := by
  simp only [usageCounters, List.mem_cons, List.not_mem_nil, or_false] at member
  rcases member with rfl | rfl | rfl | rfl | rfl | rfl | rfl | rfl | rfl | rfl <;> rfl

/-- No counter counts the costs. -/
theorem counter_costs {counter : UsageCounter} (member : counter ∈ usageCounters)
    (summary : ProviderUsagePersistedSummary) (cost : Option ℚ) :
    counter.total { summary with totalEstimatedCostUsd := cost } = counter.total summary := by
  simp only [usageCounters, List.mem_cons, List.not_mem_nil, or_false] at member
  rcases member with rfl | rfl | rfl | rfl | rfl | rfl | rfl | rfl | rfl | rfl <;> rfl

end Counters

/-! ## Summaries and buckets -/

section Summaries

variable (arithmetic : UsageArithmetic)

/-- The costs that are known, added one by one. -/
def UsageArithmetic.addCosts (costs : List (Option ℚ)) : Option ℚ :=
  costs.foldl (fun total cost => match cost with
    | some amount => some (arithmetic.addCost (total.getD 0) amount)
    | none => total) none

theorem addCosts_concat (costs : List (Option ℚ)) (cost : Option ℚ) :
    arithmetic.addCosts (costs ++ [cost]) = match cost with
      | some amount => some (arithmetic.addCost ((arithmetic.addCosts costs).getD 0) amount)
      | none => arithmetic.addCosts costs := by
  rw [UsageArithmetic.addCosts, List.foldl_append]
  rfl

/-- What the loop over the events carries after some of them. -/
theorem foldl_addToSummary (events : List ProviderUsageEventRecord) :
    events.foldl arithmetic.addToSummary ⟨.default, false, 0⟩ =
      ⟨events.foldl arithmetic.count .default,
        (arithmetic.addCosts (events.map (·.estimatedCostUsd))).isSome,
        (arithmetic.addCosts (events.map (·.estimatedCostUsd))).getD 0⟩ := by
  induction events using List.reverseRecOn with
  | nil => rfl
  | append_singleton events event inductionHypothesis =>
    rw [List.foldl_append, inductionHypothesis, List.foldl_append, List.map_append, List.map_cons,
      List.map_nil, addCosts_concat, List.foldl_cons, List.foldl_nil,
      UsageArithmetic.addToSummary]
    cases event.estimatedCostUsd <;> rfl

/-- The summary counts the events and adds their costs. -/
theorem summary_eq (events : List ProviderUsageEventRecord) :
    arithmetic.computeSummary events = { events.foldl arithmetic.count .default with
      totalEstimatedCostUsd := arithmetic.addCosts (events.map (·.estimatedCostUsd)) } := by
  have cost : (if (arithmetic.addCosts (events.map (·.estimatedCostUsd))).isSome then
      some ((arithmetic.addCosts (events.map (·.estimatedCostUsd))).getD 0) else none) =
        arithmetic.addCosts (events.map (·.estimatedCostUsd)) := by
    cases arithmetic.addCosts (events.map (·.estimatedCostUsd)) <;> rfl
  rw [UsageArithmetic.computeSummary]
  simp only [foldl_addToSummary, cost]

theorem summary_counter {counter : UsageCounter} (member : counter ∈ usageCounters)
    (events : List ProviderUsageEventRecord) :
    counter.total (arithmetic.computeSummary events) =
      min (events.map counter.part).sum arithmetic.limit := by
  have start : counter.total .default ≤ arithmetic.limit := by
    rw [default_counter member]
    exact Nat.zero_le _
  rw [summary_eq, counter_costs member, foldl_count member events start, default_counter member,
    Nat.zero_add]

theorem summary_cost (events : List ProviderUsageEventRecord) :
    (arithmetic.computeSummary events).totalEstimatedCostUsd =
      arithmetic.addCosts (events.map (·.estimatedCostUsd)) := by
  rw [summary_eq]

/-- A bucket is the summary of its events. -/
theorem foldl_bucket (events : List ProviderUsageEventRecord) (date : NaiveDate) :
    events.foldl arithmetic.addEventToBucket (.empty date) =
      ⟨arithmetic.computeSummary events, date⟩ := by
  simp only [summary_eq]
  induction events using List.reverseRecOn with
  | nil => rfl
  | append_singleton events event inductionHypothesis =>
    rw [List.foldl_append, inductionHypothesis, List.foldl_append, List.map_append, List.map_cons,
      List.map_nil, addCosts_concat, List.foldl_cons, List.foldl_nil, List.foldl_cons,
      List.foldl_nil, UsageArithmetic.addEventToBucket]
    cases event.estimatedCostUsd <;> rfl

/-- The summary does not look at the page. -/
theorem queryUsage_summary {encoding : CursorEncoding} {query : ProviderUsageQuery}
    {store : MockProviderUsageStore} {result : ProviderUsageQueryResult}
    (answered : arithmetic.queryUsage encoding query store = .ok result) :
    result.summary = arithmetic.computeSummary
      (store.filter fun event => MockProviderUsageStore.matchesQuery event query) := by
  obtain ⟨limit, _, rest⟩ := (bind_ok _ _ _).mp answered
  obtain ⟨page, _, returned⟩ := (bind_ok _ _ _).mp rest
  obtain rfl := Except.ok.inj returned
  rfl

end Summaries

/-! ## Days -/

/-- The events of each day. -/
abbrev UsageDays := List (NaiveDate × List ProviderUsageEventRecord)

def UsageDays.events (usageDays : UsageDays) : List ProviderUsageEventRecord :=
  usageDays.flatMap Prod.snd

/-- Every event belongs to its day and to no other. -/
structure UsageDays.Partition (usageDays : UsageDays) (events : List ProviderUsageEventRecord) :
    Prop where
  ascending : (usageDays.map Prod.fst).Pairwise (· < ·)
  occupied : ∀ day ∈ usageDays, day.2 ≠ []
  ofDay : ∀ day ∈ usageDays, ∀ event ∈ day.2, dateNaive event.createdAt = day.1
  all : usageDays.events.Perm events

/-- One bucket for each day. -/
def UsageArithmetic.buckets (arithmetic : UsageArithmetic) (usageDays : UsageDays) :
    List ProviderUsageDailyBucket :=
  usageDays.map fun day => ⟨arithmetic.computeSummary day.2, day.1⟩

section Days

variable (arithmetic : UsageArithmetic)

theorem groups_partition (events : List ProviderUsageEventRecord) :
    UsageDays.Partition (Grouping.groups (fun event => dateNaive event.createdAt) events)
      events where
  ascending := Grouping.groups_ascending _ events
  occupied _ member := (Grouping.of_mem_groups member).1
  ofDay _ member := (Grouping.of_mem_groups member).2
  all := Grouping.groups_perm _ events

theorem queryUsageDaily_eq (query : ProviderUsageDailyQuery) (store : MockProviderUsageStore) :
    arithmetic.queryUsageDaily query store = .ok (arithmetic.buckets
      (Grouping.groups (fun event => dateNaive event.createdAt) (store.filter fun event =>
        MockProviderUsageStore.matchesDailyQuery event query))) := by
  rw [UsageArithmetic.queryUsageDaily, UsageArithmetic.buckets]
  have folded := Grouping.foldl_upsert (fun event => dateNaive event.createdAt)
    ProviderUsageDailyBucket.empty arithmetic.addEventToBucket (store.filter fun event =>
      MockProviderUsageStore.matchesDailyQuery event query)
  simp only [foldl_bucket] at folded
  rw [folded, List.map_map]
  rfl

/-- Saturating the parts changes nothing when the sum saturates. -/
theorem min_sum_min (limit : ℕ) (parts : List ℕ) :
    min ((parts.map fun part => min part limit).sum) limit = min parts.sum limit := by
  induction parts with
  | nil => rfl
  | cons part parts inductionHypothesis =>
    rw [List.map_cons, List.sum_cons, List.sum_cons]
    omega

/-- The counters of the buckets add up to that of the summary. -/
theorem buckets_counter {counter : UsageCounter} (member : counter ∈ usageCounters)
    {usageDays : UsageDays} {events : List ProviderUsageEventRecord}
    (parted : usageDays.Partition events) :
    counter.total (arithmetic.computeSummary events) =
      min ((arithmetic.buckets usageDays).map fun bucket =>
        counter.total bucket.toProviderUsagePersistedSummary).sum arithmetic.limit := by
  have parts : (arithmetic.buckets usageDays).map (fun bucket =>
        counter.total bucket.toProviderUsagePersistedSummary) =
      (usageDays.map fun day => (day.2.map counter.part).sum).map fun part =>
        min part arithmetic.limit := by
    rw [UsageArithmetic.buckets, List.map_map, List.map_map]
    exact List.map_congr_left fun day _ => summary_counter arithmetic member day.2
  have whole : (usageDays.map fun day => (day.2.map counter.part).sum).sum =
      (events.map counter.part).sum := by
    rw [← (parted.all.map counter.part).sum_eq, UsageDays.events, List.map_flatMap,
      List.flatMap_def, List.sum_flatten, List.map_map]
    rfl
  rw [summary_counter arithmetic member, parts, min_sum_min, whole]

end Days

/-! ## Costs -/

section Costs

variable {arithmetic : UsageArithmetic}

/-- The costs that are known. -/
def knownCosts (events : List ProviderUsageEventRecord) : List ℚ :=
  (events.map (·.estimatedCostUsd)).reduceOption

/-- No sum of some of the costs is rounded. -/
def UsageArithmetic.Unrounded (arithmetic : UsageArithmetic) (costs : List ℚ) : Prop :=
  ∀ part : List ℚ, part.Sublist costs → arithmetic.round part.sum = part.sum

/-- Neither is it in another order. -/
theorem UsageArithmetic.Unrounded.subperm {costs part : List ℚ}
    (unrounded : arithmetic.Unrounded costs) (included : part.Subperm costs) :
    arithmetic.round part.sum = part.sum := by
  obtain ⟨ordered, reordered, selected⟩ := included
  rw [← reordered.sum_eq]
  exact unrounded ordered selected

/-- Costs of which no sum is rounded are added exactly. -/
theorem addCosts_eq {costs : List (Option ℚ)}
    (unrounded : arithmetic.Unrounded costs.reduceOption) :
    arithmetic.addCosts costs = Grouping.sum costs := by
  induction costs using List.reverseRecOn with
  | nil => rfl
  | append_singleton costs cost inductionHypothesis =>
    rw [List.reduceOption_append] at unrounded
    have before : arithmetic.addCosts costs = Grouping.sum costs :=
      inductionHypothesis fun part selected =>
        unrounded part (selected.trans (List.sublist_append_left _ _))
    rw [addCosts_concat, sum_concat, before]
    cases cost with
    | none => rfl
    | some amount =>
      have whole := unrounded _ (List.Sublist.refl _)
      rw [List.sum_append, ← Grouping.getD_sum] at whole
      have single : ([some amount] : List (Option ℚ)).reduceOption.sum = amount := by simp
      rw [single] at whole
      exact congrArg some whole

/-- Added day by day, they are added exactly as well. -/
theorem addCosts_buckets {usageDays : UsageDays} {costs : List ℚ}
    (unrounded : arithmetic.Unrounded costs)
    (included : (knownCosts usageDays.events).Subperm costs) :
    arithmetic.addCosts ((arithmetic.buckets usageDays).map fun bucket =>
        bucket.totalEstimatedCostUsd) =
      Grouping.sum (usageDays.events.map (·.estimatedCostUsd)) := by
  induction usageDays using List.reverseRecOn with
  | nil => rfl
  | append_singleton usageDays day inductionHypothesis =>
    have parts : UsageDays.events (usageDays ++ [day]) = UsageDays.events usageDays ++ day.2 := by
      simp [UsageDays.events]
    have known : knownCosts (UsageDays.events (usageDays ++ [day])) =
        knownCosts (UsageDays.events usageDays) ++ knownCosts day.2 := by
      rw [parts, knownCosts, List.map_append, List.reduceOption_append]
      rfl
    rw [known] at included
    have before := inductionHypothesis
      ((List.sublist_append_left _ _).subperm.trans included)
    have ofDay : arithmetic.addCosts (day.2.map (·.estimatedCostUsd)) =
        Grouping.sum (day.2.map (·.estimatedCostUsd)) := by
      apply addCosts_eq
      intro part selected
      apply unrounded.subperm
      exact (selected.trans (List.sublist_append_right _ _)).subperm.trans included
    have whole := unrounded.subperm included
    rw [UsageArithmetic.buckets, List.map_append, List.map_append, List.map_cons, List.map_nil,
      List.map_cons, List.map_nil, addCosts_concat, summary_cost, ofDay, parts, List.map_append,
      Grouping.sum_append]
    rw [UsageArithmetic.buckets] at before
    rw [before]
    rw [List.sum_append, knownCosts, knownCosts, ← Grouping.getD_sum, ← Grouping.getD_sum] at whole
    cases total : Grouping.sum (day.2.map (·.estimatedCostUsd)) with
    | none => rfl
    | some amount =>
      rw [total] at whole
      exact congrArg some whole

/-- Multiples of one unit are not rounded if there are few of them. -/
theorem unrounded_of_multiples {counts : List ℕ} (few : counts.sum < 2 ^ 53) {exponent : ℤ}
    (fine : -1074 ≤ exponent) :
    UsageArithmetic.machine.Unrounded (counts.map fun count : ℕ => (count : ℚ) * 2 ^ exponent) := by
  intro part selected
  obtain ⟨chosen, subset, rfl⟩ := List.sublist_map_iff.mp selected
  have total : (chosen.map fun count : ℕ => (count : ℚ) * 2 ^ exponent).sum =
      ((chosen.sum : ℤ) : ℚ) * 2 ^ exponent := by
    rw [List.sum_map_mul_right, Int.cast_natCast, Nat.cast_list_sum]
  have fewer : |(chosen.sum : ℤ)| < 2 ^ 53 := by
    rw [Nat.abs_cast]
    exact_mod_cast subset.sum_le_sum (fun _ _ => Nat.zero_le _) |>.trans_lt few
  rw [total]
  exact Binary64.round_multiple fewer fine

end Costs

/-! ## Small numbers -/

section Exact

/-- A summary has no other numbers than the counters and the costs. -/
theorem summary_ext {left right : ProviderUsagePersistedSummary}
    (counters : ∀ counter ∈ usageCounters, counter.total left = counter.total right)
    (costs : left.totalEstimatedCostUsd = right.totalEstimatedCostUsd) : left = right := by
  simp only [usageCounters, List.forall_mem_cons] at counters
  obtain ⟨requests, successes, errors, retries, fallbacks, blocks, timeouts, input, output,
    tokens, _⟩ := counters
  cases left
  cases right
  simp only at requests successes errors retries fallbacks blocks timeouts input output tokens costs
  subst_vars
  rfl

theorem sum_oneIf (condition : ProviderUsageEventRecord → Bool)
    (events : List ProviderUsageEventRecord) :
    (events.map fun event => oneIf (condition event)).sum = events.countP condition := by
  induction events with
  | nil => rfl
  | cons event events inductionHypothesis =>
    rw [List.map_cons, List.sum_cons, List.countP_cons, inductionHypothesis, oneIf, Nat.add_comm]

theorem usageSummaryOf_counter {counter : UsageCounter} (member : counter ∈ usageCounters)
    (events : List ProviderUsageEventRecord) :
    counter.total (usageSummaryOf events) = (events.map counter.part).sum := by
  simp only [usageCounters, List.mem_cons, List.not_mem_nil, or_false] at member
  rcases member with rfl | rfl | rfl | rfl | rfl | rfl | rfl | rfl | rfl | rfl
  · simp [usageSummaryOf]
  · exact (sum_oneIf _ events).symm
  · exact (sum_oneIf _ events).symm
  · rfl
  · exact (sum_oneIf _ events).symm
  · exact (sum_oneIf _ events).symm
  · exact (sum_oneIf _ events).symm
  · rfl
  · rfl
  · rfl

/-- As long as the counters suffice and no cost is rounded, the summary is the plain one. -/
theorem computeSummary_exact {arithmetic : UsageArithmetic}
    {events : List ProviderUsageEventRecord}
    (fits : ∀ counter ∈ usageCounters, (events.map counter.part).sum ≤ arithmetic.limit)
    (unrounded : arithmetic.Unrounded (knownCosts events)) :
    arithmetic.computeSummary events = computeSummary events := by
  rw [computeSummary_eq]
  apply summary_ext
  · intro counter member
    rw [summary_counter arithmetic member, usageSummaryOf_counter member,
      Nat.min_eq_left (fits counter member)]
  · rw [summary_cost]
    exact addCosts_eq unrounded

end Exact

/-! ## Reports -/

/-- The query for the summary of the same window, with the filters that both queries have. -/
def ProviderUsageDailyQuery.asQuery (query : ProviderUsageDailyQuery) (limit : ℕ)
    (cursor : Option PageCursor) : ProviderUsageQuery where
  orgId := query.orgId
  userId := none
  providerName := query.providerName
  modelName := query.modelName
  capability := query.capability
  operationName := none
  createdAfter := some query.createdAfter
  createdBefore := some query.createdBefore
  limit := limit
  cursor := cursor

theorem matchesQuery_asQuery (query : ProviderUsageDailyQuery) (limit : ℕ)
    (cursor : Option PageCursor) (event : ProviderUsageEventRecord) :
    MockProviderUsageStore.matchesQuery event (query.asQuery limit cursor) =
      MockProviderUsageStore.matchesDailyQuery event query := by
  have first : (!decide (event.createdAt < query.createdAfter)) =
      decide (query.createdAfter ≤ event.createdAt) := by
    rw [← decide_not, decide_eq_decide, not_lt]
  have last : (!decide (query.createdBefore ≤ event.createdAt)) =
      decide (event.createdAt < query.createdBefore) := by
    rw [← decide_not, decide_eq_decide, not_le]
  simp only [MockProviderUsageStore.matchesQuery, MockProviderUsageStore.matchesDailyQuery,
    ProviderUsageDailyQuery.asQuery, Option.all_none, Option.all_some, Bool.and_true, first, last,
    Bool.and_assoc]
  rfl

/-- The costs of the buckets, added up, are those of the summary. -/
def CostsAddUp (arithmetic : UsageArithmetic) (buckets : List ProviderUsageDailyBucket)
    (summary : ProviderUsagePersistedSummary) : Prop :=
  summary.totalEstimatedCostUsd =
    arithmetic.addCosts (buckets.map fun bucket => bucket.totalEstimatedCostUsd)

/-- The summary is the same for every page. The buckets part the events, and their counters add
up to those of the summary; their costs do if no sum of the costs is rounded. Retention removes
as many events as its dry run reports. -/
theorem usage_reports_add_up (arithmetic : UsageArithmetic) (encoding : CursorEncoding)
    (store : MockProviderUsageStore) :
    (∀ query limit cursor result other,
      arithmetic.queryUsage encoding query store = .ok result →
      arithmetic.queryUsage encoding { query with limit := limit, cursor := cursor } store =
        .ok other → result.summary = other.summary) ∧
    (∀ query : ProviderUsageDailyQuery, ∃ usageDays : UsageDays,
      usageDays.Partition (store.filter fun event =>
        MockProviderUsageStore.matchesDailyQuery event query) ∧
      arithmetic.queryUsageDaily query store = .ok (arithmetic.buckets usageDays) ∧
      ∀ limit cursor result,
        arithmetic.queryUsage encoding (query.asQuery limit cursor) store = .ok result →
        (∀ counter ∈ usageCounters, counter.total result.summary =
          min ((arithmetic.buckets usageDays).map fun bucket =>
            counter.total bucket.toProviderUsagePersistedSummary).sum arithmetic.limit) ∧
        (arithmetic.Unrounded (knownCosts (store.filter fun event =>
            MockProviderUsageStore.matchesDailyQuery event query)) →
          CostsAddUp arithmetic (arithmetic.buckets usageDays) result.summary)) ∧
    ∀ orgId cutoff, ∃ count remaining,
      MockProviderUsageStore.deleteByIndices orgId cutoff true store = (.ok count, store) ∧
      MockProviderUsageStore.deleteByIndices orgId cutoff false store = (.ok count, remaining) ∧
      remaining = store.filter (fun event =>
        !(decide (event.orgId = orgId) && decide (event.createdAt < cutoff))) ∧
      remaining.length + count = store.length := by
  refine ⟨?_, ?_, ?_⟩
  · intro query limit cursor result other answered otherAnswered
    rw [queryUsage_summary arithmetic answered, queryUsage_summary arithmetic otherAnswered]
    rfl
  · intro query
    have parted := groups_partition (store.filter fun event =>
      MockProviderUsageStore.matchesDailyQuery event query)
    refine ⟨_, parted, queryUsageDaily_eq arithmetic query store, ?_⟩
    intro limit cursor result answered
    have summary := queryUsage_summary arithmetic answered
    simp only [matchesQuery_asQuery] at summary
    rw [summary]
    refine ⟨fun counter member => buckets_counter arithmetic member parted, ?_⟩
    intro unrounded
    have included := (parted.all.map fun event => event.estimatedCostUsd)
    have known : (knownCosts (UsageDays.events (Grouping.groups
        (fun event => dateNaive event.createdAt) _))).Subperm _ :=
      (included.filterMap id).subperm
    rw [CostsAddUp, summary_cost, addCosts_eq unrounded, addCosts_buckets unrounded known]
    exact (Grouping.sum_perm included).symm
  · intro orgId cutoff
    have parts := List.length_eq_length_filter_add (l := store) fun event =>
      decide (event.orgId = orgId) && decide (event.createdAt < cutoff)
    rw [MockProviderUsageStore.deleteByIndices_eq, MockProviderUsageStore.deleteByIndices_eq]
    exact ⟨_, _, rfl, rfl, rfl, (Nat.add_comm _ _).trans parts.symm⟩

section Sample

/-- Three calls, the first one on the day before the others. -/
def sampleCosts (first second third : ℚ) : MockProviderUsageStore :=
  [{ sampleUsage with id := 1, createdAt := 0, estimatedCostUsd := some first },
    { sampleUsage with id := 2, createdAt := days 1, estimatedCostUsd := some second },
    { sampleUsage with id := 3, createdAt := days 1, estimatedCostUsd := some third }]

/-- A window of the two days. -/
def sampleWindow : ProviderUsageDailyQuery :=
  ⟨sampleTenant.orgId, none, none, some .llm, 0, days 2⟩

theorem usage_reports_add_up_sample :
    ∃ usageDays : UsageDays, usageDays.Partition (sampleCosts (1 / 2) (1 / 4) (3 / 4)) ∧
      UsageArithmetic.machine.queryUsageDaily sampleWindow (sampleCosts (1 / 2) (1 / 4) (3 / 4)) =
        .ok (UsageArithmetic.machine.buckets usageDays) ∧
      CostsAddUp .machine (UsageArithmetic.machine.buckets usageDays)
        (UsageArithmetic.machine.computeSummary (sampleCosts (1 / 2) (1 / 4) (3 / 4))) := by
  obtain ⟨_, reports, _⟩ := usage_reports_add_up .machine sampleUsageEncoding
    (sampleCosts (1 / 2) (1 / 4) (3 / 4))
  obtain ⟨usageDays, parted, buckets, totals⟩ := reports sampleWindow
  refine ⟨usageDays, parted, buckets, (totals 10 none _ rfl).2 ?_⟩
  have quarters : [2, 1, 3].map (fun count : ℕ => (count : ℚ) * 2 ^ (-2 : ℤ)) =
      [1 / 2, 1 / 4, 3 / 4] := by norm_num
  have exact := @unrounded_of_multiples [2, 1, 3] (by decide) (-2)
    (by decide)
  rw [quarters] at exact
  exact exact

/-- Two calls on two days, and more tokens than 64 bits count. -/
def sampleTokens : MockProviderUsageStore :=
  [{ sampleUsage with id := 1, createdAt := 0, inputTokens := some (2 ^ 64 - 1) },
    { sampleUsage with id := 2, createdAt := days 1, inputTokens := some 1 }]

/-- A tenth of a dollar is rounded, so the days are added up to another cost. And the days have
more tokens than the summary can count. -/
theorem day_totals_differ :
    (¬ ∀ (store : MockProviderUsageStore) (query : ProviderUsageDailyQuery) buckets result,
      UsageArithmetic.machine.queryUsageDaily query store = .ok buckets →
      UsageArithmetic.machine.queryUsage sampleUsageEncoding (query.asQuery 10 none) store =
        .ok result →
      CostsAddUp .machine buckets result.summary) ∧
    ¬ ∀ (store : MockProviderUsageStore) (query : ProviderUsageDailyQuery) buckets result,
      UsageArithmetic.machine.queryUsageDaily query store = .ok buckets →
      UsageArithmetic.machine.queryUsage sampleUsageEncoding (query.asQuery 10 none) store =
        .ok result →
      ∀ counter ∈ usageCounters, counter.total result.summary =
        (buckets.map fun bucket => counter.total bucket.toProviderUsagePersistedSummary).sum := by
  constructor
  · intro equal
    have differ : ¬ CostsAddUp .machine
        (UsageArithmetic.machine.buckets (Grouping.groups (fun event => dateNaive event.createdAt)
          (sampleCosts (Binary64.round (1 / 10)) (Binary64.round (2 / 10))
            (Binary64.round (3 / 10)))))
        (UsageArithmetic.machine.computeSummary (sampleCosts (Binary64.round (1 / 10))
          (Binary64.round (2 / 10)) (Binary64.round (3 / 10)))) := by
      unfold CostsAddUp
      decide +kernel
    exact differ (equal (sampleCosts (Binary64.round (1 / 10)) (Binary64.round (2 / 10))
      (Binary64.round (3 / 10))) sampleWindow _ _ rfl rfl)
  · intro equal
    have tokens : UsageCounter.mk (·.totalInputTokens) (fun event => event.inputTokens.getD 0) ∈
        usageCounters := by simp [usageCounters]
    have same := equal sampleTokens sampleWindow _ _ rfl rfl _ tokens
    have differ : ¬ (UsageArithmetic.machine.computeSummary sampleTokens).totalInputTokens =
        ((UsageArithmetic.machine.buckets (Grouping.groups
          (fun event => dateNaive event.createdAt) sampleTokens)).map fun bucket =>
            bucket.totalInputTokens).sum := by
      decide +kernel
    exact differ same

end Sample

end Memcore
