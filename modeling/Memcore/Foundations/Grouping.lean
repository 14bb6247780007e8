import Memcore.Foundations.SqlTables
import Mathlib.Algebra.BigOperators.Group.List.Basic
import Mathlib.Algebra.GroupWithZero.Nat
import Mathlib.Data.List.Dedup
import Mathlib.Data.List.Induction
import Mathlib.Data.List.ReduceOption
import Mathlib.Order.Defs.LinearOrder

/-!
# Grouping records by a key

Records are grouped in two ways. A statement selects the distinct keys in ascending order
and aggregates the records of each; a loop keeps one value for each key in an ordered map
and changes the value under the key of the record at hand. When the loop folds the records
of each group from the group's default, both give the same list.
-/
namespace Grouping

variable {α β κ : Type} [LinearOrder κ]

/-- The keys of some records in ascending order, each of them once. -/
def sortedKeys (key : α → κ) (records : List α) : List κ :=
  (records.map key).dedup.insertionSort (· ≤ ·)

/-- GROUP BY a key, in ascending order of the key. -/
def groups (key : α → κ) (records : List α) : List (κ × List α) :=
  (sortedKeys key records).map fun group =>
    (group, records.filter fun record => decide (key record = group))

/-- An ordered map from keys to values, in ascending order. The value under a key is changed;
if there is none, it is the default that is changed. -/
def upsert (start : κ → β) (change : β → β) (key : κ) : List (κ × β) → List (κ × β)
  | [] => [(key, change (start key))]
  | (other, value) :: rest =>
      if key < other then (key, change (start key)) :: (other, value) :: rest
      else if key = other then (other, change value) :: rest
      else (other, value) :: upsert start change key rest

/-! ## Strictly ascending lists -/

/-- A strictly ascending list is determined by its members. -/
theorem eq_of_ascending {keys others : List κ} (ascending : keys.Pairwise (· < ·))
    (otherAscending : others.Pairwise (· < ·)) (same : ∀ key, key ∈ keys ↔ key ∈ others) :
    keys = others := by
  have permuted : keys.Perm others :=
    (List.perm_ext_iff_of_nodup ascending.nodup otherAscending.nodup).mpr same
  apply permuted.eq_of_pairwise _ ascending otherAscending
  intro left right _ _ lower higher
  exact absurd lower (lt_asymm higher)

theorem mem_sortedKeys (key : α → κ) (records : List α) (wanted : κ) :
    wanted ∈ sortedKeys key records ↔ ∃ record ∈ records, key record = wanted := by
  simp only [sortedKeys, List.mem_insertionSort, List.mem_dedup, List.mem_map]

theorem sortedKeys_ascending (key : α → κ) (records : List α) :
    (sortedKeys key records).Pairwise (· < ·) := by
  have ordered := List.pairwise_insertionSort (· ≤ ·) (records.map key).dedup
  have distinct : (sortedKeys key records).Nodup :=
    (List.perm_insertionSort _ _).nodup_iff.mpr (List.nodup_dedup _)
  apply (ordered.and distinct).imp
  rintro left right ⟨atMost, different⟩
  exact lt_of_le_of_ne atMost different

/-- A list is the parts of it under each key, when every key is named once. -/
theorem flatMap_filter_perm (key : α → κ) {keys : List κ} (distinct : keys.Nodup)
    {records : List α} (named : ∀ record ∈ records, key record ∈ keys) :
    (keys.flatMap fun group => records.filter fun record => decide (key record = group)).Perm
      records := by
  induction keys generalizing records with
  | nil =>
    have nothing : records = [] :=
      List.eq_nil_iff_forall_not_mem.mpr fun record member => nomatch named record member
    rw [nothing]
    exact .refl _
  | cons first keys inductionHypothesis =>
    obtain ⟨absent, later⟩ := List.nodup_cons.mp distinct
    have rest : (keys.flatMap fun group =>
        records.filter fun record => decide (key record = group)) =
        keys.flatMap fun group => (records.filter fun record => !decide (key record = first)).filter
          fun record => decide (key record = group) := by
      apply List.flatMap_congr
      intro group member
      have different : group ≠ first := fun same => absent (same ▸ member)
      rw [List.filter_filter]
      apply List.filter_congr
      intro record _
      by_cases own : key record = group
      · simp [own, different]
      · simp [own]
    have others : ∀ record ∈ records.filter fun record => !decide (key record = first),
        key record ∈ keys := by
      intro record member
      obtain ⟨stored, different⟩ := List.mem_filter.mp member
      exact (List.mem_cons.mp (named record stored)).resolve_left (by simpa using different)
    rw [List.flatMap_cons, rest]
    exact ((inductionHypothesis later others).append_left _).trans
      (List.filter_append_perm _ records)

/-- Every record is in one group. -/
theorem groups_perm (key : α → κ) (records : List α) :
    ((groups key records).flatMap Prod.snd).Perm records := by
  rw [groups, List.flatMap_map]
  exact flatMap_filter_perm key (sortedKeys_ascending key records).nodup fun record member =>
    (mem_sortedKeys key records _).mpr ⟨record, member, rfl⟩

theorem groups_ascending (key : α → κ) (records : List α) :
    ((groups key records).map Prod.fst).Pairwise (· < ·) := by
  have keys : (groups key records).map Prod.fst = sortedKeys key records := by
    rw [groups, List.map_map]
    exact List.map_id _
  rw [keys]
  exact sortedKeys_ascending key records

/-- A group has records, all of them with its key. -/
theorem of_mem_groups {key : α → κ} {records : List α} {group : κ × List α}
    (member : group ∈ groups key records) :
    group.2 ≠ [] ∧ ∀ record ∈ group.2, key record = group.1 := by
  obtain ⟨wanted, present, rfl⟩ := List.mem_map.mp member
  obtain ⟨record, stored, same⟩ := (mem_sortedKeys key records wanted).mp present
  constructor
  · exact List.ne_nil_of_mem (List.mem_filter.mpr ⟨stored, decide_eq_true same⟩)
  · intro other filtered
    exact of_decide_eq_true (List.mem_filter.mp filtered).2

/-! ## The loop -/

/-- The keys after one more is entered. -/
def enter (key : κ) : List κ → List κ
  | [] => [key]
  | other :: rest =>
      if key < other then key :: other :: rest
      else if key = other then other :: rest
      else other :: enter key rest

theorem mem_enter (key : κ) (keys : List κ) (wanted : κ) :
    wanted ∈ enter key keys ↔ wanted = key ∨ wanted ∈ keys := by
  induction keys with
  | nil => simp [enter]
  | cons other rest inductionHypothesis =>
    unfold enter
    split_ifs with below same
    · exact List.mem_cons
    · rw [same]
      simp
    · simp only [List.mem_cons, inductionHypothesis]
      tauto

theorem enter_ascending {keys : List κ} (key : κ) (ascending : keys.Pairwise (· < ·)) :
    (enter key keys).Pairwise (· < ·) := by
  induction keys with
  | nil => exact List.pairwise_singleton _ _
  | cons other rest inductionHypothesis =>
    obtain ⟨first, later⟩ := List.pairwise_cons.mp ascending
    unfold enter
    split_ifs with below same
    · refine List.pairwise_cons.mpr ⟨fun wanted member => ?_, ascending⟩
      rcases List.mem_cons.mp member with rfl | behind
      · exact below
      · exact below.trans (first wanted behind)
    · exact ascending
    · refine List.pairwise_cons.mpr ⟨fun wanted member => ?_, inductionHypothesis later⟩
      rcases (mem_enter key rest wanted).mp member with rfl | behind
      · exact lt_of_le_of_ne (not_lt.mp below) (Ne.symm same)
      · exact first wanted behind

/-- A map that holds a value for each key, and one of them changed. -/
theorem upsert_map (start : κ → β) (change : β → β) (key : κ) {keys : List κ}
    (ascending : keys.Pairwise (· < ·)) (value : κ → β)
    (absent : key ∉ keys → value key = start key) :
    upsert start change key (keys.map fun other => (other, value other)) =
      (enter key keys).map fun other =>
        (other, if other = key then change (value other) else value other) := by
  induction keys with
  | nil => simp [upsert, enter, absent List.not_mem_nil]
  | cons other rest inductionHypothesis =>
    obtain ⟨first, later⟩ := List.pairwise_cons.mp ascending
    have unchanged : ∀ keys : List κ, key ∉ keys →
        (keys.map fun wanted => (wanted, value wanted)) = keys.map fun wanted =>
          (wanted, if wanted = key then change (value wanted) else value wanted) := by
      intro keys missing
      apply List.map_congr_left
      intro wanted member
      have different : wanted ≠ key := by
        rintro rfl
        exact missing member
      rw [if_neg different]
    rw [List.map_cons, upsert, enter]
    split_ifs with below same
    · have missing : key ∉ other :: rest := by
        intro member
        rcases List.mem_cons.mp member with rfl | behind
        · exact lt_irrefl _ below
        · exact lt_asymm below (first key behind)
      rw [List.map_cons, if_pos rfl, absent missing, ← unchanged _ missing]
      rfl
    · have missing : key ∉ rest := fun behind => (first key behind).ne same.symm
      rw [List.map_cons, if_pos same.symm, ← unchanged _ missing]
    · rw [List.map_cons, if_neg (Ne.symm same), inductionHypothesis later]
      intro missing
      exact absent fun member => (List.mem_cons.mp member).elim same missing

/-- A loop that changes the value under the key of each record has folded the groups. -/
theorem foldl_upsert (key : α → κ) (start : κ → β) (add : β → α → β) (records : List α) :
    records.foldl (fun values record =>
        upsert start (fun value => add value record) (key record) values) [] =
      (groups key records).map fun group => (group.1, group.2.foldl add (start group.1)) := by
  induction records using List.reverseRecOn with
  | nil => rfl
  | append_singleton records record inductionHypothesis =>
    have keys : enter (key record) (sortedKeys key records) =
        sortedKeys key (records ++ [record]) := by
      apply eq_of_ascending (enter_ascending _ (sortedKeys_ascending key records))
        (sortedKeys_ascending key _)
      intro wanted
      simp only [mem_enter, mem_sortedKeys, List.mem_append, List.mem_singleton]
      constructor
      · rintro (rfl | ⟨other, member, same⟩)
        · exact ⟨record, .inr rfl, rfl⟩
        · exact ⟨other, .inl member, same⟩
      · rintro ⟨other, member | rfl, same⟩
        · exact .inr ⟨other, member, same⟩
        · exact .inl same.symm
    rw [List.foldl_append, inductionHypothesis, List.foldl_cons, List.foldl_nil, groups,
      List.map_map]
    have changed := upsert_map start (fun value => add value record) (key record)
      (sortedKeys_ascending key records)
      (fun group => (records.filter fun other => decide (key other = group)).foldl add
        (start group)) (by
        intro missing
        have nothing : records.filter (fun other => decide (key other = key record)) = [] := by
          rw [List.filter_eq_nil_iff]
          intro other member same
          exact missing ((mem_sortedKeys _ _ _).mpr ⟨other, member, of_decide_eq_true same⟩)
        rw [nothing]
        rfl)
    refine changed.trans ?_
    rw [keys, groups, List.map_map]
    apply List.map_congr_left
    intro group _
    simp only [Function.comp_apply, List.filter_append, List.foldl_append, List.filter_cons,
      List.filter_nil, Prod.mk.injEq, true_and]
    by_cases own : group = key record
    · rw [if_pos own, if_pos (decide_eq_true own.symm)]
      rfl
    · rw [if_neg own, if_neg (by simpa using Ne.symm own)]
      rfl

/-! ## Statements on rows -/

/-- GROUP BY on the rows of some records, by a text that is ordered as the keys are. -/
theorem groups_image {ρ τ : Type} [LinearOrder τ] {key : α → κ} {rowKey : ρ → τ} {write : α → ρ}
    {text : κ → τ} {records : List α}
    (writes : ∀ record ∈ records, rowKey (write record) = text (key record))
    (ordered : ∀ left ∈ records, ∀ right ∈ records,
      text (key left) < text (key right) ↔ key left < key right) :
    groups rowKey (records.map write) =
      (groups key records).map fun group => (text group.1, group.2.map write) := by
  have injective : ∀ left ∈ records, ∀ right ∈ records,
      (text (key left) = text (key right) ↔ key left = key right) := by
    intro left leftMember right rightMember
    constructor
    · intro same
      apply le_antisymm <;> apply not_lt.mp
      · exact fun lower => ((ordered right rightMember left leftMember).mpr lower).ne same.symm
      · exact fun lower => ((ordered left leftMember right rightMember).mpr lower).ne same
    · exact congrArg text
  have keys : sortedKeys rowKey (records.map write) = (sortedKeys key records).map text := by
    apply eq_of_ascending (sortedKeys_ascending _ _)
    · rw [List.pairwise_map]
      apply (sortedKeys_ascending key records).imp_of_mem
      intro left right leftMember rightMember lower
      obtain ⟨leftRecord, leftStored, rfl⟩ := (mem_sortedKeys _ _ _).mp leftMember
      obtain ⟨rightRecord, rightStored, rfl⟩ := (mem_sortedKeys _ _ _).mp rightMember
      exact (ordered _ leftStored _ rightStored).mpr lower
    · intro wanted
      simp only [mem_sortedKeys, List.mem_map]
      constructor
      · rintro ⟨_, ⟨record, stored, rfl⟩, rfl⟩
        exact ⟨key record, ⟨record, stored, rfl⟩, (writes record stored).symm⟩
      · rintro ⟨_, ⟨record, stored, rfl⟩, rfl⟩
        exact ⟨write record, ⟨record, stored, rfl⟩, writes record stored⟩
  rw [groups, keys, groups, List.map_map, List.map_map]
  apply List.map_congr_left
  intro group member
  obtain ⟨record, stored, rfl⟩ := (mem_sortedKeys _ _ _).mp member
  have selected : ∀ other ∈ records,
      decide (rowKey (write other) = text (key record)) = decide (key other = key record) := by
    intro other otherStored
    rw [decide_eq_decide, writes other otherStored, injective other otherStored record stored]
  exact congrArg (Prod.mk _) (SqlTables.filter_image selected)

/-- SUM: absent values are skipped, and without any value there is no sum. -/
def sum {γ : Type} [Add γ] [Zero γ] (values : List (Option γ)) : Option γ :=
  match values.reduceOption with
  | [] => none
  | value :: rest => some (value :: rest).sum

theorem sum_eq {γ : Type} [AddMonoid γ] (values : List (Option γ)) :
    sum values = if values.reduceOption = [] then none else some values.reduceOption.sum := by
  unfold sum
  cases values.reduceOption <;> simp

theorem getD_sum {γ : Type} [AddMonoid γ] (values : List (Option γ)) :
    (sum values).getD 0 = values.reduceOption.sum := by
  rw [sum_eq]
  by_cases nothing : values.reduceOption = []
  · simp [nothing]
  · simp [nothing]

/-- A part without a sum adds nothing. -/
theorem sum_append {γ : Type} [AddMonoid γ] (left right : List (Option γ)) :
    sum (left ++ right) = match sum right with
      | some amount => some ((sum left).getD 0 + amount)
      | none => sum left := by
  rw [sum_eq, sum_eq left, sum_eq right, List.reduceOption_append]
  by_cases noneRight : right.reduceOption = []
  · simp [noneRight]
  · by_cases noneLeft : left.reduceOption = []
    · simp [noneLeft, noneRight]
    · simp [noneLeft, noneRight]

theorem sum_perm {γ : Type} [AddCommMonoid γ] {left right : List (Option γ)}
    (same : left.Perm right) : sum left = sum right := by
  have values : left.reduceOption.Perm right.reduceOption := same.filterMap id
  rw [sum_eq, sum_eq right, values.sum_eq]
  exact if_congr (by rw [← List.length_eq_zero_iff, values.length_eq, List.length_eq_zero_iff])
    rfl rfl

/-- A loop that starts a sum at the first value. -/
theorem foldl_sum {γ : Type} [AddMonoid γ] (values : List (Option γ)) :
    values.foldl (fun total value => match value with
      | some amount => some (total.getD 0 + amount)
      | none => total) none = sum values := by
  induction values using List.reverseRecOn with
  | nil => rfl
  | append_singleton values value inductionHypothesis =>
    rw [List.foldl_append, inductionHypothesis, sum_append]
    cases value with
    | none => rfl
    | some amount => simp [sum]

/-- COALESCE(SUM(column), 0). -/
theorem sum_getD (values : List (Option ℕ)) :
    (sum values).getD 0 = (values.map fun value => value.getD 0).sum := by
  have total : values.reduceOption.sum = (values.map fun value => value.getD 0).sum := by
    induction values with
    | nil => rfl
    | cons value values inductionHypothesis =>
      cases value with
      | none => simpa using inductionHypothesis
      | some amount => simp [inductionHypothesis]
  rw [← total, sum]
  cases values.reduceOption <;> rfl

end Grouping
