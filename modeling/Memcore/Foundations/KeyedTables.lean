import Mathlib.Data.List.Nodup

/-!
# Keyed tables

A table holds rows that carry their own key, at most one row for each key. It
stands for a hash map whose values repeat the key, and for any other map once the
key is paired with the value. Rows are kept in insertion order, which is one of
the orders that a hash map may enumerate.
-/
namespace KeyedTables

/-- Rows with pairwise distinct keys. -/
structure Table (κ ρ : Type) (key : ρ → κ) where
  rows : List ρ
  distinct : (rows.map key).Nodup

namespace Table

variable {κ ρ : Type} {key : ρ → κ}

/-- The table without rows. -/
def empty : Table κ ρ key := ⟨[], List.nodup_nil⟩

/-- Keep the rows that satisfy a test. -/
def retain (table : Table κ ρ key) (keep : ρ → Bool) : Table κ ρ key where
  rows := table.rows.filter keep
  distinct := table.distinct.sublist (List.filter_sublist.map key)

@[simp] theorem rows_empty : (empty : Table κ ρ key).rows = [] := rfl

@[simp] theorem mem_retain (table : Table κ ρ key) (keep : ρ → Bool) (row : ρ) :
    row ∈ (table.retain keep).rows ↔ row ∈ table.rows ∧ keep row = true := by
  simp only [retain, List.mem_filter]

/-- Two rows of one table with the same key are the same row. -/
theorem eq_of_key (table : Table κ ρ key) {left right : ρ} (leftStored : left ∈ table.rows)
    (rightStored : right ∈ table.rows) (sameKey : key left = key right) : left = right :=
  List.inj_on_of_nodup_map table.distinct leftStored rightStored sameKey

variable [DecidableEq κ]

/-- The row stored under a key. -/
def find? (table : Table κ ρ key) (wanted : κ) : Option ρ :=
  table.rows.find? fun row => decide (key row = wanted)

/-- Whether a row is stored under a key. -/
def contains (table : Table κ ρ key) (wanted : κ) : Bool :=
  table.rows.any fun row => decide (key row = wanted)

/-- Store a row, replacing the one stored under its key, if any. -/
def put (table : Table κ ρ key) (row : ρ) : Table κ ρ key where
  rows := table.rows.filter (fun other => decide (key other ≠ key row)) ++ [row]
  distinct := by
    rw [List.map_append, List.nodup_append]
    refine ⟨table.distinct.sublist (List.filter_sublist.map key), by simp, ?_⟩
    intro left leftStored right rightStored
    simp only [List.map_cons, List.map_nil, List.mem_singleton] at rightStored
    simp only [List.mem_map, List.mem_filter, decide_eq_true_eq] at leftStored
    obtain ⟨other, ⟨_, different⟩, rfl⟩ := leftStored
    exact rightStored ▸ different

@[simp] theorem mem_put (table : Table κ ρ key) (row other : ρ) :
    other ∈ (table.put row).rows ↔
      other = row ∨ other ∈ table.rows ∧ key other ≠ key row := by
  simp only [put, List.mem_append, List.mem_filter, List.mem_singleton, decide_eq_true_eq]
  exact or_comm

/-- A row under a new key comes last. -/
theorem rows_put_of_fresh (table : Table κ ρ key) {row : ρ}
    (fresh : ∀ other ∈ table.rows, key other ≠ key row) :
    (table.put row).rows = table.rows ++ [row] := by
  have kept : table.rows.filter (fun other => decide (key other ≠ key row)) = table.rows :=
    List.filter_eq_self.mpr fun other member => decide_eq_true (fresh other member)
  show table.rows.filter (fun other => decide (key other ≠ key row)) ++ [row] = _
  rw [kept]

theorem find?_eq_some (table : Table κ ρ key) (wanted : κ) (row : ρ) :
    table.find? wanted = some row ↔ row ∈ table.rows ∧ key row = wanted := by
  constructor
  · intro found
    exact ⟨List.mem_of_find?_eq_some found, by simpa using List.find?_some found⟩
  · rintro ⟨stored, rfl⟩
    cases found : table.find? (key row) with
    | none =>
      have absent := List.find?_eq_none.mp found row stored
      simp at absent
    | some other =>
      have sameKey : key other = key row := by simpa using List.find?_some found
      rw [table.eq_of_key (List.mem_of_find?_eq_some found) stored sameKey]

theorem find?_eq_none (table : Table κ ρ key) (wanted : κ) :
    table.find? wanted = none ↔ ∀ row ∈ table.rows, key row ≠ wanted := by
  simp [find?]

@[simp] theorem find?_empty (wanted : κ) : (empty : Table κ ρ key).find? wanted = none := rfl

theorem find?_put (table : Table κ ρ key) (row : ρ) (wanted : κ) :
    (table.put row).find? wanted = if key row = wanted then some row else table.find? wanted := by
  by_cases own : key row = wanted
  · rw [if_pos own, find?_eq_some]
    exact ⟨(mem_put _ _ _).mpr (.inl rfl), own⟩
  · rw [if_neg own]
    cases found : table.find? wanted with
    | none =>
      rw [find?_eq_none] at found ⊢
      intro other stored
      rcases (mem_put _ _ _).mp stored with rfl | ⟨before, _⟩
      · exact own
      · exact found other before
    | some other =>
      obtain ⟨stored, same⟩ := (find?_eq_some _ _ _).mp found
      have different : key other ≠ key row := by
        intro clash
        exact own (clash ▸ same)
      exact (find?_eq_some _ _ _).mpr ⟨(mem_put _ _ _).mpr (.inr ⟨stored, different⟩), same⟩

theorem find?_retain (table : Table κ ρ key) (keep : ρ → Bool) (wanted : κ) :
    (table.retain keep).find? wanted = (table.find? wanted).filter keep := by
  cases found : table.find? wanted with
  | none =>
    rw [find?_eq_none] at found
    rw [Option.filter_none, find?_eq_none]
    intro row stored
    exact found row ((mem_retain _ _ _).mp stored).1
  | some row =>
    obtain ⟨stored, same⟩ := (find?_eq_some _ _ _).mp found
    by_cases kept : keep row = true
    · rw [Option.filter_some_pos kept, find?_eq_some]
      exact ⟨(mem_retain _ _ _).mpr ⟨stored, kept⟩, same⟩
    · rw [Option.filter_some_neg (by simpa using kept), find?_eq_none]
      intro other otherStored otherSame
      obtain ⟨before, otherKept⟩ := (mem_retain _ _ _).mp otherStored
      have one : other = row := table.eq_of_key before stored (otherSame.trans same.symm)
      exact kept (one ▸ otherKept)

theorem contains_iff (table : Table κ ρ key) (wanted : κ) :
    table.contains wanted = true ↔ ∃ row ∈ table.rows, key row = wanted := by
  simp [contains]

theorem contains_eq_false (table : Table κ ρ key) (wanted : κ) :
    table.contains wanted = false ↔ ∀ row ∈ table.rows, key row ≠ wanted := by
  simp [contains]

/-- Nothing is removed under a key without a row. -/
theorem filter_absent (table : Table κ ρ key) {wanted : κ}
    (absent : table.contains wanted = false) :
    table.rows.filter (fun row => !decide (key row = wanted)) = table.rows := by
  rw [contains_eq_false] at absent
  exact List.filter_eq_self.mpr fun row stored => by simp [absent row stored]

/-- Removing the rows of a key leaves as many rows as before if there is none. -/
theorem length_filter_key_iff (table : Table κ ρ key) (wanted : κ) :
    (table.rows.filter fun row => !decide (key row = wanted)).length = table.rows.length ↔
      table.contains wanted = false := by
  rw [contains_eq_false, List.length_filter_eq_length_iff]
  simp

/-- A key has no row if counting its rows gives none. -/
theorem count_key_eq_zero (table : Table κ ρ key) (wanted : κ) :
    (table.rows.filter fun row => decide (key row = wanted)).length = 0 ↔
      table.contains wanted = false := by
  rw [contains_eq_false, List.length_eq_zero_iff, List.filter_eq_nil_iff]
  simp only [decide_eq_true_eq, ne_eq]

/-- Removing a stored key removes one row. -/
theorem length_without_key (table : Table κ ρ key) {row : ρ} (stored : row ∈ table.rows) :
    (table.retain fun other => decide (key other ≠ key row)).rows.length + 1 =
      table.rows.length := by
  have one : (table.rows.map key).count (key row) = 1 :=
    List.count_eq_one_of_mem table.distinct (List.mem_map_of_mem stored)
  rw [List.count_eq_countP, List.countP_map, List.countP_eq_length_filter] at one
  have split := List.length_eq_length_filter_add (l := table.rows)
    fun other => decide (key other = key row)
  have matching : (table.rows.filter fun other => decide (key other = key row)).length = 1 := by
    rw [← one]
    congr 1
  simp only [retain, ne_eq, decide_not] at split ⊢
  omega

theorem contains_put (table : Table κ ρ key) (row : ρ) (wanted : κ) :
    (table.put row).contains wanted = (decide (key row = wanted) || table.contains wanted) := by
  rw [Bool.eq_iff_iff, contains_iff, Bool.or_eq_true, decide_eq_true_eq, contains_iff]
  constructor
  · rintro ⟨other, stored, same⟩
    rcases (mem_put _ _ _).mp stored with rfl | ⟨before, _⟩
    · exact .inl same
    · exact .inr ⟨other, before, same⟩
  · rintro (own | ⟨other, before, same⟩)
    · exact ⟨row, (mem_put _ _ _).mpr (.inl rfl), own⟩
    · by_cases replaced : key other = key row
      · exact ⟨row, (mem_put _ _ _).mpr (.inl rfl), replaced ▸ same⟩
      · exact ⟨other, (mem_put _ _ _).mpr (.inr ⟨before, replaced⟩), same⟩

/-- A test that depends on the key only. -/
theorem contains_retain (table : Table κ ρ key) (keep : κ → Bool) (wanted : κ) :
    (table.retain fun row => keep (key row)).contains wanted =
      (table.contains wanted && keep wanted) := by
  rw [Bool.eq_iff_iff, contains_iff, Bool.and_eq_true, contains_iff]
  constructor
  · rintro ⟨row, stored, rfl⟩
    obtain ⟨before, kept⟩ := (mem_retain _ _ _).mp stored
    exact ⟨⟨row, before, rfl⟩, kept⟩
  · rintro ⟨⟨row, before, rfl⟩, kept⟩
    exact ⟨row, (mem_retain _ _ _).mpr ⟨before, kept⟩, rfl⟩

theorem contains_eq_isSome (table : Table κ ρ key) (wanted : κ) :
    table.contains wanted = (table.find? wanted).isSome := by
  rw [contains, find?, List.isSome_find?]

end Table

end KeyedTables
