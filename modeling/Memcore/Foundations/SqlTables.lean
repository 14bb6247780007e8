import Memcore.Foundations.KeyedTables
import Mathlib.Data.List.Sort

/-!
# Statements on a table with a primary key

The data-changing statements of SQL, for a table whose primary key is a function of
the row. A condition selects rows. Rows that an update changes keep their place and
their key, and each statement says how many rows it has affected. An insertion is
refused when its key is taken.

A lookup by key after a statement is computed from the lookup before it, so that a
caller that works with one key never has to look at the other rows.
-/
namespace SqlTables

open KeyedTables

variable {κ ρ : Type} {key : ρ → κ}

/-- UPDATE: the number of rows changed, and the table after it. -/
def update (selects : ρ → Bool) (assign : ρ → ρ) (keepsKey : ∀ row, key (assign row) = key row)
    (table : Table κ ρ key) : ℕ × Table κ ρ key where
  fst := table.rows.countP selects
  snd := {
    rows := table.rows.map fun row => if selects row then assign row else row
    distinct := by
      have same : (key ∘ fun row => if selects row then assign row else row) = key := by
        funext row
        by_cases selected : selects row = true
        · simp [selected, keepsKey]
        · simp [selected]
      rw [List.map_map, same]
      exact table.distinct }

/-- DELETE: the number of rows removed, and the table after it. -/
def delete (selects : ρ → Bool) (table : Table κ ρ key) : ℕ × Table κ ρ key :=
  (table.rows.countP selects, table.retain fun row => !selects row)

/-- INSERT of one row, unless its key is taken. -/
def insert [DecidableEq κ] (row : ρ) (table : Table κ ρ key) : Option (Table κ ρ key) :=
  if table.contains (key row) then none else some (table.put row)

section Lookups

variable (table : Table κ ρ key) (selects : ρ → Bool)

theorem mem_update (assign : ρ → ρ) (keepsKey : ∀ row, key (assign row) = key row) (row : ρ) :
    row ∈ (update selects assign keepsKey table).2.rows ↔
      ∃ before ∈ table.rows, (if selects before then assign before else before) = row := by
  simp only [update, List.mem_map]

/-- An update that selects no row changes nothing. -/
theorem update_unselected (assign : ρ → ρ) (keepsKey : ∀ row, key (assign row) = key row)
    (unselected : ∀ row ∈ table.rows, selects row = false) :
    update selects assign keepsKey table = (0, table) := by
  have none : table.rows.countP selects = 0 := by
    rw [List.countP_eq_zero]
    intro row stored
    simp [unselected row stored]
  have same : table.rows.map (fun row => if selects row then assign row else row) = table.rows := by
    have each : ∀ row ∈ table.rows, (if selects row then assign row else row) = id row := by
      intro row stored
      simp [unselected row stored]
    rw [List.map_congr_left each, List.map_id]
  simp only [update, none, same]

/-- An update that finds no row changes nothing. -/
theorem update_none {selects : ρ → Bool} (assign : ρ → ρ)
    (keepsKey : ∀ row, key (assign row) = key row) (noRow : ¬ 0 < table.rows.countP selects) :
    update selects assign keepsKey table = (0, table) := by
  apply update_unselected
  intro row stored
  by_contra selected
  rw [Bool.not_eq_false] at selected
  exact noRow (List.countP_pos_iff.mpr ⟨row, stored, selected⟩)

/-- A deletion that selects no row changes nothing. -/
theorem delete_unselected (unselected : ∀ row ∈ table.rows, selects row = false) :
    delete selects table = (0, table) := by
  have none : table.rows.countP selects = 0 := by
    rw [List.countP_eq_zero]
    intro row stored
    simp [unselected row stored]
  have same : table.rows.filter (fun row => !selects row) = table.rows := by
    rw [List.filter_eq_self]
    intro row stored
    simp [unselected row stored]
  simp only [delete, Table.retain, none, same]

variable [DecidableEq κ]

/-- The row under a key after an update is the one before it, changed if selected. -/
theorem find?_update (assign : ρ → ρ) (keepsKey : ∀ row, key (assign row) = key row)
    (wanted : κ) : (update selects assign keepsKey table).2.find? wanted =
      (table.find? wanted).map fun row => if selects row then assign row else row := by
  have sameKey (row : ρ) : key (if selects row then assign row else row) = key row := by
    by_cases selected : selects row = true
    · simp [selected, keepsKey]
    · simp [selected]
  cases found : table.find? wanted with
  | none =>
    rw [Table.find?_eq_none] at found
    rw [Option.map_none, Table.find?_eq_none]
    intro row stored
    obtain ⟨before, storedBefore, rfl⟩ := (mem_update table selects assign keepsKey row).mp stored
    rw [sameKey]
    exact found before storedBefore
  | some row =>
    obtain ⟨stored, same⟩ := (Table.find?_eq_some _ _ _).mp found
    rw [Option.map_some, Table.find?_eq_some]
    exact ⟨(mem_update table selects assign keepsKey _).mpr ⟨row, stored, rfl⟩,
      (sameKey row).trans same⟩

/-- The row under a key after a deletion is the one before it, unless selected. -/
theorem find?_delete (wanted : κ) : (delete selects table).2.find? wanted =
    (table.find? wanted).filter fun row => !selects row :=
  Table.find?_retain table _ wanted

/-- A condition on the key and on the rest of the row selects a row when the row under
that key meets the rest. -/
theorem countP_key_pos (wanted : κ) (rest : ρ → Bool) :
    0 < table.rows.countP (fun row => decide (key row = wanted) && rest row) ↔
      ∃ row, table.find? wanted = some row ∧ rest row = true := by
  rw [List.countP_pos_iff]
  constructor
  · rintro ⟨row, stored, selected⟩
    simp only [Bool.and_eq_true, decide_eq_true_eq] at selected
    exact ⟨row, (Table.find?_eq_some _ _ _).mpr ⟨stored, selected.1⟩, selected.2⟩
  · rintro ⟨row, found, meets⟩
    obtain ⟨stored, same⟩ := (Table.find?_eq_some _ _ _).mp found
    exact ⟨row, stored, by simp [same, meets]⟩

/-- The row that a condition on the key and on the rest selects. -/
theorem find?_key (wanted : κ) (rest : ρ → Bool) :
    table.rows.find? (fun row => decide (key row = wanted) && rest row) =
      (table.find? wanted).filter rest := by
  rw [← Table.find?_retain, Table.find?, Table.retain, List.find?_filter]
  congr 1
  funext row
  simp only [Bool.decide_and, Bool.decide_eq_true, Bool.and_comm]

theorem insert_of_absent {row : ρ} (absent : table.find? (key row) = none) :
    insert row table = some (table.put row) := by
  have free : table.contains (key row) = false := by
    rw [Table.contains_eq_isSome, absent]
    rfl
  simp [insert, free]

theorem insert_of_taken {row other : ρ} (taken : table.find? (key row) = some other) :
    insert row table = none := by
  have full : table.contains (key row) = true := by
    rw [Table.contains_eq_isSome, taken]
    rfl
  simp [insert, full]

end Lookups

/-! ## Reading rows -/

section Reading

variable {α ε : Type} {stands : ρ → α → Prop} {rows : List ρ} {records : List α}

theorem exists_forall₂ (rows : List ρ) (each : ∀ row ∈ rows, ∃ record, stands row record) :
    ∃ records, List.Forall₂ stands rows records := by
  induction rows with
  | nil => exact ⟨[], .nil⟩
  | cons row rows inductionHypothesis =>
    obtain ⟨record, first⟩ := each row List.mem_cons_self
    obtain ⟨records, rest⟩ := inductionHypothesis fun other member =>
      each other (List.mem_cons_of_mem _ member)
    exact ⟨record :: records, .cons first rest⟩

theorem mem_of_forall₂ (pairs : List.Forall₂ stands rows records) {record : α}
    (member : record ∈ records) : ∃ row ∈ rows, stands row record := by
  induction pairs with
  | nil => nomatch member
  | cons first _ inductionHypothesis =>
    rcases List.mem_cons.mp member with rfl | later
    · exact ⟨_, List.mem_cons_self, first⟩
    · obtain ⟨row, stored, paired⟩ := inductionHypothesis later
      exact ⟨row, List.mem_cons_of_mem _ stored, paired⟩

/-- Rows that are read one by one give their records in order. -/
theorem mapM_of_forall₂ {read : ρ → Except ε α}
    (pairs : List.Forall₂ (fun row record => read row = .ok record) rows records) :
    rows.mapM read = .ok records := by
  induction pairs with
  | nil => rfl
  | cons first _ inductionHypothesis =>
    rw [List.mapM_cons, first, inductionHypothesis]
    rfl

/-- Records that were read from rows belong to them one by one. -/
theorem forall₂_of_mapM {read : ρ → Except ε α} (reads : rows.mapM read = .ok records) :
    List.Forall₂ (fun row record => read row = .ok record) rows records := by
  induction rows generalizing records with
  | nil =>
    obtain rfl := Except.ok.inj reads
    exact .nil
  | cons row rows inductionHypothesis =>
    rw [List.mapM_cons] at reads
    cases first : read row with
    | error error =>
      rw [first] at reads
      nomatch reads
    | ok record =>
      cases rest : rows.mapM read with
      | error error =>
        rw [first, rest] at reads
        nomatch reads
      | ok others =>
        rw [first, rest] at reads
        obtain rfl := Except.ok.inj reads
        exact .cons first (inductionHypothesis rest)

/-- Records are in an order that follows from that of their rows. -/
theorem pairwise_of_forall₂ {before : ρ → ρ → Prop} {precedes : α → α → Prop}
    (pairs : List.Forall₂ stands rows records)
    (follows : ∀ row other record otherRecord, stands row record → stands other otherRecord →
      before row other → precedes record otherRecord)
    (ordered : rows.Pairwise before) : records.Pairwise precedes := by
  induction pairs with
  | nil => exact .nil
  | cons first rest inductionHypothesis =>
    obtain ⟨ahead, later⟩ := List.pairwise_cons.mp ordered
    refine List.pairwise_cons.mpr ⟨?_, inductionHypothesis later⟩
    intro record member
    obtain ⟨row, stored, paired⟩ := mem_of_forall₂ rest member
    exact follows _ _ _ _ first paired (ahead row stored)

end Reading

/-! ## Tables that are the image of a list

The rows of a table are what a list of records is written as, in the same order. Then a
statement on the table computes what the corresponding function computes on the list.
-/

section Images

variable {α β ε : Type} {write : α → ρ} {records : List α} {selects : ρ → Bool}
  {matching : α → Bool}

/-- The rows that a condition selects are those of the records that match. -/
theorem filter_image (agree : ∀ record ∈ records, selects (write record) = matching record) :
    (records.map write).filter selects = (records.filter matching).map write := by
  rw [List.filter_map]
  exact congrArg (List.map write) (List.filter_congr agree)

theorem countP_image (agree : ∀ record ∈ records, selects (write record) = matching record) :
    (records.map write).countP selects = (records.filter matching).length := by
  rw [List.countP_eq_length_filter, filter_image agree, List.length_map]

theorem find?_image (agree : ∀ record ∈ records, selects (write record) = matching record) :
    (records.map write).find? selects = (records.find? matching).map write := by
  induction records with
  | nil => rfl
  | cons record records inductionHypothesis =>
    have rest := inductionHypothesis fun other member => agree other (List.mem_cons_of_mem _ member)
    rw [List.map_cons, List.find?_cons, List.find?_cons, agree record List.mem_cons_self, rest]
    cases matching record <;> rfl

/-- Rows that are read one by one give what they were written for. -/
theorem read_image_as {γ : Type} {read : ρ → Except ε γ} {value : α → γ}
    (reads : ∀ record ∈ records, read (write record) = .ok (value record)) :
    (records.map write).mapM read = .ok (records.map value) := by
  induction records with
  | nil => rfl
  | cons record records inductionHypothesis =>
    rw [List.map_cons, List.mapM_cons, reads record List.mem_cons_self,
      inductionHypothesis fun other member => reads other (List.mem_cons_of_mem _ member)]
    rfl

theorem read_image {read : ρ → Except ε α}
    (reads : ∀ record ∈ records, read (write record) = .ok record) :
    (records.map write).mapM read = .ok records := by
  have asThemselves := @read_image_as _ _ _ write records _ read id reads
  rwa [List.map_id] at asThemselves

/-- SELECT with a condition, an order and a limit, whose rows are read one by one. -/
theorem select_image {read : ρ → Except ε α} {rowFirst : ρ → ρ → Prop} [DecidableRel rowFirst]
    {first : α → α → Prop} [DecidableRel first] (limit : ℕ)
    (agree : ∀ record ∈ records, selects (write record) = matching record)
    (ordered : ∀ left ∈ records, ∀ right ∈ records,
      first left right ↔ rowFirst (write left) (write right))
    (reads : ∀ record ∈ records, read (write record) = .ok record) :
    ((((records.map write).filter selects).insertionSort rowFirst).take limit).mapM read =
      .ok (((records.filter matching).insertionSort first).take limit) := by
  rw [filter_image agree, ← List.map_insertionSort first rowFirst write, ← List.map_take]
  · apply read_image
    intro record member
    have sorted := (List.mem_insertionSort first).mp (List.mem_of_mem_take member)
    exact reads record (List.mem_filter.mp sorted).1
  · intro left leftMember right rightMember
    exact ordered left (List.mem_filter.mp leftMember).1 right (List.mem_filter.mp rightMember).1

variable {table : Table κ ρ key}

theorem delete_image (image : table.rows = records.map write)
    (agree : ∀ record ∈ records, selects (write record) = matching record) :
    (delete selects table).1 = (records.filter matching).length ∧
      (delete selects table).2.rows =
        (records.filter fun record => !matching record).map write := by
  constructor
  · rw [delete, image, countP_image agree]
  · simp only [delete, Table.retain, image]
    exact filter_image fun record member => congrArg not (agree record member)

/-- UPDATE of the rows that a condition selects. -/
theorem update_image {assign : ρ → ρ} (keepsKey : ∀ row, key (assign row) = key row)
    {change : α → α} (image : table.rows = records.map write)
    (agree : ∀ record ∈ records, selects (write record) = matching record)
    (changes : ∀ record ∈ records, matching record = true →
      assign (write record) = write (change record)) :
    (update selects assign keepsKey table).1 = (records.filter matching).length ∧
      (update selects assign keepsKey table).2.rows =
        (records.map fun record => if matching record then change record else record).map write := by
  constructor
  · show table.rows.countP selects = _
    rw [image, countP_image agree]
  · show table.rows.map (fun row => if selects row then assign row else row) = _
    rw [image, List.map_map, List.map_map]
    apply List.map_congr_left
    intro record member
    simp only [Function.comp_apply, agree record member]
    by_cases selected : matching record = true
    · rw [if_pos selected, if_pos selected, changes record member selected]
    · rw [if_neg selected, if_neg selected]

/-- INSERT of a row whose key is not taken. -/
theorem insert_image [DecidableEq κ] {record : α} (image : table.rows = records.map write)
    (fresh : ∀ other ∈ records, key (write other) ≠ key (write record)) :
    ∃ inserted, insert (write record) table = some inserted ∧
      inserted.rows = (records ++ [record]).map write := by
  have free : ∀ row ∈ table.rows, key row ≠ key (write record) := by
    rw [image]
    intro row member
    obtain ⟨other, stored, rfl⟩ := List.mem_map.mp member
    exact fresh other stored
  refine ⟨table.put (write record), insert_of_absent table ((Table.find?_eq_none _ _).mpr free), ?_⟩
  rw [Table.rows_put_of_fresh table free, image, List.map_append]
  rfl

end Images

end SqlTables
