import Mathlib.Data.List.Basic

/-!
# Selections made item by item

A greedy selection goes through a list once and takes each item that still fits with those
taken before. A mark for each place records the decisions. What was taken and what was passed
over are parts of the list in its order, and together they are the list.

A selection that stops at the first item that does not fit takes the beginning of the list.
When no longer beginning fits than one that does not, this beginning is the longest.
-/
namespace Selections

variable {α : Type}

/-- The items whose marks are set, in their order. -/
def chosen : List Bool → List α → List α
  | true :: marks, item :: items => item :: chosen marks items
  | false :: marks, _ :: items => chosen marks items
  | _, _ => []

/-- The items whose marks are not set, in their order. -/
def passedOver (marks : List Bool) (items : List α) : List α := chosen (marks.map not) items

@[simp] theorem chosen_nil (marks : List Bool) : chosen marks ([] : List α) = [] := by
  cases marks with
  | nil => rfl
  | cons mark marks => cases mark <;> rfl

@[simp] theorem passedOver_nil (marks : List Bool) : passedOver marks ([] : List α) = [] :=
  chosen_nil _

@[simp] theorem chosen_set (marks : List Bool) (item : α) (items : List α) :
    chosen (true :: marks) (item :: items) = item :: chosen marks items := rfl

@[simp] theorem chosen_unset (marks : List Bool) (item : α) (items : List α) :
    chosen (false :: marks) (item :: items) = chosen marks items := rfl

@[simp] theorem passedOver_set (marks : List Bool) (item : α) (items : List α) :
    passedOver (true :: marks) (item :: items) = passedOver marks items := rfl

@[simp] theorem passedOver_unset (marks : List Bool) (item : α) (items : List α) :
    passedOver (false :: marks) (item :: items) = item :: passedOver marks items := rfl

theorem chosen_sublist (marks : List Bool) (items : List α) :
    (chosen marks items).Sublist items := by
  induction items generalizing marks with
  | nil => simp
  | cons item items inductionHypothesis =>
    cases marks with
    | nil => exact List.nil_sublist _
    | cons mark marks =>
      cases mark with
      | true => exact (inductionHypothesis marks).cons_cons item
      | false => exact (inductionHypothesis marks).cons item

theorem passedOver_sublist (marks : List Bool) (items : List α) :
    (passedOver marks items).Sublist items :=
  chosen_sublist _ _

/-- Nothing is lost and nothing is in both parts. -/
theorem perm_chosen_passedOver {marks : List Bool} {items : List α}
    (length : marks.length = items.length) :
    (chosen marks items ++ passedOver marks items).Perm items := by
  induction items generalizing marks with
  | nil => simp
  | cons item items inductionHypothesis =>
    obtain ⟨mark, marks, rfl⟩ := List.exists_cons_of_length_eq_add_one length
    have rest := inductionHypothesis (Nat.succ.inj length)
    cases mark with
    | true => exact rest.cons item
    | false =>
      rw [chosen_unset, passedOver_unset]
      exact List.perm_middle.trans (rest.cons item)

/-! ## Greedy selections -/

/-- The marks of a greedy selection that has taken some items before: a mark is set just when
its item fits with all items taken before it. -/
structure Greedy (fits : List α → α → Prop) (taken items : List α) (marks : List Bool) :
    Prop where
  length : marks.length = items.length
  turn : ∀ place item, items[place]? = some item →
    (marks[place]? = some true ↔ fits (taken ++ chosen (marks.take place) (items.take place)) item)

variable {fits : List α → α → Prop} {taken items : List α} {item : α} {marks : List Bool}

theorem Greedy.nil (fits : List α → α → Prop) (taken : List α) : Greedy fits taken [] [] where
  length := rfl
  turn place item found := by simp at found

theorem Greedy.take (fitting : fits taken item) (rest : Greedy fits (taken ++ [item]) items marks) :
    Greedy fits taken (item :: items) (true :: marks) := by
  constructor
  · rw [List.length_cons, List.length_cons, rest.length]
  · intro place other found
    cases place with
    | zero =>
      obtain rfl : item = other := by simpa using found
      simpa using fitting
    | succ place =>
      rw [List.getElem?_cons_succ] at found ⊢
      rw [rest.turn place other found, List.take_succ_cons, List.take_succ_cons, chosen_set,
        List.append_assoc, List.singleton_append]

theorem Greedy.skip (tooLarge : ¬ fits taken item) (rest : Greedy fits taken items marks) :
    Greedy fits taken (item :: items) (false :: marks) := by
  constructor
  · rw [List.length_cons, List.length_cons, rest.length]
  · intro place other found
    cases place with
    | zero =>
      obtain rfl : item = other := by simpa using found
      simpa using tooLarge
    | succ place =>
      rw [List.getElem?_cons_succ] at found ⊢
      rw [rest.turn place other found, List.take_succ_cons, List.take_succ_cons, chosen_unset]

/-- An item is passed over just when it does not fit with those taken before it. -/
theorem Greedy.passes (greedy : Greedy fits taken items marks) (place : ℕ)
    (found : items[place]? = some item) : marks[place]? = some false ↔
      ¬ fits (taken ++ chosen (marks.take place) (items.take place)) item := by
  rw [← greedy.turn place item found]
  have within : place < marks.length := by
    rw [greedy.length]
    exact (List.getElem?_eq_some_iff.mp found).1
  rw [List.getElem?_eq_getElem within]
  cases marks[place] <;> simp

/-! ## The longest beginning that fits -/

/-- So many items fit, and no more of them do. -/
structure LongestFitting (fits : List α → Prop) (items : List α) (count : ℕ) : Prop where
  within : count ≤ items.length
  fitting : fits (items.take count)
  longest : ∀ longer, count < longer → longer ≤ items.length → ¬ fits (items.take longer)

/-- It is enough that one item more does not fit, if what begins a fitting list fits. -/
theorem LongestFitting.of_next {fits : List α → Prop} {items : List α} {count : ℕ}
    (shorter : ∀ front rest, fits (front ++ rest) → fits front) (within : count ≤ items.length)
    (fitting : fits (items.take count))
    (next : count < items.length → ¬ fits (items.take (count + 1))) :
    LongestFitting fits items count := by
  refine ⟨within, fitting, fun longer more bound fits => ?_⟩
  apply next (by omega)
  apply shorter _ ((items.take longer).drop (count + 1))
  have front : items.take (count + 1) = (items.take longer).take (count + 1) := by
    rw [List.take_take, Nat.min_eq_left (by omega)]
  rwa [front, List.take_append_drop]

/-- The beginnings that fit are those that are no longer. -/
theorem LongestFitting.fits_iff {fits : List α → Prop} {items : List α} {count : ℕ}
    (longest : LongestFitting fits items count)
    (shorter : ∀ front rest, fits (front ++ rest) → fits front) {other : ℕ}
    (bound : other ≤ items.length) : fits (items.take other) ↔ other ≤ count := by
  constructor
  · intro fitting
    by_contra more
    exact longest.longest other (by omega) bound fitting
  · intro fewer
    have front : items.take other = (items.take count).take other := by
      rw [List.take_take, Nat.min_eq_left fewer]
    apply shorter _ ((items.take count).drop other)
    rw [front, List.take_append_drop]
    exact longest.fitting

end Selections
