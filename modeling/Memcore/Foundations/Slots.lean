import Mathlib.Data.List.Perm.Subperm
import Mathlib.Data.List.Range
import Mathlib.Data.Nat.Notation

/-!
# Filling slots by index

Items that carry an index are written into a row of slots, one after another. A later item
overwrites an earlier one of the same index. When there are as many items as slots and no slot is
left out, every index is used once.
-/
namespace Slots

variable {α : Type}

/-- Write each item into the slot of its index. -/
def fill (slots : List α) (items : List (ℕ × α)) : List α :=
  items.foldl (fun slots item => slots.set item.1 item.2) slots

@[simp] theorem length_fill (slots : List α) (items : List (ℕ × α)) :
    (fill slots items).length = slots.length := by
  induction items generalizing slots with
  | nil => rfl
  | cons item rest inductionHypothesis =>
    exact (inductionHypothesis (slots.set item.1 item.2)).trans (List.length_set ..)

/-- A slot holds an item of its index, or what it held before if there is none. -/
theorem getElem?_fill (slots : List α) (items : List (ℕ × α)) {index : ℕ}
    (inside : index < slots.length) :
    (∃ item ∈ items, item.1 = index ∧ (fill slots items)[index]? = some item.2) ∨
      (∀ item ∈ items, item.1 ≠ index) ∧ (fill slots items)[index]? = slots[index]? := by
  induction items generalizing slots with
  | nil => exact .inr ⟨List.forall_mem_nil _, rfl⟩
  | cons item rest inductionHypothesis =>
    have still : index < (slots.set item.1 item.2).length := by
      rwa [List.length_set]
    rcases inductionHypothesis (slots.set item.1 item.2) still with
      ⟨later, member, own, held⟩ | ⟨absent, held⟩
    · exact .inl ⟨later, List.mem_cons_of_mem _ member, own, held⟩
    · by_cases own : item.1 = index
      · refine .inl ⟨item, List.mem_cons_self .., own, ?_⟩
        rw [← own] at held inside ⊢
        exact held.trans (List.getElem?_set_self inside)
      · refine .inr ⟨List.forall_mem_cons.mpr ⟨own, absent⟩, ?_⟩
        exact held.trans (List.getElem?_set_ne own)

/-- As many indices as slots, and each slot among them: every slot is named once. -/
theorem perm_range_of_covered {indices : List ℕ}
    (covered : ∀ index < indices.length, index ∈ indices) :
    (List.range indices.length).Perm indices := by
  have within : List.range indices.length ⊆ indices := fun index member =>
    covered index (List.mem_range.mp member)
  have contained := List.subperm_of_subset List.nodup_range within
  exact contained.perm_of_length_le (by rw [List.length_range])

end Slots
