import Mathlib.Data.Char
import Mathlib.Data.List.Lex
import Mathlib.Data.List.Infix
import Mathlib.Data.Nat.Notation
import Mathlib.Tactic.IntervalCases

/-!
# Decimal fields

A number that is written with a fixed number of digits reads back, and the texts of two
numbers stand in the order of the numbers. Texts of several fields are compared field by field.
Where a field has a varying number of digits, the order survives if only zeros at the end are
left out and what follows the field comes before every digit.
-/
namespace Decimals

/-- The last digits of a number, as many as the field is wide. -/
def padded : ℕ → ℕ → List Char
  | 0, _ => []
  | width + 1, number => padded width (number / 10) ++ [Nat.digitChar (number % 10)]

def isDigit (character : Char) : Bool := decide ('0' ≤ character) && decide (character ≤ '9')

/-- The number that a list of digits stands for. -/
def valueOf (digits : List Char) : ℕ :=
  digits.foldl (fun value digit => 10 * value + (digit.toNat - '0'.toNat)) 0

/-! ## Digits -/

theorem isDigit_digitChar {digit : ℕ} (small : digit < 10) :
    isDigit (Nat.digitChar digit) = true := by
  interval_cases digit <;> decide

theorem toNat_digitChar {digit : ℕ} (small : digit < 10) :
    (Nat.digitChar digit).toNat - '0'.toNat = digit := by
  interval_cases digit <;> decide

theorem digitChar_lt {left right : ℕ} (less : left < right) (small : right < 10) :
    Nat.digitChar left < Nat.digitChar right := by
  interval_cases right <;> interval_cases left <;> decide

theorem narrow_of_isDigit {character : Char} (digit : isDigit character = true) :
    character.utf8Size = 1 := by
  have atMostNine : character ≤ '9' := of_decide_eq_true (Bool.and_eq_true_iff.mp digit).2
  exact Char.utf8Size_eq_one_iff.mpr (UInt32.le_trans atMostNine (by decide))

@[simp] theorem padded_length (width number : ℕ) : (padded width number).length = width := by
  induction width generalizing number with
  | zero => rfl
  | succ width inductionHypothesis =>
    rw [padded, List.length_append, inductionHypothesis]
    rfl

theorem padded_digits (width number : ℕ) :
    ∀ character ∈ padded width number, isDigit character = true := by
  induction width generalizing number with
  | zero => exact fun _ listed => absurd listed List.not_mem_nil
  | succ width inductionHypothesis =>
    rw [padded]
    refine List.forall_mem_append.mpr ⟨inductionHypothesis _, ?_⟩
    exact List.forall_mem_singleton.mpr (isDigit_digitChar (Nat.mod_lt _ (by decide)))

/-- A field that is wide enough reads back. -/
theorem valueOf_padded {width number : ℕ} (fits : number < 10 ^ width) :
    valueOf (padded width number) = number := by
  induction width generalizing number with
  | zero => exact (Nat.lt_one_iff.mp fits).symm
  | succ width inductionHypothesis =>
    have narrower : number / 10 < 10 ^ width := by
      rw [Nat.pow_succ] at fits
      omega
    have before : (padded width (number / 10)).foldl
        (fun value digit => 10 * value + (digit.toNat - '0'.toNat)) 0 = number / 10 :=
      inductionHypothesis narrower
    rw [valueOf, padded, List.foldl_append, before, List.foldl_cons, List.foldl_nil,
      toNat_digitChar (Nat.mod_lt _ (by decide))]
    omega

/-- A number that ends in zeros has the digits of the number without them. -/
theorem padded_zeros (width zeros number : ℕ) (divides : number % 10 ^ zeros = 0) :
    padded (width + zeros) number =
      padded width (number / 10 ^ zeros) ++ List.replicate zeros '0' := by
  induction zeros generalizing number with
  | zero => simp
  | succ zeros inductionHypothesis =>
    have last : number % 10 = 0 := by
      rw [Nat.pow_succ, Nat.mul_comm, Nat.mod_mul] at divides
      omega
    have rest : number / 10 % 10 ^ zeros = 0 := by
      rw [Nat.pow_succ, Nat.mul_comm, Nat.mod_mul] at divides
      omega
    rw [← Nat.add_assoc, padded, inductionHypothesis _ rest, last, Nat.div_div_eq_div_mul,
      Nat.pow_succ, Nat.mul_comm 10, List.replicate_succ', List.append_assoc]
    rfl

/-! ## The order of texts -/

/-- Parts of one length are compared first. -/
theorem append_lt_append_iff {left right leftRest rightRest : List Char}
    (same : left.length = right.length) :
    left ++ leftRest < right ++ rightRest ↔ left < right ∨ left = right ∧ leftRest < rightRest := by
  induction left generalizing right with
  | nil =>
    obtain rfl := List.length_eq_zero_iff.mp same.symm
    simp
  | cons character left inductionHypothesis =>
    cases right with
    | nil => nomatch same
    | cons other right =>
      rw [List.cons_append, List.cons_append, List.cons_lt_cons_iff, List.cons_lt_cons_iff,
        inductionHypothesis (Nat.succ.inj same), List.cons.injEq]
      tauto

/-- Fields of one width stand in the order of their numbers. -/
theorem padded_lt {width left right : ℕ} (less : left < right) (fits : right < 10 ^ width) :
    padded width left < padded width right := by
  induction width generalizing left right with
  | zero => exact absurd (Nat.lt_of_lt_of_le less (Nat.lt_one_iff.mp fits).le) (Nat.not_lt_zero _)
  | succ width inductionHypothesis =>
    rw [padded, padded]
    refine (append_lt_append_iff (by simp)).mpr ?_
    rcases Nat.lt_or_eq_of_le (Nat.div_le_div_right less.le : left / 10 ≤ right / 10) with
      before | same
    · refine .inl (inductionHypothesis before ?_)
      rw [Nat.pow_succ] at fits
      omega
    · refine .inr ⟨congrArg _ same, List.cons_lt_cons_iff.mpr (.inl ?_)⟩
      exact digitChar_lt (by omega) (Nat.mod_lt _ (by decide))

/-- A field decides the order of two texts, and if it is the same, what follows does. -/
theorem field_lt {width left right : ℕ} {leftRest rightRest : List Char}
    (fits : right < 10 ^ width) (before : left < right ∨ left = right ∧ leftRest < rightRest) :
    padded width left ++ leftRest < padded width right ++ rightRest := by
  refine (append_lt_append_iff (by simp)).mpr ?_
  rcases before with less | ⟨rfl, rest⟩
  · exact .inl (padded_lt less fits)
  · exact .inr ⟨rfl, rest⟩

theorem cons_lt {character : Char} {left right : List Char} (less : left < right) :
    character :: left < character :: right := List.cons_lt_cons_iff.mpr (.inr ⟨rfl, less⟩)

/-- Zeros at the end of a fraction may be left out: nothing is put before nothing by them. -/
theorem lt_of_zeros_lt {left right : List Char} {leftZeros rightZeros : ℕ}
    (same : left.length + leftZeros = right.length + rightZeros)
    (digits : ∀ character ∈ left, '0' ≤ character)
    (less : left ++ List.replicate leftZeros '0' < right ++ List.replicate rightZeros '0') :
    left < right := by
  induction left generalizing right rightZeros with
  | nil =>
    cases right with
    | nil =>
      obtain rfl : leftZeros = rightZeros := by simpa using same
      exact absurd less (lt_irrefl _)
    | cons other right => exact List.nil_lt_cons _ _
  | cons character left inductionHypothesis =>
    obtain ⟨isDigit, others⟩ := List.forall_mem_cons.mp digits
    cases right with
    | nil =>
      cases rightZeros with
      | zero => simp at same
      | succ rightZeros =>
        rw [List.nil_append, List.replicate_succ, List.cons_append, List.cons_lt_cons_iff] at less
        rcases less with below | ⟨_, less⟩
        · exact absurd below (not_lt.mpr isDigit)
        · have shorter : left < [] := inductionHypothesis
            (by simp only [List.length_cons, List.length_nil] at same ⊢; omega) others less
          exact absurd shorter (List.not_lt_nil _)
    | cons other right =>
      rw [List.cons_append, List.cons_append, List.cons_lt_cons_iff] at less
      refine List.cons_lt_cons_iff.mpr (less.imp id ?_)
      rintro ⟨rfl, later⟩
      refine ⟨rfl, inductionHypothesis ?_ others later⟩
      simp only [List.length_cons] at same
      omega

/-- A character that comes before all others in a field ends it without changing the order. -/
theorem terminated_lt {stop : Char} {left right leftRest rightRest : List Char}
    (above : ∀ character ∈ right, stop < character) (less : left < right) :
    left ++ stop :: leftRest < right ++ stop :: rightRest := by
  induction left generalizing right with
  | nil =>
    cases right with
    | nil => exact absurd less (lt_irrefl _)
    | cons other right =>
      exact List.cons_lt_cons_iff.mpr (.inl (above other List.mem_cons_self))
  | cons character left inductionHypothesis =>
    cases right with
    | nil => exact absurd less (List.not_lt_nil _)
    | cons other right =>
      refine List.cons_lt_cons_iff.mpr ((List.cons_lt_cons_iff.mp less).imp id ?_)
      rintro ⟨rfl, later⟩
      exact ⟨rfl, inductionHypothesis (fun other listed => above other (.tail _ listed)) later⟩

/-! ## Reading fields -/

/-- Read a field of digits off the front of a text. -/
def takeNumber (width : ℕ) (text : List Char) : Option (ℕ × List Char) :=
  let digits := text.take width
  if digits.length = width ∧ digits.all isDigit = true then
    some (valueOf digits, text.drop width)
  else none

theorem takeNumber_padded {width number : ℕ} (fits : number < 10 ^ width) (rest : List Char) :
    takeNumber width (padded width number ++ rest) = some (number, rest) := by
  have taken : (padded width number ++ rest).take width = padded width number :=
    List.take_left' (padded_length width number)
  have dropped : (padded width number ++ rest).drop width = rest :=
    List.drop_left' (padded_length width number)
  unfold takeNumber
  simp only [taken, dropped, padded_length, valueOf_padded fits]
  exact if_pos ⟨trivial, List.all_eq_true.mpr (padded_digits width number)⟩

/-- Read one character off the front of a text. -/
def takeChar (expected : Char) : List Char → Option (List Char)
  | character :: rest => if character = expected then some rest else none
  | [] => none

@[simp] theorem takeChar_cons (expected : Char) (rest : List Char) :
    takeChar expected (expected :: rest) = some rest := if_pos rfl

end Decimals
