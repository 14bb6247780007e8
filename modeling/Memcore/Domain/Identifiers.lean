import Memcore.Domain.Values
import Mathlib.Data.String.Basic
import Mathlib.Order.Fin.Basic

/-!
# The order of identifiers and of their texts

Cursors carry identifiers as texts and compare them as texts. The text of an identifier
has a fixed width and lowercase digits, so that the order of the texts is the order of
the identifiers.
-/
namespace Memcore

/-- Two texts of one width are compared by their first parts first. -/
theorem append_lt_append_iff {front other : List Char} (sameLength : front.length = other.length)
    (rest otherRest : List Char) :
    front ++ rest < other ++ otherRest ↔ front < other ∨ front = other ∧ rest < otherRest := by
  induction front generalizing other with
  | nil =>
    obtain rfl := List.length_eq_zero_iff.mp sameLength.symm
    simp
  | cons character front inductionHypothesis =>
    cases other with
    | nil => simp at sameLength
    | cons otherCharacter other =>
      have sameTail : front.length = other.length := by simpa using sameLength
      simp only [List.cons_append, List.cons_lt_cons_iff, inductionHypothesis sameTail,
        List.cons.injEq]
      tauto

theorem length_hexDigits (count value : ℕ) : (hexDigits count value).length = count := by
  induction count generalizing value with
  | zero => rfl
  | succ count inductionHypothesis =>
    simp only [hexDigits, List.length_append, inductionHypothesis, List.length_singleton]

theorem digitChar_lt_iff {left right : ℕ} (leftDigit : left < 16) (rightDigit : right < 16) :
    left.digitChar < right.digitChar ↔ left < right := by
  have every : ∀ lower upper : Fin 16, lower.val.digitChar < upper.val.digitChar ↔
      lower.val < upper.val := by decide
  exact every ⟨left, leftDigit⟩ ⟨right, rightDigit⟩

theorem digitChar_injective {left right : ℕ} (leftDigit : left < 16) (rightDigit : right < 16)
    (same : left.digitChar = right.digitChar) : left = right := by
  rcases lt_trichotomy left right with lower | equal | higher
  · exact absurd ((digitChar_lt_iff leftDigit rightDigit).mpr lower) (same ▸ lt_irrefl _)
  · exact equal
  · exact absurd ((digitChar_lt_iff rightDigit leftDigit).mpr higher) (same ▸ lt_irrefl _)

theorem hexDigits_injective (count : ℕ) {left right : ℕ} (leftBound : left < 16 ^ count)
    (rightBound : right < 16 ^ count) (same : hexDigits count left = hexDigits count right) :
    left = right := by
  induction count generalizing left right with
  | zero =>
    simp only [pow_zero] at leftBound rightBound
    omega
  | succ count inductionHypothesis =>
    rw [pow_succ] at leftBound rightBound
    obtain ⟨sameFront, sameLast⟩ := List.append_inj same (by simp only [length_hexDigits])
    have quotients := inductionHypothesis (by omega) (by omega) sameFront
    have digits := digitChar_injective (Nat.mod_lt _ (by omega)) (Nat.mod_lt _ (by omega))
      (List.singleton_inj.mp sameLast)
    omega

/-- Digits compare as the numbers that they stand for. -/
theorem hexDigits_lt_iff (count : ℕ) {left right : ℕ} (leftBound : left < 16 ^ count)
    (rightBound : right < 16 ^ count) :
    hexDigits count left < hexDigits count right ↔ left < right := by
  induction count generalizing left right with
  | zero =>
    simp only [pow_zero] at leftBound rightBound
    simp only [hexDigits, List.not_lt_nil, false_iff]
    omega
  | succ count inductionHypothesis =>
    rw [pow_succ] at leftBound rightBound
    have leftQuotient : left / 16 < 16 ^ count := by omega
    have rightQuotient : right / 16 < 16 ^ count := by omega
    have sameLength : (hexDigits count (left / 16)).length =
        (hexDigits count (right / 16)).length := by simp only [length_hexDigits]
    have sameDigits : hexDigits count (left / 16) = hexDigits count (right / 16) ↔
        left / 16 = right / 16 := by
      constructor
      · exact hexDigits_injective count leftQuotient rightQuotient
      · exact fun same => by rw [same]
    simp only [hexDigits, append_lt_append_iff sameLength,
      inductionHypothesis leftQuotient rightQuotient, sameDigits, List.cons_lt_cons_iff,
      digitChar_lt_iff (Nat.mod_lt left (by omega : 0 < 16)) (Nat.mod_lt right (by omega : 0 < 16)),
      List.not_lt_nil, and_false, or_false]
    omega

/-- A separator at the same place in two texts does not matter to their order. -/
theorem separated_lt_iff {left right : List Char} (sameLength : left.length = right.length)
    (count : ℕ) {leftRest rightRest : List Char}
    (restIff : leftRest < rightRest ↔ left.drop count < right.drop count) :
    left.take count ++ ['-'] ++ leftRest < right.take count ++ ['-'] ++ rightRest ↔
      left < right := by
  have sameTake : (left.take count).length = (right.take count).length := by
    simp only [List.length_take, sameLength]
  have whole : left < right ↔ left.take count ++ left.drop count <
      right.take count ++ right.drop count := by
    simp only [List.take_append_drop]
  rw [whole, append_lt_append_iff sameTake, List.append_assoc, List.append_assoc,
    append_lt_append_iff sameTake, List.singleton_append, List.singleton_append,
    List.cons_lt_cons_iff, restIff]
  simp

/-- The order of identifiers is the order of their texts. -/
theorem Uuid.toText_lt_iff (left right : Uuid) : Uuid.toText left < Uuid.toText right ↔
    left < right := by
  have bound (id : Uuid) : id.val < 16 ^ 32 := lt_of_lt_of_eq id.isLt (by norm_num)
  have order := hexDigits_lt_iff 32 (bound left) (bound right)
  rw [String.lt_iff, Fin.lt_def, ← order]
  simp only [Uuid.toText, String.toList_ofList]
  generalize leftDigits : hexDigits 32 left.val = leftText
  generalize rightDigits : hexDigits 32 right.val = rightText
  have sameLength : leftText.length = rightText.length := by
    rw [← leftDigits, ← rightDigits, length_hexDigits, length_hexDigits]
  have dropped (count : ℕ) : (leftText.drop count).length = (rightText.drop count).length := by
    simp only [List.length_drop, sameLength]
  let fourthPart (digits : List Char) := (digits.drop 16).take 4 ++ ['-'] ++ digits.drop 20
  let thirdPart (digits : List Char) := (digits.drop 12).take 4 ++ ['-'] ++ fourthPart digits
  let secondPart (digits : List Char) := (digits.drop 8).take 4 ++ ['-'] ++ thirdPart digits
  have fourth : fourthPart leftText < fourthPart rightText ↔
      leftText.drop 16 < rightText.drop 16 := by
    apply separated_lt_iff (dropped 16)
    simp only [List.drop_drop]
  have third : thirdPart leftText < thirdPart rightText ↔
      leftText.drop 12 < rightText.drop 12 := by
    apply separated_lt_iff (dropped 12)
    simpa only [List.drop_drop] using fourth
  have second : secondPart leftText < secondPart rightText ↔
      leftText.drop 8 < rightText.drop 8 := by
    apply separated_lt_iff (dropped 8)
    simpa only [List.drop_drop] using third
  have first := separated_lt_iff sameLength 8 second
  simpa only [List.append_assoc, fourthPart, thirdPart, secondPart] using first

/-- Identifiers are told apart by their texts. -/
theorem Uuid.toText_inj (left right : Uuid) : Uuid.toText left = Uuid.toText right ↔
    left = right := by
  constructor
  · intro same
    have notLower : ¬ left < right := by
      rw [← Uuid.toText_lt_iff, same]
      exact lt_irrefl _
    have notHigher : ¬ right < left := by
      rw [← Uuid.toText_lt_iff, same]
      exact lt_irrefl _
    exact le_antisymm (not_lt.mp notHigher) (not_lt.mp notLower)
  · exact congrArg _

/-! ## Reading a text back -/

/-- The value of a hexadecimal digit. -/
def hexValue (character : Char) : ℕ := "0123456789abcdef".toList.idxOf character

/-- The number that hexadecimal digits stand for. -/
def readHexDigits (digits : List Char) : ℕ :=
  digits.foldl (fun value digit => value * 16 + hexValue digit) 0

/-- The identifier of a text, whatever separates its digits. -/
def Uuid.ofText (text : String) : Uuid :=
  Fin.ofNat _ (readHexDigits (text.toList.filter fun character => decide (character ≠ '-')))

theorem readHexDigits_hexDigits (count value : ℕ) (bound : value < 16 ^ count) :
    readHexDigits (hexDigits count value) = value := by
  induction count generalizing value with
  | zero =>
    rw [pow_zero] at bound
    simp only [hexDigits, readHexDigits, List.foldl_nil]
    omega
  | succ count inductionHypothesis =>
    rw [pow_succ] at bound
    have front := inductionHypothesis (value / 16) (by omega)
    have every : ∀ digit : Fin 16, hexValue digit.val.digitChar = digit.val := by decide
    have last := every ⟨value % 16, Nat.mod_lt _ (by omega)⟩
    rw [readHexDigits] at front ⊢
    rw [hexDigits, List.foldl_append, front, List.foldl_cons, List.foldl_nil, last]
    dsimp only
    omega

theorem separator_not_mem_hexDigits (count value : ℕ) : '-' ∉ hexDigits count value := by
  induction count generalizing value with
  | zero => exact List.not_mem_nil
  | succ count inductionHypothesis =>
    have every : ∀ digit : Fin 16, '-' ≠ digit.val.digitChar := by decide
    have last := every ⟨value % 16, Nat.mod_lt _ (by omega)⟩
    rw [hexDigits, List.mem_append, List.mem_singleton]
    exact not_or.mpr ⟨inductionHypothesis (value / 16), last⟩

/-- An identifier is read back from its text. -/
theorem Uuid.ofText_toText (id : Uuid) : Uuid.ofText (Uuid.toText id) = id := by
  have bound : id.val < 16 ^ 32 := lt_of_lt_of_eq id.isLt (by norm_num)
  have plain {digits : List Char} (part : digits ⊆ hexDigits 32 id.val) :
      digits.filter (fun character => decide (character ≠ '-')) = digits := by
    apply List.filter_eq_self.mpr
    intro character member
    apply decide_eq_true
    rintro rfl
    exact separator_not_mem_hexDigits 32 id.val (part member)
  have separator : ['-'].filter (fun character => decide (character ≠ '-')) = [] := by decide
  have middle (start count : ℕ) :
      ((hexDigits 32 id.val).drop start).take count ⊆ hexDigits 32 id.val :=
    List.Subset.trans (List.take_subset _ _) (List.drop_subset _ _)
  have rest (start count : ℕ) : ((hexDigits 32 id.val).drop start).take count ++
      (hexDigits 32 id.val).drop (start + count) = (hexDigits 32 id.val).drop start := by
    rw [← List.drop_drop]
    exact List.take_append_drop count _
  have digits : (Uuid.toText id).toList.filter (fun character => decide (character ≠ '-')) =
      hexDigits 32 id.val := by
    rw [Uuid.toText, String.toList_ofList]
    simp only [List.filter_append, separator, List.nil_append, plain (middle _ _),
      plain (List.take_subset _ _), plain (List.drop_subset _ _), List.append_assoc]
    rw [rest 16 4, rest 12 4, rest 8 4, List.take_append_drop]
  rw [Uuid.ofText, digits, readHexDigits_hexDigits 32 _ bound]
  exact Fin.ofNat_val_eq_self id

end Memcore
