import Mathlib.Algebra.GroupWithZero.Nat
import Mathlib.Data.Nat.Notation
import Mathlib.Data.List.Infix

/-!
# Texts read by bytes

A text is stored as UTF-8 and sliced at byte offsets. A slice that lies outside the text
or begins or ends inside a character makes the program panic. A search answers with a byte
offset. Loops are given a number of steps; a loop that needs more is unfinished.

The laws say what the slices and searches are on a text that is given in parts: offsets
that are the lengths of the parts are safe, and searching for a text or for a character
splits the text at the first place where it is found.
-/
namespace ByteTexts

/-- Why a computation has no result. -/
inductive Stop
  | panicked
  | unfinished
  deriving DecidableEq

/-- A computation that may panic. -/
abbrev Run := Except Stop

/-- Length in bytes. -/
def byteLength (text : List Char) : ℕ :=
  (text.map Char.utf8Size).sum

/-- The first bytes, `text[..bytes]`. -/
def sliceTo : ℕ → List Char → Run (List Char)
  | 0, _ => .ok []
  | _ + 1, [] => .error .panicked
  | bytes + 1, character :: rest =>
      if character.utf8Size ≤ bytes + 1 then
        (sliceTo (bytes + 1 - character.utf8Size) rest).map (character :: ·)
      else .error .panicked

/-- What follows the first bytes, `text[bytes..]`. -/
def sliceFrom : ℕ → List Char → Run (List Char)
  | 0, text => .ok text
  | _ + 1, [] => .error .panicked
  | bytes + 1, character :: rest =>
      if character.utf8Size ≤ bytes + 1 then sliceFrom (bytes + 1 - character.utf8Size) rest
      else .error .panicked

/-- The bytes between two offsets, `text[start..stop]`. -/
def slice (start stop : ℕ) (text : List Char) : Run (List Char) :=
  if start ≤ stop then (sliceFrom start text).bind (sliceTo (stop - start))
  else .error .panicked

/-- The offset at which a text first occurs. -/
def findText (needle : List Char) : List Char → Option ℕ
  | [] => if needle.isEmpty then some 0 else none
  | character :: rest =>
      if needle.isPrefixOf (character :: rest) then some 0
      else (findText needle rest).map (character.utf8Size + ·)

/-- The offset of the first character that satisfies a test. -/
def findChar (test : Char → Bool) : List Char → Option ℕ
  | [] => none
  | character :: rest =>
      if test character then some 0
      else (findChar test rest).map (character.utf8Size + ·)

/-- The bytes of a text. -/
def bytes (text : List Char) : List UInt8 :=
  text.flatMap String.utf8EncodeChar

@[simp] theorem ok_bind {α β : Type} (value : α) (next : α → Run β) :
    ((.ok value : Run α) >>= next) = next value := rfl

@[simp] theorem error_bind {α β : Type} (stop : Stop) (next : α → Run β) :
    ((.error stop : Run α) >>= next) = .error stop := rfl

@[simp] theorem pure_run {α : Type} (value : α) : (pure value : Run α) = .ok value := rfl

@[simp] theorem byteLength_nil : byteLength [] = 0 := rfl

@[simp] theorem byteLength_cons (character : Char) (rest : List Char) :
    byteLength (character :: rest) = character.utf8Size + byteLength rest := rfl

@[simp] theorem byteLength_append (first second : List Char) :
    byteLength (first ++ second) = byteLength first + byteLength second := by
  simp [byteLength]

@[simp] theorem byteLength_reverse (text : List Char) :
    byteLength text.reverse = byteLength text := by
  simp [byteLength, List.sum_reverse]

theorem length_le_byteLength (text : List Char) : text.length ≤ byteLength text := by
  induction text with
  | nil => exact Nat.le_refl 0
  | cons character rest inductionHypothesis =>
    have positive := character.utf8Size_pos
    simp only [List.length_cons, byteLength_cons]
    omega

/-- Texts of one-byte characters have as many bytes as characters. -/
theorem byteLength_of_single {text : List Char}
    (single : ∀ character ∈ text, character.utf8Size = 1) : byteLength text = text.length := by
  induction text with
  | nil => rfl
  | cons character rest inductionHypothesis =>
    have one := single character List.mem_cons_self
    have later := inductionHypothesis fun other member => single other (List.mem_cons_of_mem _ member)
    simp only [List.length_cons, byteLength_cons]
    omega

/-- A text can be sliced where one of its parts ends. -/
@[simp] theorem sliceFrom_byteLength (front rest : List Char) :
    sliceFrom (byteLength front) (front ++ rest) = .ok rest := by
  induction front with
  | nil => rw [byteLength_nil, List.nil_append, sliceFrom]
  | cons character front inductionHypothesis =>
    obtain ⟨size, one⟩ := Nat.exists_eq_succ_of_ne_zero character.utf8Size_pos.ne'
    have shape : byteLength (character :: front) = (size + byteLength front) + 1 := by
      rw [byteLength_cons]
      omega
    have fits : character.utf8Size ≤ size + byteLength front + 1 := by omega
    have left : size + byteLength front + 1 - character.utf8Size = byteLength front := by omega
    rw [shape, List.cons_append, sliceFrom, if_pos fits, left, inductionHypothesis]

@[simp] theorem sliceTo_byteLength (front rest : List Char) :
    sliceTo (byteLength front) (front ++ rest) = .ok front := by
  induction front with
  | nil => rw [byteLength_nil, sliceTo]
  | cons character front inductionHypothesis =>
    obtain ⟨size, one⟩ := Nat.exists_eq_succ_of_ne_zero character.utf8Size_pos.ne'
    have shape : byteLength (character :: front) = (size + byteLength front) + 1 := by
      rw [byteLength_cons]
      omega
    have fits : character.utf8Size ≤ size + byteLength front + 1 := by omega
    have left : size + byteLength front + 1 - character.utf8Size = byteLength front := by omega
    rw [shape, List.cons_append, sliceTo, if_pos fits, left, inductionHypothesis]
    rfl

/-- What follows a part is sliced at the length of the part. -/
theorem sliceFrom_at {text front rest : List Char} {start : ℕ} (shape : text = front ++ rest)
    (begun : start = byteLength front) : sliceFrom start text = .ok rest := by
  rw [shape, begun, sliceFrom_byteLength]

/-- A slice in the middle reads on from where it begins. -/
theorem slice_from {text front rest : List Char} {start stop : ℕ} (shape : text = front ++ rest)
    (begun : start = byteLength front) (ordered : start ≤ stop) :
    slice start stop text = sliceTo (stop - start) rest := by
  rw [slice, if_pos ordered, sliceFrom_at shape begun]
  rfl

/-- A part in the middle is sliced at the lengths of what is before it. -/
theorem slice_at {text front middle rest : List Char} {start stop : ℕ}
    (shape : text = front ++ (middle ++ rest)) (begun : start = byteLength front)
    (ended : stop = byteLength front + byteLength middle) : slice start stop text = .ok middle := by
  rw [slice_from shape begun (by omega), begun, ended, Nat.add_sub_cancel_left, sliceTo_byteLength]

/-- A slice that succeeds is a beginning of the text with so many bytes. -/
theorem sliceTo_ok_iff {count : ℕ} {text taken : List Char} :
    sliceTo count text = .ok taken ↔ taken <+: text ∧ byteLength taken = count := by
  constructor
  · intro sliced
    induction text generalizing count taken with
    | nil =>
      cases count with
      | zero =>
        obtain rfl : [] = taken := Except.ok.inj sliced
        exact ⟨List.nil_prefix, rfl⟩
      | succ count => nomatch sliced
    | cons character rest inductionHypothesis =>
      cases count with
      | zero =>
        obtain rfl : [] = taken := Except.ok.inj sliced
        exact ⟨List.nil_prefix, rfl⟩
      | succ count =>
        rw [sliceTo] at sliced
        split at sliced
        · next fits =>
          cases slicedRest : sliceTo (count + 1 - character.utf8Size) rest with
          | error stop => rw [slicedRest] at sliced; nomatch sliced
          | ok later =>
            rw [slicedRest] at sliced
            obtain rfl : character :: later = taken := Except.ok.inj sliced
            obtain ⟨begun, long⟩ := inductionHypothesis slicedRest
            refine ⟨List.cons_prefix_cons.mpr ⟨rfl, begun⟩, ?_⟩
            rw [byteLength_cons, long]
            omega
        · nomatch sliced
  · rintro ⟨⟨rest, rfl⟩, rfl⟩
    exact sliceTo_byteLength taken rest

/-- A slice gives a text or panics. -/
theorem sliceTo_cases (count : ℕ) (text : List Char) :
    (∃ taken, sliceTo count text = .ok taken) ∨ sliceTo count text = .error .panicked := by
  induction text generalizing count with
  | nil => cases count <;> simp [sliceTo]
  | cons character rest inductionHypothesis =>
    cases count with
    | zero => simp [sliceTo]
    | succ count =>
      rw [sliceTo]
      split
      · obtain ⟨taken, sliced⟩ | panicked := inductionHypothesis (count + 1 - character.utf8Size)
        · exact .inl ⟨character :: taken, by rw [sliced]; rfl⟩
        · exact .inr (by rw [panicked]; rfl)
      · exact .inr rfl

/-- A text that does not occur begins nowhere. -/
theorem findText_none {needle text : List Char} (absent : findText needle text = none) :
    ∀ rest, rest <:+ text → ¬ needle <+: rest := by
  induction text with
  | nil =>
    intro rest suffix begun
    rw [List.suffix_nil.mp suffix] at begun
    rw [List.prefix_nil.mp begun] at absent
    nomatch absent
  | cons character text inductionHypothesis =>
    intro rest suffix begun
    rw [findText] at absent
    split at absent
    · nomatch absent
    · next elsewhere =>
      obtain rfl | within := List.suffix_cons_iff.mp suffix
      · exact elsewhere (List.isPrefixOf_iff_prefix.mpr begun)
      · exact inductionHypothesis (Option.map_eq_none_iff.mp absent) rest within begun

/-- A text that occurs splits the text at the first place where it does. -/
theorem findText_some {needle text : List Char} {offset : ℕ}
    (found : findText needle text = some offset) :
    ∃ front rest, text = front ++ rest ∧ offset = byteLength front ∧ needle <+: rest ∧
      ∀ symbol later, symbol :: later <:+ front → ¬ needle <+: symbol :: later ++ rest := by
  induction text generalizing offset with
  | nil =>
    rw [findText] at found
    split at found
    · next empty =>
      refine ⟨[], [], rfl, (Option.some.inj found).symm, ?_, fun _ _ suffix => ?_⟩
      · rw [List.isEmpty_iff.mp empty]
      · nomatch List.suffix_nil.mp suffix
    · nomatch found
  | cons character text inductionHypothesis =>
    rw [findText] at found
    split at found
    · next here =>
      refine ⟨[], character :: text, rfl, (Option.some.inj found).symm,
        List.isPrefixOf_iff_prefix.mp here, fun _ _ suffix => ?_⟩
      nomatch List.suffix_nil.mp suffix
    · next elsewhere =>
      obtain ⟨later, foundLater, rfl⟩ := Option.map_eq_some_iff.mp found
      obtain ⟨front, rest, rfl, rfl, begun, first⟩ := inductionHypothesis foundLater
      refine ⟨character :: front, rest, rfl, rfl, begun, fun symbol others suffix found' => ?_⟩
      obtain same | within := List.suffix_cons_iff.mp suffix
      · rw [same] at found'
        exact elsewhere (List.isPrefixOf_iff_prefix.mpr found')
      · exact first symbol others within found'

/-- The offset of the first such character, or of the end, is where the others end. -/
theorem findChar_getD (test : Char → Bool) (text : List Char) :
    (findChar test text).getD (byteLength text) =
      byteLength (text.takeWhile fun character => !test character) := by
  induction text with
  | nil => rfl
  | cons character rest inductionHypothesis =>
    cases tested : test character with
    | true => simp [findChar, tested]
    | false =>
      rw [findChar, if_neg (by simp [tested]), List.takeWhile_cons_of_pos (by simp [tested]),
        byteLength_cons, byteLength_cons, ← inductionHypothesis]
      cases findChar test rest <;> rfl

theorem byteLength_eq_length_bytes (text : List Char) : (bytes text).length = byteLength text := by
  simp [bytes, byteLength, List.length_flatMap]

@[simp] theorem bytes_nil : bytes [] = [] := rfl

@[simp] theorem bytes_cons (character : Char) (rest : List Char) :
    bytes (character :: rest) = String.utf8EncodeChar character ++ bytes rest := rfl

@[simp] theorem bytes_append (first second : List Char) :
    bytes (first ++ second) = bytes first ++ bytes second := by
  simp [bytes]

theorem or_high (low high : UInt8) (isHigh : 128 ≤ high.toNat) : 128 ≤ (low ||| high).toNat := by
  rw [UInt8.toNat_or]
  exact Nat.le_trans isHigh Nat.right_le_or

/-- The bytes of a character that has more than one of them are not those of ASCII. -/
theorem bytes_of_wide {character : Char} (wide : character.utf8Size ≠ 1) :
    ∀ byte ∈ String.utf8EncodeChar character, 128 ≤ byte.toNat := by
  have positive := character.utf8Size_pos
  have small := character.utf8Size_le_four
  obtain two | three | four :
      character.utf8Size = 2 ∨ character.utf8Size = 3 ∨ character.utf8Size = 4 := by omega
  · rw [String.utf8EncodeChar_eq_cons_cons two]
    simp only [List.mem_cons, List.not_mem_nil, or_false, forall_eq_or_imp, forall_eq]
    exact ⟨or_high _ _ (by decide), or_high _ _ (by decide)⟩
  · rw [String.utf8EncodeChar_eq_cons_cons_cons three]
    simp only [List.mem_cons, List.not_mem_nil, or_false, forall_eq_or_imp, forall_eq]
    exact ⟨or_high _ _ (by decide), or_high _ _ (by decide), or_high _ _ (by decide)⟩
  · rw [String.utf8EncodeChar_eq_cons_cons_cons_cons four]
    simp only [List.mem_cons, List.not_mem_nil, or_false, forall_eq_or_imp, forall_eq]
    exact ⟨or_high _ _ (by decide), or_high _ _ (by decide), or_high _ _ (by decide),
      or_high _ _ (by decide)⟩

/-- A character of ASCII is its one byte. -/
theorem bytes_of_narrow {character : Char} (narrow : character.utf8Size = 1) :
    ∃ byte, String.utf8EncodeChar character = [byte] ∧ byte.toNat = character.toNat := by
  refine ⟨character.val.toUInt8, String.utf8EncodeChar_eq_singleton narrow, ?_⟩
  have small : character.toNat ≤ 127 := by
    simpa [Char.utf8Size_eq_one_iff, UInt32.le_iff_toNat_le] using narrow
  rw [UInt32.toNat_toUInt8, Char.toNat_val]
  exact Nat.mod_eq_of_lt (by omega)

theorem wide_iff (character : Char) : character.utf8Size ≠ 1 ↔ 128 ≤ character.toNat := by
  rw [ne_eq, Char.utf8Size_eq_one_iff, UInt32.le_iff_toNat_le, not_le, Char.toNat_val]
  exact Iff.rfl

/-! ## The order of bytes -/

/-- Texts of ASCII compare by their bytes as by their characters. -/
theorem bytes_lt_iff {left right : List Char}
    (leftNarrow : ∀ character ∈ left, character.utf8Size = 1)
    (rightNarrow : ∀ character ∈ right, character.utf8Size = 1) :
    bytes left < bytes right ↔ left < right := by
  induction left generalizing right with
  | nil =>
    cases right with
    | nil => exact iff_of_false (List.not_lt_nil _) (List.not_lt_nil _)
    | cons other right =>
      obtain ⟨byte, encoded, _⟩ := bytes_of_narrow (rightNarrow other List.mem_cons_self)
      rw [bytes, bytes, List.flatMap_cons, encoded]
      exact iff_of_true (List.nil_lt_cons _ _) (List.nil_lt_cons _ _)
  | cons character left inductionHypothesis =>
    obtain ⟨narrow, others⟩ := List.forall_mem_cons.mp leftNarrow
    cases right with
    | nil => exact iff_of_false (List.not_lt_nil _) (List.not_lt_nil _)
    | cons other right =>
      obtain ⟨otherNarrow, rest⟩ := List.forall_mem_cons.mp rightNarrow
      obtain ⟨byte, encoded, value⟩ := bytes_of_narrow narrow
      obtain ⟨otherByte, otherEncoded, otherValue⟩ := bytes_of_narrow otherNarrow
      have later := inductionHypothesis others rest
      have less : byte < otherByte ↔ character < other := by
        rw [UInt8.lt_iff_toNat_lt, value, otherValue]
        exact Iff.rfl
      have same : byte = otherByte ↔ character = other := by
        rw [← UInt8.toNat_inj, value, otherValue, Char.toNat_inj]
      rw [bytes, bytes] at later ⊢
      rw [List.flatMap_cons, List.flatMap_cons, encoded, otherEncoded, List.singleton_append,
        List.singleton_append, List.cons_lt_cons_iff, List.cons_lt_cons_iff, less, same, later]

end ByteTexts
