import Memcore.Redaction.ByteOffsets
import Memcore.Redaction.Passes
import Mathlib.Data.List.Forall2

/-!
# Loops of the redactor

The loop of a pass does what its scanner says: it finishes, and it panics exactly where
the scanner fails. The message is what is done, what the search has passed over and a
rest in which the pattern is found. The body of the loop takes one mark and the value
behind it, or one character in the middle of a word, so each round shortens the rest.
-/
namespace Memcore.ByteOffsets

open Texts Scanners ByteTexts

/-- What the answer of a scanner is for the program. -/
def outcome {α : Type} : Option α → Run α
  | none => .error .panicked
  | some value => .ok value

theorem toLower_utf8Size (character : Char) : character.toLower.utf8Size = character.utf8Size := by
  obtain same | ⟨low, high, code⟩ := toLower_cases character
  · rw [same]
  · have narrow {other : Char} (small : other.toNat < 128) : other.utf8Size = 1 := by
      by_contra wide
      have large := (wide_iff other).mp wide
      omega
    rw [narrow (by omega), narrow (by omega)]

@[simp] theorem byteLength_lowered (text : List Char) : byteLength (lowered text) = byteLength text := by
  induction text with
  | nil => rfl
  | cons character rest inductionHypothesis =>
    rw [lowered_cons, byteLength_cons, byteLength_cons, toLower_utf8Size, inductionHypothesis]

/-- An offset of the message is one of its lowered copy. -/
theorem sliceFrom_lowered (front rest : List Char) :
    sliceFrom (byteLength front) (lowered (front ++ rest)) = .ok (lowered rest) := by
  rw [lowered_append, ← byteLength_lowered front, sliceFrom_byteLength]

theorem begins_of_lowered {pattern text : List Char} (found : lowered pattern <+: lowered text) :
    begins pattern text = true :=
  (begins_iff pattern text).mpr found

theorem not_begins {pattern text : List Char} (absent : ¬ lowered pattern <+: lowered text) :
    begins pattern text = false := by
  rw [Bool.eq_false_iff]
  exact fun found => absent ((begins_iff pattern text).mp found)

theorem previous_append (front text : List Char) :
    previous none (front ++ text) = previous (previous none front) text := by
  simp [previous, List.getLast?_append]

/-- What the body of a loop does with a message of which `front` is done, in which nothing is
found in what is `copied`, and in which the needle is found next. -/
inductive Handled (rule : Rule Char) (front copied : List Char) :
    List Char → Run (List Char × ℕ) → Prop
  | midWord (symbol : Char) (rest : List Char) (narrow : symbol.utf8Size = 1)
      (nothing : rule.sees (previous none (front ++ copied)) (symbol :: rest) = .nothing) :
      Handled rule front copied (symbol :: rest)
        (.ok (copied ++ [symbol], byteLength (front ++ copied ++ [symbol])))
  | cut (symbol : Char) (rest : List Char)
      (fails : rule.sees (previous none (front ++ copied)) (symbol :: rest) = .fails) :
      Handled rule front copied (symbol :: rest) (.error .panicked)
  | value (taken rest written : List Char) (nonempty : taken ≠ [])
      (mark : rule.sees (previous none (front ++ copied)) (taken ++ rest) =
        .mark written taken.length) :
      Handled rule front copied (taken ++ rest)
        (.ok (copied ++ written, byteLength (front ++ copied ++ taken ++
          rest.takeWhile fun character => !rule.stops character)))

/-- Where a value has ended the scanner copies again. -/
theorem scan_ended {rule : Rule Char} {rest : List Char} (before : Option Char)
    (ended : ∀ other ∈ rest.head?, rule.stops other = true) :
    (scan rule (.skipping 0) before rest).map Prod.fst =
      (scan rule .copying before rest).map Prod.fst := by
  cases rest with
  | nil => rfl
  | cons symbol rest => rw [scan_stop (ended symbol rfl)]

/-- Characters that do not stop the value, then one that does or the end. -/
theorem value_splits (stops : Char → Bool) (rest : List Char) :
    (∀ other ∈ rest.takeWhile (fun character => !stops character), stops other = false) ∧
      ∀ other ∈ (rest.dropWhile fun character => !stops character).head?, stops other = true := by
  constructor
  · intro other member
    simpa using List.mem_takeWhile_imp member
  · intro other member
    have stopped := List.head?_dropWhile_not (fun character => !stops character) rest
    rw [Option.mem_def.mp member] at stopped
    simpa using stopped

/-- A mark, the value behind it and what follows. -/
theorem scan_marked {rule : Rule Char} {before : Option Char} {taken rest written : List Char}
    (nonempty : taken ≠ []) (mark : rule.sees before (taken ++ rest) = .mark written taken.length) :
    (scan rule .copying before (taken ++ rest)).map Prod.fst =
      ((scan rule .copying
        (previous before (taken ++ rest.takeWhile fun character => !rule.stops character))
        (rest.dropWhile fun character => !rule.stops character)).map Prod.fst).map (written ++ ·) := by
  obtain ⟨inside, ended⟩ := value_splits rule.stops rest
  cases taken with
  | nil => exact absurd rfl nonempty
  | cons symbol taken =>
    have width : scan rule (.skipping (taken.length + 0)) (some symbol) (taken ++ rest) =
        scan rule (.skipping 0) (previous (some symbol) taken) rest :=
      scan_width taken 0 (some symbol) rest
    have skipped := scan_value inside 0 (previous (some symbol) taken)
      (rest.dropWhile fun character => !rule.stops character)
    rw [Nat.add_zero] at width
    rw [Nat.zero_sub, List.takeWhile_append_dropWhile] at skipped
    rw [List.cons_append] at mark ⊢
    rw [List.length_cons] at mark
    rw [scan_mark mark, fst_emit, Nat.add_sub_cancel, width, skipped, scan_ended _ ended,
      List.cons_append, previous_cons]
    simp [previous, List.getLast?_append]

theorem whileFound_none {message needle ahead left : List Char} {idx : ℕ}
    {body : ℕ → ℕ → Run (List Char × ℕ)} (steps : ℕ) (out : List Char)
    (lower : sliceFrom idx (lowered message) = .ok ahead) (absent : findText needle ahead = none)
    (rest : sliceFrom idx message = .ok left) :
    whileFound message needle body (steps + 1) idx out = .ok (out ++ left) := by
  simp only [whileFound, bind, Except.bind, lower, absent, rest]
  rfl

theorem whileFound_some {message needle ahead : List Char} {idx rel : ℕ}
    {body : ℕ → ℕ → Run (List Char × ℕ)} (steps : ℕ) (out : List Char)
    (lower : sliceFrom idx (lowered message) = .ok ahead)
    (found : findText needle ahead = some rel) :
    whileFound message needle body (steps + 1) idx out =
      (body idx (idx + rel)).bind fun result =>
        whileFound message needle body steps result.2 (out ++ result.1) := by
  simp only [whileFound, bind, Except.bind, lower, found]

theorem map_append_map (first second : List Char) (text : Option (List Char)) :
    (text.map (second ++ ·)).map (first ++ ·) = text.map (first ++ second ++ ·) := by
  cases text with
  | none => rfl
  | some text => exact congrArg some (List.append_assoc first second text).symm

/-- The loop of a pass does what its scanner says. -/
theorem whileFound_scans {pattern message : List Char} {rule : Rule Char}
    {body : ℕ → ℕ → Run (List Char × ℕ)} (redacts : Redacts pattern rule)
    (handled : ∀ front copied text, message = front ++ (copied ++ text) →
      begins pattern text = true →
      Handled rule front copied text (body (byteLength front) (byteLength front + byteLength copied)))
    (steps : ℕ) (front rest out : List Char) (shape : message = front ++ rest)
    (enough : rest.length < steps) :
    whileFound message (lowered pattern) body steps (byteLength front) out =
      outcome (((scan rule .copying (previous none front) rest).map Prod.fst).map (out ++ ·)) := by
  induction steps generalizing front rest out with
  | zero => nomatch enough
  | succ steps inductionHypothesis =>
    have lower : sliceFrom (byteLength front) (lowered message) = .ok (lowered rest) := by
      rw [shape, sliceFrom_lowered]
    have left : sliceFrom (byteLength front) message = .ok rest := by
      rw [shape, sliceFrom_byteLength]
    cases found : findText (lowered pattern) (lowered rest) with
    | none =>
      have unseen : ∀ before symbol later, symbol :: later <:+ rest →
          rule.sees before (symbol :: later ++ []) = .nothing := by
        intro before symbol later suffix
        rw [List.append_nil]
        exact redacts.unseen before _ (not_begins (findText_none found _ (suffix.map _)))
      have copied := scan_unseen unseen (previous none front)
      rw [List.append_nil] at copied
      rw [whileFound_none steps out lower found left, copied]
      simp [outcome]
    | some rel =>
      obtain ⟨lowerCopied, lowerText, split, rfl, begun, first⟩ := findText_some found
      obtain ⟨copied, text, rfl, rfl, rfl⟩ := List.map_eq_append_iff.mp split
      have unseen : ∀ before symbol later, symbol :: later <:+ copied →
          rule.sees before (symbol :: later ++ text) = .nothing := by
        intro before symbol later suffix
        refine redacts.unseen before _ (not_begins ?_)
        rw [lowered_append]
        exact first _ _ (suffix.map _)
      have size : byteLength (copied.map Char.toLower) = byteLength copied := byteLength_lowered copied
      rw [whileFound_some steps out lower found, size, scan_unseen unseen, ← previous_append, fst_emit]
      have handledHere := handled front copied text shape (begins_of_lowered begun)
      rw [List.length_append] at enough
      revert handledHere
      generalize body (byteLength front) (byteLength front + byteLength copied) = result
      intro handledHere
      cases handledHere with
      | midWord symbol rest narrow nothing =>
        have goesOn := inductionHypothesis (front ++ copied ++ [symbol]) rest (out ++ (copied ++ [symbol]))
          (by simp [shape]) (by rw [List.length_cons] at enough; omega)
        rw [previous_concat] at goesOn
        rw [scan_nothing nothing, fst_emit, map_append_map, map_append_map, List.append_assoc out]
        exact goesOn
      | cut symbol rest fails =>
        rw [scan_fails fails]
        rfl
      | value taken rest written nonempty mark =>
        have goesOn := inductionHypothesis
          (front ++ copied ++ taken ++ rest.takeWhile fun character => !rule.stops character)
          (rest.dropWhile fun character => !rule.stops character) (out ++ (copied ++ written))
          (by simp [shape]) (by
            have shorter := (List.dropWhile_suffix (fun character => !rule.stops character)
              (l := rest)).length_le
            have positive := List.length_pos_iff.mpr nonempty
            rw [List.length_append] at enough
            omega)
        rw [scan_marked nonempty mark, ← previous_append, ← List.append_assoc, map_append_map,
          map_append_map, List.append_assoc out]
        exact goesOn

/-- A pass does what its scanner says. -/
theorem loop_scans {pattern message : List Char} {rule : Rule Char}
    {body : ℕ → ℕ → Run (List Char × ℕ)} (redacts : Redacts pattern rule)
    (handled : ∀ front copied text, message = front ++ (copied ++ text) →
      begins pattern text = true →
      Handled rule front copied text (body (byteLength front) (byteLength front + byteLength copied))) :
    whileFound message (lowered pattern) body (byteLength message + 1) 0 [] =
      outcome (pass rule message) := by
  have enough := Nat.lt_succ_of_le (length_le_byteLength message)
  have scanned := whileFound_scans redacts handled _ [] message [] rfl enough
  have whole (text : Option (List Char)) : text.map ([] ++ ·) = text := by cases text <;> rfl
  rw [whole] at scanned
  exact scanned

/-- The value behind a marker, and where it ends. -/
theorem valueEnd_at {stops : Char → Bool} {message front rest : List Char} {start : ℕ}
    (shape : message = front ++ rest) (begun : start = byteLength front) :
    valueEnd stops message start =
      .ok (byteLength (front ++ rest.takeWhile fun character => !stops character)) := by
  have ended := findChar_getD stops rest
  rw [valueEnd, sliceFrom_at shape begun, ok_bind, pure_run, shape, begun, byteLength_append,
    byteLength_append, ← ended]
  cases findChar stops rest <;> rfl

theorem midWord_at {message front rest : List Char} {start : ℕ} (shape : message = front ++ rest)
    (begun : start = byteLength front) :
    midWord message start = .ok (!atBoundary (previous none front)) := by
  have whole : message = [] ++ (front ++ rest) := shape
  have sliced : slice 0 start message = .ok front :=
    slice_at whole rfl (by rw [begun, byteLength_nil, Nat.zero_add])
  by_cases positive : 0 < start
  · rw [midWord, if_pos positive, sliced, ok_bind, pure_run, atBoundary, Bool.not_not, previous,
      Option.or_none]
  · have empty : front = [] := by
      have long := length_le_byteLength front
      exact List.length_eq_zero_iff.mp (by omega)
    rw [midWord, if_neg positive, empty]
    rfl

/-- Where a pattern is found, it is a part of the text with as many bytes. -/
theorem begins_splits {pattern text : List Char} (found : begins pattern text = true) :
    ∃ taken behind, text = taken ++ behind ∧ taken.length = pattern.length ∧
      byteLength taken = byteLength pattern := by
  refine ⟨text.take pattern.length, text.drop pattern.length,
    (List.take_append_drop _ _).symm, ?_, ?_⟩
  · exact List.length_take_of_le (length_le_of_begins found)
  · rw [← byteLength_lowered, lowered_take_of_begins found, byteLength_lowered]

theorem pattern_ne_nil {pattern taken : List Char} (recognised : lowered pattern ∈ recognisedPatterns)
    (long : taken.length = pattern.length) : taken ≠ [] := by
  rintro rfl
  have empty : pattern = [] := List.length_eq_zero_iff.mp long.symm
  exact patterns_nonempty _ recognised (by rw [empty]; rfl)

theorem urlScheme_handled {scheme message front copied text : List Char}
    (recognised : lowered scheme ∈ recognisedPatterns)
    (shape : message = front ++ (copied ++ text)) (found : begins scheme text = true) :
    Handled (Memcore.redactUrlScheme scheme) front copied text
      (urlSchemeBody scheme message (byteLength front) (byteLength front + byteLength copied)) := by
  obtain ⟨taken, behind, rfl, long, size⟩ := begins_splits found
  have skipped : slice (byteLength front) (byteLength front + byteLength copied) message = .ok copied :=
    slice_at shape rfl rfl
  have ended : valueEnd isWhitespace message
      (byteLength front + byteLength copied + byteLength scheme) =
      .ok (byteLength (front ++ copied ++ taken ++
        behind.takeWhile fun character => !isWhitespace character)) :=
    valueEnd_at (by simp [shape]) (by simp [size, Nat.add_assoc])
  simp only [urlSchemeBody, skipped, ended, ok_bind, pure_run, List.append_assoc copied]
  apply Handled.value taken behind
  · exact pattern_ne_nil recognised long
  · simp only [Memcore.redactUrlScheme, found, if_true, long]

theorem patterns_narrow : ∀ pattern ∈ recognisedPatterns, ∀ character ∈ pattern,
    character.utf8Size = 1 := by
  decide

/-- A text in which a pattern is found begins with a character of one byte. -/
theorem begins_narrow {pattern text : List Char} (recognised : lowered pattern ∈ recognisedPatterns)
    (found : begins pattern text = true) :
    ∃ symbol rest, text = symbol :: rest ∧ symbol.utf8Size = 1 := by
  have begun := (begins_iff pattern text).mp found
  cases shape : lowered pattern with
  | nil => exact absurd shape (patterns_nonempty _ recognised)
  | cons first others =>
    rw [shape] at begun recognised
    cases text with
    | nil => nomatch List.prefix_nil.mp begun
    | cons symbol rest =>
      obtain rfl : first = symbol.toLower := (List.cons_prefix_cons.mp begun).1
      have narrow := patterns_narrow _ recognised _ List.mem_cons_self
      exact ⟨symbol, rest, rfl, by rwa [toLower_utf8Size] at narrow⟩

/-- A match in the middle of a word is passed over by one byte, which is one character. -/
theorem midWord_handled {pattern front copied text message : List Char} {rule : Rule Char}
    (recognised : lowered pattern ∈ recognisedPatterns)
    (shape : message = front ++ (copied ++ text)) (found : begins pattern text = true)
    (nothing : rule.sees (previous none (front ++ copied)) text = .nothing) :
    Handled rule front copied text (do
      let written ← slice (byteLength front) (byteLength front + byteLength copied + 1) message
      return (written, byteLength front + byteLength copied + 1)) := by
  obtain ⟨symbol, rest, rfl, narrow⟩ := begins_narrow recognised found
  have split : message = front ++ (copied ++ [symbol] ++ rest) := by simp [shape]
  have sliced : slice (byteLength front) (byteLength front + byteLength copied + 1) message =
      .ok (copied ++ [symbol]) :=
    slice_at split rfl (by simp [narrow, Nat.add_assoc])
  have next : byteLength front + byteLength copied + 1 =
      byteLength (front ++ copied ++ [symbol]) := by simp [narrow, Nat.add_assoc]
  rw [sliced, ok_bind, pure_run, next]
  exact .midWord symbol rest narrow nothing

theorem prefixedToken_handled {start message front copied text : List Char}
    (recognised : lowered start ∈ recognisedPatterns)
    (shape : message = front ++ (copied ++ text)) (found : begins start text = true) :
    Handled (Memcore.redactPrefixedToken start) front copied text
      (prefixedTokenBody start message (byteLength front) (byteLength front + byteLength copied)) := by
  have split : message = (front ++ copied) ++ text := by simp [shape]
  rw [prefixedTokenBody, midWord_at split (byteLength_append front copied).symm, ok_bind]
  cases boundary : atBoundary (previous none (front ++ copied)) with
  | false =>
    refine midWord_handled recognised shape found ?_
    simp [Memcore.redactPrefixedToken, boundary]
  | true =>
    obtain ⟨taken, behind, rfl, long, size⟩ := begins_splits found
    have skipped : slice (byteLength front) (byteLength front + byteLength copied) message =
        .ok copied := slice_at shape rfl rfl
    have matched : slice (byteLength front + byteLength copied)
        (byteLength front + byteLength copied + byteLength start) message = .ok taken :=
      slice_at split (by simp) (by simp [size])
    have ended : valueEnd endsValue message
        (byteLength front + byteLength copied + byteLength start) =
        .ok (byteLength (front ++ copied ++ taken ++
          behind.takeWhile fun character => !endsValue character)) :=
      valueEnd_at (by simp [shape]) (by simp [size, Nat.add_assoc])
    rw [Bool.not_true, if_neg Bool.false_ne_true]
    simp only [skipped, matched, ended, ok_bind, pure_run, List.append_assoc copied]
    apply Handled.value taken behind
    · exact pattern_ne_nil recognised long
    · simp only [Memcore.redactPrefixedToken, found, boundary, Bool.and_self, if_true]
      rw [← long, List.take_left]

/-- A slice of as many bytes as there are characters to trim. -/
theorem sliceTo_eq_outcome (count : ℕ) (text : List Char) :
    sliceTo count text = outcome (sliceBytes count text) := by
  induction text generalizing count with
  | nil => cases count <;> rfl
  | cons character rest inductionHypothesis =>
    cases count with
    | zero => rfl
    | succ count =>
      rw [sliceTo, sliceBytes, inductionHypothesis]
      split
      · cases sliceBytes (count + 1 - character.utf8Size) rest <;> rfl
      · rfl

/-- What the body of a loop slices when it trims behind a marker. -/
theorem trimmed_at {trims : Char → Bool} {message front behind : List Char} {after : ℕ}
    (shape : message = front ++ behind) (begun : after = byteLength front) :
    slice after (after + (behind.takeWhile trims).length) message =
      outcome (trimmedBefore trims behind) := by
  rw [slice_from shape begun (Nat.le_add_right _ _), Nat.add_sub_cancel_left, sliceTo_eq_outcome]
  rfl

/-- Where the slice succeeds it has as many bytes as there were characters to trim. -/
theorem trimmed_bytes {trims : Char → Bool} {behind trimmed : List Char}
    (trimmedIs : trimmedBefore trims behind = some trimmed) :
    (behind.takeWhile trims).length = byteLength trimmed ∧ ∃ rest, behind = trimmed ++ rest := by
  have sliced := sliceTo_eq_outcome (behind.takeWhile trims).length behind
  rw [show sliceBytes _ behind = some trimmed from trimmedIs] at sliced
  obtain ⟨⟨rest, rfl⟩, size⟩ := sliceTo_ok_iff.mp sliced
  exact ⟨size.symm, rest, rfl⟩

/-- A marker behind which the slice would cut a character. -/
theorem handled_cut {rule : Rule Char} {front copied taken behind : List Char}
    (nonempty : taken ≠ [])
    (fails : rule.sees (previous none (front ++ copied)) (taken ++ behind) = .fails) :
    Handled rule front copied (taken ++ behind) (.error .panicked) := by
  cases taken with
  | nil => exact absurd rfl nonempty
  | cons symbol taken => exact .cut symbol (taken ++ behind) fails

theorem afterPattern_handled {pattern message front copied text : List Char}
    (recognised : lowered pattern ∈ recognisedPatterns)
    (shape : message = front ++ (copied ++ text)) (found : begins pattern text = true) :
    Handled (Memcore.redactAfterPattern pattern) front copied text
      (afterPatternBody pattern message (byteLength front) (byteLength front + byteLength copied)) := by
  have split : message = (front ++ copied) ++ text := by simp [shape]
  rw [afterPatternBody, midWord_at split (byteLength_append front copied).symm, ok_bind]
  cases boundary : atBoundary (previous none (front ++ copied)) with
  | false =>
    refine midWord_handled recognised shape found ?_
    simp [Memcore.redactAfterPattern, boundary]
  | true =>
    obtain ⟨taken, behind, rfl, long, size⟩ := begins_splits found
    have nonempty := pattern_ne_nil recognised long
    have dropped : (taken ++ behind).drop pattern.length = behind := by rw [← long, List.drop_left]
    have matched : (taken ++ behind).take pattern.length = taken := by rw [← long, List.take_left]
    have skipped : slice (byteLength front) (byteLength front + byteLength copied +
        byteLength pattern) message = .ok (copied ++ taken) := by
      have parts : message = front ++ ((copied ++ taken) ++ behind) := by simp [shape]
      exact slice_at parts rfl (by simp [size, Nat.add_assoc])
    have parts : message = (front ++ copied ++ taken) ++ behind := by simp [shape]
    have place : byteLength front + byteLength copied + byteLength pattern =
        byteLength (front ++ copied ++ taken) := by simp [size, Nat.add_assoc]
    rw [Bool.not_true, if_neg Bool.false_ne_true]
    simp only [skipped, sliceFrom_at parts place, trimmed_at parts place, ok_bind, pure_run]
    cases trimmedIs : trimmedBefore precedesValue behind with
    | none =>
      apply handled_cut nonempty
      simp only [Memcore.redactAfterPattern, found, boundary, Bool.and_self, if_true, dropped,
        trimmedIs]
    | some trimmed =>
      obtain ⟨bytes, rest, rfl⟩ := trimmed_bytes trimmedIs
      have inner : message = (front ++ copied ++ (taken ++ trimmed)) ++ rest := by simp [shape]
      have ended : valueEnd endsValue message (byteLength front + byteLength copied +
          byteLength pattern + ((trimmed ++ rest).takeWhile precedesValue).length) =
          .ok (byteLength (front ++ copied ++ (taken ++ trimmed) ++
            rest.takeWhile fun character => !endsValue character)) :=
        valueEnd_at inner (by simp [size, bytes, Nat.add_assoc])
      simp only [outcome, ended, ok_bind, List.append_assoc copied]
      rw [← List.append_assoc taken]
      apply Handled.value (taken ++ trimmed) rest
      · exact List.append_ne_nil_of_left_ne_nil nonempty trimmed
      · rw [List.append_assoc, List.length_append, long]
        simp only [Memcore.redactAfterPattern, found, boundary, Bool.and_self, if_true, dropped,
          trimmedIs, matched]

/-- The scheme of an authorization header is found in the lowered rest. -/
theorem bearer_found (rest : List Char) :
    "bearer ".toList.isPrefixOf (lowered rest) = begins "bearer ".toList rest := by
  rw [Bool.eq_iff_iff, List.isPrefixOf_iff_prefix, begins_iff,
    patterns_lowered _ (header_recognised (List.mem_cons_of_mem _ List.mem_cons_self))]

theorem authorization_handled {message front copied text : List Char}
    (shape : message = front ++ (copied ++ text))
    (found : begins "authorization:".toList text = true) :
    Handled Memcore.redactAuthorizationBearer front copied text
      (authorizationBody message (byteLength front) (byteLength front + byteLength copied)) := by
  obtain ⟨taken, behind, rfl, long, size⟩ := begins_splits found
  have nonempty := pattern_ne_nil authorization_recognised long
  have dropped : (taken ++ behind).drop "authorization:".toList.length = behind := by
    rw [← long, List.drop_left]
  have matched : (taken ++ behind).take "authorization:".toList.length = taken := by
    rw [← long, List.take_left]
  have split : message = (front ++ copied) ++ (taken ++ behind) := by simp [shape]
  have skipped : slice (byteLength front) (byteLength front + byteLength copied) message = .ok copied :=
    slice_at shape rfl rfl
  have marker : slice (byteLength front + byteLength copied) (byteLength front + byteLength copied +
      byteLength "authorization:".toList) message = .ok taken :=
    slice_at split (byteLength_append front copied).symm (by rw [byteLength_append, size])
  have parts : message = (front ++ copied ++ taken) ++ behind := by simp [shape]
  have place : byteLength front + byteLength copied + byteLength "authorization:".toList =
      byteLength (front ++ copied ++ taken) := by
    rw [byteLength_append, byteLength_append, size]
  simp only [authorizationBody, skipped, marker, sliceFrom_at parts place, trimmed_at parts place,
    ok_bind, pure_run]
  cases trimmedIs : trimmedBefore isWhitespace behind with
  | none =>
    apply handled_cut nonempty
    simp only [Memcore.redactAuthorizationBearer, found, if_true, dropped, trimmedIs]
  | some trimmed =>
    obtain ⟨bytes, rest, rfl⟩ := trimmed_bytes trimmedIs
    rw [← dropped] at trimmedIs
    have sees := authorization_mark (previous none (front ++ copied)) found trimmedIs
    rw [dropped, List.drop_left, matched] at sees
    have inner : message = (front ++ copied ++ (taken ++ trimmed)) ++ rest := by simp [shape]
    have start : byteLength front + byteLength copied + byteLength "authorization:".toList +
        ((trimmed ++ rest).takeWhile isWhitespace).length =
        byteLength (front ++ copied ++ (taken ++ trimmed)) := by
      rw [place, bytes, ← byteLength_append, List.append_assoc (front ++ copied)]
    simp only [outcome, ok_bind, sliceFrom_at inner start, bearer_found]
    cases bearer : begins "bearer ".toList rest with
    | false =>
      rw [bearer, if_neg Bool.false_ne_true] at sees
      simp only [Bool.false_eq_true, if_false, valueEnd_at inner start, ok_bind,
        List.append_assoc copied]
      rw [← List.append_assoc taken]
      apply Handled.value (taken ++ trimmed) rest
      · exact List.append_ne_nil_of_left_ne_nil nonempty trimmed
      · rw [List.append_assoc, sees, List.length_append, long]
    | true =>
      rw [bearer, if_pos rfl] at sees
      obtain ⟨scheme, token, rfl, schemeLong, schemeSize⟩ := begins_splits bearer
      have tokenAt : message = (front ++ copied ++ (taken ++ trimmed ++ scheme)) ++ token := by
        simp [shape]
      have tokenStart : byteLength front + byteLength copied + byteLength "authorization:".toList +
          ((trimmed ++ (scheme ++ token)).takeWhile isWhitespace).length +
          byteLength "bearer ".toList =
          byteLength (front ++ copied ++ (taken ++ trimmed ++ scheme)) := by
        rw [start, ← schemeSize, ← byteLength_append, List.append_assoc (front ++ copied)]
      simp only [if_true, valueEnd_at tokenAt tokenStart, ok_bind, List.append_assoc copied]
      rw [← List.append_assoc trimmed, ← List.append_assoc taken, ← List.append_assoc taken]
      apply Handled.value (taken ++ trimmed ++ scheme) token
      · exact List.append_ne_nil_of_left_ne_nil
          (List.append_ne_nil_of_left_ne_nil nonempty trimmed) scheme
      · rw [List.append_assoc, List.append_assoc, sees, List.length_append, List.length_append, long,
          schemeLong]

/-- A pass of the program and the scanner that says what it does. -/
def Follows (pass : List Char → Run (List Char)) (rule : Rule Char) : Prop :=
  ∀ text, pass text = outcome (Scanners.pass rule text)

theorem authorization_follows :
    Follows redactAuthorizationBearer Memcore.redactAuthorizationBearer := by
  intro message
  have same : lowered "authorization:".toList = "authorization:".toList := by decide
  have scans := loop_scans authorization_redacts (@authorization_handled message)
  rwa [same] at scans

theorem urlScheme_follows {scheme : List Char} (recognised : lowered scheme ∈ recognisedPatterns) :
    Follows (redactUrlScheme scheme) (Memcore.redactUrlScheme scheme) :=
  fun _ => loop_scans (urlScheme_redacts recognised) fun _ _ _ => urlScheme_handled recognised

theorem prefixedToken_follows {start : List Char} (recognised : lowered start ∈ recognisedPatterns) :
    Follows (redactPrefixedToken start) (Memcore.redactPrefixedToken start) :=
  fun _ => loop_scans (prefixedToken_redacts recognised) fun _ _ _ => prefixedToken_handled recognised

theorem afterPattern_follows {pattern : List Char}
    (recognised : lowered pattern ∈ recognisedPatterns) :
    Follows (redactAfterPattern pattern) (Memcore.redactAfterPattern pattern) :=
  fun _ => loop_scans (afterPattern_redacts recognised) fun _ _ _ => afterPattern_handled recognised

theorem recognised_lowered {pattern : List Char} (listed : pattern ∈ recognisedPatterns) :
    lowered pattern ∈ recognisedPatterns := by
  rwa [patterns_lowered pattern listed]

/-- Lists of passes that are made from one list. -/
theorem follow_map {Item : Type} {passOf : Item → List Char → Run (List Char)}
    {ruleOf : Item → Rule Char} {items : List Item}
    (follow : ∀ item ∈ items, Follows (passOf item) (ruleOf item)) :
    List.Forall₂ Follows (items.map passOf) (items.map ruleOf) := by
  rw [List.forall₂_map_left_iff, List.forall₂_map_right_iff, List.forall₂_same]
  exact follow

theorem follow_if {asked : Bool} {passes : List (List Char → Run (List Char))}
    {rules : List (Rule Char)} (follow : List.Forall₂ Follows passes rules) :
    List.Forall₂ Follows (if asked then passes else []) (if asked then rules else []) := by
  cases asked with
  | false => exact .nil
  | true => exact follow

theorem keyValue_follows {keys : List String} (listed : ∀ key ∈ keys, key ∈ keyValueSecretKeys) :
    List.Forall₂ Follows (keys.flatMap redactKeyValue) (keys.flatMap Memcore.redactKeyValue) := by
  induction keys with
  | nil => exact .nil
  | cons key keys inductionHypothesis =>
    rw [List.flatMap_cons, List.flatMap_cons]
    apply List.rel_append
    · refine follow_map fun pattern member => afterPattern_follows (recognised_lowered ?_)
      exact keyPattern_recognised (listed key List.mem_cons_self) member
    · exact inductionHypothesis fun other member => listed other (List.mem_cons_of_mem _ member)

/-- The passes follow the rules, one by one. -/
theorem passes_follow (config : RedactionConfig) :
    List.Forall₂ Follows (redactionPasses config) (redactionRules config) := by
  have schemes : ∀ scheme ∈ databaseUrlSchemes ++ ["sqlite:"] ++ redisUrlSchemes,
      Follows (redactUrlScheme scheme.toList) (Memcore.redactUrlScheme scheme.toList) :=
    fun scheme listed => urlScheme_follows (recognised_lowered (word_recognised (List.mem_append_left _ listed)))
  have bearer {start : List Char} (same : lowered start = "bearer ".toList) :
      Follows (redactPrefixedToken start) (Memcore.redactPrefixedToken start) :=
    prefixedToken_follows (by rw [same]; exact bearer_recognised)
  unfold redactionPasses redactionRules
  refine List.rel_append (List.rel_append (List.rel_append (List.rel_append ?_ ?_) ?_) ?_) ?_
  · apply follow_if
    exact .cons authorization_follows (.cons (bearer (by decide)) (.cons (bearer (by decide)) .nil))
  · apply follow_if
    apply List.rel_append
    · exact follow_map fun scheme member => schemes scheme (by simp [member])
    · exact .cons (schemes "sqlite:" (by simp)) .nil
  · exact follow_if (follow_map fun scheme member => schemes scheme (by simp [member]))
  · exact follow_if (follow_map fun start member =>
      prefixedToken_follows (recognised_lowered (word_recognised (List.mem_append_right _ member))))
  · exact follow_if (keyValue_follows fun _ member => member)

theorem foldlM_passes {passes : List (List Char → Run (List Char))} {rules : List (Rule Char)}
    (follow : List.Forall₂ Follows passes rules) (text : List Char) :
    passes.foldlM (fun out pass => pass out) text = outcome (Scanners.passes rules text) := by
  induction follow generalizing text with
  | nil => rfl
  | cons first _ inductionHypothesis =>
    rw [List.foldlM_cons, first, Scanners.passes]
    cases Scanners.pass _ text with
    | none => rfl
    | some out => exact inductionHypothesis out

end Memcore.ByteOffsets
