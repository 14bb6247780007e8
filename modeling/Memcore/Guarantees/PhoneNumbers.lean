import Memcore.Privacy.PhoneReach

/-!
# Phone numbers in redacted texts

A number that stands between white space is redacted whole when its match begins with it. It is
not when it begins with a parenthesis, because no word boundary is before that, and when a match
that begins further left takes a part of it. Then the digits that are left are written as they
stand, and only the card pass may still take the last four of them.
-/
namespace Memcore

open Regexes Regexes.Regex
open Scanners (previous)

variable (classes : UnicodeClasses)

/-! ## The phone pass -/

/-- A match that takes a text whole leaves only its replacement. -/
theorem scan_whole {re : Regex Char} {replacement text rest : List Char}
    (proper : re.nullable = false)
    (opens : ∀ character, Texts.isWhitespace character = true → re.firsts character = false)
    (gap : Gap rest) (nonempty : text ≠ []) (before : Option Char)
    (found : re.width before (text ++ rest) = some text.length) :
    (re.scan replacement [] 0 before (text ++ rest)).1 =
      replacement ++ re.replaceAll replacement rest := by
  have whole : re.width before (text ++ rest) = some (text.length + 0) := found
  rw [scan_over nonempty whole, (scan_gap proper opens gap _).1]
  rfl

/-- The phone pass goes on with what the matches before the number leave of it. -/
theorem phone_pass {front taken left rest : List Char} (spaced : EndsInGap front) (gap : Gap rest)
    {form : PhoneForm} {digits : PhoneDigits} (split : form.number digits = taken ++ left)
    (reached : (phoneReach classes front form).2 = taken.length) :
    (phoneRegex classes).replaceAll redactedPhone (front ++ (form.number digits ++ rest)) =
      (phoneReach classes front form).1 ++
        ((phoneRegex classes).scan redactedPhone [] 0 (previous (previous none front) taken)
          (left ++ rest)).1 := by
  have scanned := phone_scan classes spaced gap form digits
  have skipped (more : List Char) (before : Option Char) :
      (phoneRegex classes).scan redactedPhone more taken.length before taken = ([], 0) :=
    scan_skipped taken more 0 before
  rw [replaceAll, scan_append, List.append_nil, scanned, reached, split, List.append_assoc,
    scan_append, skipped]
  rfl

/-- A number that a match takes whole leaves no digit. -/
theorem phone_taken {front rest : List Char} (spaced : EndsInGap front) (gap : Gap rest)
    {form : PhoneForm}
    (whole : (phoneReach classes front form).2 = (form.number zeros).length)
    (digits : PhoneDigits) :
    (phoneRegex classes).replaceAll redactedPhone (front ++ (form.number digits ++ rest)) =
      (phoneReach classes front form).1 ++ (phoneRegex classes).replaceAll redactedPhone rest := by
  rw [phone_pass classes spaced gap (List.append_nil _).symm
    (whole.trans (length_number form zeros digits)), List.nil_append,
    (scan_gap rfl (fun _ => phone_opens classes) gap _).1]
  rfl

theorem previous_nonword {front : List Char} (spaced : EndsInGap front) :
    (previous none front).any classes.isWord = false := by
  obtain rfl | ⟨front, wall, rfl⟩ := front.eq_nil_or_concat
  · rfl
  · rw [List.concat_eq_append] at spaced ⊢
    rw [Scanners.previous_concat]
    exact classes.word_of_whitespace wall (spaced wall (by simp))

/-- A mark behind a character that is no word character is copied. -/
theorem mark_copied {mark : Char} (nonword : classes.isWord mark = false) {before : Option Char}
    (apart : before.any classes.isWord = false) (rest : List Char) :
    ((phoneRegex classes).scan redactedPhone [] 0 before (mark :: rest)).1 =
      mark :: ((phoneRegex classes).scan redactedPhone [] 0 (some mark) rest).1 := by
  have absent : (phoneRegex classes).width before (mark :: rest ++ []) = none := by
    rw [width, widths, phoneRegex_parts, wordBoundary, ends_boundary_followedBy]
    simp [apart, nonword]
  rw [scan_copy absent]
  rfl

/-- A number that no match reaches is redacted, unless a parenthesis opens it. -/
theorem phone_redacted {front rest : List Char} (spaced : EndsInGap front) (gap : Gap rest)
    {form : PhoneForm} (outside : (phoneReach classes front form).2 = 0)
    (proper : form.opensParenthesis = false) (digits : PhoneDigits) :
    (phoneRegex classes).replaceAll redactedPhone (front ++ (form.number digits ++ rest)) =
      (phoneReach classes front form).1 ++ ((if form.plus then ['+'] else []) ++
        (redactedPhone ++ (phoneRegex classes).replaceAll redactedPhone rest)) := by
  have apart := previous_nonword classes spaced
  rw [phone_pass classes spaced gap (List.nil_append _).symm outside, Scanners.previous_nil]
  cases signed : form.plus with
  | false =>
    rw [scan_whole rfl (fun _ => phone_opens classes) gap (number_nonempty form digits) _
      (phone_number classes digits _ gap proper signed apart)]
    rfl
  | true =>
    obtain ⟨country, parentheses, first, second⟩ := form
    obtain ⟨divider, rfl⟩ : ∃ divider, country = .one true divider := by
      obtain _ | ⟨_ | _, divider⟩ := country
      · nomatch signed
      · nomatch signed
      · exact ⟨divider, rfl⟩
    have unsigned : (PhoneForm.mk (.one true divider) parentheses first second).number digits =
        '+' :: (PhoneForm.mk (.one false divider) parentheses first second).number digits := rfl
    have matched : (phoneRegex classes).width (some '+')
        ((PhoneForm.mk (.one false divider) parentheses first second).number digits ++ rest) = _ :=
      phone_number classes digits (some '+') gap rfl rfl (isWord_plus classes)
    rw [unsigned, List.cons_append, mark_copied classes (isWord_plus classes) apart,
      scan_whole rfl (fun _ => phone_opens classes) gap (number_nonempty _ digits) _ matched]
    rfl

/-- Between two word characters no match begins. -/
theorem word_copied {before character : Char} (word : classes.isWord before = true)
    (next : classes.isWord character = true) (rest : List Char) :
    ((phoneRegex classes).scan redactedPhone [] 0 (some before) (character :: rest)).1 =
      character :: ((phoneRegex classes).scan redactedPhone [] 0 (some character) rest).1 := by
  have absent : (phoneRegex classes).width (some before) (character :: rest ++ []) = none := by
    rw [width, widths, phoneRegex_parts, wordBoundary, ends_boundary_followedBy]
    simp [word, next]
  rw [scan_copy absent]
  rfl

/-- A character with which no match begins is copied. -/
theorem unopened_copied {character : Char} (nonword : classes.isWord character = false)
    (plus : character ≠ '+') (parenthesis : character ≠ '(') (before : Option Char)
    (rest : List Char) :
    ((phoneRegex classes).scan redactedPhone [] 0 before (character :: rest)).1 =
      character :: ((phoneRegex classes).scan redactedPhone [] 0 (some character) rest).1 := by
  rw [scan_copy (width_none_of_firsts rfl
    (phone_unopened classes nonword plus parenthesis) before (rest ++ []))]
  rfl

/-- Where no match begins with the first of some digits, they are all copied. -/
theorem block_copied {first : Char} {block : List Char}
    (digits : ∀ character ∈ first :: block, classes.isDigit character = true)
    {before : Option Char} {rest : List Char}
    (absent : (phoneRegex classes).width before (first :: block ++ rest) = none) :
    ∃ last, classes.isDigit last = true ∧
      ((phoneRegex classes).scan redactedPhone [] 0 before (first :: block ++ rest)).1 =
        first :: block ++ ((phoneRegex classes).scan redactedPhone [] 0 (some last) rest).1 := by
  have step : ((phoneRegex classes).scan redactedPhone [] 0 before (first :: block ++ rest)).1 =
      first :: ((phoneRegex classes).scan redactedPhone [] 0 (some first) (block ++ rest)).1 := by
    have here : (phoneRegex classes).width before (first :: (block ++ rest) ++ []) = none := by
      rw [List.append_nil]
      exact absent
    rw [List.cons_append, scan_copy here]
    rfl
  rw [step]
  clear step absent
  induction block generalizing first with
  | nil => exact ⟨first, digits first List.mem_cons_self, rfl⟩
  | cons second block inductionHypothesis =>
    obtain ⟨here, later⟩ := List.forall_mem_cons.mp digits
    obtain ⟨last, digit, copied⟩ := inductionHypothesis later
    refine ⟨last, digit, ?_⟩
    rw [List.cons_append, word_copied classes (classes.word_of_digit first here)
      (classes.word_of_digit second (later second List.mem_cons_self)), copied]
    rfl

/-! ## The card pass -/

theorem wall_nonword {wall : Char} (isWall : IsWall wall) : classes.isWord wall = false := by
  obtain space | rfl := isWall
  · exact classes.word_of_whitespace wall space
  · exact classes.word_ascii ']' (by decide)

/-- Behind a wall the card pattern goes on with a digit. -/
theorem card_remainders {wall mark : Char} (isWall : IsWall wall)
    (nonword : classes.isWord mark = false) {remainder : Regex Char}
    (listed : remainder ∈ (cardRegex classes).remainders wall) :
    remainder.nullable = false ∧ remainder.firsts mark = false := by
  have nondigit := isDigit_of_nonword classes nonword
  have noDigits (count : ℕ) : (digits classes count).remainders wall = [] :=
    remainders_of_reads (by
      rw [reads_digits, isDigit_of_nonword classes (wall_nonword classes isWall), Bool.and_false])
  have begins (count : ℕ) : (digits classes (count + 1)).nullable = false ∧
      (digits classes (count + 1)).firsts mark = false := by
    simp [digits, times, nullable, firsts, nondigit]
  cases separates : isCardSeparator wall <;>
    simp [cardRegex, sequence, times, remainders, wordBoundary, cardSeparator, Regex.optional,
      noDigits, separates] at listed
  obtain rfl | rfl | rfl := listed <;> simp [nullable, firsts, begins]

/-- The card pass treats what stands before a wall in the same way whatever follows a mark
behind it, and copies the mark. -/
theorem card_pass {front : List Char} (walled : Walled front) {mark : Char}
    (nonword : classes.isWord mark = false) : ∃ written, ∀ rest,
      (cardRegex classes).replaceAll redactedCard (front ++ mark :: rest) =
        written ++ mark :: ((cardRegex classes).scan redactedCard [] 0 (some mark) rest).1 := by
  have unopened : (cardRegex classes).firsts mark = false := by
    simp [cardRegex, sequence, firsts, nullable, wordBoundary, digits, times,
      isDigit_of_nonword classes nonword]
  have scanned : ∃ written, ∀ rest,
      (cardRegex classes).scan redactedCard (mark :: rest) 0 none front = (written, 0) := by
    obtain rfl | ⟨front, wall, rfl⟩ := front.eq_nil_or_concat
    · exact ⟨[], fun rest => scan_nil (mark :: rest) 0 none⟩
    · rw [List.concat_eq_append] at walled ⊢
      have none' (remainder) (listed : remainder ∈ (cardRegex classes).remainders wall)
          (rest : List Char) : remainder.width (some wall) (mark :: rest) = none := by
        obtain ⟨proper, apart⟩ := card_remainders classes (walled wall (by simp)) nonword listed
        exact width_none_of_firsts proper apart (some wall) rest
      have outside (rest : List Char) : ((cardRegex classes).scan redactedCard (mark :: rest) 0 none
          (front ++ [wall])).2 = 0 := by
        obtain outside | ⟨remainder, listed, found⟩ : ((cardRegex classes).scan redactedCard
            (mark :: rest) 0 none (front ++ [wall])).2 = 0 ∨ _ := scan_overrun (Nat.zero_le _) none
        · exact outside
        · rw [none' remainder listed] at found
          cases found
      refine ⟨((cardRegex classes).scan redactedCard [mark] 0 none (front ++ [wall])).1,
        fun rest => ?_⟩
      have same : (cardRegex classes).scan redactedCard (mark :: rest) 0 none (front ++ [wall]) =
          (cardRegex classes).scan redactedCard [mark] 0 none (front ++ [wall]) := by
        refine scan_across_congr (fun remainder listed => ?_) front 0 none
        rw [List.head?_eq_none_iff.mp (none' remainder listed rest),
          List.head?_eq_none_iff.mp (none' remainder listed [])]
      rw [same]
      exact Prod.ext rfl (outside [])
  obtain ⟨written, scanned⟩ := scanned
  refine ⟨written, fun rest => ?_⟩
  rw [replaceAll, scan_append, List.append_nil, scanned,
    scan_copy (width_none_of_firsts rfl unopened _ (rest ++ []))]
  rfl

/-- A group of three digits is no group of a card number. -/
theorem card_three {a b c mark : Char} (digitA : classes.isDigit a = true)
    (digitB : classes.isDigit b = true) (digitC : classes.isDigit c = true)
    (stop : classes.isDigit mark = false) (before : Option Char) (rest : List Char) :
    (cardRegex classes).width before (a :: b :: c :: mark :: rest) = none := by
  simp [width, widths, cardRegex, sequence, times, wordBoundary, digitA, digitB, digitC, stop]

/-- Seven digits are not two groups of a card number. -/
theorem card_seven {digits : PhoneDigits} {rest : List Char}
    (stop : ∀ character ∈ rest.head?, classes.isDigit character = false) (before : Option Char) :
    (cardRegex classes).width before (digits.exchange ++ (digits.line ++ rest)) = none := by
  have apart : ∀ digit, isCardSeparator (digitCharacter digit) = false := by decide
  simp [width, widths, cardRegex, sequence, times, wordBoundary, cardSeparator, Regex.optional,
    PhoneDigits.exchange, PhoneDigits.line, apart, digits_stop classes stop]

/-! ## Digits that are left -/

/-- No number begins with a digit other than one from which no area code goes on. -/
theorem phone_absent {first : Char} {rest : List Char} (digit : classes.isDigit first = true)
    (other : first ≠ '1') (before : Option Char)
    (area : (areaPart classes).ends (before, first :: rest) = []) :
    (phoneRegex classes).width before (first :: rest) = none := by
  have plus : first ≠ '+' := by
    rintro rfl
    rw [isDigit_plus] at digit
    nomatch digit
  rw [width, widths, phoneRegex_parts, wordBoundary, ends_boundary_followedBy, country_ends, area]
  simp [plus, other]

/-- The same digit ten times. -/
def repeated (digit : Fin 10) : PhoneDigits := fun _ => digit

/-- No digit but one is written as a one. -/
theorem repeated_other {digit : Fin 10} (other : digit ≠ 1) : digitCharacter digit ≠ '1' := by
  revert digit
  decide

/-- When the phone pass has left a mark and a digit behind it, and the card pass finds no match
at the digit, the digit is in the text that is given out. -/
theorem digit_shown {front : List Char} (walled : Walled front) {mark : Char}
    (nonword : classes.isWord mark = false) {outputs : PhoneDigits → List Char}
    (left : ∀ digit, digit ≠ 1 → ∃ rest,
      outputs (repeated digit) = front ++ mark :: digitCharacter digit :: rest ∧
        (cardRegex classes).width (some mark) (digitCharacter digit :: rest) = none) :
    ¬ ∀ digits other, (cardRegex classes).replaceAll redactedCard (outputs digits) =
      (cardRegex classes).replaceAll redactedCard (outputs other) := by
  intro same
  obtain ⟨written, passed⟩ := card_pass classes walled nonword
  have shown (digit : Fin 10) (other : digit ≠ 1) : ∃ rest,
      (cardRegex classes).replaceAll redactedCard (outputs (repeated digit)) =
        written ++ mark :: digitCharacter digit :: rest := by
    obtain ⟨rest, copied, absent⟩ := left digit other
    rw [← List.append_nil (digitCharacter digit :: rest), List.cons_append] at absent
    rw [copied, passed, scan_copy absent]
    exact ⟨_, rfl⟩
  obtain ⟨rest, two⟩ := shown 2 (by decide)
  obtain ⟨rest', three⟩ := shown 3 (by decide)
  have equal := same (repeated 2) (repeated 3)
  rw [two, three] at equal
  simp at equal
  exact absurd equal.1 (by decide)

/-- Digits are copied together with the mark behind them. -/
theorem block_mark_copied {first mark : Char} {block more : List Char}
    (digits : ∀ character ∈ first :: block, classes.isDigit character = true)
    (nonword : classes.isWord mark = false) (plus : mark ≠ '+') (parenthesis : mark ≠ '(')
    {before : Option Char}
    (absent : (phoneRegex classes).width before (first :: block ++ mark :: more) = none) :
    ((phoneRegex classes).scan redactedPhone [] 0 before (first :: block ++ mark :: more)).1 =
      first :: block ++
        mark :: ((phoneRegex classes).scan redactedPhone [] 0 (some mark) more).1 := by
  obtain ⟨last, _, copied⟩ := block_copied classes digits absent
  rw [copied, unopened_copied classes nonword plus parenthesis]

theorem area_digits (digits : PhoneDigits) :
    ∀ character ∈ digits.area, classes.isDigit character = true := by
  simp [PhoneDigits.area]

theorem exchange_digits (digits : PhoneDigits) :
    ∀ character ∈ digits.exchange, classes.isDigit character = true := by
  simp [PhoneDigits.exchange]

theorem line_digits (digits : PhoneDigits) :
    ∀ character ∈ digits.line, classes.isDigit character = true := by
  simp [PhoneDigits.line]

/-- An area code in parentheses is copied. -/
theorem parenthesis_copied {digits : PhoneDigits} (other : digitCharacter (digits 0) ≠ '1')
    {before : Option Char} (apart : before.any classes.isWord = false) (more : List Char) :
    ∃ rest, ((phoneRegex classes).scan redactedPhone [] 0 before
        ('(' :: (digits.area ++ ')' :: more))).1 = '(' :: (digits.area ++ ')' :: rest) := by
  have absent : (phoneRegex classes).width (some '(') (digits.area ++ ')' :: more) = none :=
    phone_absent classes (isDigit_digitCharacter classes _) other _ (area_closed classes digits _)
  have copied := block_mark_copied classes (area_digits classes digits) (isWord_close classes)
    (by decide) (by decide) absent
  refine ⟨((phoneRegex classes).scan redactedPhone [] 0 (some ')') more).1, ?_⟩
  rw [mark_copied classes (isWord_open classes) apart]
  exact congrArg ('(' :: ·) copied

/-- The last two groups of a number are copied, and the card pass finds no number in them. -/
theorem exchange_copied {digits : PhoneDigits} (other : digitCharacter (digits 3) ≠ '1')
    {rest : List Char} (gap : Gap rest) (second : Divider) (before : Option Char) :
    ∃ more, ((phoneRegex classes).scan redactedPhone [] 0 before
        (digits.exchange ++ (second.text ++ (digits.line ++ rest)))).1 = digits.exchange ++ more ∧
      ∀ before, (cardRegex classes).width before (digits.exchange ++ more) = none := by
  have absent : (phoneRegex classes).width before
      (digits.exchange ++ (second.text ++ (digits.line ++ rest))) = none :=
    phone_absent classes (isDigit_digitCharacter classes _) other _
      (area_exchange classes digits _ gap second)
  have isDigit := isDigit_digitCharacter classes
  cases second with
  | dash =>
    refine ⟨_, block_mark_copied classes (exchange_digits classes digits) (isWord_dash classes)
      (by decide) (by decide) absent, fun before => ?_⟩
    exact card_three classes (isDigit _) (isDigit _) (isDigit _) (isDigit_dash classes) before _
  | dot =>
    refine ⟨_, block_mark_copied classes (exchange_digits classes digits) (isWord_dot classes)
      (by decide) (by decide) absent, fun before => ?_⟩
    exact card_three classes (isDigit _) (isDigit _) (isDigit _) (isDigit_dot classes) before _
  | absent =>
    have areDigits : ∀ character ∈ digits.exchange ++ digits.line,
        classes.isDigit character = true :=
      List.forall_mem_append.mpr ⟨exchange_digits classes digits, line_digits classes digits⟩
    obtain ⟨last, _, copied⟩ := block_copied classes areDigits absent
    refine ⟨digits.line ++ (phoneRegex classes).replaceAll redactedPhone rest, ?_, fun before => ?_⟩
    · rw [replaceAll, ← (scan_gap rfl (fun _ => phone_opens classes) gap (some last)).1]
      exact copied
    · refine card_seven classes (gap_stop classes ?_) before
      exact (scan_gap rfl (fun _ => phone_opens classes) gap none).2

/-! ## The last group and a card number -/

theorem card_separator_nonword {character : Char}
    (separates : isCardSeparator character = true) : classes.isWord character = false := by
  obtain dash | space := Bool.or_eq_true_iff.mp separates
  · rw [beq_iff_eq.mp dash]
    exact isWord_dash classes
  · exact classes.word_of_whitespace character space

@[simp] theorem cardSeparator_ends (next : Regex Char) (before : Option Char) (character : Char)
    (rest : List Char) :
    (cardSeparator.followedBy next).ends (before, character :: rest) =
      (if isCardSeparator character then next.ends (some character, rest) else []) ++
        next.ends (before, character :: rest) := by
  simp [cardSeparator, Regex.optional]

/-- No card number begins with a group behind which no two groups follow. -/
theorem card_absent {digits : PhoneDigits} {wall : Char}
    (space : Texts.isWhitespace wall = true) {rest : List Char}
    (noGroups : ∀ between next, ((Memcore.digits classes 4).followedBy (cardSeparator.followedBy
      ((((Memcore.digits classes 4).followedBy cardSeparator).followedBy between).followedBy
        next))).ends (some wall, rest) = []) (before : Option Char) :
    (cardRegex classes).width before (digits.line ++ wall :: rest) = none := by
  have separates : isCardSeparator wall = true := by rw [isCardSeparator, space, Bool.or_true]
  have stop : classes.isDigit wall = false :=
    isDigit_of_nonword classes (classes.word_of_whitespace wall space)
  simp [width, widths, cardRegex, sequence, times, wordBoundary, PhoneDigits.line, stop, separates,
    noGroups]

/-- Where digits are matched, they stand. -/
theorem digits_matched {count : ℕ} {next : Regex Char} {before : Option Char} {text : List Char}
    (matched : ((digits classes count).followedBy next).ends (before, text) ≠ []) :
    ∃ group rest, text = group ++ rest ∧ group.length = count ∧
      (∀ character ∈ group, classes.isDigit character = true) ∧
        next.ends (previous before group, rest) ≠ [] := by
  induction count generalizing before text with
  | zero => exact ⟨[], text, rfl, rfl, nofun, by simpa using matched⟩
  | succ count inductionHypothesis =>
    cases text with
    | nil => simp at matched
    | cons character text =>
      rw [digits_succ] at matched
      split at matched
      · next digit =>
        obtain ⟨group, rest, rfl, rfl, areDigits, goesOn⟩ := inductionHypothesis matched
        refine ⟨character :: group, rest, rfl, rfl, List.forall_mem_cons.mpr ⟨digit, areDigits⟩, ?_⟩
        rwa [Scanners.previous_cons]
      · exact absurd rfl matched

/-- The first character behind a place where no digit stands is no digit after the phone pass. -/
theorem phone_stop {rest : List Char}
    (stop : ∀ character ∈ rest.head?, classes.isDigit character = false) (before : Option Char) :
    ∀ character ∈ ((phoneRegex classes).scan redactedPhone [] 0 before rest).1.head?,
      classes.isDigit character = false := by
  cases rest with
  | nil => simp
  | cons character rest =>
    obtain ⟨written, later, scanned, outcome⟩ :=
      scan_cons (phoneRegex classes) redactedPhone [] 0 before character rest
    rw [scanned, write_fst]
    obtain ⟨skips, _⟩ | ⟨_, _, rfl⟩ | ⟨_, rfl, _⟩ := outcome
    · omega
    · exact fun first begins => stop first begins
    · rintro first ⟨⟩
      exact classes.digit_ascii '[' (by decide)

theorem cardSeparator_of_digit {character : Char} (digit : classes.isDigit character = true) :
    isCardSeparator character = false := by
  rw [Bool.eq_false_iff]
  intro separates
  rw [isDigit_of_nonword classes (card_separator_nonword classes separates)] at digit
  nomatch digit

/-- Where the phone pass would go on from the last group of a number, the card pass does not. -/
theorem no_groups {wall : Char} {rest : List Char}
    (matched : (exchangePart classes).ends (some wall, rest) ≠ []) (between next : Regex Char) :
    ((digits classes 4).followedBy (cardSeparator.followedBy
      ((((digits classes 4).followedBy cardSeparator).followedBy between).followedBy next))).ends
        (some wall, ((phoneRegex classes).scan redactedPhone [] 0 (some wall) rest).1) = [] := by
  obtain ⟨group, rest, rfl, three, areDigits, parts⟩ := digits_matched classes matched
  have goesOn : (separator.followedBy (linePart classes)).ends
      (previous (some wall) group, rest) ≠ [] := parts
  obtain ⟨a, b, c, rfl⟩ := List.length_eq_three.mp three
  obtain ⟨digitA, digitB, digitC⟩ : classes.isDigit a = true ∧ classes.isDigit b = true ∧
      classes.isDigit c = true := by simpa using areDigits
  cases found : (phoneRegex classes).width (some wall) ([a, b, c] ++ rest) with
  | some width =>
    -- A number begins here, and its replacement begins with no digit.
    obtain ⟨_, fits⟩ := width_fits found
    cases width with
    | zero => cases fits.empty rfl
    | succ width =>
      have here : (phoneRegex classes).width (some wall) (a :: ([b, c] ++ rest) ++ []) =
          some (width + 1) := by
        rw [List.append_nil]
        exact found
      rw [List.cons_append, scan_match here]
      exact digits_stop classes (by rintro _ ⟨⟩; exact classes.digit_ascii '[' (by decide)) 3 _ _
  | none =>
    cases rest with
    | nil => exact absurd (by simp [linePart, sequence]) goesOn
    | cons d rest =>
      cases digitD : classes.isDigit d with
      | false =>
        obtain ⟨last, _, copied⟩ := block_copied classes areDigits found
        have stop := @phone_stop classes (d :: rest) (by rintro _ ⟨⟩; exact digitD) (some last)
        rw [copied]
        simp [digitA, digitB, digitC, digits_stop classes stop]
      | true =>
        rw [separator_ends, separator_of_digit classes digitD] at goesOn
        obtain ⟨line, rest, split, four, lineDigits, bounded⟩ := digits_matched classes goesOn
        obtain ⟨d', e, f, g, rfl⟩ : ∃ d e f g, line = [d, e, f, g] := by
          rcases line with _ | ⟨d, _ | ⟨e, _ | ⟨f, _ | ⟨g, _ | ⟨_, _⟩⟩⟩⟩⟩ <;>
            first | exact ⟨_, _, _, _, rfl⟩ | simp at four
        rw [split] at found ⊢
        have bounded : (wordBoundary classes).ends (some g, rest) ≠ [] := bounded
        obtain ⟨digitD, digitE, digitF, digitG⟩ : classes.isDigit d' = true ∧
          classes.isDigit e = true ∧ classes.isDigit f = true ∧ classes.isDigit g = true := by
            simpa using lineDigits
        have word : (some g).any classes.isWord = true := classes.word_of_digit g digitG
        have stop : ∀ character ∈ rest.head?, classes.isDigit character = false := by
          intro character first
          refine isDigit_of_nonword classes ?_
          rw [Bool.eq_false_iff]
          intro next
          refine bounded ?_
          rw [wordBoundary_ends, Option.mem_def.mp first]
          exact if_pos (word.trans next.symm)
        obtain ⟨last, _, copied⟩ := block_copied classes
          (List.forall_mem_append.mpr ⟨areDigits, lineDigits⟩) found
        have copied' : ((phoneRegex classes).scan redactedPhone [] 0 (some wall)
            ([a, b, c] ++ ([d', e, f, g] ++ rest))).1 = _ := copied
        rw [copied']
        simp [digitA, digitB, digitC, digitD, digitE, digitF, digitG,
          digits_stop classes (phone_stop classes stop (some last)),
          cardSeparator_of_digit classes]

/-- The last group of a number is copied where no number begins with it. -/
theorem line_copied {digits : PhoneDigits} {rest : List Char} (gap : Gap rest)
    {before : Option Char}
    (absent : (phoneRegex classes).width before (digits.line ++ rest) = none) :
    ((phoneRegex classes).scan redactedPhone [] 0 before (digits.line ++ rest)).1 =
      digits.line ++ (phoneRegex classes).replaceAll redactedPhone rest := by
  obtain ⟨last, _, copied⟩ := block_copied classes (line_digits classes digits) absent
  rw [replaceAll, ← (scan_gap rfl (fun _ => phone_opens classes) gap (some last)).1]
  exact copied

theorem area_three (digits : PhoneDigits) (before : Option Char) (rest : List Char) :
    (areaPart classes).ends (before, digitCharacter (digits 7) :: digitCharacter (digits 8) ::
        digitCharacter (digits 9) :: rest) =
      (separator.followedBy (exchangePart classes)).ends
        (some (digitCharacter (digits 9)), rest) := by
  simp [areaPart, exchangePart, areaCode, sequence, anyOf]

/-- Where a card number begins with the last group of a number, no phone number does. -/
theorem line_unmatched {digits : PhoneDigits} {rest : List Char} (gap : Gap rest) {mark : Char}
    (card : (cardRegex classes).width (some mark)
      (digits.line ++ (phoneRegex classes).replaceAll redactedPhone rest) ≠ none)
    (before : Option Char) :
    (phoneRegex classes).width before (digits.line ++ rest) = none := by
  have unmatched : (separator.followedBy (exchangePart classes)).ends
      (some (digitCharacter (digits 9)), rest) = [] := by
    cases rest with
    | nil => simp [exchangePart, sequence]
    | cons wall rest =>
      have space := gap wall rfl
      have separates : isSeparator wall = true := by rw [isSeparator, space, Bool.or_true]
      have nonword := classes.word_of_whitespace wall space
      have here :
          (exchangePart classes).ends (some (digitCharacter (digits 9)), wall :: rest) = [] :=
        digits_gap classes gap 2 _ _
      rw [separator_ends, if_pos separates, here, List.append_nil]
      by_contra matched
      refine card ?_
      rw [replaceAll, scan_copy (width_none_of_firsts rfl (phone_opens classes space) none _)]
      exact card_absent classes space (no_groups classes matched) (some mark)
  have area := area_line classes digits before gap
  have three (before : Option Char) := area_three classes digits before rest
  simp only [PhoneDigits.line, List.cons_append, List.nil_append] at area ⊢
  rw [width, widths, phoneRegex_parts, wordBoundary, ends_boundary_followedBy, country_ends, area,
    separator_ends, three, unmatched]
  simp

/-! ## Numbers that are shown -/

theorem parenthesized_number {form : PhoneForm} (parentheses : form.parentheses = true)
    (digits : PhoneDigits) : form.number digits = form.country.text ++ '(' :: (digits.area ++
      ')' :: (form.first.text ++ (digits.exchange ++ (form.second.text ++ digits.line)))) := by
  simp [PhoneForm.number, PhoneForm.areaText, parentheses]

/-- An area code in parentheses is shown where the phone pass comes to it. -/
theorem area_shown {front : List Char} (walled : Walled front) {before : Option Char}
    (apart : before.any classes.isWord = false) (more : PhoneDigits → List Char)
    {outputs : PhoneDigits → List Char}
    (left : ∀ digits, outputs digits = front ++ ((phoneRegex classes).scan redactedPhone [] 0 before
      ('(' :: (digits.area ++ ')' :: more digits))).1) :
    ¬ ∀ digits other, (cardRegex classes).replaceAll redactedCard (outputs digits) =
      (cardRegex classes).replaceAll redactedCard (outputs other) := by
  refine digit_shown classes walled (isWord_open classes) fun digit other => ?_
  obtain ⟨rest, copied⟩ := @parenthesis_copied classes (repeated digit) (repeated_other other)
    before apart (more (repeated digit))
  have isDigit := isDigit_digitCharacter classes digit
  exact ⟨_, by rw [left, copied]; rfl,
    card_three classes isDigit isDigit isDigit (isDigit_close classes) _ rest⟩

/-- A number that begins with a parenthesis is shown, when no match reaches it. -/
theorem parenthesis_shown {front rest : List Char} (spaced : EndsInGap front) (gap : Gap rest)
    {form : PhoneForm} (outside : (phoneReach classes front form).2 = 0)
    (keeps : EndsInGap (phoneReach classes front form).1)
    (opens : form.opensParenthesis = true) :
    ¬ ∀ digits other,
      (cardRegex classes).replaceAll redactedCard ((phoneRegex classes).replaceAll redactedPhone
          (front ++ (form.number digits ++ rest))) =
        (cardRegex classes).replaceAll redactedCard ((phoneRegex classes).replaceAll redactedPhone
          (front ++ (form.number other ++ rest))) := by
  obtain ⟨country, parentheses⟩ : form.country = .absent ∧ form.parentheses = true := by
    simpa [PhoneForm.opensParenthesis] using opens
  refine area_shown classes keeps.walled (previous_nonword classes spaced)
    (fun digits => form.first.text ++ (digits.exchange ++ (form.second.text ++
      (digits.line ++ rest)))) fun digits => ?_
  rw [phone_pass classes spaced gap (List.nil_append _).symm outside, Scanners.previous_nil,
    parenthesized_number parentheses, country]
  simp [CountryCode.text]

/-- The part of a number from the parenthesis of its area code on. -/
def PhoneForm.fromParenthesis (form : PhoneForm) (digits : PhoneDigits) : List Char :=
  '(' :: (digits.area ++ ')' :: (form.first.text ++ (digits.exchange ++ (form.second.text ++
    digits.line))))

theorem walled_of_bracket {front : List Char} (bracket : front.getLast? = some ']') :
    Walled front := by
  rw [Walled, bracket]
  rintro _ ⟨⟩
  exact .inr rfl

/-- The area code is shown when a bearer token ends before its parenthesis. -/
theorem token_shown {front : List Char} (bracket : front.getLast? = some ']') (rest : List Char)
    (form : PhoneForm) :
    ¬ ∀ digits other,
      (cardRegex classes).replaceAll redactedCard ((phoneRegex classes).replaceAll redactedPhone
          (front ++ (form.fromParenthesis digits ++ rest))) =
        (cardRegex classes).replaceAll redactedCard ((phoneRegex classes).replaceAll redactedPhone
          (front ++ (form.fromParenthesis other ++ rest))) := by
  have nonword : classes.isWord ']' = false := classes.word_ascii ']' (by decide)
  have unread : (phoneRegex classes).reads ']' = false := by
    simp [phoneRegex, sequence, reads, wordBoundary, Regex.optional, countryCode, areaCode,
      separator, anyOf, reads_digits, isDigit_of_nonword classes nonword]
    decide
  have closed : ∀ character ∈ front.getLast?, (phoneRegex classes).reads character = false := by
    rw [bracket]
    rintro _ ⟨⟩
    exact unread
  obtain ⟨_, last⟩ := scan_walled redactedPhone rfl closed []
  have walled : Walled ((phoneRegex classes).replaceAll redactedPhone front) :=
    walled_of_bracket (last.trans bracket)
  have apart : (some ']').any classes.isWord = false := nonword
  refine area_shown classes walled apart
    (fun digits => form.first.text ++ (digits.exchange ++ (form.second.text ++
      (digits.line ++ rest)))) fun digits => ?_
  have behind : previous none front = some ']' := by rw [previous, bracket]; rfl
  rw [replaceAll, scan_append, List.append_nil, (scan_walled redactedPhone rfl closed _).1, behind,
    PhoneForm.fromParenthesis]
  simp

theorem divider_mark {divider : Divider} (divided : divider ≠ .absent) :
    ∃ mark, divider.text = [mark] ∧ classes.isWord mark = false ∧ mark ≠ '+' ∧ mark ≠ '(' := by
  cases divider with
  | dash => exact ⟨'-', rfl, isWord_dash classes, by decide, by decide⟩
  | dot => exact ⟨'.', rfl, isWord_dot classes, by decide, by decide⟩
  | absent => exact absurd rfl divided

/-- The last seven digits are shown when a match ends behind the area code. -/
theorem exchange_shown {front rest : List Char} (spaced : EndsInGap front) (gap : Gap rest)
    {form : PhoneForm} (reached : (phoneReach classes front form).2 = 4)
    (bracket : (phoneReach classes front form).1.getLast? = some ']')
    (torn : form.tornBehindArea = true) :
    ¬ ∀ digits other,
      (cardRegex classes).replaceAll redactedCard ((phoneRegex classes).replaceAll redactedPhone
          (front ++ (form.number digits ++ rest))) =
        (cardRegex classes).replaceAll redactedCard ((phoneRegex classes).replaceAll redactedPhone
          (front ++ (form.number other ++ rest))) := by
  obtain ⟨⟨country, bare⟩, divided⟩ : (form.country = .one false .absent ∧
      form.parentheses = false) ∧ form.first ≠ .absent := by
    simpa [PhoneForm.tornBehindArea] using torn
  obtain ⟨mark, written, nonword, plus, parenthesis⟩ := divider_mark classes divided
  have split (digits : PhoneDigits) : form.number digits = ('1' :: digits.area) ++
      mark :: (digits.exchange ++ (form.second.text ++ digits.line)) := by
    have undivided : Divider.absent.text = [] := rfl
    simp [PhoneForm.number, PhoneForm.areaText, country, bare, written, CountryCode.text, undivided]
  refine digit_shown classes (walled_of_bracket bracket) nonword fun digit other => ?_
  obtain ⟨more, copied, absent⟩ := @exchange_copied classes (repeated digit)
    (repeated_other other) rest gap form.second (some mark)
  refine ⟨_, ?_, absent (some mark)⟩
  rw [phone_pass classes spaced gap (split _) reached, List.cons_append,
    unopened_copied classes nonword plus parenthesis, List.append_assoc, List.append_assoc, copied]
  rfl

theorem card_respects : (cardRegex classes).Respects SamePhoneCharacter := by
  have digit : ∀ character other, SamePhoneCharacter character other →
      classes.isDigit character = classes.isDigit other := digits_alike (by simp)
  have word : ∀ character other, SamePhoneCharacter character other →
      classes.isWord character = classes.isWord other := digits_alike (by simp)
  have separator : ∀ character other, SamePhoneCharacter character other →
      isCardSeparator character = isCardSeparator other := digits_alike (by decide)
  simp only [cardRegex, sequence, times, digits, cardSeparator, Regex.optional, wordBoundary,
    Respects]
  and_intros <;> first | exact digit | exact word | exact separator | trivial

/-- A card number that begins with a group of digits takes all of them. -/
theorem card_over {digits : PhoneDigits} {rest : List Char} {before : Option Char} {width : ℕ}
    (found : (cardRegex classes).width before (digits.line ++ rest) = some width) :
    ∃ past, width = digits.line.length + past := by
  obtain ⟨place, ended, rfl⟩ := List.mem_map.mp (List.mem_of_mem_head? found)
  obtain ⟨part, ended⟩ : ∃ part : Regex Char,
      place ∈ part.ends (some (digitCharacter (digits 9)), rest) := by
    simp [cardRegex, sequence, times, wordBoundary, PhoneDigits.line] at ended
    exact ⟨_, ended.2⟩
  have short := ends_length ended
  refine ⟨rest.length - place.2.length, ?_⟩
  rw [List.length_append]
  omega

/-- Whether the card pattern takes the last group of a number together with the text behind it. -/
def CardTakesLine (form : PhoneForm) (rest : List Char) : Prop :=
  (cardRegex classes).width form.second.text.head?
    (zeros.line ++ (phoneRegex classes).replaceAll redactedPhone rest) ≠ none

theorem card_width_line (digits : PhoneDigits) (before : Option Char) (rest : List Char) :
    (cardRegex classes).width before (digits.line ++ rest) =
      (cardRegex classes).width before (zeros.line ++ rest) := by
  have digit (first second : Fin 10) :
      SamePhoneCharacter (digitCharacter first) (digitCharacter second) :=
    .inr ⟨first, second, rfl, rfl⟩
  have alike : List.Forall₂ SamePhoneCharacter (digits.line ++ rest) (zeros.line ++ rest) :=
    .cons (digit _ _) (.cons (digit _ _) (.cons (digit _ _) (.cons (digit _ _) (same_refl rest))))
  refine width_alike (card_respects classes) ?_ alike
  cases before with
  | none => exact .none
  | some character => exact .some (.inl rfl)

/-- When a match ends before the last group, the phone pass leaves that group, unless a number
begins with it. -/
theorem line_left {front rest : List Char} (spaced : EndsInGap front) (gap : Gap rest)
    {form : PhoneForm} (reached : (phoneReach classes front form).2 = 7)
    (torn : form.tornBeforeLine = true) :
    ∃ mark, form.second.text.head? = some mark ∧ classes.isWord mark = false ∧ ∀ digits,
      (phoneRegex classes).width (some mark) (PhoneDigits.line digits ++ rest) = none →
      (phoneRegex classes).replaceAll redactedPhone (front ++ (form.number digits ++ rest)) =
        (phoneReach classes front form).1 ++ mark ::
          (digits.line ++ (phoneRegex classes).replaceAll redactedPhone rest) := by
  obtain ⟨⟨⟨country, bare⟩, joined⟩, divided⟩ : ((form.country = .one false .absent ∧
      form.parentheses = false) ∧ form.first = .absent) ∧ form.second ≠ .absent := by
    simpa [PhoneForm.tornBeforeLine] using torn
  obtain ⟨mark, written, nonword, plus, parenthesis⟩ := divider_mark classes divided
  refine ⟨mark, by rw [written]; rfl, nonword, fun digits absent => ?_⟩
  have split : form.number digits = ('1' :: (digits.area ++ digits.exchange)) ++
      mark :: digits.line := by
    have undivided : Divider.absent.text = [] := rfl
    simp [PhoneForm.number, PhoneForm.areaText, country, bare, joined, written, CountryCode.text,
      undivided]
  rw [phone_pass classes spaced gap split reached, List.cons_append,
    unopened_copied classes nonword plus parenthesis, line_copied classes gap absent]

/-- The last four digits are shown when a match ends before them and no card number begins with
them. -/
theorem line_shown {front rest : List Char} (spaced : EndsInGap front) (gap : Gap rest)
    {form : PhoneForm} (reached : (phoneReach classes front form).2 = 7)
    (bracket : (phoneReach classes front form).1.getLast? = some ']')
    (torn : form.tornBeforeLine = true) (noCard : ¬ CardTakesLine classes form rest) :
    ¬ ∀ digits other,
      (cardRegex classes).replaceAll redactedCard ((phoneRegex classes).replaceAll redactedPhone
          (front ++ (form.number digits ++ rest))) =
        (cardRegex classes).replaceAll redactedCard ((phoneRegex classes).replaceAll redactedPhone
          (front ++ (form.number other ++ rest))) := by
  obtain ⟨mark, written, nonword, left⟩ := line_left classes spaced gap reached torn
  rw [CardTakesLine, written, not_not] at noCard
  refine digit_shown classes (walled_of_bracket bracket) nonword fun digit other => ?_
  have absent : (phoneRegex classes).width (some mark) ((repeated digit).line ++ rest) = none :=
    phone_absent classes (isDigit_digitCharacter classes _) (repeated_other other) _
      (area_line classes (repeated digit) _ gap)
  exact ⟨_, left (repeated digit) absent,
    (card_width_line classes (repeated digit) _ _).trans noCard⟩

/-- The last four digits are hidden when a card number begins with them. -/
theorem line_hidden {front rest : List Char} (spaced : EndsInGap front) (gap : Gap rest)
    {form : PhoneForm} (reached : (phoneReach classes front form).2 = 7)
    (bracket : (phoneReach classes front form).1.getLast? = some ']')
    (torn : form.tornBeforeLine = true) (card : CardTakesLine classes form rest)
    (digits other : PhoneDigits) :
    (cardRegex classes).replaceAll redactedCard ((phoneRegex classes).replaceAll redactedPhone
        (front ++ (form.number digits ++ rest))) =
      (cardRegex classes).replaceAll redactedCard ((phoneRegex classes).replaceAll redactedPhone
        (front ++ (form.number other ++ rest))) := by
  obtain ⟨mark, marked, nonword, left⟩ := line_left classes spaced gap reached torn
  obtain ⟨written, passed⟩ := card_pass classes (walled_of_bracket bracket) nonword
  rw [CardTakesLine, marked, Option.ne_none_iff_exists'] at card
  obtain ⟨width, found⟩ := card
  obtain ⟨past, rfl⟩ := card_over classes found
  have output (digits : PhoneDigits) :
      (cardRegex classes).replaceAll redactedCard ((phoneRegex classes).replaceAll redactedPhone
          (front ++ (form.number digits ++ rest))) =
        written ++ mark :: (redactedCard ++
          ((cardRegex classes).scan redactedCard [] past (some (digitCharacter (zeros 9)))
            ((phoneRegex classes).replaceAll redactedPhone rest)).1) := by
    have nonempty : digits.line ≠ [] := List.cons_ne_nil _ _
    have here : (cardRegex classes).width (some mark)
        (digits.line ++ (phoneRegex classes).replaceAll redactedPhone rest) =
          some (digits.line.length + past) := (card_width_line classes digits _ _).trans found
    have unmatched := line_unmatched classes gap (by rw [here]; exact Option.some_ne_none _)
      (some mark)
    have same := scan_before_alike (card_respects classes) (fun _ => .inl rfl)
      (.some (.inr ⟨digits 9, zeros 9, rfl, rfl⟩)) redactedCard [] past
      ((phoneRegex classes).replaceAll redactedPhone rest)
    rw [left digits unmatched, passed, scan_over nonempty here, ← same]
    rfl
  rw [output digits, output other]

/-! ## The redactor -/

/-- What the redactor has made of the text before a number when the phone pass begins. -/
def frontText (before : List Char) (form : PhoneForm) : List Char :=
  hideKeys classes (bearerReach before form).1

/-- What the redactor has made of the text behind a number when the phone pass begins. -/
def restText (after : List Char) : List Char :=
  hideKeys classes (bearerRegex.replaceAll redactedBearer after)

/-- The digits of a number between `before` and `after` are hidden: a bearer token takes the
number whole, or it does not reach it and a phone number that begins further left takes it whole,
or it does not reach it either and the number does not begin with a parenthesis, or it leaves the
last four digits and a card number begins with these. -/
def HidesNumber (before : List Char) (form : PhoneForm) (after : List Char) : Prop :=
  (bearerReach before form).2 = (form.number zeros).length ∨
    ((bearerReach before form).2 = 0 ∧
      ((phoneReach classes (frontText classes before form) form).2 = (form.number zeros).length ∨
        ((phoneReach classes (frontText classes before form) form).2 = 0 ∧
          form.opensParenthesis = false) ∨
        ((phoneReach classes (frontText classes before form) form).2 = 7 ∧
          CardTakesLine classes form (restText classes after))))

theorem ten_le_length (form : PhoneForm) (digits : PhoneDigits) :
    10 ≤ (form.number digits).length := by
  cases parentheses : form.parentheses <;>
    simp [PhoneForm.number, PhoneForm.areaText, parentheses, PhoneDigits.area,
      PhoneDigits.exchange, PhoneDigits.line] <;> omega

theorem redactText_outside {before after : List Char} (spaced : EndsInGap before)
    (gap : Gap after) {form : PhoneForm} (outside : (bearerReach before form).2 = 0)
    (keeps : EndsInGap (bearerReach before form).1) :
    EndsInGap (frontText classes before form) ∧ Gap (restText classes after) ∧ ∀ digits,
      redactText classes (before ++ (form.number digits ++ after)) =
        (cardRegex classes).replaceAll redactedCard ((phoneRegex classes).replaceAll redactedPhone
          (frontText classes before form ++ (form.number digits ++ restText classes after))) := by
  have gapToken : Gap (bearerRegex.replaceAll redactedBearer after) :=
    gap_replaceAll redactedBearer bearer_leaves gap
  have passed (digits : PhoneDigits) := hideKeys_number classes keeps.walled
    (number_characters form digits) gapToken
  refine ⟨?_, (passed zeros).2.2, fun digits => ?_⟩
  · rw [EndsInGap, frontText, (passed zeros).2.1]
    exact keeps
  · have scanned := bearer_scan spaced gap form digits
    rw [redactText, replaceAll_leaves bearer_leaves (number_characters form digits) gap
      (scanned.trans (Prod.ext rfl outside))]
    exact congrArg _ (congrArg _ (passed digits).1)

/-- When a bearer token takes the beginning of a number, the other passes see the rest of it. -/
theorem redactText_token {before after : List Char} (spaced : EndsInGap before)
    (gap : Gap after) {form : PhoneForm} {digits : PhoneDigits} {taken left : List Char}
    (split : form.number digits = taken ++ left)
    (reached : (bearerReach before form).2 = taken.length)
    (bracket : (bearerReach before form).1.getLast? = some ']') :
    (frontText classes before form).getLast? = some ']' ∧
      redactText classes (before ++ (form.number digits ++ after)) =
        (cardRegex classes).replaceAll redactedCard ((phoneRegex classes).replaceAll redactedPhone
          (frontText classes before form ++ (left ++ restText classes after))) := by
  have numeric : ∀ character ∈ left, character ∈ phoneCharacters := fun character member =>
    number_characters form digits character
      (by rw [split]; exact List.mem_append_right taken member)
  have gapToken : Gap (bearerRegex.replaceAll redactedBearer after) :=
    gap_replaceAll redactedBearer bearer_leaves gap
  obtain ⟨passed, last, _⟩ :=
    hideKeys_number classes (walled_of_bracket bracket) numeric gapToken
  refine ⟨last.trans bracket, ?_⟩
  have scanned := bearer_scan spaced gap form digits
  rw [split] at scanned ⊢
  rw [redactText, replaceAll_taken bearer_leaves numeric gap
    (scanned.trans (Prod.ext rfl reached))]
  exact congrArg _ (congrArg _ passed)

/-- A bearer token takes a number whole, or what stands before its parenthesis. -/
theorem token_cases {form : PhoneForm} {length : ℕ} (token : form.tokenLength = some length) :
    length = (form.number zeros).length ∨ ∃ divider, form.country = .one false divider ∧
      form.parentheses = true ∧ length = ('1' :: divider.text).length := by
  obtain ⟨country, parentheses, first, second⟩ := form
  cases parentheses with
  | false =>
    left
    obtain _ | ⟨_ | _, divider⟩ := country
    · exact (Option.some.inj token).symm
    · exact (Option.some.inj token).symm
    · nomatch token
  | true =>
    right
    obtain _ | ⟨_ | _, divider⟩ := country
    · nomatch token
    · exact ⟨divider, rfl, rfl, (Option.some.inj token).symm⟩
    · nomatch token

/-- A number between white space is hidden in exactly these cases. -/
theorem number_hidden_iff {before after : List Char} (spaced : EndsInGap before)
    (gap : Gap after) (form : PhoneForm) :
    (∀ digits other, redactText classes (before ++ (form.number digits ++ after)) =
        redactText classes (before ++ (form.number other ++ after))) ↔
      HidesNumber classes before form after := by
  have long := ten_le_length form zeros
  obtain ⟨outside, keeps⟩ | ⟨token, bracket⟩ := bearerReach_cases spaced form
  · obtain ⟨spacedFront, gapRest, redacted⟩ := redactText_outside classes spaced gap outside keeps
    simp only [redacted]
    obtain ⟨unreached, kept⟩ | ⟨bracket, whole | ⟨seven, torn⟩ | ⟨four, torn⟩⟩ :=
      phoneReach_cases classes spacedFront form
    · cases opens : form.opensParenthesis with
      | false =>
        refine iff_of_true (fun digits other => ?_) (.inr ⟨outside, .inr (.inl ⟨unreached, opens⟩)⟩)
        rw [phone_redacted classes spacedFront gapRest unreached opens digits,
          phone_redacted classes spacedFront gapRest unreached opens other]
      | true =>
        refine iff_of_false (parenthesis_shown classes spacedFront gapRest unreached kept opens) ?_
        rintro (none | ⟨_, none | ⟨_, closed⟩ | ⟨seven, _⟩⟩)
        · omega
        · omega
        · rw [opens] at closed
          nomatch closed
        · omega
    · refine iff_of_true (fun digits other => ?_) (.inr ⟨outside, .inl whole⟩)
      rw [phone_taken classes spacedFront gapRest whole digits,
        phone_taken classes spacedFront gapRest whole other]
    · by_cases card : CardTakesLine classes form (restText classes after)
      · exact iff_of_true (line_hidden classes spacedFront gapRest seven bracket torn card)
          (.inr ⟨outside, .inr (.inr ⟨seven, card⟩)⟩)
      · refine iff_of_false (line_shown classes spacedFront gapRest seven bracket torn card) ?_
        rintro (none | ⟨_, none | ⟨none, _⟩ | ⟨_, takes⟩⟩)
        · omega
        · omega
        · omega
        · exact card takes
    · refine iff_of_false (exchange_shown classes spacedFront gapRest four bracket torn) ?_
      rintro (none | ⟨_, none | ⟨none, _⟩ | ⟨seven, _⟩⟩) <;> omega
  · obtain whole | ⟨divider, country, parentheses, part⟩ := token_cases token
    · have redacted (digits : PhoneDigits) := (redactText_token classes spaced gap
        (List.append_nil (form.number digits)).symm
        (whole.trans (length_number form zeros digits)) bracket).2
      exact iff_of_true (fun digits other => by rw [redacted digits, redacted other]) (.inl whole)
    · have split (digits : PhoneDigits) :
          form.number digits = ('1' :: divider.text) ++ form.fromParenthesis digits := by
        rw [parenthesized_number parentheses, country]
        rfl
      have redacted (digits : PhoneDigits) :=
        redactText_token classes spaced gap (split digits) part bracket
      have short : ('1' :: divider.text).length ≤ 2 := by cases divider <;> decide
      have shown := token_shown classes (redacted zeros).1 (restText classes after) form
      refine iff_of_false (fun same => shown fun digits other => ?_) ?_
      · rw [← (redacted digits).2, ← (redacted other).2]
        exact same digits other
      · rintro (whole | ⟨none, _⟩)
        · omega
        · rw [part] at none
          exact absurd none (Nat.succ_ne_zero _)

/-- The digits of the number `555-123-4567`. -/
def sampleDigits : PhoneDigits := [5, 5, 5, 1, 2, 3, 4, 5, 6, 7].get

theorem number_hidden_iff_sample :
    (∀ digits other,
        redactText asciiClasses ("Call ".toList ++
          ((PhoneForm.mk .absent false .dash .dash).number digits ++ " tomorrow".toList)) =
        redactText asciiClasses ("Call ".toList ++
          ((PhoneForm.mk .absent false .dash .dash).number other ++ " tomorrow".toList))) ↔
      HidesNumber asciiClasses "Call ".toList ⟨.absent, false, .dash, .dash⟩ " tomorrow".toList :=
  number_hidden_iff asciiClasses (by unfold EndsInGap; decide) (by decide) _

example : redactText asciiClasses "Call 555-123-4567 tomorrow".toList =
    "Call [REDACTED_PHONE] tomorrow".toList := by decide

/-- A number that begins with a parenthesis is given out as it stands. -/
theorem parenthesized_number_given_out :
    ¬ ∀ (classes : UnicodeClasses) (before after : List Char) (form : PhoneForm),
      EndsInGap before → Gap after → ∀ digits other,
        redactText classes (before ++ (form.number digits ++ after)) =
          redactText classes (before ++ (form.number other ++ after)) := by
  intro hidden
  have shown : redactText asciiClasses ([] ++
      ((PhoneForm.mk .absent true .absent .dash).number sampleDigits ++ [])) =
      "(555)123-4567".toList := by decide +kernel
  have other : redactText asciiClasses ([] ++
      ((PhoneForm.mk .absent true .absent .dash).number zeros ++ [])) =
      "(000)000-0000".toList := by decide +kernel
  have same := hidden asciiClasses [] [] ⟨.absent, true, .absent, .dash⟩ nofun nofun
    sampleDigits zeros
  rw [shown, other] at same
  exact absurd same (by decide)

end Memcore
