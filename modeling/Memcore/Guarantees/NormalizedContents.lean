import Memcore.Engine.Candidates
import Memcore.Foundations.Words

/-!
# Normalized contents

Contents are compared after trimming, lowering, joining their words with single blanks
and dropping punctuation marks from the end, each of these once and in this order. The
words in lowercase decide the result, so that letter case and whitespace do not matter.

Punctuation that stands apart is a word of its own. When such a word is dropped from the
end, the blank before it remains, and neither is the result normalized again nor is it
the result for the content without the marks. This is the only way in which the results
fail to be canonical.
-/
namespace Memcore

open Texts

/-- The punctuation marks that are dropped from the end. -/
def closingMark (character : Char) : Bool := decide (character ∈ ".,!?;:".toList)

def AllMarks (word : String) : Prop := ∀ character ∈ word.toList, closingMark character = true

/-- The text ends with punctuation that stands apart from a word before it. -/
def DetachedMarks (text : String) : Prop :=
  ∃ before last, splitWhitespace text = before ++ [last] ∧ before ≠ [] ∧ AllMarks last

/-- Texts that differ in the case of letters and in the amount of whitespace between words
and at the ends. -/
inductive Varies : String → String → Prop where
  | case {text variant : String} (same : toAsciiLowercase text = toAsciiLowercase variant) :
      Varies text variant
  | before (text : String) {blanks : String}
      (white : ∀ character ∈ blanks.toList, isWhitespace character = true) :
      Varies text (blanks ++ text)
  | after (text : String) {blanks : String}
      (white : ∀ character ∈ blanks.toList, isWhitespace character = true) :
      Varies text (text ++ blanks)
  | within (left right : String) {blank : Char} {blanks : String}
      (first : isWhitespace blank = true)
      (white : ∀ character ∈ blanks.toList, isWhitespace character = true) :
      Varies (left ++ String.singleton blank ++ right)
        (left ++ String.singleton blank ++ blanks ++ right)
  | trans {text variant other : String} (first : Varies text variant)
      (second : Varies variant other) : Varies text other

/-! ## The words in lowercase decide -/

/-- The words of a content in lowercase. -/
def loweredWords (content : String) : List String :=
  (splitWhitespace content).map toAsciiLowercase

theorem normalizeContent_eq (content : String) : normalizeContent content =
    trimEndMatches closingMark (join " " (loweredWords content)) := by
  show trimEndMatches closingMark (join " " (splitWhitespace (toAsciiLowercase (trim content)))) = _
  rw [splitWhitespace_toAsciiLowercase, splitWhitespace_trim, loweredWords]

theorem Varies.loweredWords_eq {text variant : String} (varies : Varies text variant) :
    loweredWords variant = loweredWords text := by
  induction varies with
  | case same =>
    rw [loweredWords, loweredWords, ← splitWhitespace_toAsciiLowercase, ← same,
      splitWhitespace_toAsciiLowercase]
  | before text white =>
    rw [loweredWords, splitWhitespace, String.toList_append, splitWords_blanks white]
    rfl
  | after text white =>
    rw [loweredWords, splitWhitespace, String.toList_append, splitWords_append_blanks _ white]
    rfl
  | within left right first white =>
    have same := splitWords_repeat left.toList right.toList first white
    simp only [loweredWords, splitWhitespace, String.toList_append, String.toList_singleton,
      List.append_assoc, List.cons_append, List.nil_append, same]
  | trans _ _ first second => rw [second, first]

theorem Varies.normalizeContent_eq {text variant : String} (varies : Varies text variant) :
    normalizeContent variant = normalizeContent text := by
  rw [Memcore.normalizeContent_eq, Memcore.normalizeContent_eq, varies.loweredWords_eq]

/-! ## What is dropped from the end -/

theorem closingMark_blank : closingMark ' ' = false := by decide

theorem allMarks_iff (word : String) :
    AllMarks word ↔ word.toList.rdropWhile closingMark = [] := by
  rw [List.rdropWhile_eq_nil_iff]
  rfl

theorem closingMark_toLower (character : Char) :
    closingMark character.toLower = closingMark character := by
  have letter {code : Char} (low : 65 ≤ code.toNat) (high : code.toNat ≤ 122) :
      closingMark code = false := by
    rw [Bool.eq_false_iff]
    intro mark
    simp only [closingMark, decide_eq_true_eq] at mark
    simp [← Char.toNat_inj] at mark
    omega
  obtain same | ⟨low, high, code⟩ := toLower_cases character
  · rw [same]
  · rw [letter low (by omega), letter (by omega) (by omega)]

theorem allMarks_toAsciiLowercase (word : String) :
    AllMarks (toAsciiLowercase word) ↔ AllMarks word := by
  simp [AllMarks, closingMark_toLower]

theorem AllMarks.append {word tail : String} (marks : AllMarks word) (more : AllMarks tail) :
    AllMarks (word ++ tail) := by
  intro character member
  rw [String.toList_append, List.mem_append] at member
  exact member.elim (marks character) (more character)

/-- A last word of marks alone is dropped, and the blank before it is not. -/
theorem trimEnd_join_marks {before : List String} (present : before ≠ []) {last : String}
    (marks : AllMarks last) :
    trimEndMatches closingMark (join " " (before ++ [last])) = join " " before ++ " " := by
  have blank := List.rdropWhile_concat_neg closingMark (join " " before).toList ' '
    (by simp [closingMark_blank])
  rw [← String.toList_inj, toList_trimEndMatches, toList_join_append_one present,
    List.append_cons, rdropWhile_append, if_pos ((allMarks_iff last).mp marks), blank,
    String.toList_append]
  rfl

/-- Other last words keep what they have before their closing marks. -/
theorem trimEnd_join_word (before : List String) {last : String} (word : ¬ AllMarks last) :
    trimEndMatches closingMark (join " " (before ++ [last])) =
      join " " (before ++ [trimEndMatches closingMark last]) := by
  rw [allMarks_iff] at word
  rw [← String.toList_inj, toList_trimEndMatches]
  cases before with
  | nil => exact (toList_trimEndMatches _ _).symm
  | cons first rest =>
    rw [toList_join_append_one (List.cons_ne_nil _ _),
      toList_join_append_one (List.cons_ne_nil _ _), List.append_cons, rdropWhile_append,
      if_neg word, toList_trimEndMatches, ← List.append_cons]

/-! ## Which results end with a blank -/

/-- The words of a text: none, a last one of marks alone, or a last one with more in it. -/
theorem words_cases (text : String) : splitWhitespace text = [] ∨
    ∃ before last, splitWhitespace text = before ++ [last] ∧ (AllMarks last ∨ ¬ AllMarks last) := by
  rcases List.eq_nil_or_concat' (splitWhitespace text) with none | ⟨before, last, split⟩
  · exact .inl none
  · exact .inr ⟨before, last, split, em _⟩

theorem normalizeContent_no_words {text : String} (none : splitWhitespace text = []) :
    normalizeContent text = "" := by
  rw [normalizeContent_eq, loweredWords, none]
  rfl

theorem normalizeContent_only_marks {text last : String} (split : splitWhitespace text = [last])
    (marks : AllMarks last) : normalizeContent text = "" := by
  rw [normalizeContent_eq, loweredWords, split, ← String.toList_inj, toList_trimEndMatches]
  exact (allMarks_iff _).mp ((allMarks_toAsciiLowercase last).mpr marks)

theorem normalizeContent_marks {text last : String} {before : List String}
    (split : splitWhitespace text = before ++ [last]) (present : before ≠ [])
    (marks : AllMarks last) :
    normalizeContent text = join " " (before.map toAsciiLowercase) ++ " " := by
  rw [normalizeContent_eq, loweredWords, split, List.map_append, List.map_singleton,
    trimEnd_join_marks (by simpa using present) ((allMarks_toAsciiLowercase last).mpr marks)]

theorem normalizeContent_word {text last : String} {before : List String}
    (split : splitWhitespace text = before ++ [last]) (word : ¬ AllMarks last) :
    normalizeContent text = join " " (before.map toAsciiLowercase ++
      [trimEndMatches closingMark (toAsciiLowercase last)]) := by
  rw [normalizeContent_eq, loweredWords, split, List.map_append, List.map_singleton,
    trimEnd_join_word _ fun marks => word ((allMarks_toAsciiLowercase last).mp marks)]

theorem isWord_toAsciiLowercase {word : String} (isWord : IsWord word) :
    IsWord (toAsciiLowercase word) := by
  obtain ⟨present, solid⟩ := isWord
  constructor
  · intro empty
    refine present (String.toList_inj.mp ?_)
    have none := congrArg String.toList empty
    rw [toList_toAsciiLowercase] at none
    exact List.map_eq_nil_iff.mp none
  · rw [toList_toAsciiLowercase]
    intro character member
    obtain ⟨source, listed, rfl⟩ := List.mem_map.mp member
    rw [isWhitespace_toLower]
    exact solid source listed

/-- A word with more than marks in it is a word without its closing marks. -/
theorem isWord_trimEnd {word : String} (isWord : IsWord word) (more : ¬ AllMarks word) :
    IsWord (trimEndMatches closingMark word) ∧ ¬ AllMarks (trimEndMatches closingMark word) := by
  rw [allMarks_iff] at more
  refine ⟨⟨?_, ?_⟩, ?_⟩
  · intro empty
    refine more ?_
    rw [← toList_trimEndMatches, empty]
    rfl
  · rw [toList_trimEndMatches]
    intro character member
    exact isWord.2 character ((List.rdropWhile_prefix _ _).subset member)
  · rw [allMarks_iff, toList_trimEndMatches, List.rdropWhile_idempotent]
    exact more

/-- The end of a join of words is the end of a word. -/
theorem getLast?_join_words {words : List String} (areWords : ∀ word ∈ words, IsWord word) :
    (join " " words).toList.getLast? ≠ some ' ' := by
  rcases List.eq_nil_or_concat' words with rfl | ⟨before, last, rfl⟩
  · simp [join]
  · have lastWord := areWords last (by simp)
    have solidEnd : last.toList.getLast? ≠ some ' ' := by
      intro ends
      have solid := lastWord.2 ' ' (List.mem_of_getLast? ends)
      exact absurd solid (by decide)
    have present : last.toList ≠ [] := fun empty => lastWord.1 (String.toList_inj.mp empty)
    cases before with
    | nil => exact solidEnd
    | cons first rest =>
      rw [toList_join_append_one (List.cons_ne_nil _ _), List.append_cons,
        List.getLast?_append_of_ne_nil _ present]
      exact solidEnd

/-- The words of a text in lowercase, those before the last one. -/
theorem words_of_split {text last : String} {before : List String}
    (split : splitWhitespace text = before ++ [last]) :
    (∀ word ∈ before.map toAsciiLowercase, IsWord word) ∧ IsWord (toAsciiLowercase last) := by
  have all : ∀ word ∈ before ++ [last], IsWord word := by
    intro word member
    exact isWord_of_mem_splitWhitespace (split ▸ member)
  constructor
  · intro word member
    obtain ⟨source, listed, rfl⟩ := List.mem_map.mp member
    exact isWord_toAsciiLowercase (all source (List.mem_append_left _ listed))
  · exact isWord_toAsciiLowercase (all last (by simp))

/-- A result ends with a blank if punctuation stood apart at the end. -/
theorem normalizeContent_ends_blank (text : String) :
    (normalizeContent text).toList.getLast? = some ' ' ↔ DetachedMarks text := by
  constructor
  · intro ends
    rcases words_cases text with none | ⟨before, last, split, marks | word⟩
    · rw [normalizeContent_no_words none] at ends
      simp at ends
    · refine ⟨before, last, split, ?_, marks⟩
      rintro rfl
      rw [normalizeContent_only_marks split marks] at ends
      simp at ends
    · obtain ⟨beforeWords, lastWord⟩ := words_of_split split
      have moreThanMarks : ¬ AllMarks (toAsciiLowercase last) :=
        fun marks => word ((allMarks_toAsciiLowercase last).mp marks)
      have trimmed := (isWord_trimEnd lastWord moreThanMarks).1
      rw [normalizeContent_word split word] at ends
      refine absurd ends (getLast?_join_words fun other member => ?_)
      rcases List.mem_append.mp member with earlier | one
      · exact beforeWords other earlier
      · exact List.mem_singleton.mp one ▸ trimmed
  · rintro ⟨before, last, split, present, marks⟩
    rw [normalizeContent_marks split present marks, String.toList_append]
    exact List.getLast?_concat

/-! ## Normalizing twice -/

theorem map_toAsciiLowercase_lowered {words : List String}
    (small : ∀ word ∈ words, ∀ character ∈ word.toList, character.toLower = character) :
    words.map toAsciiLowercase = words := by
  have same : ∀ word ∈ words, toAsciiLowercase word = word :=
    fun word member => toAsciiLowercase_eq_self (small word member)
  rw [List.map_congr_left same, List.map_id']

theorem lowered_toAsciiLowercase (word : String) :
    ∀ character ∈ (toAsciiLowercase word).toList, character.toLower = character := by
  intro character member
  rw [toList_toAsciiLowercase] at member
  obtain ⟨source, _, rfl⟩ := List.mem_map.mp member
  exact toLower_toLower source

theorem lowered_map_toAsciiLowercase (words : List String) :
    ∀ word ∈ words.map toAsciiLowercase, ∀ character ∈ word.toList,
      character.toLower = character := by
  intro word member
  obtain ⟨source, _, rfl⟩ := List.mem_map.mp member
  exact lowered_toAsciiLowercase source

/-- Normalizing adds nothing to the words in lowercase. -/
theorem length_normalizeContent_le (text : String) :
    (normalizeContent text).length ≤ (join " " (loweredWords text)).length := by
  rw [normalizeContent_eq, ← String.length_toList, ← String.length_toList, toList_trimEndMatches]
  exact (List.rdropWhile_prefix _ _).length_le

/-- A result is normalized if no punctuation stood apart at the end. -/
theorem normalizeContent_idempotent_iff (text : String) :
    normalizeContent (normalizeContent text) = normalizeContent text ↔ ¬ DetachedMarks text := by
  constructor
  · rintro idempotent ⟨before, last, split, present, marks⟩
    have result := normalizeContent_marks split present marks
    obtain ⟨beforeWords, _⟩ := words_of_split split
    -- the blank left at the end is trimmed the second time
    have again : loweredWords (normalizeContent text) = before.map toAsciiLowercase := by
      rw [result, loweredWords, splitWhitespace, String.toList_append,
        splitWords_append_blanks _ (by decide)]
      show (splitWhitespace (join " " (before.map toAsciiLowercase))).map toAsciiLowercase = _
      rw [splitWhitespace_join beforeWords,
        map_toAsciiLowercase_lowered (lowered_map_toAsciiLowercase before)]
    have shorter := length_normalizeContent_le (normalizeContent text)
    rw [idempotent, again, result, String.length_append] at shorter
    have one : " ".length = 1 := rfl
    omega
  · intro attached
    rcases words_cases text with none | ⟨before, last, split, marks | word⟩
    · rw [normalizeContent_no_words none]
      rfl
    · have only : before = [] := by
        by_contra present
        exact attached ⟨before, last, split, present, marks⟩
      subst only
      rw [normalizeContent_only_marks split marks]
      rfl
    · obtain ⟨beforeWords, lastWord⟩ := words_of_split split
      have moreThanMarks : ¬ AllMarks (toAsciiLowercase last) :=
        fun marks => word ((allMarks_toAsciiLowercase last).mp marks)
      obtain ⟨trimmed, trimmedMore⟩ := isWord_trimEnd lastWord moreThanMarks
      have small : ∀ other ∈ before.map toAsciiLowercase ++
          [trimEndMatches closingMark (toAsciiLowercase last)],
          ∀ character ∈ other.toList, character.toLower = character := by
        intro other member
        rcases List.mem_append.mp member with earlier | one
        · exact lowered_map_toAsciiLowercase before other earlier
        · rw [List.mem_singleton.mp one, toList_trimEndMatches]
          intro character listed
          exact lowered_toAsciiLowercase last character
            ((List.rdropWhile_prefix _ _).subset listed)
      have areWords : ∀ other ∈ before.map toAsciiLowercase ++
          [trimEndMatches closingMark (toAsciiLowercase last)], IsWord other := by
        intro other member
        rcases List.mem_append.mp member with earlier | one
        · exact beforeWords other earlier
        · exact List.mem_singleton.mp one ▸ trimmed
      have twice : trimEndMatches closingMark
          (trimEndMatches closingMark (toAsciiLowercase last)) =
          trimEndMatches closingMark (toAsciiLowercase last) := by
        rw [← String.toList_inj, toList_trimEndMatches, toList_trimEndMatches,
          List.rdropWhile_idempotent]
      rw [normalizeContent_word split word, normalizeContent_eq, loweredWords,
        splitWhitespace_join areWords, map_toAsciiLowercase_lowered small,
        trimEnd_join_word _ trimmedMore, twice]

/-! ## Marks and whitespace put behind a text -/

/-- Whitespace and closing marks, in any order. -/
def ClosingRun (run : String) : Prop :=
  ∀ character ∈ run.toList, isWhitespace character = true ∨ closingMark character = true

/-- The words of a closing run consist of marks. -/
theorem allMarks_of_closing {run word : String} (closing : ClosingRun run)
    (solid : ∀ character ∈ word.toList, isWhitespace character = false)
    (inside : ∀ character ∈ word.toList, character ∈ run.toList) : AllMarks word := by
  intro character member
  refine (closing character (inside character member)).resolve_left ?_
  rw [solid character member]
  exact Bool.false_ne_true

section Behind

variable {text run : String}

/-- Punctuation that stands apart still does when more is put behind it. -/
theorem DetachedMarks.append (closing : ClosingRun run) (detached : DetachedMarks text) :
    DetachedMarks (text ++ run) := by
  obtain ⟨before, last, split, present, marks⟩ := detached
  have areWords : ∀ other ∈ splitWhitespace (text ++ run), IsWord other :=
    fun _ => isWord_of_mem_splitWhitespace
  obtain ⟨more, moreInside, ⟨none, _⟩ | ⟨front, word, tail, tailInside, own, whole⟩⟩ :=
    splitWhitespace_append text run
  · rw [none] at split
    simp at split
  · obtain ⟨rfl, one⟩ := List.append_inj' (own.symm.trans split) rfl
    obtain rfl := List.singleton_inj.mp one
    rw [whole] at areWords
    rcases List.eq_nil_or_concat' more with rfl | ⟨others, final, rfl⟩
    · have extended := (areWords (word ++ tail) (by simp)).2
      have tailMarks : AllMarks tail := by
        refine allMarks_of_closing closing (fun character member => ?_) tailInside
        exact extended character (by simp [member])
      exact ⟨front, word ++ tail, whole, present, marks.append tailMarks⟩
    · refine ⟨front ++ (word ++ tail) :: others, final, by simp [whole], by simp, ?_⟩
      exact allMarks_of_closing closing (areWords final (by simp)).2 (moreInside final (by simp))

/-- A closing run behind a text is dropped, unless it leaves punctuation that stands apart. -/
theorem normalizeContent_append (closing : ClosingRun run)
    (attached : ¬ DetachedMarks (text ++ run)) :
    normalizeContent (text ++ run) = normalizeContent text := by
  have areWords : ∀ other ∈ splitWhitespace (text ++ run), IsWord other :=
    fun _ => isWord_of_mem_splitWhitespace
  obtain ⟨more, moreInside, ⟨none, whole⟩ | ⟨front, word, tail, tailInside, own, whole⟩⟩ :=
    splitWhitespace_append text run
  · rw [normalizeContent_no_words none]
    rw [whole] at areWords
    rcases List.eq_nil_or_concat' more with rfl | ⟨others, final, rfl⟩
    · exact normalizeContent_no_words whole
    · have marks := allMarks_of_closing closing (areWords final (by simp)).2
        (moreInside final (by simp))
      have only : others = [] := by
        by_contra present
        exact attached ⟨others, final, whole, present, marks⟩
      subst only
      exact normalizeContent_only_marks whole marks
  · rw [whole] at areWords
    rcases List.eq_nil_or_concat' more with rfl | ⟨others, final, rfl⟩
    · have extended := (areWords (word ++ tail) (by simp)).2
      have tailMarks : AllMarks tail := by
        refine allMarks_of_closing closing (fun character member => ?_) tailInside
        exact extended character (by simp [member])
      have lowered := (allMarks_iff _).mp ((allMarks_toAsciiLowercase tail).mpr tailMarks)
      have joined : join " " (loweredWords (text ++ run)) =
          join " " (loweredWords text) ++ toAsciiLowercase tail := by
        rw [loweredWords, loweredWords, own, whole, List.map_append, List.map_append,
          List.map_singleton, List.map_singleton, toAsciiLowercase_append, join_extend]
      rw [normalizeContent_eq, normalizeContent_eq, ← String.toList_inj, toList_trimEndMatches,
        toList_trimEndMatches, joined, String.toList_append, rdropWhile_append, if_pos lowered]
    · have marks := allMarks_of_closing closing (areWords final (by simp)).2
        (moreInside final (by simp))
      exact absurd ⟨front ++ (word ++ tail) :: others, final, by simp [whole], by simp, marks⟩
        attached

end Behind

/-! ## Canonical results -/

/-- Contents with the same result are exact duplicates of each other. -/
theorem detectDuplicate_of_normalized {candidate : CandidateFact} {fact : Fact}
    (sameType : fact.memoryType = candidate.memoryType)
    (sameContent : normalizeContent candidate.content = normalizeContent fact.content) :
    detectDuplicate candidate [fact] =
      .duplicate fact.id "exact normalized content match" := by
  rw [detectDuplicate, detectDuplicateFrom, if_neg (not_not.mpr sameType), if_pos sameContent]

/-- Whether the results are canonical for a text, its variants in letter case and whitespace,
and the text with a closing run behind it. -/
structure CanonicalAt (text run : String) : Prop where
  idempotent : normalizeContent (normalizeContent text) = normalizeContent text
  invariant : ∀ variant, Varies text variant → normalizeContent variant = normalizeContent text
  closed : normalizeContent (text ++ run) = normalizeContent text
  duplicates : ∀ (candidate : CandidateFact) (fact : Fact), fact.content = text →
    fact.memoryType = candidate.memoryType →
      Varies text candidate.content ∨ candidate.content = text ++ run →
        detectDuplicate candidate [fact] = .duplicate fact.id "exact normalized content match"

/-- The results are canonical unless the text with the run behind it ends with punctuation
that stands apart. -/
theorem normalizeContent_canonical_iff {text run : String} (closing : ClosingRun run) :
    CanonicalAt text run ↔ ¬ DetachedMarks (text ++ run) := by
  constructor
  · intro canonical detached
    have attached := (normalizeContent_idempotent_iff text).mp canonical.idempotent
    have ends := (normalizeContent_ends_blank (text ++ run)).mpr detached
    rw [canonical.closed] at ends
    exact attached ((normalizeContent_ends_blank text).mp ends)
  · intro attached
    have ownAttached : ¬ DetachedMarks text := fun detached => attached (detached.append closing)
    have closed := normalizeContent_append closing attached
    refine ⟨(normalizeContent_idempotent_iff text).mpr ownAttached,
      fun variant varies => varies.normalizeContent_eq, closed, ?_⟩
    rintro candidate fact rfl sameType (varies | appended)
    · exact detectDuplicate_of_normalized sameType varies.normalizeContent_eq
    · exact detectDuplicate_of_normalized sameType (appended ▸ closed)

/-- Marks that end a word are no obstacle. -/
theorem normalizeContent_canonical_iff_sample : CanonicalAt "Likes  tea" "!. " := by
  refine (normalizeContent_canonical_iff (by unfold ClosingRun; decide)).mpr ?_
  rintro ⟨before, last, split, _, marks⟩
  have words : splitWhitespace ("Likes  tea" ++ "!. ") = ["Likes"] ++ ["tea!."] := by decide
  obtain ⟨_, one⟩ := List.append_inj' (words.symm.trans split) rfl
  obtain rfl := List.singleton_inj.mp one
  exact absurd (marks 't' (by decide)) (by decide)

/-- With a blank before the full stop the result keeps the blank: normalized again it loses
it, and it is not the result for the words alone. -/
theorem normalizeContent_keeps_blank :
    normalizeContent "Likes tea ." = "likes tea " ∧
      normalizeContent (normalizeContent "Likes tea .") = "likes tea" ∧
      normalizeContent "Likes tea" = "likes tea" ∧ ClosingRun " ." ∧
      ¬ CanonicalAt "Likes tea ." "" ∧ ¬ CanonicalAt "Likes tea" " ." := by
  have kept : normalizeContent "Likes tea ." = "likes tea " := by decide
  have dropped : normalizeContent "Likes tea" = "likes tea" := by decide
  have again : normalizeContent (normalizeContent "Likes tea .") = "likes tea" := by decide
  refine ⟨kept, again, dropped, by unfold ClosingRun; decide, fun canonical => ?_,
    fun canonical => ?_⟩
  · have same := canonical.idempotent
    rw [again, kept] at same
    exact absurd same (by decide)
  · have same := canonical.closed
    rw [dropped] at same
    exact absurd (kept.symm.trans same) (by decide)

end Memcore
