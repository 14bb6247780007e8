import Memcore.Foundations.Texts
import Mathlib.Data.List.DropRight

/-!
# Words and what separates them

Splitting at whitespace and joining with single blanks. A stretch of whitespace
separates the words before it from those after it, whatever its length, and words
that are joined are found again. Nothing here depends on what the words are.
-/
namespace Texts

/-- A word is not empty and has no whitespace in it. -/
def IsWord (text : String) : Prop :=
  text ≠ "" ∧ ∀ character ∈ text.toList, isWhitespace character = false

/-! ## Splitting -/

/-- Whitespace ends the word that was being read. -/
theorem splitWords_append_blank (left right : List Char) {blank : Char}
    (white : isWhitespace blank = true) (word : List Char) :
    splitWords (left ++ blank :: right) word = splitWords left word ++ splitWords right [] := by
  induction left generalizing word with
  | nil =>
    cases word <;> simp [splitWords, white]
  | cons character left inductionHypothesis =>
    rw [List.cons_append, splitWords, splitWords]
    split_ifs
    · exact inductionHypothesis []
    · rw [inductionHypothesis [], List.cons_append]
    · exact inductionHypothesis (character :: word)

/-- Characters of a word are collected. -/
theorem splitWords_solid {solid : List Char}
    (noBlank : ∀ character ∈ solid, isWhitespace character = false) (rest word : List Char) :
    splitWords (solid ++ rest) word = splitWords rest (solid.reverse ++ word) := by
  induction solid generalizing word with
  | nil => rfl
  | cons character solid inductionHypothesis =>
    obtain ⟨own, others⟩ := List.forall_mem_cons.mp noBlank
    rw [List.cons_append, splitWords, own, if_neg Bool.false_ne_true,
      inductionHypothesis others, List.reverse_cons, List.append_assoc]
    rfl

theorem splitWords_only {solid : List Char}
    (noBlank : ∀ character ∈ solid, isWhitespace character = false) (present : solid ≠ []) :
    splitWords solid [] = [String.ofList solid] := by
  have collected := splitWords_solid noBlank [] []
  rw [List.append_nil, List.append_nil] at collected
  rw [collected]
  cases reversed : solid.reverse with
  | nil => exact absurd (List.reverse_eq_nil_iff.mp reversed) present
  | cons last before =>
    rw [splitWords, ← reversed, List.reverse_reverse]
    exact List.cons_ne_nil last before

/-- Whitespace at the beginning separates nothing. -/
theorem splitWords_blanks {blanks : List Char}
    (white : ∀ character ∈ blanks, isWhitespace character = true) (rest : List Char) :
    splitWords (blanks ++ rest) [] = splitWords rest [] := by
  induction blanks with
  | nil => rfl
  | cons blank blanks inductionHypothesis =>
    obtain ⟨own, others⟩ := List.forall_mem_cons.mp white
    rw [List.cons_append, splitWords, if_pos own]
    exact inductionHypothesis others

theorem splitWords_append_blanks (text : List Char) {blanks : List Char}
    (white : ∀ character ∈ blanks, isWhitespace character = true) :
    splitWords (text ++ blanks) [] = splitWords text [] := by
  cases blanks with
  | nil => rw [List.append_nil]
  | cons blank blanks =>
    obtain ⟨own, others⟩ := List.forall_mem_cons.mp white
    have nothing := splitWords_blanks others []
    rw [List.append_nil] at nothing
    rw [splitWords_append_blank _ _ own, nothing]
    exact List.append_nil _

/-- More whitespace after whitespace separates the same words. -/
theorem splitWords_repeat (left right : List Char) {blank : Char} {blanks : List Char}
    (first : isWhitespace blank = true)
    (white : ∀ character ∈ blanks, isWhitespace character = true) :
    splitWords (left ++ blank :: (blanks ++ right)) [] =
      splitWords (left ++ blank :: right) [] := by
  rw [splitWords_append_blank _ _ first, splitWords_append_blank _ _ first,
    splitWords_blanks white]

/-- All words are words. -/
theorem isWord_of_mem_splitWords (text word : List Char)
    (solid : ∀ character ∈ word, isWhitespace character = false) {found : String}
    (member : found ∈ splitWords text word) : IsWord found := by
  have whole {letters : List Char} (present : letters ≠ [])
      (noBlank : ∀ character ∈ letters, isWhitespace character = false) :
      IsWord (String.ofList letters.reverse) := by
    constructor
    · intro empty
      have same := congrArg String.toList empty
      rw [String.toList_ofList] at same
      exact present (List.reverse_eq_nil_iff.mp same)
    · intro character listed
      rw [String.toList_ofList, List.mem_reverse] at listed
      exact noBlank character listed
  induction text generalizing word with
  | nil =>
    cases word with
    | nil => simp [splitWords] at member
    | cons letter letters =>
      obtain rfl := List.mem_singleton.mp member
      exact whole (List.cons_ne_nil _ _) solid
  | cons character text inductionHypothesis =>
    rw [splitWords] at member
    split_ifs at member with white empty
    · exact inductionHypothesis [] (by simp) member
    · rcases List.mem_cons.mp member with rfl | later
      · refine whole (fun nothing => empty ?_) solid
        rw [nothing]
        rfl
      · exact inductionHypothesis [] (by simp) later
    · refine inductionHypothesis (character :: word) ?_ member
      exact List.forall_mem_cons.mpr ⟨Bool.eq_false_iff.mpr white, solid⟩

theorem isWord_of_mem_splitWhitespace {text found : String}
    (member : found ∈ splitWhitespace text) : IsWord found :=
  isWord_of_mem_splitWords text.toList [] (by simp) member

/-- A word is made of characters of the text. -/
theorem mem_of_mem_splitWords {text word : List Char} {found : String}
    (member : found ∈ splitWords text word) {character : Char}
    (listed : character ∈ found.toList) : character ∈ text ∨ character ∈ word := by
  have ofWord {letters : List Char} (inside : character ∈ (String.ofList letters.reverse).toList) :
      character ∈ letters := by
    rwa [String.toList_ofList, List.mem_reverse] at inside
  induction text generalizing word with
  | nil =>
    cases word with
    | nil => simp [splitWords] at member
    | cons letter letters =>
      obtain rfl := List.mem_singleton.mp member
      exact .inr (ofWord listed)
  | cons first text inductionHypothesis =>
    rw [splitWords] at member
    split_ifs at member with white empty
    · exact .inl (List.mem_cons_of_mem _ ((inductionHypothesis member).resolve_right (by simp)))
    · rcases List.mem_cons.mp member with rfl | later
      · exact .inr (ofWord listed)
      · exact .inl (List.mem_cons_of_mem _ ((inductionHypothesis later).resolve_right (by simp)))
    · rcases inductionHypothesis member with inText | inWord
      · exact .inl (List.mem_cons_of_mem _ inText)
      · rcases List.mem_cons.mp inWord with rfl | inWord
        · exact .inl List.mem_cons_self
        · exact .inr inWord

/-- What is put after a text counts up to its first whitespace for the word before it. -/
theorem splitWords_run (run : List Char) : ∃ tail later,
    (∀ character ∈ tail, isWhitespace character = false) ∧
      (∀ character ∈ tail, character ∈ run) ∧
      (∀ word ∈ later, ∀ character ∈ word.toList, character ∈ run) ∧
      ∀ front, splitWords (front ++ run) [] = splitWords (front ++ tail) [] ++ later := by
  have parts := List.takeWhile_append_dropWhile (p := fun c => !isWhitespace c) (l := run)
  have solid : ∀ character ∈ run.takeWhile (fun c => !isWhitespace c),
      isWhitespace character = false := by
    intro character member
    simpa using List.mem_takeWhile_imp member
  have inside : ∀ character ∈ run.takeWhile (fun c => !isWhitespace c), character ∈ run :=
    fun _ member => (List.takeWhile_sublist _).subset member
  cases rest : run.dropWhile (fun c => !isWhitespace c) with
  | nil =>
    rw [rest, List.append_nil] at parts
    refine ⟨_, [], solid, inside, by simp, fun front => ?_⟩
    rw [parts, List.append_nil]
  | cons blank after =>
    have white : isWhitespace blank = true := by
      have stopped := List.head?_dropWhile_not (fun c => !isWhitespace c) run
      rw [rest] at stopped
      simpa using stopped
    rw [rest] at parts
    refine ⟨_, splitWords after [], solid, inside, ?_, fun front => ?_⟩
    · intro word member character listed
      have inAfter := (mem_of_mem_splitWords member listed).resolve_right (by simp)
      rw [← parts]
      exact List.mem_append_right _ (List.mem_cons_of_mem _ inAfter)
    · conv_lhs => rw [← parts, ← List.append_assoc]
      exact splitWords_append_blank _ _ white []

/-- The end of a text, after its last whitespace, is where a word may go on. -/
theorem splitWords_end (text : List Char) : ∃ front last,
    (∀ character ∈ last, isWhitespace character = false) ∧
      ∀ behind, splitWords (text ++ behind) [] = front ++ splitWords (last ++ behind) [] := by
  induction text using List.reverseRecOn with
  | nil => exact ⟨[], [], by simp, fun _ => rfl⟩
  | append_singleton text character inductionHypothesis =>
    obtain ⟨front, last, solid, split⟩ := inductionHypothesis
    cases white : isWhitespace character with
    | true =>
      refine ⟨splitWords text [], [], by simp, fun behind => ?_⟩
      rw [List.append_assoc]
      exact splitWords_append_blank text behind white []
    | false =>
      refine ⟨front, last ++ [character], ?_, fun behind => ?_⟩
      · intro other member
        rcases List.mem_append.mp member with member | one
        · exact solid other member
        · exact List.mem_singleton.mp one ▸ white
      · rw [List.append_assoc, split, List.append_assoc]

/-- What is put after a text extends its last word and adds words of its own. -/
theorem splitWhitespace_append (text run : String) : ∃ more,
    (∀ word ∈ more, ∀ character ∈ word.toList, character ∈ run.toList) ∧
      (splitWhitespace text = [] ∧ splitWhitespace (text ++ run) = more ∨
        ∃ before last tail, (∀ character ∈ tail.toList, character ∈ run.toList) ∧
          splitWhitespace text = before ++ [last] ∧
            splitWhitespace (text ++ run) = before ++ (last ++ tail) :: more) := by
  obtain ⟨tail, later, tailSolid, tailInside, laterInside, runWords⟩ := splitWords_run run.toList
  obtain ⟨front, last, lastSolid, textWords⟩ := splitWords_end text.toList
  have own := textWords []
  rw [List.append_nil, List.append_nil] at own
  have whole : splitWhitespace (text ++ run) =
      front ++ (splitWords (last ++ tail) [] ++ later) := by
    rw [splitWhitespace, String.toList_append, runWords, textWords, List.append_assoc]
  by_cases ended : last = []
  · subst ended
    have newInside : ∀ word ∈ splitWords tail [] ++ later, ∀ character ∈ word.toList,
        character ∈ run.toList := by
      intro word member character listed
      rcases List.mem_append.mp member with inTail | inLater
      · exact tailInside character ((mem_of_mem_splitWords inTail listed).resolve_right (by simp))
      · exact laterInside word inLater character listed
    refine ⟨splitWords tail [] ++ later, newInside, ?_⟩
    have sameWords : splitWhitespace text = front := own.trans (List.append_nil _)
    rw [sameWords, whole, List.nil_append]
    rcases List.eq_nil_or_concat' front with none | ⟨before, word, some⟩
    · exact .inl ⟨none, by rw [none, List.nil_append]⟩
    · refine .inr ⟨before, word, "", by simp, some, ?_⟩
      rw [some, String.append_empty, List.append_assoc]
      rfl
  · have extended : last ++ tail ≠ [] := fun nothing => ended (List.append_eq_nil_iff.mp nothing).1
    have bothSolid : ∀ character ∈ last ++ tail, isWhitespace character = false := by
      intro character member
      exact (List.mem_append.mp member).elim (lastSolid character) (tailSolid character)
    refine ⟨later, laterInside, .inr ⟨front, String.ofList last, String.ofList tail, ?_, ?_, ?_⟩⟩
    · rwa [String.toList_ofList]
    · rw [splitWhitespace, own, splitWords_only lastSolid ended]
    · rw [whole, splitWords_only bothSolid extended, String.ofList_append]
      rfl

/-! ## Joining -/

theorem toList_join_pair (first second : String) (rest : List String) :
    (join " " (first :: second :: rest)).toList =
      first.toList ++ ' ' :: (join " " (second :: rest)).toList := by
  rw [join, String.toList_append, String.toList_append, List.append_assoc]
  · rfl
  · exact List.cons_ne_nil second rest

/-- Words that are joined are found again. -/
theorem splitWhitespace_join {words : List String} (areWords : ∀ word ∈ words, IsWord word) :
    splitWhitespace (join " " words) = words := by
  induction words with
  | nil => rfl
  | cons first rest inductionHypothesis =>
    obtain ⟨⟨present, solid⟩, others⟩ := List.forall_mem_cons.mp areWords
    have own : splitWords first.toList [] = [first] := by
      rw [splitWords_only solid, String.ofList_toList]
      exact fun empty => present (String.toList_inj.mp empty)
    cases rest with
    | nil => exact own
    | cons second rest =>
      rw [splitWhitespace, toList_join_pair, splitWords_append_blank _ _ (by decide), own]
      exact congrArg (first :: ·) (inductionHypothesis others)

theorem toList_join_append_one {before : List String} (present : before ≠ []) (last : String) :
    (join " " (before ++ [last])).toList = (join " " before).toList ++ ' ' :: last.toList := by
  induction before with
  | nil => exact absurd rfl present
  | cons first rest inductionHypothesis =>
    cases rest with
    | nil => exact toList_join_pair first last []
    | cons second rest =>
      rw [List.cons_append, List.cons_append, toList_join_pair, ← List.cons_append,
        inductionHypothesis (List.cons_ne_nil _ _), toList_join_pair, List.append_assoc,
        List.cons_append]

/-- What extends the last word extends the join. -/
theorem join_extend (before : List String) (last tail : String) :
    join " " (before ++ [last ++ tail]) = join " " (before ++ [last]) ++ tail := by
  cases before with
  | nil => rfl
  | cons first rest =>
    rw [← String.toList_inj, String.toList_append,
      toList_join_append_one (List.cons_ne_nil _ _),
      toList_join_append_one (List.cons_ne_nil _ _), String.toList_append, List.append_assoc,
      List.cons_append]

/-! ## Trimming and letters -/

theorem toList_trimEndMatches (drops : Char → Bool) (text : String) :
    (trimEndMatches drops text).toList = text.toList.rdropWhile drops := by
  rw [trimEndMatches, String.toList_ofList, List.rdropWhile]

/-- What is dropped from the end reaches into the front only if it takes all behind it. -/
theorem rdropWhile_append (drops : Char → Bool) (front behind : List Char) :
    (front ++ behind).rdropWhile drops = if behind.rdropWhile drops = [] then
      front.rdropWhile drops else front ++ behind.rdropWhile drops := by
  simp only [List.rdropWhile, List.reverse_append, List.dropWhile_append, List.reverse_eq_nil_iff,
    List.isEmpty_iff]
  split_ifs with nothing
  · rfl
  · rw [List.reverse_append, List.reverse_reverse]

/-- Trimming leaves the words. -/
theorem splitWhitespace_trim (text : String) :
    splitWhitespace (trim text) = splitWhitespace text := by
  have leading : splitWords (text.toList.dropWhile isWhitespace) [] =
      splitWords text.toList [] := by
    conv_rhs => rw [← List.takeWhile_append_dropWhile (p := isWhitespace) (l := text.toList)]
    exact (splitWords_blanks (fun _ member => List.mem_takeWhile_imp member) _).symm
  have trailing (front : List Char) :
      splitWords (front.rdropWhile isWhitespace) [] = splitWords front [] := by
    conv_rhs => rw [← List.rdropWhile_append_rtakeWhile (p := isWhitespace) (l := front)]
    exact (splitWords_append_blanks _ fun _ member => List.mem_rtakeWhile_imp member).symm
  rw [splitWhitespace, trim, toList_trimEndMatches, String.toList_ofList, trailing, leading]
  rfl

/-- Lowering keeps a character or turns a capital letter into a small one. -/
theorem toLower_cases (character : Char) : character.toLower = character ∨
    (65 ≤ character.toNat ∧ character.toNat ≤ 90 ∧
      character.toLower.toNat = character.toNat + 32) := by
  by_cases upper : character.val ≥ 'A'.val ∧ character.val ≤ 'Z'.val
  · right
    have lowest : 65 ≤ character.toNat := upper.1
    have highest : character.toNat ≤ 90 := upper.2
    refine ⟨lowest, highest, ?_⟩
    unfold Char.toLower
    rw [dif_pos upper]
    show (character.val + 32).toNat = _
    rw [UInt32.toNat_add, Char.toNat_val]
    simp
    omega
  · left
    unfold Char.toLower
    rw [dif_neg upper]

theorem toAsciiLowercase_append (text more : String) :
    toAsciiLowercase (text ++ more) = toAsciiLowercase text ++ toAsciiLowercase more := by
  rw [toAsciiLowercase, toAsciiLowercase, toAsciiLowercase, String.toList_append, List.map_append,
    String.ofList_append]

theorem toLower_toLower (character : Char) : character.toLower.toLower = character.toLower := by
  obtain same | ⟨low, _, code⟩ := toLower_cases character
  · rw [same, same]
  · obtain same | ⟨_, high, _⟩ := toLower_cases character.toLower
    · exact same
    · omega

theorem isWhitespace_toLower (character : Char) :
    isWhitespace character.toLower = isWhitespace character := by
  have letter {code : Char} (low : 65 ≤ code.toNat) (high : code.toNat ≤ 122) :
      isWhitespace code = false := by
    rw [Bool.eq_false_iff]
    intro white
    simp only [isWhitespace, Bool.or_eq_true, Bool.and_eq_true, decide_eq_true_eq,
      beq_iff_eq] at white
    omega
  obtain same | ⟨low, high, code⟩ := toLower_cases character
  · rw [same]
  · rw [letter low (by omega), letter (by omega) (by omega)]

/-- The words of a text in lowercase. -/
theorem splitWhitespace_toAsciiLowercase (text : String) :
    splitWhitespace (toAsciiLowercase text) = (splitWhitespace text).map toAsciiLowercase := by
  have lowered (letters word : List Char) :
      splitWords (letters.map Char.toLower) (word.map Char.toLower) =
        (splitWords letters word).map toAsciiLowercase := by
    have collected (word : List Char) : String.ofList (word.map Char.toLower).reverse =
        toAsciiLowercase (String.ofList word.reverse) := by
      rw [toAsciiLowercase, String.toList_ofList, List.map_reverse]
    induction letters generalizing word with
    | nil =>
      cases word with
      | nil => rfl
      | cons letter letters => exact congrArg (fun text => [text]) (collected (letter :: letters))
    | cons letter letters inductionHypothesis =>
      rw [List.map_cons, splitWords, splitWords, isWhitespace_toLower, List.isEmpty_map]
      split_ifs
      · exact inductionHypothesis []
      · rw [List.map_cons, collected, ← inductionHypothesis []]
        rfl
      · exact inductionHypothesis (letter :: word)
  rw [splitWhitespace, toList_toAsciiLowercase]
  exact lowered text.toList []

/-- A text whose letters are small is its own lowercase. -/
theorem toAsciiLowercase_eq_self {text : String}
    (small : ∀ character ∈ text.toList, character.toLower = character) :
    toAsciiLowercase text = text := by
  rw [toAsciiLowercase, List.map_congr_left small, List.map_id', String.ofList_toList]

end Texts
