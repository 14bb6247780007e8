import Memcore.Foundations.Texts
import Mathlib.Data.List.Infix

/-!
# Patterns of SQL

LIKE compares a text with a pattern in which a percent sign stands for any characters
and an underscore for any one. Nothing escapes them, and the letters A to Z are compared
without regard to case. On texts in lowercase, a pattern between two percent signs
matches wherever it occurs literally; if it has no wildcard of its own, it matches
nowhere else.
-/
namespace SqlPatterns

open Texts

/-- Whether a character stands for others in a pattern. -/
def isWildcard (character : Char) : Bool :=
  character = '%' || character = '_'

/-- LIKE: by recursion on the pattern. -/
def likeMatches : List Char → List Char → Bool
  | [], text => text.isEmpty
  | symbol :: pattern, text =>
      if symbol = '%' then text.tails.any (likeMatches pattern)
      else match text with
        | [] => false
        | character :: rest =>
            (symbol = '_' || symbol.toLower == character.toLower) && likeMatches pattern rest

/-- A text is in lowercase when lowering changes none of its characters. -/
def Lowered (text : List Char) : Prop :=
  ∀ character ∈ text, character.toLower = character

/-- Lowering a text brings it to lowercase. -/
theorem lowered_map (text : List Char) : Lowered (text.map Char.toLower) := by
  intro character member
  obtain ⟨source, _, rfl⟩ := List.mem_map.mp member
  have notUpper : source.toLower.isUpper = false := by
    unfold Char.isUpper Char.toLower
    split <;> grind [UInt32.toNat_add, Char.toNat_val]
  unfold Char.isUpper at notUpper
  rw [decide_eq_false_iff_not] at notUpper
  generalize source.toLower = character at notUpper
  unfold Char.toLower
  rw [dif_neg notUpper]

/-- A percent sign matches any beginning. -/
theorem like_percent (pattern text : List Char) :
    likeMatches ('%' :: pattern) text = true ↔
      ∃ rest, rest <:+ text ∧ likeMatches pattern rest = true := by
  simp only [likeMatches, if_true, List.any_eq_true, List.mem_tails]

theorem occursIn_iff (needle text : List Char) :
    occursIn needle text = true ↔ ∃ rest, rest <:+ text ∧ needle <+: rest := by
  induction text with
  | nil => simp [occursIn]
  | cons character text inductionHypothesis =>
    simp only [occursIn, Bool.or_eq_true, List.isPrefixOf_iff_prefix, inductionHypothesis,
      List.suffix_cons_iff]
    constructor
    · rintro (here | ⟨rest, suffix, found⟩)
      · exact ⟨_, .inl rfl, here⟩
      · exact ⟨rest, .inr suffix, found⟩
    · rintro ⟨rest, rfl | suffix, found⟩
      · exact .inl found
      · exact .inr ⟨rest, suffix, found⟩

/-- A pattern followed by a percent sign matches what begins with it literally. -/
theorem like_of_prefix {needle text : List Char} (begins : needle <+: text) :
    likeMatches (needle ++ ['%']) text = true := by
  induction needle generalizing text with
  | nil =>
    rw [List.nil_append, like_percent]
    exact ⟨[], List.nil_suffix, rfl⟩
  | cons symbol needle inductionHypothesis =>
    obtain ⟨more, rfl⟩ := begins
    have continues := inductionHypothesis (List.prefix_append needle more)
    by_cases percent : symbol = '%'
    · subst percent
      rw [List.cons_append, like_percent]
      exact ⟨needle ++ more, List.suffix_cons _ _, continues⟩
    · simp [likeMatches, percent, continues]

/-- Without wildcards it matches nothing else. -/
theorem prefix_of_like {needle text : List Char} (plain : ∀ symbol ∈ needle, isWildcard symbol = false)
    (needleLowered : Lowered needle) (textLowered : Lowered text)
    (like : likeMatches (needle ++ ['%']) text = true) : needle <+: text := by
  induction needle generalizing text with
  | nil => exact List.nil_prefix
  | cons symbol needle inductionHypothesis =>
    have literal := plain symbol List.mem_cons_self
    simp only [isWildcard, Bool.or_eq_false_iff, decide_eq_false_iff_not] at literal
    cases text with
    | nil => simp [likeMatches, literal.1] at like
    | cons character text =>
      simp only [List.cons_append, likeMatches, literal.1, literal.2, if_false, decide_false,
        Bool.false_or, Bool.and_eq_true, beq_iff_eq] at like
      obtain ⟨sameLowered, continues⟩ := like
      have same : symbol = character := by
        rwa [needleLowered symbol List.mem_cons_self,
          textLowered character List.mem_cons_self] at sameLowered
      have begins := inductionHypothesis
        (fun other member => plain other (List.mem_cons_of_mem _ member))
        (fun other member => needleLowered other (List.mem_cons_of_mem _ member))
        (fun other member => textLowered other (List.mem_cons_of_mem _ member)) continues
      rw [same]
      exact List.cons_prefix_cons.mpr ⟨rfl, begins⟩

/-- What occurs literally is matched between percent signs. -/
theorem like_of_occursIn {needle text : List Char} (occurs : occursIn needle text = true) :
    likeMatches ('%' :: (needle ++ ['%'])) text = true := by
  obtain ⟨rest, suffix, begins⟩ := (occursIn_iff needle text).mp occurs
  exact (like_percent _ _).mpr ⟨rest, suffix, like_of_prefix begins⟩

/-- A pattern without wildcards is matched between percent signs where it occurs. -/
theorem like_eq_occursIn {needle text : List Char}
    (plain : ∀ symbol ∈ needle, isWildcard symbol = false)
    (needleLowered : Lowered needle) (textLowered : Lowered text) :
    likeMatches ('%' :: (needle ++ ['%'])) text = occursIn needle text := by
  rw [Bool.eq_iff_iff]
  constructor
  · intro like
    obtain ⟨rest, suffix, matched⟩ := (like_percent _ _).mp like
    have restLowered : Lowered rest := fun character member =>
      textLowered character (suffix.subset member)
    exact (occursIn_iff needle text).mpr
      ⟨rest, suffix, prefix_of_like plain needleLowered restLowered matched⟩
  · exact like_of_occursIn

example : likeMatches "%a_c%".toList "xabcx".toList = true := by decide

end SqlPatterns
