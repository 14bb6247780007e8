import Mathlib.Data.Nat.Notation
import Mathlib.Data.List.Infix
import Mathlib.Data.List.Forall2
import Memcore.Foundations.Scanners

/-!
# Regular expressions

A backtracking matcher tries the alternatives of an expression from the left and a run from
the longest. The ends of an expression at a place are listed in that order, and the match is
the first of them. Replacing all matches reads the text once, from the left: a match that is
found is replaced and its symbols are left out, and a match sees the symbol before it, even
where that belongs to the match before.

The laws say what a match consumes, how a text in two parts is replaced part by part, and
when what follows the first part has no influence on it.
-/

namespace Regexes

open Scanners (previous)

/-- Expressions over an alphabet. -/
inductive Regex (Symbol : Type)
  | nothing
  | one (accepts : Symbol → Bool)
  | boundary (isWord : Symbol → Bool)
  | run (accepts : Symbol → Bool) (least : ℕ)
  | followedBy (first second : Regex Symbol)
  | orElse (first second : Regex Symbol)

/-- A place in a text: the symbol before it, and the text from there on. -/
abbrev Place (Symbol : Type) := Option Symbol × List Symbol

variable {Symbol : Type}

namespace Regex

def optional (re : Regex Symbol) : Regex Symbol :=
  orElse re nothing

def times : ℕ → Regex Symbol → Regex Symbol
  | 0, _ => nothing
  | count + 1, re => followedBy re (times count re)

/-- The ends of a run, the longest run first. -/
def runEnds (accepts : Symbol → Bool) :
    ℕ → Option Symbol → List Symbol → List (Place Symbol)
  | least, before, [] => if least = 0 then [(before, [])] else []
  | least, before, symbol :: rest =>
      (if accepts symbol then runEnds accepts (least - 1) (some symbol) rest else []) ++
        if least = 0 then [(before, symbol :: rest)] else []

/-- Where a match that begins at a place may end, in the order in which the ends are tried. -/
def ends : Regex Symbol → Place Symbol → List (Place Symbol)
  | nothing, place => [place]
  | one _, (_, []) => []
  | one accepts, (_, symbol :: rest) => if accepts symbol then [(some symbol, rest)] else []
  | boundary isWord, place =>
      if place.1.any isWord = place.2.head?.any isWord then [] else [place]
  | run accepts least, place => runEnds accepts least place.1 place.2
  | followedBy first second, place => (first.ends place).flatMap second.ends
  | orElse first second, place => first.ends place ++ second.ends place

/-- How many symbols the possible matches at a place take. -/
def widths (re : Regex Symbol) (before : Option Symbol) (text : List Symbol) : List ℕ :=
  (re.ends (before, text)).map fun place => text.length - place.2.length

/-- How many symbols the match at a place takes, if there is one. -/
def width (re : Regex Symbol) (before : Option Symbol) (text : List Symbol) : Option ℕ :=
  (re.widths before text).head?

/-- Put a text before what was written. -/
def write (text : List Symbol) (later : List Symbol × ℕ) : List Symbol × ℕ :=
  (text ++ later.1, later.2)

/-- Replace the matches that begin in a text, with `more` behind it in view: what is written,
and how many symbols of `more` the last match takes. At first `skip` symbols are left out. -/
def scan (re : Regex Symbol) (replacement more : List Symbol) :
    ℕ → Option Symbol → List Symbol → List Symbol × ℕ
  | skip, _, [] => ([], skip)
  | skip + 1, _, symbol :: rest => scan re replacement more skip (some symbol) rest
  | 0, before, symbol :: rest =>
      match re.width before (symbol :: rest ++ more) with
      | some (width + 1) => write replacement (scan re replacement more width (some symbol) rest)
      | _ => write [symbol] (scan re replacement more 0 (some symbol) rest)

/-- Replace all matches. -/
def replaceAll (re : Regex Symbol) (replacement text : List Symbol) : List Symbol :=
  (re.scan replacement [] 0 none text).1

/-- An expression that may match the empty text. -/
def nullable : Regex Symbol → Bool
  | nothing => true
  | one _ => false
  | boundary _ => true
  | run _ least => least == 0
  | followedBy first second => first.nullable && second.nullable
  | orElse first second => first.nullable || second.nullable

/-- A symbol that a match may begin with. -/
def firsts : Regex Symbol → Symbol → Bool
  | nothing, _ => false
  | one accepts, symbol => accepts symbol
  | boundary _, _ => false
  | run accepts _, symbol => accepts symbol
  | followedBy first second, symbol =>
      first.firsts symbol || (first.nullable && second.firsts symbol)
  | orElse first second, symbol => first.firsts symbol || second.firsts symbol

/-- A symbol that a match may end with. -/
def lasts : Regex Symbol → Symbol → Bool
  | nothing, _ => false
  | one accepts, symbol => accepts symbol
  | boundary _, _ => false
  | run accepts _, symbol => accepts symbol
  | followedBy first second, symbol =>
      second.lasts symbol || (second.nullable && first.lasts symbol)
  | orElse first second, symbol => first.lasts symbol || second.lasts symbol

/-- A symbol that may occur in a match. -/
def reads : Regex Symbol → Symbol → Bool
  | nothing, _ => false
  | one accepts, symbol => accepts symbol
  | boundary _, _ => false
  | run accepts _, symbol => accepts symbol
  | followedBy first second, symbol => first.reads symbol || second.reads symbol
  | orElse first second, symbol => first.reads symbol || second.reads symbol

attribute [grind =] runEnds ends write scan nullable firsts lasts reads

theorem reads_of_firsts {re : Regex Symbol} {symbol : Symbol} (first : re.firsts symbol = true) :
    re.reads symbol = true := by
  induction re with
  | nothing => nomatch first
  | one accepts => exact first
  | boundary isWord => nomatch first
  | run accepts least => exact first
  | followedBy earlier later earlierHypothesis laterHypothesis =>
    obtain first | first := Bool.or_eq_true_iff.mp first
    · rw [reads, earlierHypothesis first, Bool.true_or]
    · rw [reads, laterHypothesis (Bool.and_eq_true_iff.mp first).2, Bool.or_true]
  | orElse earlier later earlierHypothesis laterHypothesis =>
    obtain first | first := Bool.or_eq_true_iff.mp first
    · rw [reads, earlierHypothesis first, Bool.true_or]
    · rw [reads, laterHypothesis first, Bool.or_true]

theorem reads_of_lasts {re : Regex Symbol} {symbol : Symbol} (last : re.lasts symbol = true) :
    re.reads symbol = true := by
  induction re with
  | nothing => nomatch last
  | one accepts => exact last
  | boundary isWord => nomatch last
  | run accepts least => exact last
  | followedBy earlier later earlierHypothesis laterHypothesis =>
    obtain last | last := Bool.or_eq_true_iff.mp last
    · rw [reads, laterHypothesis last, Bool.or_true]
    · rw [reads, earlierHypothesis (Bool.and_eq_true_iff.mp last).2, Bool.true_or]
  | orElse earlier later earlierHypothesis laterHypothesis =>
    obtain last | last := Bool.or_eq_true_iff.mp last
    · rw [reads, earlierHypothesis last, Bool.true_or]
    · rw [reads, laterHypothesis last, Bool.or_true]

/-- Every match contains a symbol of a kind. -/
def Requires (kind : Symbol → Prop) : Regex Symbol → Prop
  | nothing => False
  | one accepts => ∀ symbol, accepts symbol → kind symbol
  | boundary _ => False
  | run accepts least => 0 < least ∧ ∀ symbol, accepts symbol → kind symbol
  | followedBy first second => first.Requires kind ∨ second.Requires kind
  | orElse first second => first.Requires kind ∧ second.Requires kind

attribute [grind =] Requires

/-- What the expression alone says about a text that it matches. -/
structure Fits (re : Regex Symbol) (text : List Symbol) : Prop where
  empty : text = [] → re.nullable
  first : ∀ symbol ∈ text.head?, re.firsts symbol
  last : ∀ symbol ∈ text.getLast?, re.lasts symbol
  read : ∀ symbol ∈ text, re.reads symbol
  required : ∀ kind, re.Requires kind → ∃ symbol ∈ text, kind symbol

theorem Fits.followedBy {first second : Regex Symbol} {text more : List Symbol}
    (fits : first.Fits text) (fitsMore : second.Fits more) :
    (first.followedBy second).Fits (text ++ more) where
  empty none := by
    obtain ⟨rfl, rfl⟩ := List.append_eq_nil_iff.mp none
    simp [nullable, fits.empty, fitsMore.empty]
  first symbol begins := by
    cases text with
    | nil => simp [firsts, fits.empty, fitsMore.first symbol begins]
    | cons head rest => simp [firsts, fits.first symbol begins]
  last symbol finishes := by
    rcases more.eq_nil_or_concat with rfl | ⟨rest, final, rfl⟩
    · rw [List.append_nil] at finishes
      simp [lasts, fitsMore.empty, fits.last symbol finishes]
    · rw [List.concat_eq_append, ← List.append_assoc, List.getLast?_concat] at finishes
      have final := fitsMore.last symbol (by rwa [List.concat_eq_append, List.getLast?_concat])
      simp [lasts, final]
  read symbol member := by
    obtain member | member := List.mem_append.mp member
    · simp [reads, fits.read symbol member]
    · simp [reads, fitsMore.read symbol member]
  required kind requires := by
    obtain requires | requires := requires
    · obtain ⟨symbol, member, holds⟩ := fits.required kind requires
      exact ⟨symbol, List.mem_append_left more member, holds⟩
    · obtain ⟨symbol, member, holds⟩ := fitsMore.required kind requires
      exact ⟨symbol, List.mem_append_right text member, holds⟩

theorem Fits.orElse_left {first : Regex Symbol} {text : List Symbol} (fits : first.Fits text)
    (second : Regex Symbol) : (first.orElse second).Fits text where
  empty none := by simp [nullable, fits.empty none]
  first symbol begins := by simp [firsts, fits.first symbol begins]
  last symbol finishes := by simp [lasts, fits.last symbol finishes]
  read symbol member := by simp [reads, fits.read symbol member]
  required kind requires := fits.required kind requires.1

theorem Fits.orElse_right {second : Regex Symbol} {text : List Symbol} (fits : second.Fits text)
    (first : Regex Symbol) : (first.orElse second).Fits text where
  empty none := by simp [nullable, fits.empty none]
  first symbol begins := by simp [firsts, fits.first symbol begins]
  last symbol finishes := by simp [lasts, fits.last symbol finishes]
  read symbol member := by simp [reads, fits.read symbol member]
  required kind requires := fits.required kind requires.2

/-- A run consumes symbols it accepts, and no fewer than the least number. -/
theorem runEnds_consume {accepts : Symbol → Bool} {least : ℕ} {before : Option Symbol}
    {text : List Symbol} {place : Place Symbol}
    (ended : place ∈ runEnds accepts least before text) :
    ∃ consumed, text = consumed ++ place.2 ∧ place.1 = previous before consumed ∧
      least ≤ consumed.length ∧ ∀ symbol ∈ consumed, accepts symbol := by
  induction text generalizing least before with
  | nil =>
    simp only [runEnds, List.mem_ite_nil_right, List.mem_singleton] at ended
    obtain ⟨rfl, rfl⟩ := ended
    exact ⟨[], rfl, rfl, le_rfl, by simp⟩
  | cons symbol rest inductionHypothesis =>
    obtain later | here := List.mem_append.mp ended
    · simp only [List.mem_ite_nil_right] at later
      obtain ⟨consumed, rfl, before', enough, accepted⟩ := inductionHypothesis later.2
      refine ⟨symbol :: consumed, rfl, by simpa using before', ?_, ?_⟩
      · rw [List.length_cons]
        omega
      · exact List.forall_mem_cons.mpr ⟨later.1, accepted⟩
    · simp only [List.mem_ite_nil_right, List.mem_singleton] at here
      obtain ⟨rfl, rfl⟩ := here
      exact ⟨[], rfl, rfl, le_rfl, by simp⟩

/-- A run does not go on where a symbol stops it. -/
theorem runEnds_stop {accepts : Symbol → Bool} {rest : List Symbol}
    (stop : ∀ symbol ∈ rest.head?, accepts symbol = false) (least : ℕ) (before : Option Symbol)
    (text : List Symbol) : runEnds accepts least before (text ++ rest) =
      (runEnds accepts least before text).map fun place => (place.1, place.2 ++ rest) := by
  induction text generalizing least before with
  | nil =>
    cases rest with
    | nil => simp
    | cons symbol rest =>
      cases least <;> simp [runEnds, stop symbol rfl]
  | cons symbol text inductionHypothesis =>
    simp only [List.cons_append, runEnds, List.map_append, inductionHypothesis]
    congr 1
    · split <;> simp
    · split <;> simp

/-- The longest run is tried first. -/
theorem head_runEnds {accepts : Symbol → Bool} {rest : List Symbol}
    (stop : ∀ symbol ∈ rest.head?, accepts symbol = false) {text : List Symbol}
    (accepted : ∀ symbol ∈ text, accepts symbol = true) {least : ℕ} (enough : least ≤ text.length)
    (before : Option Symbol) :
    (runEnds accepts least before (text ++ rest)).head? = some (previous before text, rest) := by
  induction text generalizing least before with
  | nil =>
    obtain rfl := Nat.le_zero.mp enough
    cases rest with
    | nil => rfl
    | cons symbol rest => simp [runEnds, stop symbol rfl]
  | cons symbol text inductionHypothesis =>
    obtain ⟨here, later⟩ := List.forall_mem_cons.mp accepted
    rw [List.length_cons] at enough
    have longer := inductionHypothesis later (Nat.sub_le_iff_le_add.mpr enough) (some symbol)
    rw [List.cons_append, runEnds, if_pos here, List.head?_append, longer, Scanners.previous_cons]
    rfl

/-- What a match consumes stands at its beginning, and the expression says what it may be. -/
theorem ends_consume {re : Regex Symbol} {before : Option Symbol} {text : List Symbol}
    {place : Place Symbol} (ended : place ∈ re.ends (before, text)) :
    ∃ consumed, text = consumed ++ place.2 ∧ place.1 = previous before consumed ∧
      re.Fits consumed := by
  induction re generalizing before text place with
  | nothing =>
    rw [List.mem_singleton.mp ended]
    exact ⟨[], rfl, rfl, ⟨fun _ => rfl, by simp, by simp, by simp, by simp [Requires]⟩⟩
  | one accepts =>
    cases text with
    | nil => cases ended
    | cons symbol rest =>
      simp only [ends, List.mem_ite_nil_right, List.mem_singleton] at ended
      obtain ⟨accepted, rfl⟩ := ended
      refine ⟨[symbol], rfl, rfl, ⟨by simp, ?_, ?_, ?_, ?_⟩⟩
      · simpa [firsts] using accepted
      · simpa [lasts] using accepted
      · simpa [reads] using accepted
      · exact fun kind requires =>
          ⟨symbol, List.mem_singleton_self symbol, requires symbol accepted⟩
  | boundary isWord =>
    simp only [ends, List.mem_ite_nil_left, List.mem_singleton] at ended
    rw [ended.2]
    exact ⟨[], rfl, rfl, ⟨fun _ => rfl, by simp, by simp, by simp, by simp [Requires]⟩⟩
  | run accepts least =>
    obtain ⟨consumed, split, last, enough, accepted⟩ := runEnds_consume ended
    refine ⟨consumed, split, last, ⟨?_, ?_, ?_, accepted, ?_⟩⟩
    · rintro rfl
      simpa [nullable] using enough
    · exact fun symbol begins => accepted symbol (List.mem_of_mem_head? begins)
    · exact fun symbol finishes => accepted symbol (List.mem_of_mem_getLast? finishes)
    · rintro kind ⟨positive, kinds⟩
      obtain ⟨symbol, member⟩ := List.exists_mem_of_length_pos (positive.trans_le enough)
      exact ⟨symbol, member, kinds symbol (accepted symbol member)⟩
  | followedBy first second firstHypothesis secondHypothesis =>
    obtain ⟨⟨middle, rest⟩, reached, goesOn⟩ := List.mem_flatMap.mp ended
    obtain ⟨consumed, rfl, last, fits⟩ := firstHypothesis reached
    obtain ⟨more, split, lastMore, fitsMore⟩ := secondHypothesis goesOn
    refine ⟨consumed ++ more, by rw [List.append_assoc, ← split], ?_, fits.followedBy fitsMore⟩
    rw [lastMore, show middle = _ from last, previous, previous, previous, List.getLast?_append,
      Option.or_assoc]
  | orElse first second firstHypothesis secondHypothesis =>
    obtain ended | ended := List.mem_append.mp ended
    · obtain ⟨consumed, split, last, fits⟩ := firstHypothesis ended
      exact ⟨consumed, split, last, fits.orElse_left second⟩
    · obtain ⟨consumed, split, last, fits⟩ := secondHypothesis ended
      exact ⟨consumed, split, last, fits.orElse_right first⟩

@[simp] theorem ends_nothing_followedBy (next : Regex Symbol) (place : Place Symbol) :
    (nothing.followedBy next).ends place = next.ends place := by
  simp [ends]

@[simp] theorem ends_followedBy_followedBy (first second next : Regex Symbol)
    (place : Place Symbol) :
    ((first.followedBy second).followedBy next).ends place =
      (first.followedBy (second.followedBy next)).ends place := by
  simp only [ends, List.flatMap_assoc]

@[simp] theorem ends_orElse_followedBy (first second next : Regex Symbol) (place : Place Symbol) :
    ((first.orElse second).followedBy next).ends place =
      (first.followedBy next).ends place ++ (second.followedBy next).ends place := by
  simp only [ends, List.flatMap_append]

@[simp] theorem ends_one_followedBy_nil (accepts : Symbol → Bool) (next : Regex Symbol)
    (before : Option Symbol) : ((one accepts).followedBy next).ends (before, []) = [] := rfl

@[simp] theorem ends_one_followedBy (accepts : Symbol → Bool) (next : Regex Symbol)
    (before : Option Symbol) (symbol : Symbol) (rest : List Symbol) :
    ((one accepts).followedBy next).ends (before, symbol :: rest) =
      if accepts symbol then next.ends (some symbol, rest) else [] := by
  simp only [ends]
  split <;> simp

@[simp] theorem ends_boundary_followedBy (isWord : Symbol → Bool) (next : Regex Symbol)
    (before : Option Symbol) (text : List Symbol) :
    ((boundary isWord).followedBy next).ends (before, text) =
      if before.any isWord = text.head?.any isWord then [] else next.ends (before, text) := by
  simp only [ends]
  split <;> simp

variable {re : Regex Symbol} {replacement : List Symbol}

/-- A match takes symbols that fit the expression. -/
theorem width_fits {before : Option Symbol} {text : List Symbol} {width : ℕ}
    (found : re.width before text = some width) :
    width ≤ text.length ∧ re.Fits (text.take width) := by
  obtain ⟨⟨last, rest⟩, ended, rfl⟩ := List.mem_map.mp (List.mem_of_mem_head? found)
  obtain ⟨consumed, rfl, _, fits⟩ := ends_consume ended
  simpa using fits

/-- No match begins with a symbol that no match begins with. -/
theorem width_none_of_firsts (proper : re.nullable = false) {symbol : Symbol}
    (apart : re.firsts symbol = false) (before : Option Symbol) (rest : List Symbol) :
    re.width before (symbol :: rest) = none := by
  cases found : re.width before (symbol :: rest) with
  | none => rfl
  | some width =>
    obtain ⟨_, fits⟩ := width_fits found
    cases width with
    | zero =>
      have empty := fits.empty rfl
      rw [proper] at empty
      nomatch empty
    | succ width =>
      have first := fits.first symbol rfl
      rw [apart] at first
      nomatch first

@[simp] theorem scan_nil (more : List Symbol) (skip : ℕ) (before : Option Symbol) :
    re.scan replacement more skip before [] = ([], skip) := by
  cases skip <;> rfl

theorem scan_skip (more : List Symbol) (skip : ℕ) (before : Option Symbol) (symbol : Symbol)
    (rest : List Symbol) :
    re.scan replacement more (skip + 1) before (symbol :: rest) =
      re.scan replacement more skip (some symbol) rest := rfl

theorem scan_match {more : List Symbol} {before : Option Symbol} {symbol : Symbol}
    {rest : List Symbol} {width : ℕ}
    (found : re.width before (symbol :: rest ++ more) = some (width + 1)) :
    re.scan replacement more 0 before (symbol :: rest) =
      write replacement (re.scan replacement more width (some symbol) rest) := by
  rw [scan, found]

theorem scan_copy {more : List Symbol} {before : Option Symbol} {symbol : Symbol}
    {rest : List Symbol} (absent : re.width before (symbol :: rest ++ more) = none) :
    re.scan replacement more 0 before (symbol :: rest) =
      write [symbol] (re.scan replacement more 0 (some symbol) rest) := by
  rw [scan, absent]

/-- A scan skips a symbol, copies it, or replaces a match that begins with it. -/
theorem scan_cons (re : Regex Symbol) (replacement more : List Symbol) (skip : ℕ)
    (before : Option Symbol) (symbol : Symbol) (rest : List Symbol) : ∃ written later,
      re.scan replacement more skip before (symbol :: rest) =
        write written (re.scan replacement more later (some symbol) rest) ∧
      ((skip = later + 1 ∧ written = []) ∨ (skip = 0 ∧ later = 0 ∧ written = [symbol]) ∨
        (skip = 0 ∧ written = replacement ∧
          re.width before (symbol :: rest ++ more) = some (later + 1))) := by
  cases skip with
  | succ skip => exact ⟨[], skip, rfl, .inl ⟨rfl, rfl⟩⟩
  | zero =>
    cases found : re.width before (symbol :: rest ++ more) with
    | none => exact ⟨[symbol], 0, scan_copy found, .inr (.inl ⟨rfl, rfl, rfl⟩)⟩
    | some width =>
      cases width with
      | zero => exact ⟨[symbol], 0, by rw [scan, found], .inr (.inl ⟨rfl, rfl, rfl⟩)⟩
      | succ width => exact ⟨replacement, width, scan_match found, .inr (.inr ⟨rfl, rfl, rfl⟩)⟩

@[simp] theorem write_fst (text : List Symbol) (later : List Symbol × ℕ) :
    (write text later).1 = text ++ later.1 := rfl

@[simp] theorem write_snd (text : List Symbol) (later : List Symbol × ℕ) :
    (write text later).2 = later.2 := rfl

@[simp] theorem write_write (first second : List Symbol) (later : List Symbol × ℕ) :
    write first (write second later) = write (first ++ second) later := by
  simp [write]

/-- A text in two parts is scanned part by part. -/
theorem scan_append (text rest more : List Symbol) (skip : ℕ) (before : Option Symbol) :
    re.scan replacement more skip before (text ++ rest) =
      write (re.scan replacement (rest ++ more) skip before text).1
        (re.scan replacement more (re.scan replacement (rest ++ more) skip before text).2
          (previous before text) rest) := by
  induction text generalizing skip before with
  | nil => simp [write]
  | cons symbol text inductionHypothesis =>
    rw [List.cons_append, Scanners.previous_cons]
    cases skip with
    | succ skip => exact inductionHypothesis skip (some symbol)
    | zero =>
      simp only [scan, List.cons_append, List.append_assoc]
      split <;> simp [inductionHypothesis]

/-- What stands behind a text matters only through the matches that begin in it. -/
theorem scan_congr {text more other : List Symbol}
    (same : ∀ before rest, rest <:+ text → rest ≠ [] →
      re.width before (rest ++ more) = re.width before (rest ++ other))
    (skip : ℕ) (before : Option Symbol) :
    re.scan replacement more skip before text = re.scan replacement other skip before text := by
  induction text generalizing skip before with
  | nil => simp
  | cons symbol text inductionHypothesis =>
    have later := inductionHypothesis fun before' rest suffix =>
      same before' rest (suffix.trans (List.suffix_cons symbol text))
    cases skip with
    | succ skip => exact later skip (some symbol)
    | zero =>
      rw [scan, scan, same before _ List.suffix_rfl (List.cons_ne_nil symbol text)]
      simp only [later]

/-- Symbols that belong to a match are left out. -/
theorem scan_skipped (text more : List Symbol) (skip : ℕ) (before : Option Symbol) :
    re.scan replacement more (text.length + skip) before text = ([], skip) := by
  induction text generalizing before with
  | nil => simp
  | cons symbol text inductionHypothesis =>
    rw [List.length_cons, Nat.add_right_comm, scan_skip, inductionHypothesis]

/-- Inside a match that began in the text, the replacement has just been written. -/
theorem scan_inside {text more : List Symbol} {skip : ℕ} (short : skip ≤ text.length)
    (before : Option Symbol) (inside : 0 < (re.scan replacement more skip before text).2) :
    ∃ written, (re.scan replacement more skip before text).1 = written ++ replacement := by
  induction text generalizing skip before with
  | nil =>
    rw [scan_nil] at inside
    exact absurd inside (Nat.not_lt_of_le short)
  | cons symbol text inductionHypothesis =>
    obtain ⟨written, later, scanned, outcome⟩ :=
      scan_cons re replacement more skip before symbol text
    rw [scanned, write_snd] at inside
    rw [scanned, write_fst]
    by_cases within : later ≤ text.length
    · obtain ⟨more', copied⟩ := inductionHypothesis within (some symbol) inside
      exact ⟨written ++ more', by rw [copied, List.append_assoc]⟩
    · obtain ⟨rfl, _⟩ | ⟨_, rfl, _⟩ | ⟨_, rfl, _⟩ := outcome
      · exact absurd (Nat.le_of_succ_le_succ short) within
      · exact absurd (Nat.zero_le _) within
      · obtain ⟨past, rfl⟩ := Nat.exists_eq_add_of_lt (Nat.lt_of_not_le within)
        rw [Nat.add_assoc, scan_skipped]
        exact ⟨[], by simp⟩

/-- A text in which no match begins is copied. -/
theorem scan_copied {text more : List Symbol} {before : Option Symbol}
    (absent : ∀ first rest, text = first ++ rest → rest ≠ [] →
      re.width (previous before first) (rest ++ more) = none) :
    re.scan replacement more 0 before text = (text, 0) := by
  induction text generalizing before with
  | nil => simp
  | cons symbol text inductionHypothesis =>
    have here : re.width before (symbol :: text ++ more) = none :=
      absent [] (symbol :: text) rfl (List.cons_ne_nil symbol text)
    rw [scan_copy here, inductionHypothesis, write, List.singleton_append]
    intro first rest split proper
    have later := absent (symbol :: first) rest (by rw [split, List.cons_append]) proper
    rwa [Scanners.previous_cons] at later

/-! ## Matches across a symbol -/

/-- How a match that begins before a given symbol may stand to it: it ends before the symbol, or
it takes the symbol and what remains of the expression is matched behind it. -/
inductive Piece (Symbol : Type)
  | stays (place : Place Symbol)
  | crosses (remainder : Regex Symbol)

def runPieces (accepts : Symbol → Bool) (wall : Symbol) :
    ℕ → Option Symbol → List Symbol → List (Piece Symbol)
  | least, before, [] =>
      (if accepts wall then [.crosses (run accepts (least - 1))] else []) ++
        if least = 0 then [.stays (before, [])] else []
  | least, before, symbol :: rest =>
      (if accepts symbol then runPieces accepts wall (least - 1) (some symbol) rest else []) ++
        if least = 0 then [.stays (before, symbol :: rest)] else []

/-- The ends of an expression at a place in a text that the symbol `wall` follows. -/
def pieces (wall : Symbol) : Regex Symbol → Place Symbol → List (Piece Symbol)
  | nothing, place => [.stays place]
  | one accepts, (_, []) => if accepts wall then [.crosses nothing] else []
  | one accepts, (_, symbol :: rest) =>
      if accepts symbol then [.stays (some symbol, rest)] else []
  | boundary isWord, place =>
      if place.1.any isWord = isWord (place.2.head?.getD wall) then [] else [.stays place]
  | run accepts least, place => runPieces accepts wall least place.1 place.2
  | followedBy first second, place =>
      (first.pieces wall place).flatMap fun
        | .stays middle => second.pieces wall middle
        | .crosses remainder => [.crosses (remainder.followedBy second)]
  | orElse first second, place => first.pieces wall place ++ second.pieces wall place

/-- The ends that a piece stands for, when `more` follows the symbol. -/
def Piece.ends (wall : Symbol) (more : List Symbol) : Piece Symbol → List (Place Symbol)
  | .stays place => [(place.1, place.2 ++ wall :: more)]
  | .crosses remainder => remainder.ends (some wall, more)

/-- What may remain of an expression once it has taken a given symbol. -/
def remainders (wall : Symbol) : Regex Symbol → List (Regex Symbol)
  | nothing => []
  | one accepts => if accepts wall then [nothing] else []
  | boundary _ => []
  | run accepts least =>
      if accepts wall then (List.range (least - 1 + 1)).map (run accepts) else []
  | followedBy first second =>
      (first.remainders wall).map (followedBy · second) ++ second.remainders wall
  | orElse first second => first.remainders wall ++ second.remainders wall

attribute [grind =] runPieces pieces Piece.ends remainders

theorem runEnds_pieces (accepts : Symbol → Bool) (wall : Symbol) (more : List Symbol) (least : ℕ)
    (before : Option Symbol) (text : List Symbol) :
    runEnds accepts least before (text ++ wall :: more) =
      (runPieces accepts wall least before text).flatMap (Piece.ends wall more) := by
  induction text generalizing least before with
  | nil =>
    rw [List.nil_append, runEnds, runPieces, List.flatMap_append]
    congr 1
    · split <;> simp [Piece.ends, ends]
    · split <;> simp [Piece.ends]
  | cons symbol text inductionHypothesis =>
    rw [List.cons_append, runEnds, runPieces, List.flatMap_append]
    congr 1
    · split <;> simp [inductionHypothesis]
    · split <;> simp [Piece.ends]

/-- The pieces say where a match may end, whatever follows the symbol. -/
theorem ends_pieces (re : Regex Symbol) (wall : Symbol) (more : List Symbol)
    (before : Option Symbol) (text : List Symbol) :
    re.ends (before, text ++ wall :: more) =
      (re.pieces wall (before, text)).flatMap (Piece.ends wall more) := by
  induction re generalizing before text with
  | nothing => simp [ends, pieces, Piece.ends]
  | one accepts =>
    cases text <;> simp only [List.nil_append, List.cons_append, ends, pieces] <;>
      split <;> simp [Piece.ends, ends]
  | boundary isWord =>
    have next : (text ++ wall :: more).head?.any isWord = isWord (text.head?.getD wall) := by
      cases text <;> simp
    simp only [ends, pieces, next]
    split <;> simp [Piece.ends]
  | run accepts least => exact runEnds_pieces accepts wall more least before text
  | followedBy first second firstHypothesis secondHypothesis =>
    rw [ends, pieces, firstHypothesis, List.flatMap_assoc, List.flatMap_assoc]
    congr 1
    funext piece
    cases piece with
    | stays place => simp [Piece.ends, secondHypothesis]
    | crosses remainder => simp [Piece.ends, ends]
  | orElse first second firstHypothesis secondHypothesis =>
    rw [ends, pieces, firstHypothesis, secondHypothesis, List.flatMap_append]

theorem runPieces_remainder {accepts : Symbol → Bool} {wall : Symbol} {least : ℕ}
    {before : Option Symbol} {text : List Symbol} {remainder : Regex Symbol}
    (crossed : Piece.crosses remainder ∈ runPieces accepts wall least before text) :
    remainder ∈ (run accepts least).remainders wall := by
  induction text generalizing least before with
  | nil =>
    obtain crossed | stayed := List.mem_append.mp crossed
    · simp only [List.mem_ite_nil_right, List.mem_singleton, Piece.crosses.injEq] at crossed
      obtain ⟨accepted, rfl⟩ := crossed
      simp [remainders, accepted]
    · simp at stayed
  | cons symbol text inductionHypothesis =>
    obtain crossed | stayed := List.mem_append.mp crossed
    · rw [List.mem_ite_nil_right] at crossed
      have later := inductionHypothesis crossed.2
      simp only [remainders, List.mem_ite_nil_right, List.mem_map, List.mem_range] at later ⊢
      obtain ⟨accepted, left, bound, rfl⟩ := later
      exact ⟨accepted, left, by omega, rfl⟩
    · simp at stayed

/-- What remains of an expression is one of its remainders. -/
theorem pieces_remainder {wall : Symbol} {place : Place Symbol} {remainder : Regex Symbol}
    (crossed : Piece.crosses remainder ∈ re.pieces wall place) :
    remainder ∈ re.remainders wall := by
  induction re generalizing place remainder with
  | nothing => simp [pieces] at crossed
  | one accepts =>
    obtain ⟨before, text⟩ := place
    cases text <;> simp_all [pieces, remainders]
  | boundary isWord => simp [pieces] at crossed
  | run accepts least => exact runPieces_remainder crossed
  | followedBy first second firstHypothesis secondHypothesis =>
    obtain ⟨piece, listed, crossed⟩ := List.mem_flatMap.mp crossed
    cases piece with
    | stays middle => exact List.mem_append_right _ (secondHypothesis crossed)
    | crosses rest =>
      rw [List.mem_singleton, Piece.crosses.injEq] at crossed
      subst crossed
      exact List.mem_append_left _ (List.mem_map_of_mem (firstHypothesis listed))
  | orElse first second firstHypothesis secondHypothesis =>
    obtain crossed | crossed := List.mem_append.mp crossed
    · exact List.mem_append_left _ (firstHypothesis crossed)
    · exact List.mem_append_right _ (secondHypothesis crossed)

/-- Nothing remains of an expression that does not read the symbol. -/
theorem remainders_of_reads {wall : Symbol} (unread : re.reads wall = false) :
    re.remainders wall = [] := by
  induction re with
  | nothing => rfl
  | one accepts => simpa [reads, remainders] using unread
  | boundary isWord => rfl
  | run accepts least => simpa [reads, remainders] using unread
  | followedBy first second firstHypothesis secondHypothesis =>
    obtain ⟨unreadFirst, unreadSecond⟩ := Bool.or_eq_false_iff.mp unread
    rw [remainders, firstHypothesis unreadFirst, secondHypothesis unreadSecond]
    rfl
  | orElse first second firstHypothesis secondHypothesis =>
    obtain ⟨unreadFirst, unreadSecond⟩ := Bool.or_eq_false_iff.mp unread
    rw [remainders, firstHypothesis unreadFirst, secondHypothesis unreadSecond]
    rfl

theorem ends_length {place : Place Symbol} {before : Option Symbol} {text : List Symbol}
    (ended : place ∈ re.ends (before, text)) : place.2.length ≤ text.length := by
  obtain ⟨consumed, rfl, _⟩ := ends_consume ended
  simp

/-- A match that begins before a symbol ends before it, or what remains of the expression has
its match behind it. -/
theorem width_across {before : Option Symbol} {text more : List Symbol} {wall : Symbol}
    {width : ℕ} (found : re.width before (text ++ wall :: more) = some width) :
    width ≤ text.length ∨ ∃ remainder ∈ re.remainders wall, ∃ past,
      remainder.width (some wall) more = some past ∧ width = text.length + 1 + past := by
  obtain ⟨place, first, rfl⟩ : ∃ place,
      (re.ends (before, text ++ wall :: more)).head? = some place ∧
      (text ++ wall :: more).length - place.2.length = width := by
    simpa [Regex.width, widths] using found
  rw [ends_pieces, List.head?_flatMap] at first
  obtain ⟨piece, listed, first⟩ := List.exists_of_findSome?_eq_some first
  cases piece with
  | stays stop =>
    obtain rfl := Option.some.inj first
    left
    simp only [List.length_append, List.length_cons]
    omega
  | crosses remainder =>
    right
    have short := ends_length (List.mem_of_mem_head? first)
    refine ⟨remainder, pieces_remainder listed, more.length - place.2.length, ?_, ?_⟩
    · rw [Regex.width, widths, List.head?_map]
      exact congrArg (Option.map _) first
    · simp only [List.length_append, List.length_cons]
      omega

/-- The matches that begin before a symbol do not depend on what follows it, when the matches of
the remainders behind it do not. -/
theorem width_across_congr {wall : Symbol} {more other : List Symbol}
    (same : ∀ remainder ∈ re.remainders wall,
      remainder.widths (some wall) more = remainder.widths (some wall) other)
    (before : Option Symbol) (text : List Symbol) :
    re.width before (text ++ wall :: more) = re.width before (text ++ wall :: other) := by
  have spread (more : List Symbol) : re.widths before (text ++ wall :: more) =
      (re.pieces wall (before, text)).flatMap fun
        | .stays place => [text.length - place.2.length]
        | .crosses remainder =>
            (remainder.widths (some wall) more).map (text.length + 1 + ·) := by
    rw [widths, ends_pieces, List.map_flatMap]
    congr 1
    funext piece
    cases piece with
    | stays place =>
      simp only [Piece.ends, List.map_cons, List.map_nil, List.length_append, List.length_cons]
      congr 1
      omega
    | crosses remainder =>
      simp only [Piece.ends, widths, List.map_map]
      refine List.map_congr_left fun place ended => ?_
      have short := ends_length ended
      simp only [List.length_append, List.length_cons, Function.comp_apply]
      omega
  rw [Regex.width, Regex.width, spread, spread]
  congr 1
  refine List.flatMap_congr fun piece listed => ?_
  cases piece with
  | stays place => rfl
  | crosses remainder => simp only [same remainder (pieces_remainder listed)]

/-- What a scan does before a symbol, when the matches of the remainders behind the symbol do not
depend on what follows. -/
theorem scan_across_congr {wall : Symbol} {more other : List Symbol}
    (same : ∀ remainder ∈ re.remainders wall,
      remainder.widths (some wall) more = remainder.widths (some wall) other)
    (text : List Symbol) (skip : ℕ) (before : Option Symbol) :
    re.scan replacement more skip before (text ++ [wall]) =
      re.scan replacement other skip before (text ++ [wall]) := by
  refine scan_congr (fun before' rest suffix proper => ?_) skip before
  obtain ⟨_, rfl⟩ | ⟨inner, rfl, _⟩ := List.suffix_concat_iff.mp suffix
  · exact absurd rfl proper
  · simpa using width_across_congr same before' inner

/-- Behind a symbol a scan is in no match, or in the match of a remainder. -/
theorem scan_overrun {wall : Symbol} {text more : List Symbol} {skip : ℕ}
    (within : skip ≤ text.length + 1) (before : Option Symbol) :
    (re.scan replacement more skip before (text ++ [wall])).2 = 0 ∨
      ∃ remainder ∈ re.remainders wall, remainder.width (some wall) more =
        some (re.scan replacement more skip before (text ++ [wall])).2 := by
  induction text generalizing skip before with
  | nil =>
    obtain ⟨written, later, scanned, outcome⟩ :=
      scan_cons re replacement more skip before wall []
    rw [List.nil_append, scanned, write_snd, scan_nil]
    obtain ⟨rfl, _⟩ | ⟨_, rfl, _⟩ | ⟨_, _, found⟩ := outcome
    · left
      simpa using within
    · exact .inl rfl
    · have across : re.width before ([] ++ wall :: more) = some (later + 1) := found
      obtain inside | ⟨remainder, listed, past, foundOver, split⟩ := width_across across
      · simp at inside
      · obtain rfl : later = past := by simpa [Nat.add_comm] using split
        exact .inr ⟨remainder, listed, foundOver⟩
  | cons symbol text inductionHypothesis =>
    obtain ⟨written, later, scanned, outcome⟩ :=
      scan_cons re replacement more skip before symbol (text ++ [wall])
    rw [List.length_cons] at within
    rw [List.cons_append, scanned, write_snd]
    obtain ⟨rfl, _⟩ | ⟨_, rfl, _⟩ | ⟨_, _, found⟩ := outcome
    · exact inductionHypothesis (by omega) (some symbol)
    · exact inductionHypothesis (Nat.zero_le _) (some symbol)
    · rw [← List.cons_append, List.append_assoc, List.singleton_append] at found
      obtain inside | ⟨remainder, listed, past, foundOver, split⟩ := width_across found
      · rw [List.length_cons] at inside
        exact inductionHypothesis (by omega) (some symbol)
      · rw [List.length_cons] at split
        obtain rfl : later = (text ++ [wall]).length + past := by
          rw [List.length_append, List.length_singleton]
          omega
        rw [scan_skipped]
        exact .inr ⟨remainder, listed, foundOver⟩

/-- A scan that is in no match behind a symbol has copied the symbol, when no match begins or
ends with it. -/
theorem scan_copies_last {wall : Symbol} (proper : re.nullable = false)
    (opens : re.firsts wall = false) (closes : re.lasts wall = false) {text more : List Symbol}
    {skip : ℕ} (open' : skip ≠ text.length + 1) (before : Option Symbol)
    (outside : (re.scan replacement more skip before (text ++ [wall])).2 = 0) :
    ∃ written, (re.scan replacement more skip before (text ++ [wall])).1 = written ++ [wall] := by
  induction text generalizing skip before with
  | nil =>
    cases skip with
    | zero =>
      rw [List.nil_append, scan_copy (width_none_of_firsts proper opens before _)]
      exact ⟨[], rfl⟩
    | succ skip =>
      rw [List.nil_append, scan_skip, scan_nil] at outside
      exact absurd (congrArg (· + 1) outside) open'
  | cons symbol text inductionHypothesis =>
    obtain ⟨written, later, scanned, outcome⟩ :=
      scan_cons re replacement more skip before symbol (text ++ [wall])
    rw [List.length_cons] at open'
    rw [List.cons_append, scanned, write_snd] at outside
    have apart : later ≠ text.length + 1 := by
      obtain ⟨rfl, _⟩ | ⟨_, rfl, _⟩ | ⟨_, _, found⟩ := outcome
      · omega
      · omega
      · rintro rfl
        obtain ⟨_, fits⟩ := width_fits found
        have whole : (symbol :: (text ++ [wall]) ++ more).take (text.length + 1 + 1) =
            symbol :: text ++ [wall] := List.take_left' (by simp)
        have last := fits.last wall (by rw [whole, List.getLast?_concat]; rfl)
        rw [closes] at last
        nomatch last
    obtain ⟨end', copied⟩ := inductionHypothesis apart (some symbol) outside
    exact ⟨written ++ end', by rw [List.cons_append, scanned, write_fst, copied, List.append_assoc]⟩

/-- A text whose last symbol no match reads is scanned as if nothing followed it, and what is
written ends with that symbol. -/
theorem scan_walled (replacement : List Symbol) (proper : re.nullable = false) {text : List Symbol}
    (unread : ∀ symbol ∈ text.getLast?, re.reads symbol = false) (more : List Symbol) :
    re.scan replacement more 0 none text = (re.replaceAll replacement text, 0) ∧
      (re.replaceAll replacement text).getLast? = text.getLast? := by
  rcases text.eq_nil_or_concat with rfl | ⟨front, wall, rfl⟩
  · exact ⟨scan_nil more 0 none, rfl⟩
  · rw [List.concat_eq_append] at unread ⊢
    have closed : re.reads wall = false := unread wall (by simp)
    have noRemainder := remainders_of_reads closed
    have opens : re.firsts wall = false := by
      rw [Bool.eq_false_iff]
      intro first
      rw [reads_of_firsts first] at closed
      nomatch closed
    have closes : re.lasts wall = false := by
      rw [Bool.eq_false_iff]
      intro last
      rw [reads_of_lasts last] at closed
      nomatch closed
    have outside : (re.scan replacement [] 0 none (front ++ [wall])).2 = 0 := by
      obtain outside | ⟨_, listed, _⟩ :
          (re.scan replacement [] 0 none (front ++ [wall])).2 = 0 ∨ _ :=
        scan_overrun (Nat.zero_le _) none
      · exact outside
      · rw [noRemainder] at listed
        nomatch listed
    have same : re.scan replacement more 0 none (front ++ [wall]) =
        re.scan replacement [] 0 none (front ++ [wall]) :=
      scan_across_congr (by rw [noRemainder]; exact nofun) front 0 none
    obtain ⟨written, copied⟩ :=
      scan_copies_last proper opens closes (Nat.zero_ne_add_one front.length) none outside
    refine ⟨by rw [same]; exact Prod.ext rfl outside, ?_⟩
    rw [replaceAll, copied, List.getLast?_concat, List.getLast?_concat]

/-! ## Symbols that an expression does not tell apart -/

/-- An expression takes related symbols alike. -/
def Respects (alike : Symbol → Symbol → Prop) : Regex Symbol → Prop
  | nothing => True
  | one accepts => ∀ symbol other, alike symbol other → accepts symbol = accepts other
  | boundary isWord => ∀ symbol other, alike symbol other → isWord symbol = isWord other
  | run accepts _ => ∀ symbol other, alike symbol other → accepts symbol = accepts other
  | followedBy first second => first.Respects alike ∧ second.Respects alike
  | orElse first second => first.Respects alike ∧ second.Respects alike

/-- Places in texts that are related symbol by symbol. -/
structure PlacesAlike (alike : Symbol → Symbol → Prop) (place other : Place Symbol) : Prop where
  before : Option.Rel alike place.1 other.1
  text : List.Forall₂ alike place.2 other.2

theorem runEnds_alike {alike : Symbol → Symbol → Prop} {accepts : Symbol → Bool}
    (respects : ∀ symbol other, alike symbol other → accepts symbol = accepts other) {least : ℕ}
    {before before' : Option Symbol} {text text' : List Symbol}
    (befores : Option.Rel alike before before') (texts : List.Forall₂ alike text text') :
    List.Forall₂ (PlacesAlike alike) (runEnds accepts least before text)
      (runEnds accepts least before' text') := by
  induction texts generalizing least before before' with
  | nil =>
    simp only [runEnds]
    split
    · exact .cons ⟨befores, .nil⟩ .nil
    · exact .nil
  | cons symbols texts inductionHypothesis =>
    simp only [runEnds, respects _ _ symbols]
    refine List.rel_append ?_ ?_
    · split
      · exact inductionHypothesis (.some symbols)
      · exact .nil
    · split
      · exact .cons ⟨befores, .cons symbols texts⟩ .nil
      · exact .nil

theorem any_alike {alike : Symbol → Symbol → Prop} {isWord : Symbol → Bool}
    (respects : ∀ symbol other, alike symbol other → isWord symbol = isWord other)
    {before before' : Option Symbol} (befores : Option.Rel alike before before') :
    before.any isWord = before'.any isWord := by
  cases befores with
  | none => rfl
  | some symbols => exact respects _ _ symbols

theorem heads_alike {alike : Symbol → Symbol → Prop} {text text' : List Symbol}
    (texts : List.Forall₂ alike text text') : Option.Rel alike text.head? text'.head? := by
  cases texts with
  | nil => exact .none
  | cons symbols _ => exact .some symbols

/-- At places that are alike an expression has its ends alike. -/
theorem ends_alike {alike : Symbol → Symbol → Prop} (respects : re.Respects alike)
    {place other : Place Symbol} (places : PlacesAlike alike place other) :
    List.Forall₂ (PlacesAlike alike) (re.ends place) (re.ends other) := by
  induction re generalizing place other with
  | nothing => exact .cons places .nil
  | one accepts =>
    obtain ⟨befores, texts⟩ := places
    obtain ⟨before, text⟩ := place
    obtain ⟨before', text'⟩ := other
    cases texts with
    | nil => exact .nil
    | cons symbols texts =>
      simp only [ends, respects _ _ symbols]
      split
      · exact .cons ⟨.some symbols, texts⟩ .nil
      · exact .nil
  | boundary isWord =>
    have nexts : place.2.head?.any isWord = other.2.head?.any isWord :=
      any_alike respects (heads_alike places.text)
    simp only [ends, any_alike respects places.before, nexts]
    split
    · exact .nil
    · exact .cons places .nil
  | run accepts least => exact runEnds_alike respects places.before places.text
  | followedBy first second firstHypothesis secondHypothesis =>
    exact List.rel_flatMap (firstHypothesis respects.1 places)
      fun _ _ middle => secondHypothesis respects.2 middle
  | orElse first second firstHypothesis secondHypothesis =>
    exact List.rel_append (firstHypothesis respects.1 places) (secondHypothesis respects.2 places)

/-- An expression finds matches of the same widths at places that are alike. -/
theorem widths_alike {alike : Symbol → Symbol → Prop} (respects : re.Respects alike)
    {before before' : Option Symbol} {text text' : List Symbol}
    (befores : Option.Rel alike before before') (texts : List.Forall₂ alike text text') :
    re.widths before text = re.widths before' text' := by
  have listed : List.Forall₂ (PlacesAlike alike) (re.ends (before, text))
      (re.ends (before', text')) := ends_alike respects ⟨befores, texts⟩
  rw [widths, widths, texts.length_eq, ← List.forall₂_eq_eq_eq]
  exact List.rel_map (fun _ _ places => by rw [places.text.length_eq]) listed

theorem width_alike {alike : Symbol → Symbol → Prop} (respects : re.Respects alike)
    {before before' : Option Symbol} {text text' : List Symbol}
    (befores : Option.Rel alike before before') (texts : List.Forall₂ alike text text') :
    re.width before text = re.width before' text' :=
  congrArg List.head? (widths_alike respects befores texts)

/-- A text is scanned in the same way in front of texts that are alike. -/
theorem scan_alike {alike : Symbol → Symbol → Prop} (respects : re.Respects alike)
    (reflexive : ∀ symbol, alike symbol symbol) {more other : List Symbol}
    (texts : List.Forall₂ alike more other) (skip : ℕ) (before : Option Symbol)
    (text : List Symbol) :
    re.scan replacement more skip before text = re.scan replacement other skip before text := by
  refine scan_congr (fun before' rest _ _ => width_alike respects ?_ ?_) skip before
  · cases before' with
    | none => exact .none
    | some symbol => exact .some (reflexive symbol)
  · exact List.rel_append (List.forall₂_same.mpr fun symbol _ => reflexive symbol) texts

/-- The symbol before a text matters only as far as the expression tells it apart. -/
theorem scan_before_alike {alike : Symbol → Symbol → Prop} (respects : re.Respects alike)
    (reflexive : ∀ symbol, alike symbol symbol) {before before' : Option Symbol}
    (befores : Option.Rel alike before before') (replacement more : List Symbol) (skip : ℕ)
    (text : List Symbol) :
    re.scan replacement more skip before text = re.scan replacement more skip before' text := by
  cases text with
  | nil => simp
  | cons symbol text =>
    cases skip with
    | succ skip => rfl
    | zero =>
      have same : re.width before (symbol :: text ++ more) =
          re.width before' (symbol :: text ++ more) :=
        width_alike respects befores (List.forall₂_same.mpr fun symbol _ => reflexive symbol)
      rw [scan, scan, same]

/-- A match that takes the first of two parts whole leaves nothing of it. -/
theorem scan_over {before : Option Symbol} {text rest : List Symbol} (nonempty : text ≠ [])
    {past : ℕ} (found : re.width before (text ++ rest) = some (text.length + past)) :
    (re.scan replacement [] 0 before (text ++ rest)).1 =
      replacement ++ (re.scan replacement [] past (previous before text) rest).1 := by
  obtain ⟨symbol, text, rfl⟩ := List.exists_cons_of_ne_nil nonempty
  have here : re.width before (symbol :: (text ++ rest) ++ []) = some (text.length + past + 1) := by
    rw [List.append_nil, ← Nat.add_right_comm]
    exact found
  have skipped :
      re.scan replacement (rest ++ []) (text.length + past) (some symbol) text = ([], past) :=
    scan_skipped text _ past _
  rw [List.cons_append, scan_match here, scan_append, skipped, Scanners.previous_cons]
  rfl

end Regex

end Regexes
