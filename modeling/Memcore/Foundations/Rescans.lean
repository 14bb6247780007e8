import Memcore.Foundations.Scanners
import Mathlib.Data.List.TakeWhile

/-!
# Rescans

A scanner may read again what it or another one has written. A text is settled for a rule
when everything the rule would write stands there already; the scanner of the rule leaves
such a text as it is.

What is written for a mark is the mark in some spelling, and a filler in which no mark
begins. Behind the filler a place has another symbol before it than it had behind the
value. This is where a rule may see a mark that was not there when the rule was applied.
-/
namespace Scanners

variable {Symbol : Type}

/-- Scan on from a place: what is written. -/
def passFrom (rule : Rule Symbol) (before : Option Symbol) (text : List Symbol) :
    Option (List Symbol) :=
  (scan rule .copying before text).map Prod.fst

/-- The places right behind the values that a scanner leaves out. -/
def behindValues (rule : Rule Symbol) :
    Mode → Option Symbol → List Symbol → List (Option Symbol × List Symbol)
  | mode, before, [] => if mode = .skipping 0 then [(before, [])] else []
  | mode, before, symbol :: rest =>
      (if mode = .skipping 0 ∧ rule.stops symbol = true then [(before, symbol :: rest)] else []) ++
      match step rule mode before symbol rest with
      | none => []
      | some (_, next) => behindValues rule next (some symbol) rest

attribute [grind =] behindValues

/-- What the rule would write at a place stands there, and a value ends behind it. -/
def Stands (rule : Rule Symbol) (before : Option Symbol) (text : List Symbol) : Prop :=
  ∀ written width, rule.sees before text = .mark written width →
    ∃ tail, text = written ++ tail ∧ ∀ symbol ∈ tail.head?, rule.stops symbol = true

/-- It stands at every place of a text. -/
def Settled (rule : Rule Symbol) (before : Option Symbol) (text : List Symbol) : Prop :=
  ∀ front rest, text = front ++ rest → Stands rule (previous before front) rest

/-- What is written for a mark is the mark in a spelling of the rule, and the filler. No mark
begins inside the filler, spellings are not told apart before a mark, and behind the filler a
rule sees what it sees anywhere. -/
structure Fills (fold : Symbol → Symbol) (filler : List Symbol) (rule : Rule Symbol) : Prop where
  fills : ∀ before text written width, rule.sees before text = .mark written width →
    ∃ kept, written = kept ++ filler ∧ kept.map fold = (text.take width).map fold ∧
      0 < width ∧ width ≤ text.length
  inside : ∀ symbol ∈ filler, rule.stops symbol = false
  unseen : ∀ part rest before, part ≠ [] → part <:+ filler →
    rule.sees before (part ++ rest) = .nothing
  folded : ∀ before before' text, before.map fold = before'.map fold →
    rule.sees before text = rule.sees before' text
  opened : ∀ before text, rule.sees before text = .nothing ∨
    rule.sees (previous none filler) text = rule.sees before text
  stopsFolded : ∀ symbol, rule.stops (fold symbol) = rule.stops symbol

/-- How a scanner gets through a text, mark by mark. What holds behind its values is part of it. -/
inductive Rewritten (filler : List Symbol) (rule : Rule Symbol)
    (Behind : Option Symbol → List Symbol → Prop) :
    Option Symbol → List Symbol → List Symbol → Prop
  | nil (before : Option Symbol) : Rewritten filler rule Behind before [] []
  | copied {before : Option Symbol} {symbol : Symbol} {rest out : List Symbol}
      (nothing : rule.sees before (symbol :: rest) = .nothing)
      (later : Rewritten filler rule Behind (some symbol) rest out) :
      Rewritten filler rule Behind before (symbol :: rest) (symbol :: out)
  | marked {before : Option Symbol} {taken value tail kept out : List Symbol}
      (seen : rule.sees before (taken ++ (value ++ tail)) = .mark (kept ++ filler) taken.length)
      (inside : ∀ symbol ∈ value, rule.stops symbol = false)
      (stop : ∀ symbol ∈ tail.head?, rule.stops symbol = true)
      (behind : Behind (previous before (taken ++ value)) tail)
      (later : Rewritten filler rule Behind (previous before (taken ++ value)) tail out) :
      Rewritten filler rule Behind before (taken ++ (value ++ tail)) (kept ++ (filler ++ out))

theorem previous_append (before : Option Symbol) (first second : List Symbol) :
    previous before (first ++ second) = previous (previous before first) second := by
  induction first generalizing before with
  | nil => rfl
  | cons symbol rest inductionHypothesis => simp [inductionHypothesis]

variable {rule : Rule Symbol}

theorem behindValues_nothing {before : Option Symbol} {symbol : Symbol} {rest : List Symbol}
    (nothing : rule.sees before (symbol :: rest) = .nothing) :
    behindValues rule .copying before (symbol :: rest) =
      behindValues rule .copying (some symbol) rest := by
  simp [behindValues, step, Mode.enter, nothing]

/-- Symbols that are to be left out stand behind no value. -/
theorem behindValues_width (text : List Symbol) (before : Option Symbol) (more : List Symbol) :
    behindValues rule (.skipping text.length) before (text ++ more) =
      behindValues rule (.skipping 0) (previous before text) more := by
  induction text generalizing before with
  | nil => simp
  | cons symbol rest inductionHypothesis =>
    rw [List.cons_append, behindValues, List.length_cons, previous_cons, ← inductionHypothesis]
    simp [step, Mode.enter]

theorem behindValues_value {value : List Symbol}
    (inside : ∀ symbol ∈ value, rule.stops symbol = false) (before : Option Symbol)
    (more : List Symbol) :
    behindValues rule (.skipping 0) before (value ++ more) =
      behindValues rule (.skipping 0) (previous before value) more := by
  induction value generalizing before with
  | nil => simp
  | cons symbol value inductionHypothesis =>
    have here := inside symbol List.mem_cons_self
    have later := inductionHypothesis fun other member =>
      inside other (List.mem_cons_of_mem _ member)
    rw [List.cons_append, behindValues, previous_cons, ← later]
    simp [step, Mode.enter, here]

theorem behindValues_stop {before : Option Symbol} {tail : List Symbol}
    (stop : ∀ symbol ∈ tail.head?, rule.stops symbol = true) :
    behindValues rule (.skipping 0) before tail =
      (before, tail) :: behindValues rule .copying before tail := by
  cases tail with
  | nil => simp [behindValues]
  | cons symbol rest => simp [behindValues, step, Mode.enter, stop symbol rfl]

theorem behindValues_marked {before : Option Symbol} {taken value tail written : List Symbol}
    (nonempty : taken ≠ [])
    (seen : rule.sees before (taken ++ (value ++ tail)) = .mark written taken.length)
    (inside : ∀ symbol ∈ value, rule.stops symbol = false)
    (stop : ∀ symbol ∈ tail.head?, rule.stops symbol = true) :
    behindValues rule .copying before (taken ++ (value ++ tail)) =
      (previous before (taken ++ value), tail) ::
        behindValues rule .copying (previous before (taken ++ value)) tail := by
  cases taken with
  | nil => exact absurd rfl nonempty
  | cons symbol rest =>
    have first : behindValues rule .copying before (symbol :: rest ++ (value ++ tail)) =
        behindValues rule (.skipping rest.length) (some symbol) (rest ++ (value ++ tail)) := by
      rw [List.cons_append] at seen
      simp [behindValues, step, Mode.enter, seen]
    rw [first, behindValues_width, behindValues_value inside, behindValues_stop stop,
      previous_append, previous_cons]

/-- Behind a value there is the rest of the text, and what stops the value. -/
theorem behindValues_place {mode : Mode} {before : Option Symbol} {text : List Symbol}
    {place : Option Symbol × List Symbol} (listed : place ∈ behindValues rule mode before text) :
    place.2 <:+ text ∧ ∀ symbol ∈ place.2.head?, rule.stops symbol = true := by
  induction text generalizing mode before with
  | nil =>
    obtain ⟨_, single⟩ := List.mem_ite_nil_right.mp listed
    obtain rfl := List.mem_singleton.mp single
    exact ⟨List.suffix_rfl, nofun⟩
  | cons symbol rest inductionHypothesis =>
    obtain here | later := List.mem_append.mp listed
    · obtain ⟨⟨_, stop⟩, single⟩ := List.mem_ite_nil_right.mp here
      obtain rfl := List.mem_singleton.mp single
      exact ⟨List.suffix_rfl, fun other member => Option.some.inj member ▸ stop⟩
    · cases stepped : step rule mode before symbol rest with
      | none =>
        rw [stepped] at later
        nomatch later
      | some result =>
        rw [stepped] at later
        obtain ⟨suffix, stop⟩ := inductionHypothesis later
        exact ⟨suffix.trans (List.suffix_cons symbol rest), stop⟩

theorem passFrom_nothing {before : Option Symbol} {symbol : Symbol} {rest : List Symbol}
    (nothing : rule.sees before (symbol :: rest) = .nothing) :
    passFrom rule before (symbol :: rest) =
      (passFrom rule (some symbol) rest).map (symbol :: ·) := by
  simp [passFrom, scan_nothing nothing]

theorem passFrom_marked {before : Option Symbol} {taken value tail written : List Symbol}
    (nonempty : taken ≠ [])
    (seen : rule.sees before (taken ++ (value ++ tail)) = .mark written taken.length)
    (inside : ∀ symbol ∈ value, rule.stops symbol = false)
    (stop : ∀ symbol ∈ tail.head?, rule.stops symbol = true) :
    passFrom rule before (taken ++ (value ++ tail)) =
      (passFrom rule (previous before (taken ++ value)) tail).map (written ++ ·) := by
  cases taken with
  | nil => exact absurd rfl nonempty
  | cons symbol rest =>
    have skipped : (scan rule (.skipping rest.length) (some symbol) (rest ++ (value ++ tail))).map
        Prod.fst = passFrom rule (previous before (symbol :: rest ++ value)) tail := by
      have wide := @scan_width Symbol rule rest 0 (some symbol) (value ++ tail)
      rw [Nat.add_zero] at wide
      rw [wide, scan_value inside, Nat.zero_sub, previous_append, previous_cons]
      cases tail with
      | nil => rfl
      | cons other tail => rw [scan_stop (stop other rfl), passFrom]
    rw [List.cons_append] at seen
    rw [passFrom, List.cons_append, scan_mark seen, fst_emit, List.length_cons, Nat.add_sub_cancel,
      skipped]

variable {fold : Symbol → Symbol} {filler : List Symbol}
  {Behind : Option Symbol → List Symbol → Prop}

/-- A mark, the value behind it and the rest of a text. -/
theorem mark_split (fills : Fills fold filler rule) {before : Option Symbol}
    {text written : List Symbol} {width : ℕ} (seen : rule.sees before text = .mark written width) :
    ∃ taken value tail kept, text = taken ++ (value ++ tail) ∧ written = kept ++ filler ∧
      width = taken.length ∧ taken ≠ [] ∧ kept.map fold = taken.map fold ∧
      (∀ symbol ∈ value, rule.stops symbol = false) ∧
      ∀ symbol ∈ tail.head?, rule.stops symbol = true := by
  obtain ⟨kept, rfl, same, positive, fits⟩ := fills.fills before text written width seen
  have long : (text.take width).length = width := List.length_take_of_le fits
  refine ⟨text.take width, (text.drop width).takeWhile (!rule.stops ·),
    (text.drop width).dropWhile (!rule.stops ·), kept, ?_, rfl, long.symm, ?_, same, ?_, ?_⟩
  · rw [List.takeWhile_append_dropWhile, List.take_append_drop]
  · intro empty
    rw [empty, List.length_nil] at long
    omega
  · intro symbol member
    simpa using List.mem_takeWhile_imp member
  · intro symbol member
    have ends := List.head?_dropWhile_not (fun other => !rule.stops other) (text.drop width)
    rw [Option.mem_def.mp member] at ends
    simpa using ends

/-- A scan that succeeds gets through the text, if what is to hold does behind each value. -/
theorem rewritten_of_passFrom (fills : Fills fold filler rule) {before : Option Symbol}
    {text out : List Symbol} (passed : passFrom rule before text = some out)
    (behind : ∀ place ∈ behindValues rule .copying before text, Behind place.1 place.2) :
    Rewritten filler rule Behind before text out := by
  cases text with
  | nil =>
    obtain rfl : [] = out := Option.some.inj passed
    exact .nil before
  | cons symbol rest =>
    cases seen : rule.sees before (symbol :: rest) with
    | nothing =>
      rw [passFrom_nothing seen] at passed
      obtain ⟨later, passedRest, rfl⟩ := Option.map_eq_some_iff.mp passed
      rw [behindValues_nothing seen] at behind
      exact .copied seen (rewritten_of_passFrom fills passedRest behind)
    | fails => simp [passFrom, scan_fails seen] at passed
    | mark written width =>
      obtain ⟨taken, value, tail, kept, split, rfl, rfl, nonempty, _, inside, stop⟩ :=
        mark_split fills seen
      have shorter : tail.length < rest.length + 1 := by
        have positive := List.length_pos_iff.mpr nonempty
        have lengths := congrArg List.length split
        simp only [List.length_cons, List.length_append] at lengths
        omega
      rw [split] at seen passed behind ⊢
      rw [passFrom_marked nonempty seen inside stop] at passed
      obtain ⟨later, passedTail, rfl⟩ := Option.map_eq_some_iff.mp passed
      rw [behindValues_marked nonempty seen inside stop, List.forall_mem_cons] at behind
      rw [List.append_assoc]
      exact .marked seen inside stop behind.1 (rewritten_of_passFrom fills passedTail behind.2)
termination_by text.length

/-- Behind a value the scanner goes on behind the filler. -/
theorem rewritten_behind (fills : Fills fold filler rule) {before : Option Symbol}
    {text out : List Symbol} (rewritten : Rewritten filler rule Behind before text out)
    {place : Option Symbol × List Symbol}
    (listed : place ∈ behindValues rule .copying before text) :
    ∃ front later, out = front ++ (filler ++ later) ∧
      Rewritten filler rule Behind place.1 place.2 later := by
  induction rewritten with
  | nil => nomatch listed
  | copied nothing _ inductionHypothesis =>
    rw [behindValues_nothing nothing] at listed
    obtain ⟨front, later, rfl, goesOn⟩ := inductionHypothesis listed
    exact ⟨_ :: front, later, rfl, goesOn⟩
  | @marked before taken value tail kept out seen inside stop _ later inductionHypothesis =>
    have nonempty : taken ≠ [] := by
      obtain ⟨_, _, _, positive, _⟩ := fills.fills _ _ _ _ seen
      exact List.length_pos_iff.mp positive
    rw [behindValues_marked nonempty seen inside stop] at listed
    obtain rfl | listed := List.mem_cons.mp listed
    · exact ⟨kept, out, rfl, later⟩
    · obtain ⟨front, rest, rfl, goesOn⟩ := inductionHypothesis listed
      exact ⟨kept ++ (filler ++ front), rest, by simp, goesOn⟩

/-- A value is determined by what follows the mark. -/
theorem value_unique {stops : Symbol → Bool} {value other tail otherTail : List Symbol}
    (inside : ∀ symbol ∈ value, stops symbol = false)
    (stop : ∀ symbol ∈ tail.head?, stops symbol = true)
    (otherInside : ∀ symbol ∈ other, stops symbol = false)
    (otherStop : ∀ symbol ∈ otherTail.head?, stops symbol = true)
    (same : value ++ tail = other ++ otherTail) : value = other ∧ tail = otherTail := by
  have taken {value tail : List Symbol} (inside : ∀ symbol ∈ value, stops symbol = false)
      (stop : ∀ symbol ∈ tail.head?, stops symbol = true) :
      (value ++ tail).takeWhile (!stops ·) = value := by
    rw [List.takeWhile_append_of_pos fun symbol member => by simp [inside symbol member]]
    cases tail with
    | nil => simp
    | cons symbol rest => simp [stop symbol rfl]
  have sameValue := taken inside stop
  rw [same, taken otherInside otherStop] at sameValue
  subst sameValue
  exact ⟨rfl, List.append_cancel_left same⟩

/-- So is what precedes an ending. -/
theorem ending_unique {trims : Symbol → Bool} {front other ending otherEnding : List Symbol}
    (inside : ∀ symbol ∈ ending, trims symbol = true)
    (last : ∀ symbol ∈ front.getLast?, trims symbol = false)
    (otherInside : ∀ symbol ∈ otherEnding, trims symbol = true)
    (otherLast : ∀ symbol ∈ other.getLast?, trims symbol = false)
    (same : front ++ ending = other ++ otherEnding) : front = other ∧ ending = otherEnding := by
  have turned := congrArg List.reverse same
  rw [List.reverse_append, List.reverse_append] at turned
  have unique := @value_unique Symbol (!trims ·) _ _ _ _ (by simpa using inside)
    (by simpa using last) (by simpa using otherInside) (by simpa using otherLast) turned
  exact ⟨List.reverse_injective unique.2, List.reverse_injective unique.1⟩

/-- Where it stands at a mark, the value is the filler and the spelling is that of the rule. -/
theorem stands_mark (fills : Fills fold filler rule) {before : Option Symbol}
    {taken value tail kept : List Symbol}
    (seen : rule.sees before (taken ++ (value ++ tail)) = .mark (kept ++ filler) taken.length)
    (inside : ∀ symbol ∈ value, rule.stops symbol = false)
    (stop : ∀ symbol ∈ tail.head?, rule.stops symbol = true)
    (stands : Stands rule before (taken ++ (value ++ tail))) : kept = taken ∧ value = filler := by
  obtain ⟨after, split, afterStop⟩ := stands _ _ seen
  have long : taken.length = kept.length := by
    obtain ⟨kept', same, spelled, _, _⟩ := fills.fills _ _ _ _ seen
    obtain rfl := List.append_cancel_right same
    simpa using (congrArg List.length spelled).symm
  rw [List.append_assoc] at split
  obtain ⟨rfl, rest⟩ := List.append_inj split long
  exact ⟨rfl, (value_unique inside stop fills.inside afterStop rest).1⟩

/-- A scanner leaves a settled text as it is. -/
theorem settled_fixed (fills : Fills fold filler rule) {before : Option Symbol}
    {text out : List Symbol} (rewritten : Rewritten filler rule Behind before text out)
    (settled : Settled rule before text) : out = text := by
  induction rewritten with
  | nil => rfl
  | copied _ _ inductionHypothesis =>
    rw [inductionHypothesis fun front rest split => ?_]
    simpa using settled (_ :: front) rest (congrArg _ split)
  | @marked before taken value tail kept out seen inside stop _ _ inductionHypothesis =>
    obtain ⟨rfl, rfl⟩ := stands_mark fills seen inside stop (settled [] _ rfl)
    rw [inductionHypothesis fun front rest split => ?_]
    have later := settled (kept ++ value ++ front) rest (by simp [split])
    rwa [previous_append] at later

/-- Rules that find a text settled leave it as it is, one after the other. -/
theorem passes_settled {rules : List (Rule Symbol)} {text out : List Symbol}
    (fills : ∀ rule ∈ rules, Fills fold filler rule)
    (settled : ∀ rule ∈ rules, Settled rule none text) (passed : passes rules text = some out) :
    out = text := by
  induction rules with
  | nil => exact (Option.some.inj passed).symm
  | cons rule rules inductionHypothesis =>
    obtain ⟨middle, passedFirst, passedRest⟩ := Option.bind_eq_some_iff.mp passed
    have first := List.mem_cons_self (a := rule) (l := rules)
    have rewritten : Rewritten filler rule (fun _ _ => True) none text middle :=
      rewritten_of_passFrom (fills rule first) passedFirst fun _ _ => trivial
    rw [settled_fixed (fills rule first) rewritten (settled rule first)] at passedRest
    exact inductionHypothesis (fun other member => fills other (List.mem_cons_of_mem _ member))
      (fun other member => settled other (List.mem_cons_of_mem _ member)) passedRest

/-- Two spellings of a mark begin alike. -/
theorem head_folded {stops : Symbol → Bool} (folded : ∀ symbol, stops (fold symbol) = stops symbol)
    {part part' more more' : List Symbol} (same : part'.map fold = part.map fold)
    (nonempty : part ≠ []) (starts : ∀ symbol ∈ (part ++ more).head?, stops symbol = true) :
    ∀ symbol ∈ (part' ++ more').head?, stops symbol = true := by
  cases part with
  | nil => exact absurd rfl nonempty
  | cons first rest =>
    cases part' with
    | nil => nomatch same
    | cons other rest' =>
      intro symbol member
      obtain rfl : other = symbol := Option.some.inj member
      rw [← folded, (List.cons.inj same).1, folded]
      exact starts first rfl

/-- What a text begins with, it begins with when it is rewritten. -/
theorem rewritten_head (fills : Fills fold filler rule) {stops : Symbol → Bool}
    (folded : ∀ symbol, stops (fold symbol) = stops symbol) {before : Option Symbol}
    {text out : List Symbol} (rewritten : Rewritten filler rule Behind before text out)
    (starts : ∀ symbol ∈ text.head?, stops symbol = true) :
    ∀ symbol ∈ out.head?, stops symbol = true := by
  cases rewritten with
  | nil => exact starts
  | copied => exact starts
  | @marked _ taken value tail kept out seen inside stop behind later =>
    obtain ⟨kept', same, spelled, positive, _⟩ := fills.fills _ _ _ _ seen
    obtain rfl := List.append_cancel_right same
    rw [List.take_left] at spelled
    exact head_folded folded spelled (List.length_pos_iff.mp positive) starts

/-- A text and what a scanner makes of it, up to a filler: what it copies, and then a mark or
the end of one, whose value is left out. -/
structure Edge (fold : Symbol → Symbol) (filler : List Symbol) (rule : Rule Symbol)
    (start start' front part value tail part' later : List Symbol) : Prop where
  mark : ∃ before, rule.sees before (start ++ (part ++ (value ++ tail))) =
    .mark (start' ++ (part' ++ filler)) (start ++ part).length
  aligned : start'.length = start.length
  alone : front = [] ∨ start = []
  spelled : part'.map fold = part.map fold
  nonempty : part ≠ []
  inside : ∀ symbol ∈ value, rule.stops symbol = false
  stop : ∀ symbol ∈ tail.head?, rule.stops symbol = true
  heads : ∀ stops : Symbol → Bool, (∀ symbol, stops (fold symbol) = stops symbol) →
    (∀ symbol ∈ tail.head?, stops symbol = true) → ∀ symbol ∈ later.head?, stops symbol = true

/-- Where a rule writes something, what another would write there stands as before. -/
def Spares (Holds : Symbol → Prop) (fold : Symbol → Symbol) (filler : List Symbol)
    (rule other : Rule Symbol) : Prop :=
  ∀ before start start' front part value tail part' later,
    Edge fold filler rule start start' front part value tail part' later →
    (∀ symbol ∈ start ++ (front ++ (part ++ (value ++ tail))), Holds symbol) →
    (∀ symbol ∈ front ++ (part' ++ (filler ++ later)), Holds symbol) →
    Stands other before (front ++ (part ++ (value ++ tail))) →
    Stands other before (front ++ (part' ++ (filler ++ later)))

/-- Where a rule has written something, it stands. -/
def Rereads (Holds : Symbol → Prop) (fold : Symbol → Symbol) (filler : List Symbol)
    (rule : Rule Symbol) : Prop :=
  ∀ before start start' part value tail part' later,
    Edge fold filler rule start start' [] part value tail part' later →
    (∀ symbol ∈ part' ++ (filler ++ later), Holds symbol) →
    Stands rule before (part' ++ (filler ++ later))

/-- The mark of a rewritten text in two parts. -/
theorem edge_of_mark (fills : Fills fold filler rule) {before : Option Symbol}
    {taken value tail kept out front part' : List Symbol}
    (seen : rule.sees before (taken ++ (value ++ tail)) = .mark (kept ++ filler) taken.length)
    (inside : ∀ symbol ∈ value, rule.stops symbol = false)
    (stop : ∀ symbol ∈ tail.head?, rule.stops symbol = true)
    (later : Rewritten filler rule Behind (previous before (taken ++ value)) tail out)
    (split : kept = front ++ part') (nonempty : part' ≠ []) :
    ∃ start part, taken = start ++ part ∧ start.map fold = front.map fold ∧
      Edge fold filler rule start front [] part value tail part' out := by
  obtain ⟨kept', same, spelled, _, _⟩ := fills.fills _ _ _ _ seen
  obtain rfl := List.append_cancel_right same
  subst split
  rw [List.take_left, List.map_append] at spelled
  obtain ⟨start, part, rfl, startSame, partSame⟩ := List.map_eq_append_iff.mp spelled.symm
  have long := congrArg List.length startSame
  rw [List.length_map, List.length_map] at long
  refine ⟨start, part, rfl, startSame, ⟨before, ?_⟩, long.symm, .inl rfl, partSame.symm, ?_, inside,
    stop, fun stops folded => rewritten_head fills folded later⟩
  · rw [← List.append_assoc, seen, List.append_assoc]
  · rintro rfl
    exact nonempty (by simpa using partSame.symm)

/-- A rewritten text is the text, or has a first mark. -/
theorem edge_of_rewritten (fills : Fills fold filler rule) {before : Option Symbol}
    {text out : List Symbol} (rewritten : Rewritten filler rule Behind before text out) :
    out = text ∨ ∃ front part value tail part' later, text = front ++ (part ++ (value ++ tail)) ∧
      out = front ++ (part' ++ (filler ++ later)) ∧
      Edge fold filler rule [] [] front part value tail part' later := by
  induction rewritten with
  | nil => exact .inl rfl
  | @copied before symbol rest out nothing later inductionHypothesis =>
    obtain rfl | ⟨front, part, value, tail, part', more, rfl, rfl, edge⟩ := inductionHypothesis
    · exact .inl rfl
    · exact .inr ⟨symbol :: front, part, value, tail, part', more, rfl, rfl,
        { edge with alone := .inr rfl }⟩
  | @marked before taken value tail kept out seen inside stop behind later _ =>
    have nonempty : kept ≠ [] := by
      rintro rfl
      obtain ⟨kept', same, spelled, positive, _⟩ := fills.fills _ _ _ _ seen
      obtain rfl := List.append_cancel_right same
      rw [List.take_left] at spelled
      rw [List.map_eq_nil_iff.mp spelled.symm] at positive
      exact Nat.lt_irrefl 0 positive
    have split : kept = [] ++ kept := rfl
    obtain ⟨start, part, rfl, startSame, edge⟩ :=
      edge_of_mark fills seen inside stop later split nonempty
    obtain rfl := List.map_eq_nil_iff.mp startSame
    exact .inr ⟨[], part, value, tail, kept, out, rfl, rfl, edge⟩

/-- Where the rule sees nothing at the beginning, the first mark is further on. -/
theorem edge_of_unseen (fills : Fills fold filler rule) {before : Option Symbol}
    {text out : List Symbol} (unseen : rule.sees before text = .nothing)
    (rewritten : Rewritten filler rule Behind before text out) :
    out = text ∨ ∃ front part value tail part' later, text = front ++ (part ++ (value ++ tail)) ∧
      out = front ++ (part' ++ (filler ++ later)) ∧
      Edge fold filler rule [] [] front part value tail part' later ∧ front ≠ [] := by
  cases rewritten with
  | nil => exact .inl rfl
  | @copied _ symbol rest out nothing later =>
    obtain rfl | ⟨front, part, value, tail, part', more, rfl, rfl, edge⟩ :=
      edge_of_rewritten fills later
    · exact .inl rfl
    · exact .inr ⟨symbol :: front, part, value, tail, part', more, rfl, rfl,
        { edge with alone := .inr rfl }, List.cons_ne_nil _ _⟩
  | marked seen =>
    rw [unseen] at seen
    nomatch seen

theorem stands_of_unseen {before : Option Symbol} {text : List Symbol}
    (unseen : rule.sees before text = .nothing) : Stands rule before text := by
  intro written width seen
  rw [unseen] at seen
  nomatch seen

theorem stands_nil (fills : Fills fold filler rule) (before : Option Symbol) :
    Stands rule before [] := by
  intro written width seen
  obtain ⟨_, _, _, positive, fits⟩ := fills.fills _ _ _ _ seen
  exact absurd (Nat.lt_of_lt_of_le positive fits) (Nat.lt_irrefl 0)

/-- Behind the filler there is its last symbol. -/
theorem previous_filler (hasFiller : filler ≠ []) (before : Option Symbol) (kept : List Symbol) :
    previous before (kept ++ filler) = previous none filler := by
  obtain ⟨start, last, rfl⟩ := List.eq_nil_or_concat filler |>.resolve_left hasFiller
  rw [List.concat_eq_append, ← List.append_assoc, previous_concat, previous_concat]

theorem previous_fold {start front : List Symbol} (nonempty : front ≠ [])
    (same : start.map fold = front.map fold) (before before' : Option Symbol) :
    (previous before start).map fold = (previous before' front).map fold := by
  obtain ⟨front, last, rfl⟩ := List.eq_nil_or_concat front |>.resolve_left nonempty
  rw [List.concat_eq_append, List.map_append] at same
  obtain ⟨start, ending, rfl, _, lastSame⟩ := List.map_eq_append_iff.mp same
  obtain ⟨other, rfl, otherSame⟩ := List.map_eq_singleton_iff.mp lastSame
  rw [List.concat_eq_append, previous_concat, previous_concat, Option.map_some, Option.map_some,
    otherSame]

theorem stands_folded {other : Rule Symbol} (otherFills : Fills fold filler other)
    {before before' : Option Symbol} (same : before.map fold = before'.map fold)
    {text : List Symbol} : Stands other before text ↔ Stands other before' text := by
  rw [Stands, Stands, otherFills.folded before before' text same]

/-- A rewritten mark is settled for a rule if it stands inside what is kept of it and what
follows is settled. -/
theorem settled_marked {other : Rule Symbol} (otherFills : Fills fold filler other)
    (hasFiller : filler ≠ []) {before : Option Symbol} {kept later : List Symbol}
    (here : ∀ front part, kept = front ++ part → part ≠ [] →
      Stands other (previous before front) (part ++ (filler ++ later)))
    (settled : Settled other (previous none filler) later) :
    Settled other before (kept ++ (filler ++ later)) := by
  intro front rest split
  obtain ⟨more, rfl, splitRest⟩ | ⟨part, rfl, rfl⟩ := List.append_eq_append_iff.mp split
  · obtain ⟨further, rfl, rfl⟩ | ⟨part, shape, rfl⟩ := List.append_eq_append_iff.mp splitRest
    · have behind := settled further rest rfl
      rwa [← previous_filler hasFiller before kept, ← previous_append, List.append_assoc] at behind
    · cases part with
      | nil =>
        rw [List.append_nil] at shape
        obtain rfl := shape
        have behind := settled [] later rfl
        rwa [previous_nil, ← previous_filler hasFiller before kept] at behind
      | cons symbol part =>
        exact stands_of_unseen (otherFills.unseen _ later _ (List.cons_ne_nil _ _)
          ⟨_, shape.symm⟩)
  · cases part with
    | nil =>
      refine stands_of_unseen (otherFills.unseen _ later _ hasFiller List.suffix_rfl)
    | cons symbol part => exact here front _ rfl (List.cons_ne_nil _ _)

/-- What stands at a place stands there when the text is rewritten. -/
theorem stands_rewritten {Holds : Symbol → Prop} {other : Rule Symbol}
    (fills : Fills fold filler rule) (spares : Spares Holds fold filler rule other)
    {before before' : Option Symbol} {text out : List Symbol}
    (rewritten : Rewritten filler rule Behind before text out)
    (holds : ∀ symbol ∈ text, Holds symbol) (holdsOut : ∀ symbol ∈ out, Holds symbol)
    (stands : Stands other before' text) : Stands other before' out := by
  obtain rfl | ⟨front, part, value, tail, part', later, rfl, rfl, edge⟩ :=
    edge_of_rewritten fills rewritten
  · exact stands
  · exact spares before' _ _ front part value tail part' later edge holds holdsOut stands

/-- A rule spares what another one has settled, if it spares it at every mark and behind
every value. -/
theorem settled_rewritten {Holds : Symbol → Prop} {other : Rule Symbol}
    (fills : Fills fold filler rule) (otherFills : Fills fold filler other)
    (hasFiller : filler ≠ []) (spares : Spares Holds fold filler rule other)
    (spared : ∀ before text, Behind before text → Stands other before text →
      Stands other (previous none filler) text)
    {before before' : Option Symbol} {text out : List Symbol}
    (rewritten : Rewritten filler rule Behind before text out)
    (holds : ∀ symbol ∈ text, Holds symbol) (holdsOut : ∀ symbol ∈ out, Holds symbol)
    (settled : Settled other before text) (stands : Stands other before' text) :
    Settled other before' out := by
  induction rewritten generalizing before' with
  | nil =>
    intro front rest split
    obtain ⟨rfl, rfl⟩ := List.append_eq_nil_iff.mp split.symm
    exact stands
  | @copied before symbol rest out nothing later inductionHypothesis =>
    intro front place split
    cases front with
    | nil =>
      subst split
      exact stands_rewritten fills spares (.copied nothing later) holds holdsOut stands
    | cons first front =>
      obtain ⟨rfl, splitRest⟩ := List.cons.inj split
      have settledRest : Settled other (some symbol) rest := fun front place split => by
        simpa using settled (symbol :: front) place (congrArg _ split)
      rw [previous_cons]
      exact inductionHypothesis (fun other member => holds other (List.mem_cons_of_mem _ member))
        (fun other member => holdsOut other (List.mem_cons_of_mem _ member)) settledRest
        (settledRest [] rest rfl) front place splitRest
  | @marked before taken value tail kept out seen inside stop behind later inductionHypothesis =>
    refine settled_marked otherFills hasFiller (fun front part split nonempty => ?_) ?_
    · obtain ⟨start, taken, rfl, same, edge⟩ :=
        edge_of_mark fills seen inside stop later split nonempty
      cases front with
      | nil =>
        obtain rfl : kept = part := split
        exact stands_rewritten fills spares (.marked seen inside stop behind later) holds holdsOut
          stands
      | cons first front =>
        have place : Stands other (previous before start) (taken ++ (value ++ tail)) :=
          settled start _ (by rw [List.append_assoc])
        have sameBefore := previous_fold (List.cons_ne_nil first front) same before before'
        refine spares _ _ _ [] taken value tail part out edge (fun symbol member => ?_)
          (fun symbol member => ?_) ((stands_folded otherFills sameBefore).mp place)
        · exact holds symbol (by rwa [List.append_assoc])
        · exact holdsOut symbol
            (by rw [split, List.append_assoc]; exact List.mem_append_right _ member)
    · have settledTail : Settled other (previous before (taken ++ value)) tail :=
        fun front place split => by
          have place := settled (taken ++ value ++ front) place (by simp [split])
          rwa [previous_append] at place
      exact inductionHypothesis
        (fun other member => holds other (by simp [member]))
        (fun other member => holdsOut other (by simp [member])) settledTail
        (spared _ _ behind (settledTail [] tail rfl))

/-- A rule leaves a text settled for itself, if it writes what stands and sees nothing new
behind a value that does not stand. -/
theorem settled_own {Holds : Symbol → Prop} (fills : Fills fold filler rule)
    (hasFiller : filler ≠ []) (spares : Spares Holds fold filler rule rule)
    (rereads : Rereads Holds fold filler rule)
    (spared : ∀ before text, Behind before text → rule.sees before text = .nothing →
      Stands rule (previous none filler) text)
    {before before' : Option Symbol} {text out : List Symbol}
    (rewritten : Rewritten filler rule Behind before text out)
    (holds : ∀ symbol ∈ text, Holds symbol) (holdsOut : ∀ symbol ∈ out, Holds symbol)
    (stands : rule.sees before text = .nothing → Stands rule before' text) :
    Settled rule before' out := by
  induction rewritten generalizing before' with
  | nil before =>
    intro front rest split
    obtain ⟨rfl, rfl⟩ := List.append_eq_nil_iff.mp split.symm
    exact stands_nil fills before'
  | @copied before symbol rest out nothing later inductionHypothesis =>
    intro front place split
    cases front with
    | nil =>
      subst split
      exact stands_rewritten fills spares (.copied nothing later) holds holdsOut (stands nothing)
    | cons first front =>
      obtain ⟨rfl, splitRest⟩ := List.cons.inj split
      rw [previous_cons]
      exact inductionHypothesis (fun other member => holds other (List.mem_cons_of_mem _ member))
        (fun other member => holdsOut other (List.mem_cons_of_mem _ member)) stands_of_unseen
        front place splitRest
  | @marked before taken value tail kept out seen inside stop behind later inductionHypothesis =>
    refine settled_marked fills hasFiller (fun front part split nonempty => ?_) ?_
    · obtain ⟨start, taken, rfl, _, edge⟩ :=
        edge_of_mark fills seen inside stop later split nonempty
      refine rereads _ _ _ taken value tail part out edge fun symbol member => ?_
      exact holdsOut symbol
        (by rw [split, List.append_assoc]; exact List.mem_append_right _ member)
    · exact inductionHypothesis
        (fun other member => holds other (by simp [member]))
        (fun other member => holdsOut other (by simp [member])) (spared _ _ behind)

/-- Where a rule that has been applied sees nothing behind a value, it sees nothing behind the
filler either, or what it would write there stands. -/
def Covered (filler : List Symbol) (applied : List (Rule Symbol)) (before : Option Symbol)
    (text : List Symbol) : Prop :=
  ∀ rule ∈ applied, rule.sees before text = .nothing → Stands rule (previous none filler) text

/-- So it is behind every value that one of the scanners leaves out. -/
def NothingUncovered (filler : List Symbol) :
    List (Rule Symbol) → List (Rule Symbol) → List Symbol → Prop
  | _, [], _ => True
  | applied, rule :: rules, text =>
      (∀ place ∈ behindValues rule .copying none text,
        Covered filler (rule :: applied) place.1 place.2) ∧
      ∀ out, pass rule text = some out → NothingUncovered filler (rule :: applied) rules out

theorem covered_stands {other : Rule Symbol} (otherFills : Fills fold filler other)
    {applied : List (Rule Symbol)} (member : other ∈ applied) {before : Option Symbol}
    {text : List Symbol} (covered : Covered filler applied before text)
    (stands : Stands other before text) : Stands other (previous none filler) text := by
  obtain nothing | same := otherFills.opened before text
  · exact covered other member nothing
  · rwa [Stands, same]

/-- Scanners that uncover nothing leave a text that is settled for all of them. -/
theorem passes_settle {Holds : Symbol → Prop} (hasFiller : filler ≠ [])
    {applied rules : List (Rule Symbol)} {text out : List Symbol}
    (appliedFills : ∀ rule ∈ applied, Fills fold filler rule)
    (fills : ∀ rule ∈ rules, Fills fold filler rule)
    (pairs : ∀ rule ∈ rules, ∀ other ∈ applied, Spares Holds fold filler rule other)
    (ordered : rules.Pairwise fun other rule => Spares Holds fold filler rule other)
    (own : ∀ rule ∈ rules, Spares Holds fold filler rule rule ∧ Rereads Holds fold filler rule)
    (writes : ∀ rule ∈ rules, ∀ text out, (∀ symbol ∈ text, Holds symbol) →
      pass rule text = some out → ∀ symbol ∈ out, Holds symbol)
    (holds : ∀ symbol ∈ text, Holds symbol) (covered : NothingUncovered filler applied rules text)
    (settled : ∀ rule ∈ applied, Settled rule none text) (passed : passes rules text = some out) :
    ∀ rule ∈ applied ++ rules, Settled rule none out := by
  induction rules generalizing applied text with
  | nil =>
    obtain rfl : text = out := Option.some.inj passed
    simpa using settled
  | cons rule rules inductionHypothesis =>
    obtain ⟨middle, passedFirst, passedRest⟩ := Option.bind_eq_some_iff.mp passed
    obtain ⟨spares, orderedRest⟩ := List.pairwise_cons.mp ordered
    obtain ⟨ruleFills, fillsRest⟩ := List.forall_mem_cons.mp fills
    obtain ⟨⟨ownSpares, rereads⟩, ownRest⟩ := List.forall_mem_cons.mp own
    obtain ⟨pairsHere, pairsRest⟩ := List.forall_mem_cons.mp pairs
    obtain ⟨writesHere, writesRest⟩ := List.forall_mem_cons.mp writes
    have holdsMiddle := writesHere text middle holds passedFirst
    have rewritten := rewritten_of_passFrom ruleFills passedFirst covered.1
    have settledMiddle : ∀ other ∈ rule :: applied, Settled other none middle := by
      rw [List.forall_mem_cons]
      constructor
      · exact settled_own ruleFills hasFiller ownSpares rereads
          (fun before text covered nothing => covered rule List.mem_cons_self nothing) rewritten
          holds holdsMiddle stands_of_unseen
      · intro other member
        have otherFills := appliedFills other member
        exact settled_rewritten ruleFills otherFills hasFiller (pairsHere other member)
          (fun before text => covered_stands otherFills (List.mem_cons_of_mem _ member)) rewritten
          holds holdsMiddle (settled other member) (settled other member [] text rfl)
    have settledOut := inductionHypothesis (List.forall_mem_cons.mpr ⟨ruleFills, appliedFills⟩)
      fillsRest
      (fun later laterMember => List.forall_mem_cons.mpr
        ⟨spares later laterMember, pairsRest later laterMember⟩)
      orderedRest ownRest writesRest holdsMiddle (covered.2 middle passedFirst) settledMiddle
      passedRest
    intro other member
    exact settledOut other (by simp only [List.mem_append, List.mem_cons] at member ⊢; tauto)

/-- So do scanners from the first one on. -/
theorem run_settles {Holds : Symbol → Prop} {rules : List (Rule Symbol)} {text out : List Symbol}
    (hasFiller : filler ≠ []) (fills : ∀ rule ∈ rules, Fills fold filler rule)
    (ordered : rules.Pairwise fun other rule => Spares Holds fold filler rule other)
    (own : ∀ rule ∈ rules, Spares Holds fold filler rule rule ∧ Rereads Holds fold filler rule)
    (writes : ∀ rule ∈ rules, ∀ text out, (∀ symbol ∈ text, Holds symbol) →
      pass rule text = some out → ∀ symbol ∈ out, Holds symbol)
    (holds : ∀ symbol ∈ text, Holds symbol) (covered : NothingUncovered filler [] rules text)
    (passed : passes rules text = some out) : ∀ rule ∈ rules, Settled rule none out :=
  @passes_settle Symbol fold filler Holds hasFiller [] rules text out nofun fills
    (fun _ _ _ absent => nomatch absent) ordered own writes holds covered nofun passed

/-- Scanners uncover nothing if no rule sees anything where one of their values ends. -/
theorem nothingUncovered_of_unseen {applied rules : List (Rule Symbol)}
    (unseen : ∀ rule ∈ rules, ∀ other ∈ applied ++ rules, ∀ before text,
      (∀ symbol ∈ text.head?, rule.stops symbol = true) → other.sees before text = .nothing)
    (text : List Symbol) : NothingUncovered filler applied rules text := by
  induction rules generalizing applied text with
  | nil => trivial
  | cons rule rules inductionHypothesis =>
    have within {other : Rule Symbol} (member : other ∈ rule :: applied ++ rules) :
        other ∈ applied ++ rule :: rules := by
      simp only [List.cons_append, List.mem_cons, List.mem_append] at member ⊢
      tauto
    refine ⟨fun place listed other member _ => stands_of_unseen ?_, fun out _ => ?_⟩
    · exact unseen rule List.mem_cons_self other (within (List.mem_append_left _ member)) _ _
        (behindValues_place listed).2
    · exact inductionHypothesis (fun later laterMember other member =>
        unseen later (List.mem_cons_of_mem _ laterMember) other (within member)) out

/-- Scanners that spare a rule leave a text that is settled for it settled. -/
theorem passes_spare {Holds : Symbol → Prop} {other : Rule Symbol} {rules : List (Rule Symbol)}
    {text out : List Symbol} (hasFiller : filler ≠ []) (otherFills : Fills fold filler other)
    (fills : ∀ rule ∈ rules, Fills fold filler rule)
    (spares : ∀ rule ∈ rules, Spares Holds fold filler rule other)
    (spared : ∀ rule ∈ rules, ∀ before text, (∀ symbol ∈ text.head?, rule.stops symbol = true) →
      Stands other before text → Stands other (previous none filler) text)
    (writes : ∀ rule ∈ rules, ∀ text out, (∀ symbol ∈ text, Holds symbol) →
      pass rule text = some out → ∀ symbol ∈ out, Holds symbol)
    (holds : ∀ symbol ∈ text, Holds symbol) (settled : Settled other none text)
    (passed : passes rules text = some out) : Settled other none out := by
  induction rules generalizing text with
  | nil =>
    obtain rfl : text = out := Option.some.inj passed
    exact settled
  | cons rule rules inductionHypothesis =>
    obtain ⟨middle, passedFirst, passedRest⟩ := Option.bind_eq_some_iff.mp passed
    obtain ⟨ruleFills, fillsRest⟩ := List.forall_mem_cons.mp fills
    obtain ⟨sparesHere, sparesRest⟩ := List.forall_mem_cons.mp spares
    obtain ⟨sparedHere, sparedRest⟩ := List.forall_mem_cons.mp spared
    obtain ⟨writesHere, writesRest⟩ := List.forall_mem_cons.mp writes
    have holdsMiddle := writesHere text middle holds passedFirst
    have rewritten : Rewritten filler rule
        (fun _ rest => ∀ symbol ∈ rest.head?, rule.stops symbol = true) none text middle :=
      rewritten_of_passFrom ruleFills passedFirst fun _ listed => (behindValues_place listed).2
    have settledMiddle := settled_rewritten ruleFills otherFills hasFiller sparesHere sparedHere
      rewritten holds holdsMiddle settled (settled [] text rfl)
    exact inductionHypothesis fillsRest sparesRest sparedRest writesRest holdsMiddle settledMiddle
      passedRest

end Scanners
