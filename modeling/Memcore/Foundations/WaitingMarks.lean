import Memcore.Foundations.Rescans

/-!
# Waiting marks

A rule that sees nothing behind a value may see a mark there once the value has become the
filler. Such a mark waits for the next scan of its rule. Scanners that do not touch it leave
it waiting, so a text in which a mark waits is not one that its scanner leaves as it is.

Scanners that keep what they take get ahead whenever they change a text: the first value
they change is filled and stays filled. So a row of them that leads back to the text it
started from has changed nothing on its way.
-/
namespace Scanners

variable {Symbol : Type} {rule other : Rule Symbol} {fold : Symbol → Symbol}
  {filler : List Symbol} {Behind : Option Symbol → List Symbol → Prop} {stops : Symbol → Bool}

/-! ## Getting ahead -/

/-- A text that begins with a filled value. -/
def Filled (filler : List Symbol) (stops : Symbol → Bool) (text : List Symbol) : Prop :=
  ∃ after, text = filler ++ after ∧ ∀ symbol ∈ after.head?, stops symbol = true

/-- A text whose last symbol is not one of the filler. -/
def EndsOutside (filler text : List Symbol) : Prop :=
  ∃ symbol ∈ text.getLast?, symbol ∉ filler

theorem endsOutside_nonempty {text : List Symbol} (outside : EndsOutside filler text) :
    text ≠ [] := by
  rintro rfl
  obtain ⟨_, member, _⟩ := outside
  nomatch member

theorem endsOutside_append {text : List Symbol} (outside : EndsOutside filler text)
    (front : List Symbol) : EndsOutside filler (front ++ text) := by
  obtain ⟨symbol, member, absent⟩ := outside
  exact ⟨symbol, by rw [List.getLast?_append, Option.mem_def.mp member]; rfl, absent⟩

theorem endsOutside_right {front text : List Symbol} (outside : EndsOutside filler (front ++ text))
    (nonempty : text ≠ []) : EndsOutside filler text := by
  obtain ⟨symbol, member, absent⟩ := outside
  rw [List.getLast?_append_of_ne_nil _ nonempty] at member
  exact ⟨symbol, member, absent⟩

/-- What comes behind a symbol that is not one of the filler does not matter for the value before
it. -/
theorem filled_append {front rest : List Symbol} (outside : EndsOutside filler front)
    (filled : Filled filler stops (front ++ rest)) (more : List Symbol) :
    Filled filler stops (front ++ more) := by
  obtain ⟨after, split, stop⟩ := filled
  obtain ⟨symbol, last, absent⟩ := outside
  obtain ⟨cut, rfl, _⟩ | ⟨between, rfl, rfl⟩ := List.append_eq_append_iff.mp split
  · exact absurd (List.mem_append_left _ (List.mem_of_getLast? last)) absent
  · cases between with
    | nil =>
      rw [List.append_nil] at last
      exact absurd (List.mem_of_getLast? last) absent
    | cons first between => exact ⟨first :: between ++ more, List.append_assoc .., stop⟩

/-- Behind what two texts have in common one of them has a filled value and the other has not. -/
def Ahead (filler : List Symbol) (stops : Symbol → Bool) (text out : List Symbol) : Prop :=
  ∃ front rest rest', text = front ++ rest ∧ out = front ++ rest' ∧ EndsOutside filler front ∧
    ¬ Filled filler stops rest ∧ Filled filler stops rest'

theorem ahead_irrefl (text : List Symbol) : ¬ Ahead filler stops text text := by
  rintro ⟨front, rest, rest', rfl, same, _, unfilled, filled⟩
  rw [List.append_cancel_left same] at unfilled
  exact unfilled filled

theorem ahead_trans {text middle out : List Symbol} (first : Ahead filler stops text middle)
    (second : Ahead filler stops middle out) : Ahead filler stops text out := by
  obtain ⟨front, rest, rest', rfl, rfl, outside, unfilled, filled⟩ := first
  obtain ⟨front', more, more', same, rfl, outside', unfilled', filled'⟩ := second
  obtain ⟨between, rfl, rfl⟩ | ⟨between, rfl, rfl⟩ := List.append_eq_append_iff.mp same
  · cases between with
    | nil => exact absurd filled unfilled'
    | cons symbol between =>
      have outsideBetween := endsOutside_right outside' (List.cons_ne_nil symbol between)
      exact ⟨front, rest, _, rfl, List.append_assoc .., outside, unfilled,
        filled_append outsideBetween filled more'⟩
  · cases between with
    | nil => exact absurd filled unfilled'
    | cons symbol between =>
      have outsideBetween := endsOutside_right outside (List.cons_ne_nil symbol between)
      exact ⟨front', _, more', List.append_assoc .., rfl, outside',
        fun filledBefore => unfilled' (filled_append outsideBetween filledBefore rest'), filled'⟩

/-- A rule that keeps what it takes, which does not end like the filler. -/
def KeepsTaken (filler : List Symbol) (rule : Rule Symbol) : Prop :=
  ∀ before text written width, rule.sees before text = .mark written width →
    written = text.take width ++ filler ∧ EndsOutside filler (text.take width)

theorem kept_taken (keeps : KeepsTaken filler rule) {before : Option Symbol}
    {taken rest kept : List Symbol}
    (seen : rule.sees before (taken ++ rest) = .mark (kept ++ filler) taken.length) :
    kept = taken ∧ EndsOutside filler taken := by
  obtain ⟨same, outside⟩ := keeps _ _ _ _ seen
  rw [List.take_left] at same outside
  exact ⟨List.append_cancel_right same, outside⟩

/-- A scanner that changes a text gets ahead. -/
theorem rewritten_ahead (fills : Fills fold filler rule) (keeps : KeepsTaken filler rule)
    {before : Option Symbol} {text out : List Symbol}
    (rewritten : Rewritten filler rule Behind before text out) :
    out = text ∨ Ahead filler rule.stops text out := by
  induction rewritten with
  | nil => exact .inl rfl
  | @copied before symbol rest out nothing later inductionHypothesis =>
    obtain rfl | ⟨front, more, more', rfl, rfl, outside, parts⟩ := inductionHypothesis
    · exact .inl rfl
    · exact .inr ⟨symbol :: front, more, more', rfl, rfl, endsOutside_append outside [symbol],
        parts⟩
  | @marked before taken value tail kept out seen inside stop _ later inductionHypothesis =>
    obtain ⟨rfl, outside⟩ := kept_taken keeps seen
    by_cases filled : Filled filler rule.stops (value ++ tail)
    · obtain ⟨after, split, afterStop⟩ := filled
      obtain ⟨rfl, rfl⟩ := value_unique inside stop fills.inside afterStop split
      obtain rfl | ⟨front, more, more', rfl, rfl, outsideLater, parts⟩ := inductionHypothesis
      · exact .inl rfl
      · exact .inr ⟨kept ++ (value ++ front), more, more', by simp, by simp,
          endsOutside_append (endsOutside_append outsideLater _) _, parts⟩
    · exact .inr ⟨kept, _, _, rfl, rfl, outside, filled, out, rfl,
        rewritten_head fills fills.stopsFolded later stop⟩

theorem rewritten_of_pass (fills : Fills fold filler rule) {text out : List Symbol}
    (passed : pass rule text = some out) :
    Rewritten filler rule (fun _ _ => True) none text out :=
  rewritten_of_passFrom fills passed fun _ _ => trivial

section Rows

variable {rules : List (Rule Symbol)}

theorem passes_ahead (fills : ∀ rule ∈ rules, Fills fold filler rule)
    (keeps : ∀ rule ∈ rules, KeepsTaken filler rule) (same : ∀ rule ∈ rules, rule.stops = stops)
    {text out : List Symbol} (passed : passes rules text = some out) :
    out = text ∨ Ahead filler stops text out := by
  induction rules generalizing text with
  | nil => exact .inl (Option.some.inj passed).symm
  | cons rule rules inductionHypothesis =>
    obtain ⟨middle, passedFirst, passedRest⟩ := Option.bind_eq_some_iff.mp passed
    obtain ⟨fillsFirst, fillsRest⟩ := List.forall_mem_cons.mp fills
    obtain ⟨keepsFirst, keepsRest⟩ := List.forall_mem_cons.mp keeps
    obtain ⟨rfl, sameRest⟩ := List.forall_mem_cons.mp same
    have first := rewritten_ahead fillsFirst keepsFirst (rewritten_of_pass fillsFirst passedFirst)
    have rest := inductionHypothesis fillsRest keepsRest sameRest passedRest
    obtain rfl | first := first
    · exact rest
    · obtain rfl | rest := rest
      · exact .inr first
      · exact .inr (ahead_trans first rest)

/-- A row of scanners that leaves a text as it is consists of scanners that do. -/
theorem passes_fixed (fills : ∀ rule ∈ rules, Fills fold filler rule)
    (keeps : ∀ rule ∈ rules, KeepsTaken filler rule) (same : ∀ rule ∈ rules, rule.stops = stops)
    {text : List Symbol} (passed : passes rules text = some text) :
    ∀ rule ∈ rules, pass rule text = some text := by
  induction rules with
  | nil => exact fun _ absent => nomatch absent
  | cons rule rules inductionHypothesis =>
    obtain ⟨middle, passedFirst, passedRest⟩ := Option.bind_eq_some_iff.mp passed
    obtain ⟨fillsFirst, fillsRest⟩ := List.forall_mem_cons.mp fills
    obtain ⟨keepsFirst, keepsRest⟩ := List.forall_mem_cons.mp keeps
    obtain ⟨rfl, sameRest⟩ := List.forall_mem_cons.mp same
    have unchanged : middle = text := by
      obtain unchanged | first :=
        rewritten_ahead fillsFirst keepsFirst (rewritten_of_pass fillsFirst passedFirst)
      · exact unchanged
      · obtain back | back := passes_ahead fillsRest keepsRest sameRest passedRest
        · exact back.symm
        · exact absurd (ahead_trans first back) (ahead_irrefl text)
    rw [unchanged] at passedFirst passedRest
    rw [List.forall_mem_cons]
    exact ⟨passedFirst, inductionHypothesis fillsRest keepsRest sameRest passedRest⟩

end Rows

/-! ## Waiting -/

/-- Behind a wall a mark waits whose value is not filled. -/
def Waits (wall : Symbol) (stops : Symbol → Bool) (rule : Rule Symbol) (text : List Symbol) :
    Prop :=
  ∃ front rest, text = front ++ wall :: rest ∧ (∀ symbol ∈ rest.head?, stops symbol = true) ∧
    ¬ Stands rule (some wall) rest

/-- A rewritten mark is unchanged if its parts are. -/
theorem fixed_parts (fills : Fills fold filler rule) {before place : Option Symbol}
    {taken value tail kept out : List Symbol}
    (seen : rule.sees before (taken ++ (value ++ tail)) = .mark (kept ++ filler) taken.length)
    (inside : ∀ symbol ∈ value, rule.stops symbol = false)
    (stop : ∀ symbol ∈ tail.head?, rule.stops symbol = true)
    (later : Rewritten filler rule Behind place tail out)
    (same : kept ++ (filler ++ out) = taken ++ (value ++ tail)) :
    kept = taken ∧ filler = value ∧ out = tail := by
  have long : kept.length = taken.length := by
    obtain ⟨kept', split, spelled, _, _⟩ := fills.fills _ _ _ _ seen
    obtain rfl := List.append_cancel_right split
    simpa using congrArg List.length spelled
  obtain ⟨rfl, rest⟩ := List.append_inj same long
  exact ⟨rfl, value_unique fills.inside (rewritten_head fills fills.stopsFolded later stop) inside
    stop rest⟩

/-- In a text that a scanner leaves as it is, what the rule would write stands. -/
theorem stands_of_fixed (fills : Fills fold filler rule) {before : Option Symbol}
    {text out : List Symbol} (rewritten : Rewritten filler rule Behind before text out)
    (fixed : out = text) : Stands rule before text := by
  cases rewritten with
  | nil => exact stands_nil fills before
  | copied nothing => exact stands_of_unseen nothing
  | marked seen inside stop behind later =>
    obtain ⟨rfl, rfl, rfl⟩ := fixed_parts fills seen inside stop later fixed
    intro written width seenHere
    rw [seen] at seenHere
    obtain ⟨rfl, rfl⟩ := Sight.mark.inj seenHere
    exact ⟨_, by simp, stop⟩

/-- A scanner goes on behind a wall if what follows would end a value. -/
theorem rewritten_past_wall (fills : Fills fold filler rule) {wall : Symbol} {start : List Symbol}
    (ends : filler = start ++ [wall])
    (walled : ∀ before text written width, rule.sees before text = .mark written width →
      wall ∉ text.take width)
    {before : Option Symbol} {text out : List Symbol}
    (rewritten : Rewritten filler rule Behind before text out) {front rest : List Symbol}
    (split : text = front ++ wall :: rest)
    (stop : ∀ symbol ∈ rest.head?, rule.stops symbol = true) :
    ∃ front' rest', out = front' ++ wall :: rest' ∧
      Rewritten filler rule Behind (some wall) rest rest' ∧ (out = text → rest' = rest) := by
  induction rewritten generalizing front with
  | nil => nomatch (List.append_eq_nil_iff.mp split.symm).2
  | @copied before symbol others out nothing later inductionHypothesis =>
    cases front with
    | nil =>
      obtain ⟨rfl, rfl⟩ := List.cons.inj split
      exact ⟨[], out, rfl, later, fun fixed => (List.cons.inj fixed).2⟩
    | cons first front =>
      obtain ⟨rfl, splitRest⟩ := List.cons.inj split
      obtain ⟨front', rest', rfl, goesOn, fixed⟩ := inductionHypothesis splitRest
      exact ⟨symbol :: front', rest', rfl, goesOn, fun same => fixed (List.cons.inj same).2⟩
  | @marked before taken value tail kept out seen inside tailStop _ later inductionHypothesis =>
    have absent : wall ∉ taken := by
      have apart := walled _ _ _ _ seen
      rwa [List.take_left] at apart
    have parts (same : kept ++ (filler ++ out) = taken ++ (value ++ tail)) : out = tail :=
      (fixed_parts fills seen inside tailStop later same).2.2
    rw [← List.append_assoc] at split
    obtain ⟨before', _, inTail⟩ | ⟨more, marked, inMark⟩ := List.append_eq_append_iff.mp split
    · obtain ⟨front', rest', rfl, goesOn, fixed⟩ := inductionHypothesis inTail
      exact ⟨kept ++ (filler ++ front'), rest', by simp, goesOn, fun same => fixed (parts same)⟩
    · cases more with
      | nil =>
        obtain ⟨front', rest', rfl, goesOn, fixed⟩ := @inductionHypothesis [] inMark.symm
        exact ⟨kept ++ (filler ++ front'), rest', by simp, goesOn, fun same => fixed (parts same)⟩
      | cons first more =>
        obtain ⟨rfl, restIs⟩ := List.cons.inj inMark
        -- the wall is in the value, and nothing of the value is behind it
        obtain ⟨inner, valueIs⟩ : ∃ inner, value = inner ++ wall :: more := by
          obtain ⟨inner, _, valueIs⟩ | ⟨cut, takenIs, valueIs⟩ :=
            List.append_eq_append_iff.mp marked
          · exact ⟨inner, valueIs⟩
          · cases cut with
            | nil => exact ⟨[], valueIs.symm⟩
            | cons other cut =>
              obtain rfl : wall = other := (List.cons.inj valueIs).1
              exact absurd (by rw [takenIs]; simp) absent
        cases more with
        | cons second more =>
          have kept := inside second (by rw [valueIs]; simp)
          rw [stop second (by rw [restIs]; rfl)] at kept
          nomatch kept
        | nil =>
          obtain rfl : rest = tail := restIs
          refine ⟨kept ++ start, out, by simp [ends], ?_, parts⟩
          rwa [valueIs, ← List.append_assoc, previous_concat] at later

variable {wall : Symbol} {start : List Symbol} {text out : List Symbol}

/-- No mark waits in a text that its scanner leaves as it is. -/
theorem not_waits_of_fixed (fills : Fills fold filler rule) (ends : filler = start ++ [wall])
    (walled : ∀ before text written width, rule.sees before text = .mark written width →
      wall ∉ text.take width)
    (fixed : pass rule text = some text) : ¬ Waits wall rule.stops rule text := by
  rintro ⟨front, rest, split, stop, waiting⟩
  obtain ⟨_, _, _, goesOn, same⟩ :=
    rewritten_past_wall fills ends walled (rewritten_of_pass fills fixed) split stop
  exact waiting (stands_of_fixed fills goesOn (same rfl))

/-- What is left waiting is left waiting by a scanner that leaves it behind the wall. -/
theorem waits_of_pass (fills : Fills fold filler rule) (ends : filler = start ++ [wall])
    (walled : ∀ before text written width, rule.sees before text = .mark written width →
      wall ∉ text.take width)
    (leaves : ∀ rest rest', rest <:+ text → rest' <:+ out →
      (∀ symbol ∈ rest.head?, rule.stops symbol = true) →
      Rewritten filler rule (fun _ _ => True) (some wall) rest rest' →
      Stands other (some wall) rest' → Stands other (some wall) rest)
    (passed : pass rule text = some out) (waits : Waits wall rule.stops other text) :
    Waits wall rule.stops other out := by
  obtain ⟨front, rest, split, stop, waiting⟩ := waits
  obtain ⟨front', rest', split', goesOn, _⟩ :=
    rewritten_past_wall fills ends walled (rewritten_of_pass fills passed) split stop
  exact ⟨front', rest', split', rewritten_head fills fills.stopsFolded goesOn stop,
    fun stands => waiting (leaves rest rest' ⟨front ++ [wall], by simp [split]⟩
      ⟨front' ++ [wall], by simp [split']⟩ stop goesOn stands)⟩

/-- So it is where a scanner uncovers it. -/
theorem waits_of_uncovered (fills : Fills fold filler rule) (ends : filler = start ++ [wall])
    {place : Option Symbol × List Symbol} (listed : place ∈ behindValues rule .copying none text)
    (leaves : ∀ rest', rest' <:+ out →
      Rewritten filler rule (fun _ _ => True) place.1 place.2 rest' →
      Stands other (some wall) rest' → Stands other (some wall) place.2)
    (passed : pass rule text = some out) (uncovered : ¬ Stands other (some wall) place.2) :
    Waits wall rule.stops other out := by
  obtain ⟨front, rest', rfl, goesOn⟩ :=
    rewritten_behind fills (rewritten_of_pass fills passed) listed
  have stop := (behindValues_place listed).2
  exact ⟨front ++ start, rest', by simp [ends], rewritten_head fills fills.stopsFolded goesOn stop,
    fun stands => uncovered (leaves rest' ⟨front ++ filler, by simp⟩ goesOn stands)⟩

end Scanners
