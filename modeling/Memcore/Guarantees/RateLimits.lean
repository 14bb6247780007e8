import Memcore.Api.RateLimiter

/-!
# Rate limits of organizations

All organizations share one map of windows, and a check of one organization may drop the windows
of others. A dropped window is two minutes old, so the organization's next check would have started
it anew. What an organization is answered is therefore what it would be answered alone, from one
window that is never dropped.

In one window as many checks are allowed as the window has room for, and two windows of an
organization do not overlap.
-/
namespace Memcore

open KeyedTables

/-- A request of an organization at an instant. -/
structure RateLimitCheck where
  orgId : String
  now : Tick
  deriving DecidableEq

/-- What a request was answered, and the start of the window it was counted in. -/
structure RateLimitAnswer where
  check : RateLimitCheck
  decision : RateLimitDecision
  windowStart : Option Tick
  deriving DecidableEq

namespace RateLimiter

/-- The answers to a sequence of checks. -/
def answers (limiter : RateLimiter) : List RateLimitCheck → List RateLimitAnswer
  | [] => []
  | request :: rest =>
    let checked := limiter.check request.now request.orgId
    ⟨request, checked.1, (checked.2.windowOf request.orgId).map (·.windowStart)⟩ ::
      checked.2.answers rest

/-- Every check is answered, in order. -/
theorem answers_checks (limiter : RateLimiter) (checks : List RateLimitCheck) :
    (limiter.answers checks).map (·.check) = checks := by
  induction checks generalizing limiter with
  | nil => rfl
  | cons request rest inductionHypothesis =>
    rw [answers, List.map_cons, inductionHypothesis]

/-- The answers to one organization's checks, from a window that is never dropped. -/
def windowAnswers (requestsPerMinute : ℕ) (window : Option RateLimitWindow) :
    List RateLimitCheck → List RateLimitAnswer
  | [] => []
  | request :: rest =>
    let entered := enter requestsPerMinute request.now (window.getD ⟨request.now, 0⟩)
    ⟨request, entered.1, some entered.2.windowStart⟩ ::
      windowAnswers requestsPerMinute (some entered.2) rest

/-- A window that is kept, or dropped after two minutes. -/
def KeptOrOld (now : Tick) (kept window : Option RateLimitWindow) : Prop :=
  kept = window ∨
    kept = none ∧ ∃ old, window = some old ∧ rateWindow * 2 ≤ durationSince now old.windowStart

theorem KeptOrOld.later {now later : Tick} {kept window : Option RateLimitWindow}
    (related : KeptOrOld now kept window) (passed : now ≤ later) :
    KeptOrOld later kept window := by
  rcases related with same | ⟨dropped, old, held, age⟩
  · exact .inl same
  · exact .inr ⟨dropped, old, held, Nat.le_trans age (Nat.sub_le_sub_right passed _)⟩

theorem rateWindow_pos : 0 < rateWindow := by decide

/-- A window of this instant is entered as it is. -/
theorem enter_fresh (requestsPerMinute : ℕ) (now : Tick) (old : RateLimitWindow)
    (age : rateWindow ≤ durationSince now old.windowStart) :
    enter requestsPerMinute now old = enter requestsPerMinute now ⟨now, 0⟩ := by
  have positive := rateWindow_pos
  have young : ¬rateWindow ≤ durationSince now now := by
    unfold durationSince
    omega
  simp only [enter, if_pos age, if_neg young]

/-- A dropped window is answered like the one that was dropped. -/
theorem KeptOrOld.enter_eq {now : Tick} {kept window : Option RateLimitWindow}
    (related : KeptOrOld now kept window) (requestsPerMinute : ℕ) :
    enter requestsPerMinute now (kept.getD ⟨now, 0⟩) =
      enter requestsPerMinute now (window.getD ⟨now, 0⟩) := by
  rcases related with rfl | ⟨rfl, old, rfl, age⟩
  · rfl
  · exact (enter_fresh requestsPerMinute now old (by omega)).symm

/-- Only old windows are dropped. -/
theorem keptOrOld_purge (windows : Table String (String × RateLimitWindow) Prod.fst) (now : Tick)
    (orgId : String) :
    KeptOrOld now (((purge windows now).find? orgId).map Prod.snd)
      ((windows.find? orgId).map Prod.snd) := by
  unfold purge
  split
  · rw [Table.find?_retain]
    cases held : windows.find? orgId with
    | none => exact .inl rfl
    | some row =>
      by_cases young : durationSince now row.2.windowStart < rateWindow * 2
      · rw [Option.filter_some_pos (by simpa using young)]
        exact .inl rfl
      · rw [Option.filter_some_neg (by simpa using young)]
        exact .inr ⟨rfl, row.2, rfl, by omega⟩
  · exact .inl rfl

theorem KeptOrOld.trans {now : Tick} {first second third : Option RateLimitWindow}
    (left : KeptOrOld now first second) (right : KeptOrOld now second third) :
    KeptOrOld now first third := by
  rcases left with rfl | ⟨dropped, old, rfl, age⟩
  · exact right
  · rcases right with rfl | ⟨impossible, _⟩
    · exact .inr ⟨dropped, old, rfl, age⟩
    · cases impossible

section Enabled

variable {limiter : RateLimiter} (enabled : limiter.enabled = true) (now : Tick)
include enabled

/-- A check decides by the organization's window, or by a new one. -/
theorem check_decision (orgId : String) :
    (limiter.check now orgId).1 =
      (enter limiter.requestsPerMinute now
        ((((purge limiter.windows now).find? orgId).map Prod.snd).getD ⟨now, 0⟩)).1 := by
  simp only [check, enabled, Bool.not_true, Bool.false_eq_true, if_false]

/-- After a check the organization has the window that was entered. -/
theorem windowOf_check_own (orgId : String) :
    (limiter.check now orgId).2.windowOf orgId =
      some (enter limiter.requestsPerMinute now
        ((((purge limiter.windows now).find? orgId).map Prod.snd).getD ⟨now, 0⟩)).2 := by
  simp only [check, enabled, Bool.not_true, Bool.false_eq_true, if_false, windowOf,
    Table.find?_put, if_true, Option.map_some]

/-- A check of another organization changes no window, except that it may drop an old one. -/
theorem windowOf_check_other {orgId other : String} (different : orgId ≠ other) :
    KeptOrOld now ((limiter.check now orgId).2.windowOf other) (limiter.windowOf other) := by
  have unchanged : (limiter.check now orgId).2.windowOf other =
      ((purge limiter.windows now).find? other).map Prod.snd := by
    simp only [check, enabled, Bool.not_true, Bool.false_eq_true, if_false, windowOf,
      Table.find?_put, if_neg different]
  rw [unchanged]
  exact keptOrOld_purge limiter.windows now other

theorem check_settings (orgId : String) :
    (limiter.check now orgId).2.enabled = true ∧
      (limiter.check now orgId).2.requestsPerMinute = limiter.requestsPerMinute := by
  simp only [check, enabled, Bool.not_true, Bool.false_eq_true, if_false, and_self]

end Enabled

/-- An organization's answers come from its own window only. -/
theorem answers_of_org (checks : List RateLimitCheck) (orgId : String)
    (clock : checks.Pairwise fun earlier later => earlier.now ≤ later.now) :
    ∀ (limiter : RateLimiter) (window : Option RateLimitWindow), limiter.enabled = true →
      (∀ request ∈ checks, KeptOrOld request.now (limiter.windowOf orgId) window) →
      (limiter.answers checks).filter (fun answer => decide (answer.check.orgId = orgId)) =
        windowAnswers limiter.requestsPerMinute window
          (checks.filter fun request => decide (request.orgId = orgId)) := by
  induction checks with
  | nil =>
    intro limiter window enabled related
    rfl
  | cons request rest inductionHypothesis =>
    intro limiter window enabled related
    obtain ⟨first, ordered⟩ := List.pairwise_cons.mp clock
    have here := related request (List.mem_cons_self ..)
    obtain ⟨stillEnabled, sameBound⟩ := check_settings enabled request.now request.orgId
    by_cases own : request.orgId = orgId
    · subst own
      have purged := keptOrOld_purge limiter.windows request.now request.orgId
      have entered := (purged.trans here).enter_eq limiter.requestsPerMinute
      have decision := check_decision enabled request.now request.orgId
      have held := windowOf_check_own enabled request.now request.orgId
      rw [entered] at decision held
      have following := inductionHypothesis ordered (limiter.check request.now request.orgId).2 _
        stillEnabled fun later member => .inl held
      rw [sameBound] at following
      rw [List.filter_cons_of_pos (by simp), answers, List.filter_cons_of_pos (by simp),
        windowAnswers, following, decision, held]
      rfl
    · have others := windowOf_check_other enabled request.now own
      have following := inductionHypothesis ordered (limiter.check request.now request.orgId).2
        window stillEnabled fun later member =>
          (others.trans here).later (first later member)
      rw [sameBound] at following
      rw [List.filter_cons_of_neg (by simpa using own), answers,
        List.filter_cons_of_neg (by simpa using own), following]

/-- The checks that may still be allowed in the window of a start. -/
def room (requestsPerMinute : ℕ) (window : Option RateLimitWindow) (start : Tick) : ℕ :=
  match window with
  | none => requestsPerMinute
  | some window =>
    if start < window.windowStart then 0
    else if start = window.windowStart then requestsPerMinute - window.count
    else requestsPerMinute

/-- Whether a check was allowed in the window of a start. -/
def allowedIn (start : Tick) (answer : RateLimitAnswer) : Bool :=
  decide (answer.windowStart = some start) && decide (answer.decision = .allowed)

/-- A check counts in the window before, or in one that starts now, and is allowed while there is
room. -/
theorem enter_cases (requestsPerMinute : ℕ) (now : Tick) (window : RateLimitWindow) :
    ∃ entry : RateLimitWindow,
      (rateWindow ≤ durationSince now window.windowStart ∧ entry = ⟨now, 0⟩ ∨
        durationSince now window.windowStart < rateWindow ∧ entry = window) ∧
      ((∃ seconds, requestsPerMinute ≤ entry.count ∧
          enter requestsPerMinute now window = (.limited seconds, entry)) ∨
        entry.count < requestsPerMinute ∧
          enter requestsPerMinute now window =
            (.allowed, { entry with count := entry.count + 1 })) := by
  by_cases past : rateWindow ≤ durationSince now window.windowStart
  · refine ⟨⟨now, 0⟩, .inl ⟨past, rfl⟩, ?_⟩
    simp only [enter, if_pos past]
    by_cases full : requestsPerMinute ≤ 0
    · exact .inl ⟨_, full, if_pos full⟩
    · exact .inr ⟨Nat.lt_of_not_le full, if_neg full⟩
  · refine ⟨window, .inr ⟨Nat.lt_of_not_le past, rfl⟩, ?_⟩
    simp only [enter, if_neg past]
    by_cases full : requestsPerMinute ≤ window.count
    · exact .inl ⟨_, full, if_pos full⟩
    · exact .inr ⟨Nat.lt_of_not_le full, if_neg full⟩

/-- A window that starts now has room only where the window before has all of it. -/
theorem room_fresh (requestsPerMinute : ℕ) {now : Tick} {window : RateLimitWindow}
    (past : rateWindow ≤ durationSince now window.windowStart) (start : Tick) :
    room requestsPerMinute (some ⟨now, 0⟩) start ≤ room requestsPerMinute (some window) start := by
  have positive := rateWindow_pos
  have later : window.windowStart < now := by
    apply Nat.lt_of_sub_pos
    exact Nat.lt_of_lt_of_le positive past
  by_cases early : start < now
  · simp only [room, if_pos early, Nat.zero_le]
  · have past : ¬start < window.windowStart := fun before => early (Nat.lt_trans before later)
    have other : start ≠ window.windowStart := fun same => early (same ▸ later)
    simp only [room, if_neg early, if_neg past, if_neg other]
    split <;> omega

/-- An allowed check takes one place of its window. -/
theorem room_allowed {requestsPerMinute : ℕ} {entry : RateLimitWindow}
    (free : entry.count < requestsPerMinute) (start : Tick) :
    (if entry.windowStart = start then 1 else 0) +
        room requestsPerMinute (some { entry with count := entry.count + 1 }) start =
      room requestsPerMinute (some entry) start := by
  by_cases own : entry.windowStart = start
  · subst own
    have here : ¬entry.windowStart < entry.windowStart := Nat.lt_irrefl _
    simp only [room, if_neg here, if_true]
    omega
  · have other : start ≠ entry.windowStart := fun same => own same.symm
    simp only [room, if_neg own, if_neg other, Nat.zero_add]

/-- A check takes from the room of the window it is counted in, if it is allowed. -/
theorem enter_room (requestsPerMinute : ℕ) (now : Tick) (window : RateLimitWindow) (start : Tick) :
    (if (enter requestsPerMinute now window).2.windowStart = start ∧
        (enter requestsPerMinute now window).1 = .allowed then 1 else 0) +
        room requestsPerMinute (some (enter requestsPerMinute now window).2) start ≤
      room requestsPerMinute (some window) start := by
  obtain ⟨entry, entered, outcome⟩ := enter_cases requestsPerMinute now window
  have before : room requestsPerMinute (some entry) start ≤
      room requestsPerMinute (some window) start := by
    rcases entered with ⟨past, rfl⟩ | ⟨_, rfl⟩
    · exact room_fresh requestsPerMinute past start
    · exact Nat.le_refl _
  rcases outcome with ⟨seconds, full, limited⟩ | ⟨free, allowed⟩
  · simp only [limited, reduceCtorEq, and_false, if_false, Nat.zero_add]
    exact before
  · simp only [allowed, and_true]
    rw [room_allowed free start]
    exact before

/-- In each window at most as many checks are allowed as it has room for. -/
theorem count_allowed_le_room (requestsPerMinute : ℕ) (checks : List RateLimitCheck)
    (window : Option RateLimitWindow) (start : Tick) :
    (windowAnswers requestsPerMinute window checks).countP (allowedIn start) ≤
      room requestsPerMinute window start := by
  induction checks generalizing window with
  | nil => exact Nat.zero_le _
  | cons request rest inductionHypothesis =>
    have opened : room requestsPerMinute (some (window.getD ⟨request.now, 0⟩)) start ≤
        room requestsPerMinute window start := by
      cases window with
      | none =>
        simp only [room, Option.getD_none]
        split
        · exact Nat.zero_le _
        · split <;> omega
      | some held => exact Nat.le_refl _
    have taken := enter_room requestsPerMinute request.now (window.getD ⟨request.now, 0⟩) start
    have following := inductionHypothesis
      (some (enter requestsPerMinute request.now (window.getD ⟨request.now, 0⟩)).2)
    rw [windowAnswers, List.countP_cons]
    simp only [allowedIn, Option.some.injEq, Bool.and_eq_true, decide_eq_true_eq]
    omega

/-- A check is counted in a window that is open at its instant. -/
def CountedWhenOpen (answer : RateLimitAnswer) : Prop :=
  ∃ start, answer.windowStart = some start ∧ start ≤ answer.check.now ∧
    answer.check.now < start + rateWindow

/-- One start, or two whose windows do not overlap. -/
def SameOrLater (first second : Tick) : Prop :=
  first = second ∨ first + rateWindow ≤ second

theorem SameOrLater.trans {first second third : Tick} (left : SameOrLater first second)
    (right : SameOrLater second third) : SameOrLater first third := by
  rcases left with rfl | apart
  · exact right
  · rcases right with rfl | further
    · exact .inr apart
    · exact .inr (Nat.le_trans apart (Nat.le_trans (Nat.le_add_right _ _) further))

/-- Two checks are counted in one window, or in two that do not overlap. -/
def CountedApart (earlier later : RateLimitAnswer) : Prop :=
  ∃ first second, earlier.windowStart = some first ∧ later.windowStart = some second ∧
    SameOrLater first second

/-- The window that is entered is open, and the one before or a later one. -/
theorem enter_window (requestsPerMinute : ℕ) {now : Tick} {window : RateLimitWindow}
    (known : window.windowStart ≤ now) :
    ∃ start, (enter requestsPerMinute now window).2.windowStart = start ∧ start ≤ now ∧
      now < start + rateWindow ∧ SameOrLater window.windowStart start := by
  have positive := rateWindow_pos
  obtain ⟨entry, entered, outcome⟩ := enter_cases requestsPerMinute now window
  have same : (enter requestsPerMinute now window).2.windowStart = entry.windowStart := by
    rcases outcome with ⟨seconds, _, limited⟩ | ⟨_, allowed⟩
    · rw [limited]
    · rw [allowed]
  refine ⟨entry.windowStart, same, ?_⟩
  rcases entered with ⟨past, rfl⟩ | ⟨young, rfl⟩
  · have apart : window.windowStart + rateWindow ≤ now := by
      rw [Nat.add_comm]
      exact Nat.add_le_of_le_sub known past
    exact ⟨Nat.le_refl _, Nat.lt_add_of_pos_right positive, .inr apart⟩
  · have within : now < entry.windowStart + rateWindow := (Nat.sub_lt_iff_lt_add' known).mp young
    exact ⟨known, within, .inl rfl⟩

/-- Every check is counted in an open window, and the windows of one organization follow each
other without overlap. -/
theorem windowAnswers_windows (requestsPerMinute : ℕ) (checks : List RateLimitCheck)
    (clock : checks.Pairwise fun earlier later => earlier.now ≤ later.now)
    (window : Option RateLimitWindow)
    (known : ∀ held ∈ window, ∀ request ∈ checks, held.windowStart ≤ request.now) :
    (∀ answer ∈ windowAnswers requestsPerMinute window checks, CountedWhenOpen answer ∧
        ∀ held ∈ window, ∃ start, answer.windowStart = some start ∧
          SameOrLater held.windowStart start) ∧
      (windowAnswers requestsPerMinute window checks).Pairwise CountedApart := by
  induction checks generalizing window with
  | nil => exact ⟨List.forall_mem_nil _, List.Pairwise.nil⟩
  | cons request rest inductionHypothesis =>
    obtain ⟨first, ordered⟩ := List.pairwise_cons.mp clock
    have started : (window.getD ⟨request.now, 0⟩).windowStart ≤ request.now := by
      cases window with
      | none => exact Nat.le_refl _
      | some held => exact known held rfl request (List.mem_cons_self ..)
    obtain ⟨start, entered, begun, within, follows⟩ := enter_window requestsPerMinute started
    obtain ⟨counted, apart⟩ := inductionHypothesis ordered
      (some (enter requestsPerMinute request.now (window.getD ⟨request.now, 0⟩)).2)
      (by
        rintro _ ⟨⟩ other member
        exact entered ▸ Nat.le_trans begun (first other member))
    have onward : ∀ held ∈ window, SameOrLater held.windowStart start := by
      rintro held ⟨⟩
      exact follows
    refine ⟨fun answer member => ?_, List.pairwise_cons.mpr ⟨fun answer member => ?_, apart⟩⟩
    · rcases List.mem_cons.mp member with rfl | member
      · exact ⟨⟨start, congrArg some entered, begun, within⟩,
          fun held own => ⟨start, congrArg some entered, onward held own⟩⟩
      · obtain ⟨whenOpen, next⟩ := counted answer member
        refine ⟨whenOpen, fun held own => ?_⟩
        obtain ⟨second, its, later⟩ := next _ rfl
        exact ⟨second, its, (onward held own).trans (entered ▸ later)⟩
    · obtain ⟨second, its, later⟩ := (counted answer member).2 _ rfl
      exact ⟨_, second, rfl, its, later⟩

end RateLimiter

open RateLimiter in
/-- Every organization is answered as if it were alone. Its windows are open for a minute and do not
overlap, and in each of them at most the configured number of checks is allowed. -/
theorem organizations_are_limited_alone (requestsPerMinute : ℕ) (checks : List RateLimitCheck)
    (clock : checks.Pairwise fun earlier later => earlier.now ≤ later.now) (orgId : String) :
    let limiter := RateLimiter.new true requestsPerMinute
    let own := (limiter.answers checks).filter fun answer => decide (answer.check.orgId = orgId)
    own = limiter.answers (checks.filter fun request => decide (request.orgId = orgId)) ∧
      (∀ start, own.countP (allowedIn start) ≤ requestsPerMinute) ∧
      (∀ answer ∈ own, CountedWhenOpen answer) ∧ own.Pairwise CountedApart := by
  intro limiter own
  have together : own = windowAnswers requestsPerMinute none
      (checks.filter fun request => decide (request.orgId = orgId)) :=
    answers_of_org checks orgId clock limiter none rfl fun request member => .inl rfl
  have ordered := clock.filter fun request => decide (request.orgId = orgId)
  have alone : limiter.answers (checks.filter fun request => decide (request.orgId = orgId)) =
      windowAnswers requestsPerMinute none
        (checks.filter fun request => decide (request.orgId = orgId)) := by
    have single := answers_of_org _ orgId ordered limiter none rfl fun request member => .inl rfl
    rw [List.filter_filter, List.filter_eq_self.mpr] at single
    · simp only [Bool.and_self] at single
      exact single
    · intro answer member
      have asked : answer.check ∈ checks.filter fun request => decide (request.orgId = orgId) := by
        rw [← answers_checks limiter (checks.filter _)]
        exact List.mem_map_of_mem member
      exact (List.mem_filter.mp asked).2
  obtain ⟨counted, apart⟩ := windowAnswers_windows requestsPerMinute _ ordered none
    fun held impossible => nomatch impossible
  rw [together]
  refine ⟨alone.symm, fun start => ?_, fun answer member => (counted answer member).1, apart⟩
  exact count_allowed_le_room requestsPerMinute _ none start

/-- Two organizations with one check a minute. -/
theorem organizations_are_limited_alone_sample :
    ((RateLimiter.new true 1).answers
        [⟨"a", 0⟩, ⟨"b", 1⟩, ⟨"a", 2⟩, ⟨"a", rateWindow⟩]).filter
          (fun answer => decide (answer.check.orgId = "a")) =
      (RateLimiter.new true 1).answers [⟨"a", 0⟩, ⟨"a", 2⟩, ⟨"a", rateWindow⟩] :=
  (organizations_are_limited_alone 1 [⟨"a", 0⟩, ⟨"b", 1⟩, ⟨"a", 2⟩, ⟨"a", rateWindow⟩]
    (by decide) "a").1

end Memcore
