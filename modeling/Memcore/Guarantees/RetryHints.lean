import Memcore.Guarantees.RateLimits

/-!
# Hints to retry

A check that is refused is told after how many seconds to come back. The window ends at an instant
of the clock, and the hint is the time that is left in it, in whole seconds: what is left of a
second is cut off. An organization that waits as long as it is told therefore comes before the end
of its window, unless whole seconds were left, or at most one.
-/
namespace Memcore

open KeyedTables

namespace RateLimiter

/-- The limiter after a sequence of checks. -/
def after (limiter : RateLimiter) (checks : List RateLimitCheck) : RateLimiter :=
  checks.foldl (fun limiter request => (limiter.check request.now request.orgId).2) limiter

/-- Checks in the order of the clock. -/
def InOrder (checks : List RateLimitCheck) : Prop :=
  checks.Pairwise fun earlier later => earlier.now ≤ later.now

/-- After a refused check the next one of the organization is allowed, if it comes so many seconds
later or more, whatever other organizations do in between. -/
def AllowedAfter (limiter : RateLimiter) (now : Tick) (orgId : String) (seconds : ℕ) : Prop :=
  ∀ others later, InOrder (⟨orgId, now⟩ :: (others ++ [⟨orgId, later⟩])) →
    (∀ request ∈ others, request.orgId ≠ orgId) → now + seconds * nanosPerSecond ≤ later →
    (((limiter.check now orgId).2.after others).check later orgId).1 = .allowed

/-- What is left of a window is whole seconds, or at most one second. -/
def LeftInSeconds (now : Tick) (window : RateLimitWindow) : Prop :=
  (rateWindow - durationSince now window.windowStart) % nanosPerSecond = 0 ∨
    rateWindow - durationSince now window.windowStart ≤ nanosPerSecond

theorem after_cons (limiter : RateLimiter) (request : RateLimitCheck)
    (rest : List RateLimitCheck) :
    limiter.after (request :: rest) = (limiter.check request.now request.orgId).2.after rest := rfl

theorem after_settings {limiter : RateLimiter} (enabled : limiter.enabled = true)
    (checks : List RateLimitCheck) :
    (limiter.after checks).enabled = true ∧
      (limiter.after checks).requestsPerMinute = limiter.requestsPerMinute := by
  induction checks generalizing limiter with
  | nil => exact ⟨enabled, rfl⟩
  | cons request rest inductionHypothesis =>
    obtain ⟨stillEnabled, same⟩ := check_settings enabled request.now request.orgId
    rw [after_cons, ← same]
    exact inductionHypothesis stillEnabled

/-- A check is decided in the organization's window, also where the window has been dropped. -/
theorem check_in_window {limiter : RateLimiter} (enabled : limiter.enabled = true) {now : Tick}
    {orgId : String} {window : Option RateLimitWindow}
    (related : KeptOrOld now (limiter.windowOf orgId) window) :
    (limiter.check now orgId).1 =
        (enter limiter.requestsPerMinute now (window.getD ⟨now, 0⟩)).1 ∧
      (limiter.check now orgId).2.windowOf orgId =
        some (enter limiter.requestsPerMinute now (window.getD ⟨now, 0⟩)).2 := by
  have purged := keptOrOld_purge limiter.windows now orgId
  have entered := (purged.trans related).enter_eq limiter.requestsPerMinute
  rw [check_decision enabled, windowOf_check_own enabled, entered]
  exact ⟨rfl, rfl⟩

/-- Checks of others leave the organization's window, except that they may drop an old one. -/
theorem after_others {limiter : RateLimiter} (enabled : limiter.enabled = true) {orgId : String}
    {window : Option RateLimitWindow} {now last : Tick} {others : List RateLimitCheck}
    (clock : InOrder others) (within : ∀ request ∈ others, now ≤ request.now ∧ request.now ≤ last)
    (passed : now ≤ last) (foreign : ∀ request ∈ others, request.orgId ≠ orgId)
    (related : KeptOrOld now (limiter.windowOf orgId) window) :
    KeptOrOld last ((limiter.after others).windowOf orgId) window := by
  induction others generalizing limiter now with
  | nil => exact related.later passed
  | cons request rest inductionHypothesis =>
    obtain ⟨first, ordered⟩ := List.pairwise_cons.mp clock
    obtain ⟨stillEnabled, _⟩ := check_settings enabled request.now request.orgId
    obtain ⟨notBefore, notAfter⟩ := within request List.mem_cons_self
    have here := related.later notBefore
    have kept := windowOf_check_other enabled request.now (foreign request List.mem_cons_self)
    rw [after_cons]
    exact inductionHypothesis stillEnabled ordered
      (fun other member => ⟨first other member, (within other (List.mem_cons_of_mem _ member)).2⟩)
      notAfter (fun other member => foreign other (List.mem_cons_of_mem _ member))
      (kept.trans here)

/-- No window starts after the last check. -/
def StartedBy (now : Tick) (limiter : RateLimiter) : Prop :=
  ∀ orgId window, limiter.windowOf orgId = some window → window.windowStart ≤ now

theorem startedBy_new (now : Tick) (requestsPerMinute : ℕ) :
    StartedBy now (RateLimiter.new true requestsPerMinute) := by
  intro orgId window held
  nomatch held

theorem startedBy_check {limiter : RateLimiter} (enabled : limiter.enabled = true)
    {before now : Tick} (passed : before ≤ now) (started : StartedBy before limiter)
    (orgId : String) :
    StartedBy now (limiter.check now orgId).2 := by
  intro other window held
  by_cases own : orgId = other
  · subst own
    rw [(check_in_window enabled (.inl rfl)).2, Option.some.injEq] at held
    have known : ((limiter.windowOf orgId).getD ⟨now, 0⟩).windowStart ≤ now := by
      cases present : limiter.windowOf orgId with
      | none => exact Nat.le_refl _
      | some old => exact Nat.le_trans (started orgId old present) passed
    obtain ⟨start, same, begun, _⟩ := enter_window limiter.requestsPerMinute known
    rw [← held, same]
    exact begun
  · rcases windowOf_check_other enabled now own with same | ⟨dropped, _⟩
    · exact Nat.le_trans (started other window (same ▸ held)) passed
    · rw [dropped] at held
      nomatch held

theorem startedBy_after {limiter : RateLimiter} (enabled : limiter.enabled = true)
    {before now : Tick} (passed : before ≤ now) (started : StartedBy before limiter)
    {checks : List RateLimitCheck} (clock : InOrder checks)
    (within : ∀ request ∈ checks, before ≤ request.now ∧ request.now ≤ now) :
    StartedBy now (limiter.after checks) := by
  induction checks generalizing limiter before with
  | nil => exact fun orgId window held => Nat.le_trans (started orgId window held) passed
  | cons request rest inductionHypothesis =>
    obtain ⟨first, ordered⟩ := List.pairwise_cons.mp clock
    obtain ⟨notBefore, notAfter⟩ := within request List.mem_cons_self
    exact inductionHypothesis (check_settings enabled request.now request.orgId).1 notAfter
      (startedBy_check enabled notBefore started request.orgId) ordered fun other member =>
        ⟨first other member, (within other (List.mem_cons_of_mem _ member)).2⟩

/-- A window that starts now has room. -/
theorem enter_new_allowed {requestsPerMinute : ℕ} (positive : 1 ≤ requestsPerMinute) (now : Tick) :
    (enter requestsPerMinute now ⟨now, 0⟩).1 = .allowed := by
  have young : ¬requestsPerMinute ≤ 0 := Nat.not_le_of_gt positive
  simp only [enter, ite_self, if_neg young]

/-- A refused check is in a full window that is not over, and the hint is cut to whole seconds. -/
theorem enter_refused {requestsPerMinute : ℕ} (positive : 1 ≤ requestsPerMinute) {now : Tick}
    {window : Option RateLimitWindow} {seconds : ℕ}
    (refused : (enter requestsPerMinute now (window.getD ⟨now, 0⟩)).1 = .limited seconds) :
    ∃ full, window = some full ∧ requestsPerMinute ≤ full.count ∧
      durationSince now full.windowStart < rateWindow ∧
      seconds = max ((rateWindow - durationSince now full.windowStart) / nanosPerSecond) 1 ∧
      (enter requestsPerMinute now full).2 = full := by
  have fresh := enter_new_allowed positive now
  cases window with
  | none =>
    rw [Option.getD_none, fresh] at refused
    nomatch refused
  | some full =>
    rw [Option.getD_some] at refused
    by_cases past : rateWindow ≤ durationSince now full.windowStart
    · rw [enter_fresh requestsPerMinute now full past, fresh] at refused
      nomatch refused
    · by_cases room : requestsPerMinute ≤ full.count
      · simp only [enter, if_neg past, if_pos room, RateLimitDecision.limited.injEq] at refused
        refine ⟨full, rfl, room, Nat.lt_of_not_le past, refused.symm, ?_⟩
        simp only [enter, if_neg past, if_pos room]
      · simp only [enter, if_neg past, if_neg room, reduceCtorEq] at refused

/-- In a full window the next check is allowed when the window is over, and not before. -/
theorem enter_full_allowed_iff {requestsPerMinute : ℕ} (positive : 1 ≤ requestsPerMinute)
    {full : RateLimitWindow} (room : requestsPerMinute ≤ full.count) (later : Tick) :
    (enter requestsPerMinute later full).1 = .allowed ↔
      rateWindow ≤ durationSince later full.windowStart := by
  by_cases past : rateWindow ≤ durationSince later full.windowStart
  · refine iff_of_true ?_ past
    rw [enter_fresh requestsPerMinute later full past, enter_new_allowed positive]
  · refine iff_of_false ?_ past
    simp only [enter, if_neg past, if_pos room, reduceCtorEq, not_false_eq_true]

/-- Whole seconds cover a time when nothing of it is cut off. -/
theorem covered_by_seconds (left : ℕ) :
    left ≤ max (left / nanosPerSecond) 1 * nanosPerSecond ↔
      left % nanosPerSecond = 0 ∨ left ≤ nanosPerSecond := by
  have split := Nat.div_add_mod left nanosPerSecond
  have within := Nat.mod_lt left (show 0 < nanosPerSecond by decide)
  rcases Nat.eq_zero_or_pos (left / nanosPerSecond) with none | some
  · rw [none, Nat.mul_zero, Nat.zero_add] at split
    rw [none, Nat.zero_max, Nat.one_mul]
    omega
  · rw [Nat.max_eq_left some, Nat.mul_comm]
    have more : nanosPerSecond ≤ nanosPerSecond * (left / nanosPerSecond) :=
      Nat.le_mul_of_pos_right _ some
    omega

/-- A wait reaches the end of a window when it covers what is left of it. -/
theorem wait_reaches_end {window start now : ℕ} (begun : start ≤ now) (young : now - start < window)
    (waited : ℕ) : window - (now - start) ≤ waited ↔ window ≤ now + waited - start := by
  omega

end RateLimiter

open RateLimiter in
/-- A refused organization that waits as long as it is told is allowed its next check exactly when
whole seconds were left of its window, or at most one. -/
theorem retry_after_honest_iff (requestsPerMinute : ℕ) (positive : 1 ≤ requestsPerMinute)
    (history : List RateLimitCheck) (now : Tick) (orgId : String) (seconds : ℕ)
    (clock : InOrder (history ++ [⟨orgId, now⟩]))
    (refused : (((RateLimiter.new true requestsPerMinute).after history).check now orgId).1 =
      .limited seconds) :
    ((RateLimiter.new true requestsPerMinute).after history).AllowedAfter now orgId seconds ↔
      ∃ window, ((RateLimiter.new true requestsPerMinute).after history).windowOf orgId =
        some window ∧ LeftInSeconds now window := by
  obtain ⟨earlier, _, past⟩ := List.pairwise_append.mp clock
  obtain ⟨enabled, bound⟩ := @after_settings (RateLimiter.new true requestsPerMinute) rfl history
  have started : StartedBy now ((RateLimiter.new true requestsPerMinute).after history) :=
    startedBy_after rfl (Nat.zero_le now) (startedBy_new 0 requestsPerMinute) earlier
      fun request member => ⟨Nat.zero_le _, past request member _ (List.mem_singleton_self _)⟩
  generalize (RateLimiter.new true requestsPerMinute).after history = limiter at *
  change limiter.requestsPerMinute = requestsPerMinute at bound
  subst bound
  have related : KeptOrOld now (limiter.windowOf orgId) (limiter.windowOf orgId) := .inl rfl
  obtain ⟨decision, held⟩ := check_in_window enabled related
  rw [decision] at refused
  obtain ⟨full, present, room, young, hint, same⟩ := enter_refused positive refused
  rw [present, Option.getD_some, same] at held
  obtain ⟨stillEnabled, sameBound⟩ := check_settings enabled now orgId
  have begun := started orgId full present
  have next (others : List RateLimitCheck) (later : Tick)
      (ordered : InOrder (⟨orgId, now⟩ :: (others ++ [⟨orgId, later⟩])))
      (foreign : ∀ request ∈ others, request.orgId ≠ orgId) :
      (((limiter.check now orgId).2.after others).check later orgId).1 = .allowed ↔
        rateWindow ≤ durationSince later full.windowStart := by
    obtain ⟨fromNow, rest⟩ := List.pairwise_cons.mp ordered
    obtain ⟨between, _, toLater⟩ := List.pairwise_append.mp rest
    have kept : KeptOrOld later (((limiter.check now orgId).2.after others).windowOf orgId)
        (some full) := after_others stillEnabled between
      (fun request member => ⟨fromNow request (List.mem_append_left _ member),
        toLater request member _ (List.mem_singleton_self _)⟩)
      (fromNow ⟨orgId, later⟩ (by simp)) foreign (.inl held)
    obtain ⟨settings, otherBound⟩ := after_settings stillEnabled others
    rw [(check_in_window settings kept).1, otherBound, sameBound, Option.getD_some]
    exact enter_full_allowed_iff positive room later
  have exactly : LeftInSeconds now full ↔
      rateWindow ≤ durationSince (now + seconds * nanosPerSecond) full.windowStart := by
    rw [LeftInSeconds, ← covered_by_seconds, ← hint]
    exact wait_reaches_end begun young _
  constructor
  · intro honest
    refine ⟨full, present, exactly.mpr ?_⟩
    have ordered : InOrder [⟨orgId, now⟩, ⟨orgId, now + seconds * nanosPerSecond⟩] := by
      simp [InOrder]
    exact (next [] _ ordered (List.forall_mem_nil _)).mp
      (honest [] _ ordered (List.forall_mem_nil _) (Nat.le_refl _))
  · rintro ⟨window, its, whole⟩ others later ordered foreign waited
    obtain rfl := Option.some.inj (its.symm.trans present)
    refine (next others later ordered foreign).mpr (Nat.le_trans (exactly.mp whole) ?_)
    exact Nat.sub_le_sub_right waited _

/-- Half a second after an allowed check the next one is refused for 59 seconds, and the one after
59 seconds is refused again. -/
theorem retry_after_half_a_second :
    ¬ ∀ requestsPerMinute history now orgId seconds, 1 ≤ requestsPerMinute →
      RateLimiter.InOrder (history ++ [⟨orgId, now⟩]) →
      (((RateLimiter.new true requestsPerMinute).after history).check now orgId).1 =
        .limited seconds →
      ((RateLimiter.new true requestsPerMinute).after history).AllowedAfter now orgId seconds := by
  intro claimed
  have allowed := claimed 1 [⟨"org_a", 0⟩] 500000000 "org_a" 59 (by decide)
    (by simp [RateLimiter.InOrder]) (by decide +kernel) [] 59500000000
    (by simp [RateLimiter.InOrder]) (List.forall_mem_nil _) (by decide)
  exact absurd allowed (by decide +kernel)

/-- A second after the window has begun, 59 seconds are left of it. -/
theorem retry_after_honest_iff_sample :
    ((RateLimiter.new true 1).after [⟨"org_a", 0⟩]).AllowedAfter 1000000000 "org_a" 59 :=
  (retry_after_honest_iff 1 (by decide) [⟨"org_a", 0⟩] 1000000000 "org_a" 59
    (by simp [RateLimiter.InOrder]) (by decide +kernel)).mpr
    ⟨⟨0, 1⟩, by decide +kernel, .inl (by decide)⟩

end Memcore
