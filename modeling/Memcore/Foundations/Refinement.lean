import Mathlib.Data.List.Infix

/-!
# Two servers that answer alike

A server answers requests one after the other and changes its state. Two servers are
compared through a relation between their states that may also depend on the requests still
to come. If related states answer each request alike and stay related, the servers give the
same answers throughout. What each request preserves holds after every beginning of a run.
-/
namespace Refinement

variable {ω α σ τ : Type}

/-- Requests in order: the answers, and the state after them. -/
def runAll (serve : ω → σ → α × σ) : List ω → σ → List α × σ
  | [], state => ([], state)
  | request :: rest, state =>
      let served := serve request state
      let later := runAll serve rest served.2
      (served.1 :: later.1, later.2)

/-- Servers whose states stay related give the same answers. -/
theorem runAll_agree {serve : ω → σ → α × σ} {other : ω → τ → α × τ}
    (related : List ω → σ → τ → Prop)
    (step : ∀ request rest state otherState, related (request :: rest) state otherState →
      (serve request state).1 = (other request otherState).1 ∧
        related rest (serve request state).2 (other request otherState).2)
    {requests : List ω} {state : σ} {otherState : τ}
    (initially : related requests state otherState) :
    (runAll serve requests state).1 = (runAll other requests otherState).1 ∧
      related [] (runAll serve requests state).2 (runAll other requests otherState).2 := by
  induction requests generalizing state otherState with
  | nil => exact ⟨rfl, initially⟩
  | cons request rest inductionHypothesis =>
    obtain ⟨sameAnswer, later⟩ := step request rest state otherState initially
    obtain ⟨sameAnswers, last⟩ := inductionHypothesis later
    refine ⟨?_, last⟩
    rw [runAll, runAll, sameAnswer, sameAnswers]

/-! ## What holds along a run -/

/-- The state after requests. -/
def after (serve : ω → σ → α × σ) (made : List ω) (state : σ) : σ :=
  made.foldl (fun state request => (serve request state).2) state

@[simp] theorem after_nil (serve : ω → σ → α × σ) (state : σ) : after serve [] state = state := rfl

@[simp] theorem after_append_one (serve : ω → σ → α × σ) (made : List ω) (request : ω)
    (state : σ) : after serve (made ++ [request]) state =
      (serve request (after serve made state)).2 := by
  simp only [after, List.foldl_append, List.foldl_cons, List.foldl_nil]

/-- What one more request of the run preserves holds after every beginning of it. -/
theorem along_prefixes {holds : List ω → Prop} {requests : List ω} (initially : holds [])
    (step : ∀ made request, made ++ [request] <+: requests → holds made →
      holds (made ++ [request])) {made : List ω} (begins : made <+: requests) : holds made := by
  induction made using List.reverseRecOn with
  | nil => exact initially
  | append_singleton made request inductionHypothesis =>
    have earlier : made <+: requests := (List.prefix_append made [request]).trans begins
    exact step made request begins (inductionHypothesis earlier)

/-! ## What the last event settles -/

/-- Some event settles a matter, and every later one leaves it alone. -/
def Lastly (settles leaves : ω → Prop) (events : List ω) : Prop :=
  ∃ earlier event later, events = earlier ++ event :: later ∧ settles event ∧
    ∀ next ∈ later, leaves next

theorem not_lastly_nil (settles leaves : ω → Prop) : ¬ Lastly settles leaves [] := by
  rintro ⟨earlier, event, later, empty, _⟩
  simp at empty

/-- One more event settles the matter itself, or leaves it as it was. -/
theorem lastly_append_one (settles leaves : ω → Prop) (events : List ω) (event : ω) :
    Lastly settles leaves (events ++ [event]) ↔
      settles event ∨ Lastly settles leaves events ∧ leaves event := by
  constructor
  · rintro ⟨earlier, settling, later, same, settled, left⟩
    induction later using List.reverseRecOn with
    | nil =>
      obtain ⟨_, rfl⟩ := List.append_inj' same rfl |>.imp id List.singleton_inj.mp
      exact .inl settled
    | append_singleton later last _ =>
      rw [← List.cons_append, ← List.append_assoc] at same
      obtain ⟨rfl, one⟩ := List.append_inj' same rfl
      obtain rfl := List.singleton_inj.mp one
      refine .inr ⟨⟨earlier, settling, later, rfl, settled, ?_⟩, ?_⟩
      · intro next member
        exact left next (List.mem_append_left _ member)
      · exact left event (List.mem_append_right _ (List.mem_singleton_self _))
  · rintro (settled | ⟨⟨earlier, settling, later, rfl, settled, left⟩, last⟩)
    · exact ⟨events, event, [], rfl, settled, by simp⟩
    · refine ⟨earlier, settling, later ++ [event], by simp, settled, ?_⟩
      intro next member
      rcases List.mem_append.mp member with member | one
      · exact left next member
      · exact List.mem_singleton.mp one ▸ last

end Refinement
