import Turnstile.Proofs.Abort.Likeness
import Turnstile.Proofs.Runs.Totals

/-!
# Aborting a caller

A caller that waits for its call to be counted is cancelled, or is not. Whatever happens then, in
whatever order, happens in both runs alike: to the store, to the pool and to everybody else
(`Undisturbed`). The caller that was cancelled lacks the decision to which the other one comes, and
so do the totals and the metrics (`Short`).
-/

namespace Turnstile

namespace Limiter

variable {σ ε : Type} {W : Surroundings σ ε} {hidden : List TaskId} {s kept cut : Limiter σ}
  {p child : TaskId} {c : Charge} {told : List Outcome} {made : List Decided}

/-! ## What becomes of the caller -/

/-- A task is over, with those outcomes and after those decisions. -/
structure Ended (s : Limiter σ) (t : TaskId) (told : List Outcome) (made : List Decided) :
    Prop where
  entry : ∃ task, Table.get? s.tasks t = some task ∧ task.stage.isOver = true ∧
    task.outcomes = told
  made : s.decisionsOf t = made

namespace Ended

theorem move (tidy : Tidy s) (h : s.Ended p told made) (m : Move ε) :
    (s.move W m).Ended p told made := by
  obtain ⟨⟨stage, jobs, outcomes⟩, hget, hover, htold⟩ := h.entry
  have hs : s.stage? p = some stage := stage?_of_get? hget
  have hover' : stage.isOver = true := hover
  refine ⟨?_, ?_⟩
  · cases fate_move W tidy hget m with
    | spared stage' entry handed counts =>
      obtain rfl : stage' = stage := handed.eq_of_isOver hover
      exact ⟨_, entry, hover, htold⟩
    | cancelled which entry counts => exact ⟨_, entry, rfl, htold⟩
    | stepped which step =>
      -- whoever is over takes no step
      cases stage with
      | done time => simp [step?, hs] at step
      | cancelled => simp [step?, hs] at step
      | _ => cases hover'
  · rw [decisionsOf_move W tidy m, h.made]
    intro c child _ hwaiting
    rw [hs] at hwaiting
    cases hwaiting
    cases hover'

theorem run (tidy : Tidy s) (h : s.Ended p told made) (moves : List (Move ε)) :
    (s.run W moves).Ended p told made := by
  induction moves generalizing s with
  | nil => exact h
  | cons m rest ih => exact ih ((Tidy.invariant W).move tidy m) (h.move tidy m)

theorem outcomes (h : s.Ended p told made) : s.outcomes p = told.reverse := by
  obtain ⟨task, hget, -, rfl⟩ := h.entry
  exact outcomes_of_get? hget

end Ended

/-- Where a caller stands that has waited for the task `child` to count its call, and the decision
that it has come to since. -/
inductive Stands (s : Limiter σ) (p child : TaskId) (c : Charge) (told : List Outcome)
    (made : List Decided) : Option Decision → Prop where
  | waits (entry : Table.get? s.tasks p = some ⟨.awaiting c child, [], told⟩)
    (own : s.decisionsOf p = made) : Stands s p child c told made none
  /-- It was cancelled. -/
  | stopped (ended : s.Ended p told made) : Stands s p child c told made none
  /-- It was told its decision at some time. -/
  | concluded {d : Decision} (teller : Limiter σ)
    (ended : s.Ended p (.ok (teller.tell c d) :: told) (made ++ [⟨p, child, c.service, d⟩])) :
    Stands s p child c told made (some d)

namespace Stands

theorem step (waits : Table.get? s.tasks p = some ⟨.awaiting c child, [], told⟩)
    (own : s.decisionsOf p = made) :
    ∃ lost, (s.move W (.step p)).Stands p child c told made lost := by
  cases hstep : s.step? W.backend p with
  | none =>
    have hmove : s.move W (.step p) = s := move_step_of_none hstep
    rw [hmove]
    exact ⟨none, .waits waits own⟩
  | some s' =>
    have hmove : s.move W (.step p) = s' := move_step_of_some hstep
    have hs : s.stage? p = some (.awaiting c child) := stage?_of_get? waits
    obtain ⟨-, heq⟩ := step?_of_awaiting hs hstep
    obtain ⟨d, hconcluded, -⟩ := concluded_of_awaiting waits hs hstep
    obtain ⟨-, hd, hdecisions, -, -⟩ := hconcluded
    rw [← hd] at heq
    let after := (s.decideOn p child c (verdictOf child (s.lastOutcome? child))).1
    rw [hmove]
    refine ⟨some d, .concluded after ⟨?_, ?_⟩⟩
    · -- the caller had one job, so it is done once it is told
      exact ⟨⟨.done after.clock, [], .ok (after.tell c d) :: told⟩,
        by simp [heq, after, waits, Task.settled], rfl, rfl⟩
    · rw [decisionsOf, hdecisions, List.filter_append, ← own, decisionsOf]
      simp

/-- A caller waits on, comes to its decision or is cancelled, and what it has come to stays. -/
theorem move (tidy : Tidy s) {lost : Option Decision} (h : s.Stands p child c told made lost)
    (m : Move ε) : ∃ lost', (s.move W m).Stands p child c told made lost' := by
  cases h with
  | stopped ended => exact ⟨none, .stopped (ended.move tidy m)⟩
  | concluded teller ended => exact ⟨_, .concluded teller (ended.move tidy m)⟩
  | waits entry own =>
    by_cases hm : m = .step p
    · rw [hm]
      exact step entry own
    · have own' : (s.move W m).decisionsOf p = made := by
        rw [decisionsOf_move W tidy m, own]
        intro c child which
        exact absurd which hm
      cases fate_move W tidy entry m with
      | spared stage entry' handed counts =>
        cases handed with
        | same => exact ⟨none, .waits entry' own'⟩
      | cancelled which entry' counts => exact ⟨none, .stopped ⟨⟨_, entry', rfl, rfl⟩, own'⟩⟩
      | stepped which step => exact absurd which hm

theorem run (tidy : Tidy s) {lost : Option Decision} (h : s.Stands p child c told made lost)
    (moves : List (Move ε)) : ∃ lost', (s.run W moves).Stands p child c told made lost' := by
  induction moves generalizing s lost with
  | nil => exact ⟨lost, h⟩
  | cons m rest ih =>
    obtain ⟨lost', h'⟩ := h.move (W := W) tidy m
    exact ih ((Tidy.invariant W).move tidy m) h'

end Stands

end Limiter

namespace Memory

end Memory

end Turnstile
