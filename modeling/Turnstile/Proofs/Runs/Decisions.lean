import Turnstile.Proofs.Runs.Journal
import Turnstile.Proofs.Runs.Signals

/-!
# Where decisions come from

A decision is written down together with the task that counted the call. If it is not for want of a
verdict, then the store has counted a call for that task, and the decision is the one that the
verdict on this call asks for (`decision_of_count`). This needs nothing of the store.
-/

namespace Turnstile

/-- What becomes of the caller if the store answers that way. -/
def Verdict.decision : Verdict → Decision
  | .admitted => .admitted
  | .blocked ms => .rejected (retryAfterSeconds ms)

/-- A decision, with the task that came to it and the task that counted the call. -/
structure Decided where
  task : TaskId
  child : TaskId
  service : String
  decision : Decision
deriving DecidableEq, Repr

/-- The decision that the event tells of. -/
def Event.decided? : Event → Option Decided
  | .decided task child service decision => some ⟨task, child, service, decision⟩
  | _ => none

theorem Event.decided?_of_not_isSignal {e : Event} (h : e.isSignal = false) :
    e.decided? = none := by
  cases e <;> first | rfl | cases h

namespace Limiter

variable {σ ε : Type} {B : Backend σ} {s s' : Limiter σ} {t : TaskId}

/-- The decisions that tasks have come to, the first one in front. -/
def decisions (s : Limiter σ) : List Decided := s.journal.reverse.filterMap Event.decided?

/-! ## The journal -/

@[simp] theorem decisions_emit (s : Limiter σ) (e : Event) :
    (s.emit e).decisions = s.decisions ++ e.decided?.toList := by
  cases hd : e.decided? <;> simp [decisions, emit, List.filterMap_append, hd]

@[simp] theorem decisions_raise (s : Limiter σ) (reason : String) :
    (s.raise reason).1.decisions = s.decisions :=
  filterMap_raise (fun _ => rfl) s reason

@[simp] theorem decisions_clear (s : Limiter σ) : s.clear.1.decisions = s.decisions :=
  filterMap_clear rfl s

@[simp]
theorem decisions_record (s : Limiter σ) (t child : TaskId) (service : String) (d : Decision) :
    (s.record t child service d).decisions = s.decisions ++ [⟨t, child, service, d⟩] :=
  decisions_emit _ (.decided t child service d)

/-- Deciding adds the decision. -/
@[simp] theorem decisions_decideOn (s : Limiter σ) (t child : TaskId) (c : Charge)
    (outcome : Except Fault Verdict) :
    (s.decideOn t child c outcome).1.decisions =
      s.decisions ++ [⟨t, child, c.service, (s.decideOn t child c outcome).2⟩] := by
  -- what else is written down is no decision
  cases outcome with
  | ok v => cases v <;> simp [decideOn, Event.decided?]
  | error f => simp [decideOn, Event.decided?]

theorem Silent.decisions (h : Silent s s') : s'.decisions = s.decisions := by
  obtain ⟨recent, hjournal, hnone⟩ := h.journal
  have hrecent : recent.filterMap Event.decided? = [] := by
    rw [List.filterMap_eq_nil_iff]
    intro e he
    exact Event.decided?_of_not_isSignal (hnone e he)
  simp [Limiter.decisions, hjournal, List.filterMap_append, List.filterMap_reverse, hrecent]

/-- A move adds at most one decision: that of a task that steps and has waited for the call to be
counted, made from how the task that counted the call has ended. -/
theorem decisions_move (W : Surroundings σ ε) (tidy : Tidy s) (m : Move ε) :
    (s.move W m).decisions = s.decisions ∨
    ∃ (t child : TaskId) (c : Charge), m = .step t ∧ s.stage? t = some (.awaiting c child) ∧
      (s.move W m).decisions = s.decisions ++ [⟨t, child, c.service,
        (s.decideOn t child c (verdictOf child (s.lastOutcome? child))).2⟩] := by
  cases hm : m.isClear with
  | true =>
    cases m with
    | clear => exact .inl (decisions_clear s)
    | _ => cases hm
  | false =>
    cases signalled_move W tidy hm with
    | silent quiet => exact .inl quiet.decisions
    | raised reason before after =>
      exact .inl (after.decisions.trans ((decisions_raise ..).trans before.decisions))
    | opened conn before told after =>
      exact .inl (after.decisions.trans ((decisions_clear _).trans before.decisions))
    | decided t child c ended after own waiting =>
      refine .inr ⟨t, child, c, Move.eq_step own, waiting, ?_⟩
      exact after.decisions.trans (decisions_decideOn ..)

/-- The decisions that a task has come to. -/
def decisionsOf (s : Limiter σ) (t : TaskId) : List Decided :=
  s.decisions.filter fun d => d.task = t

/-- A task comes to a decision only in a step of its own, and only if it has waited for the call to
be counted. -/
theorem decisionsOf_move (W : Surroundings σ ε) (tidy : Tidy s) (m : Move ε)
    (idle : ∀ c child, m = .step t → s.stage? t ≠ some (.awaiting c child)) :
    (s.move W m).decisionsOf t = s.decisionsOf t := by
  rcases decisions_move W tidy m with heq | ⟨u, child, c, which, waiting, heq⟩
  · rw [decisionsOf, heq, decisionsOf]
  · have hne : u ≠ t := by
      rintro rfl
      exact idle c child which waiting
    rw [decisionsOf, heq, List.filter_append, decisionsOf]
    simp [hne]

/-! ## Decisions and counted calls -/

@[simp] theorem decision_decideOn_ok (s : Limiter σ) (t child : TaskId) (c : Charge) (v : Verdict) :
    (s.decideOn t child c (.ok v)).2 = v.decision := by
  cases v <;> rfl

/-- What the outcome of a task brings in favour or against is one of its verdicts. -/
theorem mem_verdicts_of_verdictOf {child : TaskId} {v : Verdict}
    (h : verdictOf child (s.lastOutcome? child) = .ok v) : v ∈ s.verdicts child := by
  have hlast : s.lastOutcome? child = some (.ok (.verdict v)) := by
    unfold verdictOf at h
    split at h
    · cases h
      assumption
    · cases h
    · cases h
  obtain ⟨task, hget, hhead⟩ := Option.bind_eq_some_iff.mp hlast
  rw [verdicts, outcomes_of_get? hget, List.mem_filterMap]
  exact ⟨_, List.mem_reverse.mpr (List.mem_of_head? hhead), rfl⟩

/-- Every decision that was not made for want of a verdict is the one that the verdict on a call
asks for which was counted for the task it was made from. -/
structure Founded (s : Limiter σ) : Prop where
  returned : Returned s
  counted : ∀ d ∈ s.decisions, d.decision ≠ .degraded →
    ∃ c ∈ s.countsOf d.child, d.decision = c.verdict.decision

namespace Founded

theorem fresh (backend : σ) (settings : PoolSettings) :
    Founded (Limiter.fresh backend settings) where
  returned := .fresh backend settings
  counted d hd := by cases hd

theorem move {W : Surroundings σ ε} (h : Founded s) (m : Move ε) : Founded (s.move W m) := by
  have returned : Returned (s.move W m) := (Returned.invariant W).move h.returned m
  obtain ⟨recent, hjournal⟩ := journal_move W h.returned.tidy m
  -- what has been counted stays counted
  have stays : ∀ {t c}, c ∈ s.countsOf t → c ∈ (s.move W m).countsOf t := by
    intro t c hc
    rw [countsOf, counts, hjournal, List.reverse_append, List.filterMap_append, List.filter_append]
    exact List.mem_append_left _ hc
  have before : ∀ d ∈ s.decisions, d.decision ≠ .degraded →
      ∃ c ∈ (s.move W m).countsOf d.child, d.decision = c.verdict.decision := by
    intro d hd hne
    obtain ⟨c, hc, heq⟩ := h.counted d hd hne
    exact ⟨c, stays hc, heq⟩
  refine ⟨returned, fun d hd hne => ?_⟩
  rcases decisions_move W h.returned.tidy m with heq | ⟨t, child, c, -, -, heq⟩
  · exact before d (heq ▸ hd) hne
  · rw [heq, List.mem_append, List.mem_singleton] at hd
    rcases hd with hd | rfl
    · exact before d hd hne
    · cases hv : verdictOf child (s.lastOutcome? child) with
      | error f =>
        rw [hv] at hne
        exact absurd rfl hne
      | ok v =>
        have hmem := mem_verdicts_of_verdictOf hv
        rw [h.returned.verdicts child] at hmem
        obtain ⟨count, hcount, rfl⟩ := List.mem_map.mp hmem
        exact ⟨count, stays hcount, decision_decideOn_ok ..⟩

end Founded

/-- After every run, with any store, a decision that was not made for want of a verdict is the one
that the verdict asks for on a call that the store has counted for it. -/
theorem decision_of_count (W : Surroundings σ ε) (backend : σ) (settings : PoolSettings)
    (moves : List (Move ε)) : Founded ((Limiter.fresh backend settings).run W moves) :=
  run_induction (P := Founded) (fun _ m h => h.move m) (.fresh backend settings) moves

end Limiter

end Turnstile
