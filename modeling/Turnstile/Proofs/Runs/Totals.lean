import Turnstile.Proofs.Runs.Decisions

/-!
# What is counted about decisions

After every run the totals and the metrics of decisions are what the decisions that are written down
add up to (`tallied_run`), so what two limiters differ in there can be read off their decisions.
-/

namespace Turnstile

namespace Totals

/-- What decisions add up to. -/
def ofDecisions (ds : List Decision) : Totals := ds.foldl add ⟨0, 0, 0⟩

theorem ofDecisions_concat (ds : List Decision) (d : Decision) :
    ofDecisions (ds ++ [d]) = (ofDecisions ds).add d := by
  rw [ofDecisions, List.foldl_append]
  rfl

theorem add_right_comm (t : Totals) (d e : Decision) : (t.add d).add e = (t.add e).add d := by
  cases d <;> cases e <;> rfl

end Totals

/-- The metric that a decision is counted under. -/
def Decided.metric (d : Decided) : Metric := .ofDecision d.service d.decision

namespace Limiter

variable {σ ε : Type} {s s' : Limiter σ}

/-- The totals and the metrics of decisions are what the decisions add up to. -/
structure Tallied (s : Limiter σ) : Prop where
  tidy : Tidy s
  totals : s.totals = .ofDecisions (s.decisions.map Decided.decision)
  metrics : ∀ service d, s.metrics.value (.ofDecision service d) =
    (s.decisions.map Decided.metric).count (.ofDecision service d)

namespace Tallied

theorem fresh (backend : σ) (settings : PoolSettings) :
    Tallied (Limiter.fresh backend settings) where
  tidy := .fresh backend settings
  totals := rfl
  metrics _ _ := rfl

/-- Nothing has been decided, and nothing about decisions has been counted. -/
theorem congr (h : Tallied s) (tidy : Tidy s') (decisions : s'.decisions = s.decisions)
    (totals : s'.totals = s.totals) (metrics : ∀ service d,
      s'.metrics.value (.ofDecision service d) = s.metrics.value (.ofDecision service d)) :
    Tallied s' := by
  refine ⟨tidy, ?_, fun service d => ?_⟩
  · rw [totals, decisions, h.totals]
  · rw [metrics, decisions, h.metrics]

/-- A decision is counted once in the totals and once in its metric. -/
theorem decide (h : Tallied s) (tidy : Tidy s') {t child : TaskId} {c : Charge}
    {outcome : Except Fault Verdict} (after : Silent (s.decideOn t child c outcome).1 s') :
    Tallied s' := by
  have hdecisions := after.decisions.trans (decisions_decideOn s t child c outcome)
  refine ⟨tidy, ?_, fun service d => ?_⟩
  · simp [after.totals, hdecisions, h.totals, Totals.ofDecisions_concat]
  · simp only [after.metrics, decideOn_frame, hdecisions, List.map_append, List.count_append,
      ← h.metrics, List.map_singleton, List.count_singleton]
    by_cases hm : Metric.ofDecision c.service (s.decideOn t child c outcome).2 =
        .ofDecision service d
    · simp [Decided.metric, hm]
    · simp [Decided.metric, hm, Ne.symm hm]

theorem move {W : Surroundings σ ε} (h : Tallied s) (m : Move ε) : Tallied (s.move W m) := by
  have tidy : Tidy (s.move W m) := (Tidy.invariant W).move h.tidy m
  cases hm : m.isClear with
  | true =>
    cases m with
    | clear => exact h.congr tidy (decisions_clear s) rfl fun _ _ => rfl
    | _ => cases hm
  | false =>
    cases signalled_move W h.tidy hm with
    | silent quiet => exact h.congr tidy quiet.decisions quiet.totals quiet.metrics
    | raised reason before after =>
      exact h.congr tidy (after.decisions.trans ((decisions_raise ..).trans before.decisions))
        (after.totals.trans before.totals)
        fun service d => (after.metrics service d).trans (before.metrics service d)
    | opened conn before told after =>
      exact h.congr tidy (after.decisions.trans ((decisions_clear _).trans before.decisions))
        (after.totals.trans before.totals)
        fun service d => (after.metrics service d).trans (before.metrics service d)
    | decided t child c ended after => exact h.decide tidy after

end Tallied

end Limiter

end Turnstile
