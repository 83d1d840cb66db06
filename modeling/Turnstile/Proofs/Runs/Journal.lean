import Turnstile.Proofs.Runs.Tidy
import Turnstile.Proofs.Window.Counts

/-!
# What the journal tells of counted calls

Whenever the store counts a call for a task, the journal says so, and in the same step the task ends
its job with the verdict. So the verdicts that a task has brought back are those of the calls that
the store has counted for it, in their order, whatever became of the others (`verdicts_eq_counts`).
This needs nothing of the store.
-/

namespace Turnstile

/-- The counted call that the event tells of. -/
def Event.counted? : Event → Option Counted
  | .counted task key limit windowMs time remainingMs =>
    some ⟨task, key, limit, windowMs, time, remainingMs⟩
  | _ => none

theorem Event.counted?_of_own {e : Event} (own : e.isOfStore = false) : e.counted? = none := by
  cases e <;> first | rfl | cases own

/-- The counted call that the answer to a request of a task is about. -/
def Call.counted? (call : Call) (now : Time) (t : TaskId) (reply : Reply) : Option Counted :=
  match call.command, reply with
  | .count key limit windowMs, .ok ms => some ⟨t, key, limit, windowMs, now, ms⟩
  | _, _ => none

namespace Limiter

variable {σ ε : Type} {B : Backend σ} {s s' : Limiter σ} {t u : TaskId}

/-- The calls that the store has counted, the first one in front. -/
def counts (s : Limiter σ) : List Counted := s.journal.reverse.filterMap Event.counted?

/-- The calls that the store has counted for a task. -/
def countsOf (s : Limiter σ) (t : TaskId) : List Counted := s.counts.filter fun c => c.task = t

/-- The calls that the store has counted on a key. -/
def countsOn (s : Limiter σ) (key : String) : List Counted := s.counts.filter fun c => c.key = key

/-- The verdicts that a task has brought back, the first one in front. -/
def verdicts (s : Limiter σ) (t : TaskId) : List Verdict :=
  (s.outcomes t).filterMap Outcome.verdict?

/-! ## The journal -/

@[simp] theorem counts_emitAll (s : Limiter σ) (es : List Event) :
    (s.emitAll es).counts = s.counts ++ es.filterMap Event.counted? := by
  simp [counts, emitAll, List.filterMap_append]

@[simp]
theorem counts_emit {e : Event} (own : e.isOfStore = false) : (s.emit e).counts = s.counts := by
  simp [counts, emit, List.filterMap_append, Event.counted?_of_own own]

/-- Whoever does not look for a rising flag sees nothing of it in the journal. -/
theorem filterMap_raise {α : Type} {f : Event → Option α}
    (blind : ∀ reason, f (.degraded reason) = none) (s : Limiter σ) (reason : String) :
    (s.raise reason).1.journal.reverse.filterMap f = s.journal.reverse.filterMap f := by
  by_cases hup : s.flag.up = true
  · simp [raise, Flag.raise, hup, emitAll]
  · simp [raise, Flag.raise, hup, emitAll, blind]

theorem filterMap_clear {α : Type} {f : Event → Option α} (blind : f .recovered = none)
    (s : Limiter σ) : s.clear.1.journal.reverse.filterMap f = s.journal.reverse.filterMap f := by
  by_cases hup : s.flag.up = true
  · simp [clear, Flag.clear, hup, emitAll, blind]
  · simp [clear, Flag.clear, hup, emitAll]

@[simp]
theorem counts_raise (s : Limiter σ) (reason : String) : (s.raise reason).1.counts = s.counts :=
  filterMap_raise (fun _ => rfl) s reason

@[simp] theorem counts_clear (s : Limiter σ) : s.clear.1.counts = s.counts := filterMap_clear rfl s

@[simp] theorem counts_aside (a : Aside) : (s.aside B a).counts = s.counts := by
  cases a with
  | raise reason => exact counts_raise s reason
  | clear => exact counts_clear s
  | _ => rfl

theorem filterMap_answerEvents (now : Time) (call : Call) (reply : Reply) :
    (answerEvents now t call reply).filterMap Event.counted? =
      (call.counted? now t reply).toList := by
  cases reply with
  | error f => cases hc : call.command <;> simp [answerEvents, Call.counted?, hc]
  | ok ms => cases hc : call.command <;> simp [answerEvents, Call.counted?, hc, Event.counted?]

/-- An answer adds at most one counted call. -/
@[simp] theorem counts_finishCall (call : Call) :
    (s.finishCall B t call).1.counts =
      s.counts ++ (call.counted? s.clock t (s.finishCall B t call).2).toList := by
  rw [← filterMap_answerEvents]
  exact counts_emitAll _ _

@[simp] theorem counts_freePermit (s : Limiter σ) : s.freePermit.counts = s.counts := by
  simp [counts]

@[simp]
theorem counts_start (s : Limiter σ) (jobs : List Job) : (s.start jobs).1.counts = s.counts := by
  simp [counts]

/-! ## Outcomes -/

theorem outcomes_of_get? {task : Task} (h : Table.get? s.tasks t = some task) :
    s.outcomes t = task.outcomes.reverse := by
  simp [outcomes, h]

@[simp] theorem outcomes_freePermit (s : Limiter σ) (u : TaskId) :
    s.freePermit.outcomes u = s.outcomes u := by
  rcases s.freePermit_eq with ⟨pool, h⟩ | ⟨v, goal, pool, ready, h⟩
  · rw [h]
    rfl
  · rw [h]
    exact outcomes_setStage _

@[simp] theorem outcomes_start (h : Tidy s) (jobs : List Job) (u : TaskId) :
    (s.start jobs).1.outcomes u = s.outcomes u := by
  by_cases hu : u = s.nextTask
  · subst hu
    simp [outcomes, Table.get?_eq_none_iff.mpr h.nextTask_not_mem]
  · simp [outcomes, hu]

/-- An act either gets an answer or leaves the counted calls, the outcomes and the debt alone. -/
theorem Act.still_or_finish {m m' : Motion σ} (a : Act B t m m') (h : Tidy m.state) :
    (m'.owed = m.owed ∧ m'.state.counts = m.state.counts ∧
      ∀ u, m'.state.outcomes u = m.state.outcomes u) ∨
    ∃ call, m.owed = none ∧
      m'.owed = call.command.counted? (m.state.finishCall B t call).2 ∧
      m'.state = (m.state.finishCall B t call).1 := by
  cases a with
  | aside a =>
    refine .inl ⟨rfl, counts_aside a, fun u => ?_⟩
    cases a <;> rfl
  | emit e own => exact .inl ⟨rfl, counts_emit own, fun u => rfl⟩
  | start jobs => exact .inl ⟨rfl, counts_start _ jobs, outcomes_start h jobs⟩
  | free => exact .inl ⟨rfl, counts_freePermit _, outcomes_freePermit _⟩
  | finish call fits => exact .inr ⟨call, rfl, rfl, rfl⟩
  | _ => exact .inl ⟨rfl, rfl, fun u => rfl⟩

/-! ## Verdicts come back -/

/-- Every task has brought back the verdicts on the calls that the store has counted for it. -/
structure Returned (s : Limiter σ) : Prop where
  tidy : Tidy s
  verdicts : ∀ t, s.verdicts t = (s.countsOf t).map Counted.verdict

/-- The same while a task is under way, which may owe the verdict on its last call. -/
structure Returning (t : TaskId) (m : Motion σ) : Prop where
  tidy : Tidy m.state
  own : m.state.verdicts t ++ (m.owed.map Verdict.ofRemaining).toList =
    (m.state.countsOf t).map Counted.verdict
  others : ∀ u ≠ t, m.state.verdicts u = (m.state.countsOf u).map Counted.verdict

namespace Returning

variable {h : Hand} {o : Option Nat}

/-- Only outcomes, counted calls and the debt matter. -/
theorem congr {m m' : Motion σ} (r : Returning t m) (tidy : Tidy m'.state)
    (howed : m'.owed = m.owed) (hcounts : m'.state.counts = m.state.counts)
    (houtcomes : ∀ u, m'.state.outcomes u = m.state.outcomes u) : Returning t m' where
  tidy := tidy
  own := by
    have hown := r.own
    simp only [verdicts, countsOf] at hown
    simp only [verdicts, countsOf, howed, hcounts, houtcomes, hown]
  others u hu := by
    have hothers := r.others u hu
    simp only [verdicts, countsOf] at hothers
    simp only [verdicts, countsOf, hcounts, houtcomes, hothers]

theorem verdict_counted? (call : Call) (now : Time) (reply : Reply) :
    ((call.counted? now t reply).toList.filter fun c => c.task = t).map Counted.verdict =
      ((call.command.counted? reply).map Verdict.ofRemaining).toList := by
  cases reply with
  | error f => cases hc : call.command <;> simp [Call.counted?, Command.counted?, hc]
  | ok ms =>
    cases hc : call.command <;> simp [Call.counted?, Command.counted?, hc, Counted.verdict]

theorem task_counted? (call : Call) (now : Time) (reply : Reply) (hu : u ≠ t) :
    ((call.counted? now t reply).toList.filter fun c => c.task = u) = [] := by
  cases reply with
  | error f => cases hc : call.command <;> simp [Call.counted?, hc]
  | ok ms => cases hc : call.command <;> simp [Call.counted?, hc, Ne.symm hu]

/-- A call that is counted puts its verdict in debt. -/
theorem finish {m m' : Motion σ} (r : Returning t m) (tidy : Tidy m'.state) (call : Call)
    (hnone : m.owed = none)
    (howed : m'.owed = call.command.counted? (m.state.finishCall B t call).2)
    (hstate : m'.state = (m.state.finishCall B t call).1) : Returning t m' := by
  have houtcomes : ∀ u, m'.state.outcomes u = m.state.outcomes u := fun u => by
    rw [hstate]
    rfl
  have hcounts : ∀ u, m'.state.countsOf u = m.state.countsOf u ++
      ((call.counted? m.state.clock t (m.state.finishCall B t call).2).toList.filter
        fun c => c.task = u) := fun u => by
    rw [countsOf, hstate, counts_finishCall, List.filter_append]
    rfl
  refine ⟨tidy, ?_, fun u hu => ?_⟩
  · -- nothing was owed before, so the new call is the only one not yet passed on
    have hown := r.own
    rw [hnone, Option.map_none, Option.toList_none, List.append_nil] at hown
    rw [hcounts, List.map_append, verdict_counted?, howed, ← hown]
    simp only [verdicts, houtcomes]
  · rw [hcounts, task_counted? _ _ _ hu, List.append_nil, ← r.others u hu]
    simp only [verdicts, houtcomes]

theorem act {m m' : Motion σ} (a : Act B t m m') (r : Returning t m) : Returning t m' := by
  have tidy := r.tidy.act a
  rcases a.still_or_finish r.tidy with ⟨howed, hcounts, houtcomes⟩ | ⟨call, hnone, howed, hstate⟩
  · exact r.congr tidy howed hcounts houtcomes
  · exact r.finish tidy call hnone howed hstate

/-- The job ends with the verdict that is owed. -/
theorem settle {task : Task} {outcome : Outcome} (hget : Table.get? s.tasks t = some task)
    (passed : Outcome.verdict? outcome = o.map Verdict.ofRemaining)
    (r : Returning t ⟨.nothing, o, s⟩) :
    Returning t ⟨.nothing, none,
      { s with tasks := Table.put s.tasks t (task.settled s.clock outcome) }⟩ := by
  refine ⟨r.tidy.settle hget outcome, ?_, fun u hu => ?_⟩
  · -- the debt goes into the outcomes
    have hown : s.verdicts t ++ (o.map Verdict.ofRemaining).toList =
        (s.countsOf t).map Counted.verdict := r.own
    have houtcomes : outcomes { s with
        tasks := Table.put s.tasks t (task.settled s.clock outcome) } t =
          s.outcomes t ++ [outcome] := by
      simp [outcomes, hget]
    rw [← passed] at hown
    rw [Option.map_none, Option.toList_none, List.append_nil, verdicts, houtcomes,
      List.filterMap_append]
    refine Eq.trans ?_ hown
    cases hv : Outcome.verdict? outcome <;> simp [verdicts, hv]
  · have houtcomes : outcomes { s with
        tasks := Table.put s.tasks t (task.settled s.clock outcome) } u = s.outcomes u := by
      simp [outcomes, hu]
    rw [verdicts, houtcomes]
    exact r.others u hu

end Returning

namespace Returned

theorem fresh (backend : σ) (settings : PoolSettings) :
    Returned (Limiter.fresh backend settings) :=
  ⟨.fresh backend settings, fun _ => rfl⟩

theorem invariant (W : Surroundings σ ε) : Invariant W Returned Returning where
  proper h hs := h.tidy.proper _ _ hs
  takeUp t h := ⟨h.tidy, (List.append_nil _).trans (h.verdicts t), fun u _ => h.verdicts u⟩
  layDown {s t} h := by
    refine ⟨h.tidy, fun u => ?_⟩
    by_cases hu : u = t
    · subst hu
      exact (List.append_nil _).symm.trans h.own
    · exact h.others u hu
  act := Returning.act
  setStage proper h :=
    h.congr (h.tidy.setStage proper) rfl rfl fun _ => outcomes_setStage _
  settle := Returning.settle
  outside ho h := by
    have tidy := Tidy.outside ho h.tidy
    cases ho <;> exact ⟨tidy, h.verdicts⟩
  unkeep {s t _ _} hheld ht h :=
    ⟨h.tidy.unkeep _, (List.append_nil _).trans (h.verdicts t), fun u _ => h.verdicts u⟩

end Returned

/-- After every run, with any store, the verdicts that a task has brought back are those on the
calls that the store has counted for it. -/
theorem verdicts_eq_counts (W : Surroundings σ ε) (backend : σ) (settings : PoolSettings)
    (moves : List (Move ε)) (t : TaskId) :
    ((Limiter.fresh backend settings).run W moves).verdicts t =
      (((Limiter.fresh backend settings).run W moves).countsOf t).map Counted.verdict :=
  ((Returned.invariant W).run (.fresh backend settings) moves).verdicts t

end Limiter

end Turnstile
