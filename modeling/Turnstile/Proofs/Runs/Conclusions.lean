import Turnstile.Proofs.Runs.Courses
import Turnstile.Proofs.Runs.Decisions

/-!
# How a charge is concluded

A check, or a request that is limited, ends in one step: its task finds that the task which counts
the call is over, decides, records the decision and tells the caller (`Concluded`). In a run this
step can be found for every such job that has ended (`Attends.concluded`), and what the other task
has come to by then tells the decision.
-/

namespace Turnstile

/-- A task whose job has somebody charged is at its beginning or waits for the call to be
counted. -/
theorem Stage.Serves.of_charge? {stage : Stage} {job : Job} {c : Charge} {limit : Limit}
    (serves : stage.Serves job) (charged : job.charge? = some (c, limit)) :
    stage = .fresh job ∨ ∃ child, stage = .awaiting c child := by
  have ofGoal : ∀ {goal : Goal}, goal.job = job → False := by
    rintro goal rfl
    cases goal <;> cases charged
  cases stage with
  | fresh j => exact .inl (congrArg Stage.fresh serves)
  | awaiting c' child =>
    obtain ⟨limit', charged'⟩ := serves
    obtain ⟨rfl, -⟩ := Prod.mk.inj (Option.some.inj (charged.symm.trans charged'))
    exact .inr ⟨child, rfl⟩
  | queued | granted | probing | opening => exact (ofGoal serves).elim
  | holding =>
    obtain ⟨_, _, rfl⟩ := serves
    cases charged
  | sleeping =>
    obtain ⟨_, rfl⟩ := serves
    cases charged
  | calling =>
    rcases serves with ⟨rfl, -⟩ | rfl <;> cases charged
  | done | cancelled => exact serves.elim
  | evaluating | verifying | joining | resting | sweeping =>
    obtain rfl := serves
    cases charged

namespace Limiter

variable {σ ε : Type} {W : Surroundings σ ε} {B : Backend σ} {s s' u : Limiter σ}
  {t child : TaskId} {c : Charge}

/-! ## Deciding -/

/-- In one step a task has come to a decision on a charge, from what the task that counts the call
has come to; the decision is recorded and counted once. -/
structure Concluded (s s' : Limiter σ) (t child : TaskId) (c : Charge) (d : Decision) : Prop where
  ended : s.isOver child = true
  decision : d = (s.decideOn t child c (verdictOf child (s.lastOutcome? child))).2
  decisions : s'.decisions = s.decisions ++ [⟨t, child, c.service, d⟩]
  totals : s'.totals = s.totals.add d
  metrics : s'.metrics = s.metrics.bump (.ofDecision c.service d)

theorem step?_of_awaiting (hs : s.stage? t = some (.awaiting c child))
    (step : s.step? B t = some s') :
    s.isOver child = true ∧
      s' = (s.decideOn t child c (verdictOf child (s.lastOutcome? child))).1.settle t
        (.ok ((s.decideOn t child c (verdictOf child (s.lastOutcome? child))).1.tell c
          (s.decideOn t child c (verdictOf child (s.lastOutcome? child))).2)) := by
  simp only [step?, hs] at step
  split at step
  · cases step
    exact ⟨‹_›, rfl⟩
  · cases step

/-- Whoever has waited for a call to be counted concludes, and tells the caller how things stand
then. -/
theorem concluded_of_awaiting {task : Task} (hget : Table.get? s.tasks t = some task)
    (hs : s.stage? t = some (.awaiting c child)) (step : s.step? B t = some s') :
    ∃ d, Concluded s s' t child c d ∧ s'.outcomes t = s.outcomes t ++ [.ok (s'.tell c d)] := by
  obtain ⟨ended, rfl⟩ := step?_of_awaiting hs step
  generalize houtcome : verdictOf child (s.lastOutcome? child) = outcome
  refine ⟨(s.decideOn t child c outcome).2, ⟨ended, by rw [houtcome], ?_, ?_, ?_⟩, ?_⟩
  · simpa [decisions] using decisions_decideOn s t child c outcome
  · simp
  · simp
  · simp [outcomes, hget, tell, status]

namespace Attends

variable {jobs rest : List Job} {past : List (Job × Outcome)} {job : Job} {o : Outcome}
  {limit : Limit}

/-- A job that has somebody charged ends only in the step in which the task concludes. -/
theorem awaiting_of_ended (tidy : Tidy s) (h : s.Attends t jobs past (job :: rest))
    (charged : job.charge? = some (c, limit)) (step : s.step? W.backend t = some s')
    (ended : s'.Does t jobs (past ++ [(job, o)]) rest) :
    ∃ child, s.stage? t = some (.awaiting c child) := by
  obtain ⟨task, hget, -, leaves⟩ := h.does.entry
  have hs : s.stage? t = some task.stage := stage?_of_get? hget
  obtain ⟨stage, jobs', outcomes'⟩ := task
  cases leaves with
  | cancelled => simp [step?, hs] at step
  | busy serves =>
    rcases serves.of_charge? charged with rfl | ⟨child, rfl⟩
    · -- the step in which it has the call counted ends nothing
      simp only [step?, hs] at step
      cases step
      have houtcomes := ended.outcomes
      rw [begin_of_charge? charged, charge_eq, outcomes_setStage, outcomes_start tidy,
        h.does.outcomes, List.map_append, List.self_eq_append_right] at houtcomes
      cases houtcomes
    · exact ⟨child, hs⟩

/-- A job that has somebody charged and has ended in a run: some step of the run concludes it, and
the task that counts the call has by then done so, has failed, or was cancelled before. -/
theorem concluded {now : Time} {i : Nat} (returned : Returned s)
    (begun : Table.get? s.tasks t = some (.ofJobs now jobs)) (moves : List (Move ε))
    (hjob : jobs[i]? = some job) (charged : job.charge? = some (c, limit))
    (ended : ((s.run W moves).outcomes t)[i]? = some o) :
    ∃ before after child d, moves = before ++ .step t :: after ∧
      ((s.run W before).outcomes t).length = i ∧
      Concluded (s.run W before) ((s.run W before).move W (.step t)) t child c d ∧
      o = .ok (((s.run W before).move W (.step t)).tell c d) ∧
      ∃ done undone, (s.run W before).Does child [.evaluate (c.evaluation limit)] done undone := by
  obtain ⟨past, left, hrun, hfound⟩ := (of_begun returned begun).run (W := W) returned moves
  rw [List.nil_append] at hrun
  -- the job and its outcome stand at the same place in what the task has done
  rw [hrun.does.outcomes, List.getElem?_map, Option.map_eq_some_iff] at ended
  obtain ⟨⟨job', o'⟩, hpast, rfl⟩ := ended
  obtain ⟨hi, hget⟩ := List.getElem?_eq_some_iff.mp hpast
  rw [hrun.does.parts, List.getElem?_append_left (by simpa using hi), List.getElem?_map, hpast]
    at hjob
  obtain rfl : job' = job := Option.some.inj hjob
  have hsplit : past = past.take i ++ (job', o') :: past.drop (i + 1) := by
    rw [← hget, ← List.drop_eq_getElem_cons hi, List.take_append_drop]
  obtain ⟨before, after, rest, hmoves, hbefore, hstep, hafter⟩ := hfound _ _ _ _ hsplit
  have returned' : Returned (s.run W before) := (Returned.invariant W).run returned before
  obtain ⟨child, hs⟩ := hbefore.awaiting_of_ended returned'.tidy charged hstep hafter.does
  obtain ⟨task, htask, -⟩ := hbefore.does.entry
  obtain ⟨d, hconcluded, htold⟩ := concluded_of_awaiting htask hs hstep
  obtain ⟨job'', rest', limit', done, undone, hleft, charged', hchild⟩ := hbefore.backed c child hs
  obtain ⟨rfl, -⟩ := List.cons.inj hleft
  obtain rfl : limit = limit' := (Prod.mk.inj (Option.some.inj (charged.symm.trans charged'))).2
  refine ⟨before, after, child, d, hmoves, ?_, hconcluded, ?_, done, undone, hchild⟩
  · rw [hbefore.does.outcomes, List.nil_append, List.length_map, List.length_take]
    exact Nat.min_eq_left (Nat.le_of_lt hi)
  · rw [hafter.does.outcomes, hbefore.does.outcomes, List.map_append,
      List.append_cancel_left_eq] at htold
    exact List.singleton_inj.mp htold

end Attends

end Limiter

end Turnstile
