import Mathlib.Algebra.GroupWithZero.Nat
import Turnstile.Proofs.Runs.Conclusions
import Turnstile.Proofs.Runs.Totals

/-!
# What a move counts

Metrics change in two places: a command to count a call is counted when it ends, together with an
observation of its duration, and a decision is counted for its service. Both can be read off a
limiter and a move before the move is made: `attempt?` is the command that the move ends, and
`decided?` the decision that it comes to. A move counts these and nothing else (`metrics_move`).
-/

namespace Turnstile

namespace Metrics

theorem value_bump (t : Metrics) (m m' : Metric) :
    (t.bump m).value m' = t.value m' + [m].count m' := by
  by_cases h : m = m'
  · subst h
    simp [value_bump_self]
  · simp [value_bump_ne t (Ne.symm h), h]

/-- Whatever is counted one by one is counted as often as it occurs. -/
theorem value_foldl_bump (t : Metrics) (ms : List Metric) (m : Metric) :
    (ms.foldl bump t).value m = t.value m + ms.count m := by
  induction ms generalizing t with
  | nil => rfl
  | cons m' ms ih =>
    have hcons : (m' :: ms).count m = [m'].count m + ms.count m :=
      (List.count_append : ([m'] ++ ms).count m = _)
    rw [List.foldl_cons, ih, value_bump]
    omega

/-- All that was counted under a name, whatever the label. -/
def sumOf (t : Metrics) (name : String) : Nat :=
  ((t.rows.filter fun row => row.1 = name).map fun row => row.2.2).sum

/-- The sum is one over the entries, in any order. -/
theorem sumOf_eq (t : Metrics) (name : String) :
    t.sumOf name = ((t.filter fun e => e.1.name = name).map Prod.snd).sum := by
  have hperm := ((Order.sort_perm (fun a b : Metric × Nat => a.1.precedes b.1) t).filter
    fun e => decide (e.1.name = name)).map Prod.snd
  rw [sumOf, rows, List.filter_map, List.map_map, ← hperm.sum_nat]
  rfl

theorem sumOf_bump (t : Metrics) (m : Metric) (name : String) :
    (t.bump m).sumOf name = t.sumOf name + [m].countP (·.name = name) := by
  rw [sumOf_eq, sumOf_eq]
  induction t with
  | nil =>
    by_cases hname : m.name = name <;> simp [bump, value, Table.get?, Table.put, hname]
  | cons e rest ih =>
    obtain ⟨k, n⟩ := e
    by_cases hk : k = m
    · -- the entry of this metric goes up by one
      subst hk
      have hput : bump ((k, n) :: rest) k = (k, n + 1) :: rest := by
        simp [bump, value, Table.get?, Table.put]
      rw [hput]
      by_cases hname : k.name = name <;> simp [hname]; omega
    · have hput : bump ((k, n) :: rest) m = (k, n) :: bump rest m := by
        simp [bump, value, Table.get?, Table.put, hk]
      rw [hput, List.filter_cons, List.filter_cons]
      split
      · rw [List.map_cons, List.map_cons, List.sum_cons, List.sum_cons, ih]
        omega
      · exact ih

theorem sumOf_foldl_bump (t : Metrics) (ms : List Metric) (name : String) :
    (ms.foldl bump t).sumOf name = t.sumOf name + ms.countP (·.name = name) := by
  induction ms generalizing t with
  | nil => rfl
  | cons m ms ih =>
    have hcons : (m :: ms).countP (·.name = name) = [m].countP (·.name = name) +
        ms.countP (·.name = name) :=
      (List.countP_append : ([m] ++ ms).countP _ = _)
    rw [List.foldl_cons, ih, sumOf_bump]
    omega

end Metrics

/-- What becomes of a caller, from how the counting of its call has ended. -/
def Decision.ofOutcome : Except Fault Verdict → Decision
  | .ok v => v.decision
  | .error _ => .degraded

/-- An attempt to have a call counted that has ended: which one it was, and the answer or the fault
that it ended with. -/
structure Attempt where
  task : TaskId
  evaluation : Evaluation
  number : Nat
  reply : Reply

namespace Limiter

variable {σ ε : Type} {B : Backend σ} {s s' u : Limiter σ} {t : TaskId}

/-- The attempt that a move ends: the command of a task that steps has been answered or has taken
too long. -/
def attempt? (W : Surroundings σ ε) (s : Limiter σ) : Move ε → Option Attempt
  | .step t =>
    match s.stage? t with
    | some (.evaluating e number _ call) =>
      match s.progress call with
      | .pending => none
      | .late => some ⟨t, e, number, .error .commandTimeout⟩
      | .ripe => some ⟨t, e, number, (s.finishCall W.backend t call).2⟩
    | _ => none
  | _ => none

/-- The decision that a move comes to: the task that counts the call for a task that steps is
over. -/
def decided? (s : Limiter σ) : Move ε → Option Decided
  | .step t =>
    match s.stage? t with
    | some (.awaiting c child) =>
      if s.isOver child then
        some ⟨t, child, c.service, .ofOutcome (verdictOf child (s.lastOutcome? child))⟩
      else none
    | _ => none
  | _ => none

/-- The metrics that a move counts. -/
def metered (W : Surroundings σ ε) (s : Limiter σ) (m : Move ε) : List Metric :=
  ((s.attempt? W m).toList.flatMap fun _ => [.commands, .durations]) ++
    (s.decided? m).toList.map Decided.metric

/-- Of each sort of metric a move counts what its attempt and its decision count. -/
theorem countP_metered (W : Surroundings σ ε) (s : Limiter σ) (m : Move ε) (p : Metric → Bool) :
    (s.metered W m).countP p =
      (s.attempt? W m).toList.length * [Metric.commands, .durations].countP p +
        (s.decided? m).toList.countP fun d => p d.metric := by
  rw [metered, List.countP_append, List.countP_map]
  cases s.attempt? W m with
  | none => simp [Function.comp_def]
  | some a => simp [Function.comp_def]

/-- Whoever decides has waited for a task that is over by then. -/
theorem eq_of_decided? {m : Move ε} {d : Decided} (h : s.decided? m = some d) :
    ∃ t c child, m = .step t ∧ s.stage? t = some (.awaiting c child) ∧ s.isOver child = true ∧
      d = ⟨t, child, c.service, .ofOutcome (verdictOf child (s.lastOutcome? child))⟩ := by
  cases m with
  | step t =>
    simp only [decided?] at h
    split at h
    · rename_i c child hs
      split at h
      · cases h
        exact ⟨t, c, child, rfl, hs, ‹_›, rfl⟩
      · cases h
    · cases h
  | _ => cases h

/-! ## What does not touch the metrics -/

@[simp]
theorem metrics_employ (s : Limiter σ) (t : TaskId) (goal : Goal) (l : Lease) :
    (s.employ B t goal l).metrics = s.metrics := by
  cases goal with
  | keep name => cases hold : Table.get? s.held name <;> simp [employ, hold]
  | borrow holdMs broken => rfl
  | evaluate e attempt => simp [employ]
  | verify => simp [employ]

@[simp]
theorem metrics_choose (s : Limiter σ) (t : TaskId) (goal : Goal) :
    (s.choose B t goal).metrics = s.metrics := by
  cases front : s.pool.idle with
  | nil => simp [choose, front, openFor]
  | cons i rest =>
    simp only [choose, front]
    split <;> simp

@[simp]
theorem metrics_want (s : Limiter σ) (t : TaskId) (goal : Goal) :
    (s.want B t goal).metrics = s.metrics := by
  unfold want
  split
  · simp
  · split
    · simp
    · simp only
      split
      · simp [setTimer, setTimerTo]
      · rfl

@[simp]
theorem metrics_evict (s : Limiter σ) (t : TaskId) (goal : Goal) :
    (s.evict B t goal).metrics = s.metrics :=
  metrics_choose ..

@[simp]
theorem metrics_openFailed (s : Limiter σ) (t : TaskId) (f : Fault) :
    (s.openFailed t f).metrics = s.metrics := by
  simp [openFailed, raise, emitAll]

@[simp]
theorem metrics_openDone (s : Limiter σ) (t : TaskId) (goal : Goal) (conn : ConnId) :
    (s.openDone B t goal conn).metrics = s.metrics := by
  simp [openDone, clear, emitAll]

@[simp]
theorem metrics_verified (s : Limiter σ) (t : TaskId) (l : Lease) (reply : Reply) :
    (s.verified t l reply).metrics = s.metrics := by
  cases reply <;> simp [verified]

@[simp]
theorem metrics_sweepOn (s : Limiter σ) (t : TaskId) (sweep : Sweep) :
    (s.sweepOn B t sweep).metrics = s.metrics := by
  have ended : (s.endSweep t sweep).metrics = s.metrics := by
    unfold endSweep
    split <;> rfl
  cases front : s.pool.idle with
  | nil => simp [sweepOn, front, ended]
  | cons i rest =>
    simp only [sweepOn, front]
    split
    · exact ended
    · simp

@[simp]
theorem metrics_swept (s : Limiter σ) (t : TaskId) (sweep : Sweep) (call : Call)
    (answered : Bool) : (s.swept B t sweep call answered).metrics = s.metrics := by
  cases answered <;> simp [swept]

@[simp]
theorem metrics_beginSweep (s : Limiter σ) (t : TaskId) (deadline : Time) :
    (s.beginSweep B t deadline).metrics = s.metrics := by
  unfold beginSweep
  split
  · simp [emit]
  · simp

theorem metrics_charge (s : Limiter σ) (t : TaskId) (c : Charge) (limit : Limit) :
    (s.charge t c limit).metrics = s.metrics := by
  simp [charge]

@[simp]
theorem metrics_begin (s : Limiter σ) (t : TaskId) (job : Job) :
    (s.begin B t job).metrics = s.metrics := by
  cases charged : job.charge? with
  | some charge => rw [begin_of_charge? charged, metrics_charge]
  | none =>
    cases job with
    | check identity service numbers =>
      cases numbers with
      | none => cases charged
      | some n =>
        simp only [begin]
        split <;> simp [metrics_charge]
    | serve site r =>
      cases site with
      | error e => simp [begin]
      | ok site =>
        simp only [begin]
        split <;> simp [metrics_charge]
    | guard =>
      simp only [begin]
      split
      · rfl
      · simp
    | sleep ms => rfl
    | _ => simp [begin]

@[simp]
theorem metrics_reclaim (s : Limiter σ) (t : TaskId) (stage : Stage) :
    (s.reclaim t stage).metrics = s.metrics := by
  cases stage <;> simp [reclaim]

theorem metrics_cancel (s : Limiter σ) (t : TaskId) : (s.cancel t).metrics = s.metrics := by
  unfold cancel
  split
  · rfl
  · split
    · rfl
    · simp

/-! ## What does -/

/-- An attempt that ends is counted, and so is its duration; whatever the answer leads to is not. -/
theorem metrics_counted (s : Limiter σ) (t : TaskId) (e : Evaluation) (attempt : Nat) (l : Lease)
    (reply : Reply) : (s.counted B t e attempt l reply).metrics =
      (s.metrics.bump .commands).bump .durations := by
  cases reply with
  | ok ms => simp [counted, tally, emit]
  | error f =>
    simp only [counted]
    split <;> simp [tally, emit]

theorem decision_decideOn_eq (s : Limiter σ) (t child : TaskId) (c : Charge)
    (outcome : Except Fault Verdict) :
    (s.decideOn t child c outcome).2 = .ofOutcome outcome := by
  cases outcome with
  | ok v => exact decision_decideOn_ok ..
  | error f => rfl

/-- An answer to a request changes no metric by itself. -/
theorem metrics_finishCall (s : Limiter σ) (t : TaskId) (call : Call) :
    (s.finishCall B t call).1.metrics = s.metrics := rfl

theorem metrics_of_finishCall {call : Call} {reply : Reply}
    (hr : s.finishCall B t call = (u, reply)) : u.metrics = s.metrics := by
  rw [← metrics_finishCall s t call, hr]

section

variable {goal : Goal} {call : Call}

theorem metrics_of_probing (hs : s.stage? t = some (.probing goal call))
    (step : s.step? B t = some s') : s'.metrics = s.metrics := by
  simp only [step?, hs] at step
  split at step
  · cases step
  · cases step
    exact metrics_evict ..
  · split at step
    · cases step
      rw [metrics_employ, metrics_of_finishCall ‹_›]
    · cases step
      rw [metrics_evict, metrics_of_finishCall ‹_›]

theorem metrics_of_opening (hs : s.stage? t = some (.opening goal call))
    (step : s.step? B t = some s') : s'.metrics = s.metrics := by
  simp only [step?, hs] at step
  split at step
  · cases step
  · cases step
    exact metrics_openFailed ..
  · split at step
    · cases step
      rw [metrics_openDone, metrics_of_finishCall ‹_›]
    · cases step
      rw [metrics_openFailed, metrics_of_finishCall ‹_›]

theorem metrics_of_verifying {lease : Lease} (hs : s.stage? t = some (.verifying lease call))
    (step : s.step? B t = some s') : s'.metrics = s.metrics := by
  simp only [step?, hs] at step
  split at step
  · cases step
  · cases step
    exact metrics_verified ..
  · cases step
    rw [metrics_verified, metrics_finishCall]

theorem metrics_of_sweeping {sweep : Sweep} (hs : s.stage? t = some (.sweeping sweep call))
    (step : s.step? B t = some s') : s'.metrics = s.metrics := by
  simp only [step?, hs] at step
  split at step
  · cases step
  · cases step
    exact metrics_swept ..
  · split at step
    · cases step
      rw [metrics_swept, metrics_of_finishCall ‹_›]
    · cases step
      rw [metrics_swept, metrics_of_finishCall ‹_›]

theorem metrics_of_calling (hs : s.stage? t = some (.calling call))
    (step : s.step? B t = some s') : s'.metrics = s.metrics := by
  simp only [step?, hs] at step
  split at step
  · cases step
    simp [metrics_finishCall]
  · cases step

/-- An attempt that ends in a step is counted, and so is its duration. -/
theorem metrics_of_evaluating {W : Surroundings σ ε} {e : Evaluation} {number : Nat}
    {lease : Lease} (hs : s.stage? t = some (.evaluating e number lease call))
    (step : s.step? W.backend t = some s') :
    s'.metrics = (s.metered W (.step t)).foldl Metrics.bump s.metrics := by
  simp only [metered, attempt?, decided?, hs]
  cases hp : s.progress call with
  | pending => simp [step?, hs, hp] at step
  | late =>
    simp only [step?, hs, hp] at step
    cases step
    exact metrics_counted ..
  | ripe =>
    simp only [step?, hs, hp] at step
    cases step
    rw [metrics_counted, metrics_finishCall]
    rfl

/-- A decision that is made in a step is counted for its service. -/
theorem metrics_of_awaiting {W : Surroundings σ ε} {c : Charge} {child : TaskId}
    (hs : s.stage? t = some (.awaiting c child)) (step : s.step? W.backend t = some s') :
    s'.metrics = (s.metered W (.step t)).foldl Metrics.bump s.metrics := by
  obtain ⟨ended, rfl⟩ := step?_of_awaiting hs step
  simp only [metered, attempt?, decided?, hs, if_pos ended]
  simp [decision_decideOn_eq, Decided.metric]

end

/-- At the other stages nothing is counted. -/
theorem metrics_of_other {stage : Stage} (hs : s.stage? t = some stage)
    (idle : stage.isAwaiting = false) (free : ∀ e number lease call,
      stage ≠ .evaluating e number lease call)
    (step : s.step? B t = some s') : s'.metrics = s.metrics := by
  cases stage with
  | evaluating e number lease call => exact absurd rfl (free e number lease call)
  | awaiting c child => cases idle
  | probing goal call => exact metrics_of_probing hs step
  | opening goal call => exact metrics_of_opening hs step
  | verifying lease call => exact metrics_of_verifying hs step
  | sweeping sweep call => exact metrics_of_sweeping hs step
  | calling call => exact metrics_of_calling hs step
  | fresh job =>
    simp only [step?, hs] at step
    cases step
    exact metrics_begin ..
  | queued goal expiry =>
    simp only [step?, hs] at step
    split at step
    · cases step
      simp
    · split at step
      · cases step
        simp
      · cases step
  | granted goal =>
    simp only [step?, hs] at step
    split at step
    · cases step
      simp
    · cases step
      exact metrics_choose ..
  | holding lease broken since timer =>
    simp only [step?, hs] at step
    split at step
    · cases step
      simp
    · cases step
  | joining task =>
    simp only [step?, hs] at step
    split at step
    · cases step
      simp
    · cases step
  | sleeping timer =>
    simp only [step?, hs] at step
    split at step
    · cases step
      simp
    · cases step
  | resting deadline timer =>
    simp only [step?, hs] at step
    split at step
    · cases step
      exact metrics_beginSweep ..
    · cases step
  | done time => simp [step?, hs] at step
  | cancelled => simp [step?, hs] at step

/-- What a step adds to the metrics is told by the stage at which the task was. -/
theorem metrics_step? {W : Surroundings σ ε} (step : s.step? W.backend t = some s') :
    s'.metrics = (s.metered W (.step t)).foldl Metrics.bump s.metrics := by
  cases hs : s.stage? t with
  | none => simp [step?, hs] at step
  | some stage =>
    cases stage with
    | evaluating e number lease call => exact metrics_of_evaluating hs step
    | awaiting c child => exact metrics_of_awaiting hs step
    | _ =>
      have same : s'.metrics = s.metrics :=
        metrics_of_other hs rfl (by intro e number lease call h; cases h) step
      simpa [metered, attempt?, decided?, hs] using same

/-- A task that cannot go on ends no attempt and comes to no decision. -/
theorem metered_of_blocked {W : Surroundings σ ε} (blocked : s.step? W.backend t = none) :
    s.metered W (.step t) = [] := by
  cases hs : s.stage? t with
  | none => simp [metered, attempt?, decided?, hs]
  | some stage =>
    cases stage with
    | evaluating e number lease call =>
      cases hp : s.progress call with
      | pending => simp [metered, attempt?, decided?, hs, hp]
      | late => simp [step?, hs, hp] at blocked
      | ripe => simp [step?, hs, hp] at blocked
    | awaiting c child =>
      cases ended : s.isOver child with
      | true => simp [step?, hs, ended] at blocked
      | false => simp [metered, attempt?, decided?, hs, ended]
    | _ => simp [metered, attempt?, decided?, hs]

/-- A move counts the attempt that it ends and the decision that it comes to, and nothing else. -/
theorem metrics_move (W : Surroundings σ ε) (s : Limiter σ) (m : Move ε) :
    (s.move W m).metrics = (s.metered W m).foldl Metrics.bump s.metrics := by
  cases m with
  | step t =>
    cases hs : s.step? W.backend t with
    | none =>
      rw [metered_of_blocked hs]
      simp only [move, hs]
      rfl
    | some s' =>
      simp only [move, hs]
      exact metrics_step? hs
  | start jobs => simp [move, metered, attempt?, decided?]
  | cancel t => exact metrics_cancel ..
  | close => simp [move, close, metered, attempt?, decided?]
  | release name =>
    simp only [move]
    split
    · simp [metered, attempt?, decided?]
    · rfl
  | _ => rfl

end Limiter

end Turnstile
