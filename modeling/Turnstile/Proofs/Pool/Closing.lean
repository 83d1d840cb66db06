import Turnstile.Proofs.Pool.Shut
import Turnstile.Proofs.Runs.Conclusions

/-!
# Closing is final

What the closing of a pool comes to for everybody: for acquires that begin after it, for those who
stood in the line, for checks, for sweeps and for the health checker. `Final` lists it, and
`close_final` says that all of it holds in every run after the closing.
-/

namespace Turnstile

namespace Limiter

variable {σ ε : Type} {W : Surroundings σ ε} {B : Backend σ} {s s' : Limiter σ} {t u : TaskId}

/-! ## Acquires -/

/-- The command that the task waits for has taken too long, or the store says so. -/
def TimesOut (B : Backend σ) (s : Limiter σ) (t : TaskId) (call : Call) : Prop :=
  s.progress call = .late ∨
    s.progress call = .ripe ∧ ∃ f, (s.finishCall B t call).2 = .error f ∧ f.isTimeout = true

/-- The task asks for a permit in its next step: its job begins with that, or it is going to try
again to count a call. -/
inductive Asks (B : Backend σ) (s : Limiter σ) (t : TaskId) : Prop where
  | begins (goal : Goal) (hs : s.stage? t = some (.fresh goal.job))
  | again {e : Evaluation} {attempt : Nat} {lease : Lease} {call : Call}
    (hs : s.stage? t = some (.evaluating e attempt lease call)) (timedOut : s.TimesOut B t call)
    (left : attempt < s.settings.attempts)

/-- Whoever asks a closed pool for a permit learns so in the same step. -/
theorem step?_of_asks (shut : Shut s) (asks : s.Asks B t) : ∃ s', s.step? B t = some s' ∧
    s'.clock = s.clock ∧ s'.outcomes t = s.outcomes t ++ [.error (.fault .poolClosed)] := by
  obtain ⟨s', step, houtcomes⟩ : ∃ s', s.step? B t = some s' ∧
      s'.outcomes t = s.outcomes t ++ [.error (.fault .poolClosed)] := by
    cases asks with
    | begins goal hs =>
      have hbegin : s.begin B t goal.job = s.fail t .poolClosed := by
        cases goal <;> exact want_of_closed shut.closed _
      refine ⟨s.fail t .poolClosed, by simp only [step?, hs, hbegin], ?_⟩
      exact outcomes_settle (mem_keys_of_stage? hs) _
    | @again e attempt lease call hs timedOut left =>
      have ht := mem_keys_of_stage? hs
      rcases timedOut with late | ⟨ripe, f, hf, timeout⟩
      · refine ⟨s.counted B t e attempt lease (.error .commandTimeout),
          by simp only [step?, hs, late], ?_⟩
        exact outcomes_counted_of_closed shut.closed ht e lease rfl left
      · refine ⟨(s.finishCall B t call).1.counted B t e attempt lease (.error f),
          by simp only [step?, hs, ripe, hf], ?_⟩
        exact outcomes_counted_of_closed (s := (s.finishCall B t call).1) shut.closed ht e lease
          timeout left
  exact ⟨s', step, clock_of_step? shut.tidy step, houtcomes⟩

/-! ## Who stood in the line -/

/-- What becomes of a task that stands in the line when the pool is closed, with these outcomes: it
can go on at any time, to learn that the pool is closed, unless it is cancelled before. -/
inductive Dismissed (B : Backend σ) (t : TaskId) (past : List Outcome) (s : Limiter σ) : Prop where
  | waits (goal : Goal) (expiry : Timer) (hs : s.stage? t = some (.queued goal expiry))
    (outcomes : s.outcomes t = past) (next : s.step? B t = some (s.fail t .poolClosed))
  | cancelled (hs : s.stage? t = some .cancelled) (outcomes : s.outcomes t = past)
  | told (outcomes : past ++ [.error (.fault .poolClosed)] <+: s.outcomes t)

theorem dismissed_of_queued (shut : Shut s) {goal : Goal} {expiry : Timer}
    (hs : s.stage? t = some (.queued goal expiry)) : Dismissed B t (s.outcomes t) s :=
  .waits goal expiry hs rfl (by simp [step?, hs, shut.closed])

theorem Dismissed.move {past : List Outcome} (shut : Shut s)
    (h : Dismissed W.backend t past s) (m : Move ε) :
    Dismissed W.backend t past (s.move W m) := by
  have shut' : Shut (s.move W m) := (Shut.invariant W).move shut m
  cases h with
  | told outcomes => exact .told (outcomes.trans (outcomes_prefix_move shut.tidy m))
  | cancelled hs outcomes =>
    obtain ⟨task, hget, hstage⟩ := Option.map_eq_some_iff.mp hs
    have hover : task.stage.isOver = true := by rw [hstage]; rfl
    have hsame := get?_move_of_over (W := W) shut hget hover m
    refine .cancelled ((stage?_of_get? hsame).trans (congrArg some hstage)) ?_
    rw [outcomes_of_get? hsame, ← outcomes_of_get? hget, outcomes]
  | waits goal expiry hs outcomes next =>
    obtain ⟨task, hget, hstage⟩ := Option.map_eq_some_iff.mp hs
    rcases get?_move_of_shut (W := W) shut (mem_keys_of_stage? hs) m with hsame | rfl | rfl
    · have hs' : (s.move W m).stage? t = some (.queued goal expiry) := by
        rw [stage?, hsame]
        exact hs
      have houtcomes : (s.move W m).outcomes t = past := by
        rw [Limiter.outcomes, hsame]
        exact outcomes
      exact houtcomes ▸ dismissed_of_queued shut' hs'
    · simp only [Limiter.move, next, Option.getD_some]
      exact .told (outcomes ▸ outcomes_settle (mem_keys_of_stage? hs) _ ▸ List.prefix_refl _)
    · have hcancel := get?_cancel_of_shut shut hget (by rw [hstage]; rfl)
      refine .cancelled (stage?_of_get? hcancel) ?_
      rw [Limiter.move, outcomes_of_get? hcancel, ← outcomes_of_get? hget, outcomes]

/-! ## Checks -/

/-- A task that was to count a call, and cannot ask the store for anything. -/
inductive Unserved (e : Evaluation) : Task → Prop
  | fresh : Unserved e ⟨.fresh (.evaluate e), [], []⟩
  | done (time : Time) : Unserved e ⟨.done time, [], [.error (.fault .poolClosed)]⟩
  | cancelled : Unserved e ⟨.cancelled, [], []⟩

theorem step?_of_unserved (shut : Shut s) {e : Evaluation}
    (hget : Table.get? s.tasks t = some ⟨.fresh (.evaluate e), [], []⟩) :
    s.step? B t = some (s.settle t (.error (.fault .poolClosed))) := by
  have hbegin : s.begin B t (.evaluate e) = s.fail t .poolClosed := want_of_closed shut.closed _
  simp only [step?, stage?_of_get? hget, hbegin, fail_eq]

theorem Unserved.move (shut : Shut s) {e : Evaluation} {task : Task}
    (hget : Table.get? s.tasks t = some task) (h : Unserved e task) (m : Move ε) :
    ∃ task, Table.get? (s.move W m).tasks t = some task ∧ Unserved e task := by
  cases h with
  | fresh =>
    have ht := mem_keys_of_stage? (stage?_of_get? hget)
    rcases get?_move_of_shut (W := W) shut ht m with hsame | rfl | rfl
    · exact ⟨_, hsame.trans hget, .fresh⟩
    · have step := step?_of_unserved (B := W.backend) shut hget
      exact ⟨_, by simp [Limiter.move, step, hget, Task.settled], .done s.clock⟩
    · exact ⟨_, get?_cancel_of_shut shut hget rfl, .cancelled⟩
  | done time => exact ⟨_, get?_move_of_over shut hget rfl m, .done time⟩
  | cancelled => exact ⟨_, get?_move_of_over shut hget rfl m, .cancelled⟩

/-- Whatever becomes of it, it brings no verdict. -/
theorem Unserved.verdictOf {e : Evaluation} {task : Task} (h : Unserved e task)
    (hget : Table.get? s.tasks t = some task) (ended : s.isOver t = true) :
    ∃ f, verdictOf t (s.lastOutcome? t) = .error f := by
  have hlast : s.lastOutcome? t = task.outcomes.head? := by simp [lastOutcome?, hget]
  rw [hlast]
  cases h with
  | fresh => simp [isOver, stage?, hget, Stage.isOver] at ended
  | done time => exact ⟨.poolClosed, rfl⟩
  | cancelled => exact ⟨_, rfl⟩

/-- A check has ended after these outcomes: the call passes, and that is recorded as a degraded
decision. -/
structure Passed (t child : TaskId) (c : Charge) (past : List Outcome) (s : Limiter σ) : Prop where
  told : ∃ u : Limiter σ, past ++ [.ok (u.tell c .degraded)] <+: s.outcomes t
  decided : .decided t child c.service .degraded ∈ s.journal

theorem Passed.move {child : TaskId} {c : Charge} {past : List Outcome} (tidy : Tidy s)
    (h : Passed t child c past s) (m : Move ε) : Passed t child c past (s.move W m) where
  told := by
    obtain ⟨u, told⟩ := h.told
    exact ⟨u, told.trans (outcomes_prefix_move tidy m)⟩
  decided := by
    obtain ⟨recent, heq⟩ := journal_move W tidy m
    rw [heq]
    exact List.mem_append_right _ h.decided

/-- A check that began after the pool was closed, and the task that was to count its call. -/
structure Unenforced (t child : TaskId) (c : Charge) (e : Evaluation) (past : List Outcome)
    (s : Limiter σ) : Prop where
  apart : t ≠ child
  shut : Shut s
  counting : ∃ task, Table.get? s.tasks child = some task ∧ Unserved e task
  own : (s.stage? t = some (.awaiting c child) ∧ s.outcomes t = past) ∨
    s.stage? t = some .cancelled ∨ Passed t child c past s

namespace Unenforced

variable {child : TaskId} {c : Charge} {e : Evaluation} {past : List Outcome}

/-- A check that has waited for its call to be counted lets it pass. -/
theorem passed (h : Unenforced t child c e past s) (hs : s.stage? t = some (.awaiting c child))
    (outcomes : s.outcomes t = past) (step : s.step? B t = some s') :
    Passed t child c past s' := by
  obtain ⟨task, hget, unserved⟩ := h.counting
  obtain ⟨ended, rfl⟩ := step?_of_awaiting hs step
  obtain ⟨f, hf⟩ := unserved.verdictOf hget ended
  rw [hf]
  have ht : t ∈ Table.keys (s.decideOn t child c (.error f)).1.tasks := by
    simpa using mem_keys_of_stage? hs
  refine ⟨⟨(s.decideOn t child c (.error f)).1, ?_⟩, ?_⟩
  · have houtcomes : (s.decideOn t child c (.error f)).1.outcomes t = past := by
      simpa [Limiter.outcomes] using outcomes
    rw [outcomes_settle ht, houtcomes]
    exact List.prefix_refl _
  · simp [decideOn, record, emit]

theorem move (h : Unenforced t child c e past s) (m : Move ε) :
    Unenforced t child c e past (s.move W m) where
  apart := h.apart
  shut := (Shut.invariant W).move h.shut m
  counting := by
    obtain ⟨task, hget, unserved⟩ := h.counting
    exact unserved.move h.shut hget m
  own := by
    rcases h.own with ⟨hs, outcomes⟩ | hs | passed
    · obtain ⟨task, hget, hstage⟩ := Option.map_eq_some_iff.mp hs
      rcases get?_move_of_shut (W := W) h.shut (mem_keys_of_stage? hs) m with hsame | rfl | rfl
      · refine .inl ⟨?_, ?_⟩
        · rw [stage?, hsame]
          exact hs
        · rw [Limiter.outcomes, hsame]
          exact outcomes
      · cases step : s.step? W.backend t with
        | none =>
          simp only [Limiter.move, step, Option.getD_none]
          exact .inl ⟨hs, outcomes⟩
        | some s' =>
          simp only [Limiter.move, step, Option.getD_some]
          exact .inr (.inr (h.passed hs outcomes step))
      · have hcancel := get?_cancel_of_shut h.shut hget (by rw [hstage]; rfl)
        exact .inr (.inl (stage?_of_get? hcancel))
    · obtain ⟨task, hget, hstage⟩ := Option.map_eq_some_iff.mp hs
      have hsame := get?_move_of_over (W := W) h.shut hget (by rw [hstage]; rfl) m
      exact .inr (.inl ((stage?_of_get? hsame).trans (congrArg some hstage)))
    · exact .inr (.inr (passed.move h.shut.tidy m))

theorem run (h : Unenforced t child c e past s) (moves : List (Move ε)) :
    Unenforced t child c e past (s.run W moves) :=
  run_induction (P := Unenforced t child c e past) (fun _ m hs => hs.move m) h moves

/-- The first step of such a check. -/
theorem of_charge (shut : Shut s) {job : Job} {limit : Limit} (hs : s.stage? t = some (.fresh job))
    (charged : job.charge? = some (c, limit)) :
    Unenforced t s.nextTask c (c.evaluation limit) (s.outcomes t) (s.move W (.step t)) := by
  have hne : t ≠ s.nextTask := by
    rintro rfl
    exact shut.tidy.nextTask_not_mem (mem_keys_of_stage? hs)
  have hmove : s.move W (.step t) = s.charge t c limit := by
    simp only [Limiter.move, step?, hs, Option.getD_some]
    exact begin_of_charge? charged
  obtain ⟨task, hget, -⟩ := Option.map_eq_some_iff.mp hs
  have hself := get?_charge_self hne hget c limit
  refine ⟨hne, (Shut.invariant W).move shut _, ?_, .inl ⟨?_, ?_⟩⟩
  · exact ⟨_, hmove ▸ get?_charge_child hne c limit, .fresh⟩
  · rw [hmove]
    exact stage?_of_get? hself
  · rw [hmove, outcomes_of_get? hself, outcomes_of_get? hget]

/-- The task that was to count the call asks the store for nothing. -/
theorem unasked (h : Unenforced t child c e past s) :
    (s.move W (.step child)).backend = s.backend := by
  obtain ⟨task, hget, unserved⟩ := h.counting
  cases unserved with
  | fresh =>
    simp [Limiter.move, step?_of_unserved h.shut hget]
  | done time =>
    simp [Limiter.move, step?_of_over (stage?_of_get? hget) rfl]
  | cancelled =>
    simp [Limiter.move, step?_of_over (stage?_of_get? hget) rfl]

/-- It is over after one step. -/
theorem ended (h : Unenforced t child c e past s) :
    (s.move W (.step child)).isOver child = true := by
  obtain ⟨task, hget, unserved⟩ := h.counting
  cases unserved with
  | fresh =>
    have step := step?_of_unserved (B := W.backend) h.shut hget
    simp [Limiter.move, step, isOver, stage?, hget, Task.settled, Stage.isOver]
  | done time =>
    have hsame := get?_move_of_over (W := W) h.shut hget rfl (.step child)
    simp [isOver, stage?, hsame, Stage.isOver]
  | cancelled =>
    have hsame := get?_move_of_over (W := W) h.shut hget rfl (.step child)
    simp [isOver, stage?, hsame, Stage.isOver]

/-- After a step of the task that was to count the call, a step of the check ends it, and neither
asks the store for anything. -/
theorem ends (h : Unenforced t child c e past s)
    (hs : s.stage? t = some (.awaiting c child)) (outcomes : s.outcomes t = past) :
    Passed t child c past ((s.move W (.step child)).move W (.step t)) ∧
      ((s.move W (.step child)).move W (.step t)).backend = s.backend := by
  have h' : Unenforced t child c e past (s.move W (.step child)) := h.move _
  have hsame : Table.get? (s.move W (.step child)).tasks t = Table.get? s.tasks t := by
    rcases get?_move_of_shut (W := W) h.shut (mem_keys_of_stage? hs) (.step child) with
      hsame | heq | heq
    · exact hsame
    · exact absurd (Move.step.inj heq).symm h.apart
    · cases heq
  have hs' : (s.move W (.step child)).stage? t = some (.awaiting c child) := by
    rw [stage?, hsame]
    exact hs
  have houtcomes : (s.move W (.step child)).outcomes t = past := by
    rw [Limiter.outcomes, hsame]
    exact outcomes
  cases step : (s.move W (.step child)).step? W.backend t with
  | none => simp [step?, hs', h.ended] at step
  | some s' =>
    have hmove : (s.move W (.step child)).move W (.step t) = s' := by
      rw [Limiter.move, step, Option.getD_some]
    rw [hmove]
    refine ⟨h'.passed hs' houtcomes step, ?_⟩
    obtain ⟨-, rfl⟩ := step?_of_awaiting hs' step
    simpa using h.unasked

end Unenforced

/-- What has become of a check that began in a closed pool, and of the task that was to count its
call. -/
structure Degrades (W : Surroundings σ ε) (t child : TaskId) (c : Charge) (e : Evaluation)
    (past : List Outcome) (s : Limiter σ) : Prop where
  counting : ∃ task, Table.get? s.tasks child = some task ∧ Unserved e task
  /-- The check was cancelled, or it has ended, or two steps end it. -/
  own : s.stage? t = some .cancelled ∨ Passed t child c past s ∨
    s.stage? t = some (.awaiting c child) ∧
      Passed t child c past ((s.move W (.step child)).move W (.step t)) ∧
      ((s.move W (.step child)).move W (.step t)).backend = s.backend

theorem Unenforced.degrades {child : TaskId} {c : Charge} {e : Evaluation} {past : List Outcome}
    (h : Unenforced t child c e past s) : Degrades W t child c e past s where
  counting := h.counting
  own := by
    rcases h.own with ⟨hs, outcomes⟩ | hs | passed
    · exact .inr (.inr ⟨hs, h.ends hs outcomes⟩)
    · exact .inl hs
    · exact .inr (.inl passed)

/-- A check that begins in a closed pool asks the store for nothing when it begins. -/
theorem backend_of_charge {job : Job} {c : Charge} {limit : Limit}
    (hs : s.stage? t = some (.fresh job)) (charged : job.charge? = some (c, limit)) :
    (s.move W (.step t)).backend = s.backend := by
  have hmove : s.move W (.step t) = s.charge t c limit := by
    simp only [Limiter.move, step?, hs, Option.getD_some]
    exact begin_of_charge? charged
  simp [hmove, charge_eq]

/-! ## Sweeps -/

/-- A task that is getting a connection does not come to sweep. -/
theorem Halts.stage?_ne_sweeping {goal : Goal} (halts : Halts t goal.job s s') (sweep : Sweep)
    (call : Call) : s'.stage? t ≠ some (.sweeping sweep call) := by
  intro hs
  have ht := mem_keys_of_stage? hs
  cases halts with
  | @parks u before stage serves alone =>
    rw [keys_setStage] at ht
    rw [stage?_setStage_self ht] at hs
    cases hs
    cases goal <;> cases serves
  | @settles u before outcome yields silent =>
    have hhand : (u.settle t outcome).hand t = .probe call.conn := hand_of_stage? hs
    simp at hhand

/-- The pool is closed, and whoever has a connection in hand to sweep had it in the state `s`. -/
structure Swept (s s' : Limiter σ) : Prop where
  shut : Shut s'
  sweeping : ∀ {t sweep call}, s'.stage? t = some (.sweeping sweep call) →
    s.stage? t = some (.sweeping sweep call)

/-- In a closed pool nobody comes to have a connection in hand to sweep. -/
theorem stage?_of_sweeping_move (shut : Shut s) (m : Move ε) {sweep : Sweep} {call : Call}
    (hs : (s.move W m).stage? t = some (.sweeping sweep call)) :
    s.stage? t = some (.sweeping sweep call) := by
  have hhand : (s.move W m).hand t = .probe call.conn := hand_of_stage? hs
  cases hget : Table.get? s.tasks t with
  | none =>
    -- whoever is no task has nothing in hand, and gets nothing
    have empty : EmptyHanded t s := ⟨shut, hand_of_none (by simp [stage?, hget])⟩
    rw [((EmptyHanded.invariant W t).move empty m).empty] at hhand
    cases hhand
  | some task =>
    have hold : s.stage? t = some task.stage := stage?_of_get? hget
    rcases get?_move_of_shut (W := W) shut (mem_keys_of_stage? hold) m with hsame | rfl | rfl
    · rw [stage?, ← hsame]
      exact hs
    · cases step : s.step? W.backend t with
      | none => simpa [Limiter.move, step] using hs
      | some s' =>
        simp only [Limiter.move, step, Option.getD_some] at hs hhand
        have proper := shut.tidy.proper t task.stage hold
        rcases hand_of_step?_of_shut shut hold step with hempty | ⟨goal, call', hstage | hstage⟩
        · rw [hempty] at hhand
          cases hhand
        · rw [hstage] at hold proper
          exact absurd hs ((halts_of_probing hold proper step).stage?_ne_sweeping sweep call)
        · rw [hstage] at hold proper
          exact absurd hs ((halts_of_opening hold proper step).stage?_ne_sweeping sweep call)
    · cases ended : task.stage.isOver with
      | true => simpa [Limiter.move, cancel_of_isOver hold ended] using hs
      | false =>
        have hcancel := get?_cancel_of_shut shut hget ended
        rw [Limiter.move, stage?_of_get? hcancel] at hs
        cases hs

theorem Swept.run (shut : Shut s) (moves : List (Move ε)) : Swept s (s.run W moves) :=
  run_induction (P := Swept s)
    (fun _ m h => ⟨(Shut.invariant W).move h.shut m,
      fun hs => h.sweeping (stage?_of_sweeping_move h.shut m hs)⟩)
    ⟨shut, id⟩ moves

/-- A sweep that falls due in a closed pool ends the health checker. -/
theorem step?_of_resting (shut : Shut s) {deadline : Time} {timer : Timer}
    (hs : s.stage? t = some (.resting deadline timer)) (rung : s.rung timer = true) :
    ∃ s', s.step? B t = some s' ∧ s'.outcomes t = s.outcomes t ++ [.ok .done] ∧
      s'.journal = .checkerStopped :: s.journal := by
  have ht := mem_keys_of_stage? hs
  refine ⟨(s.emit .checkerStopped).settle t (.ok .done), ?_, ?_, ?_⟩
  · simp [step?, hs, rung, beginSweep, shut.closed]
  · exact outcomes_settle (s := s.emit .checkerStopped) ht _
  · simp [emit]

/-! ## The line -/

theorem mem_ready_wake {v : TaskId} (h : u ∈ s.ready ∨ u = v) : u ∈ (s.wake v).ready := by
  unfold wake
  split
  · rename_i hv
    rcases h with h | rfl
    · exact h
    · exact hv
  · rcases h with h | rfl
    · exact List.mem_append_left _ h
    · exact List.mem_append_right _ (List.mem_singleton_self _)

theorem mem_ready_wakeAll {ts : List TaskId} (h : u ∈ s.ready ∨ u ∈ ts) :
    u ∈ (s.wakeAll ts).ready := by
  induction ts generalizing s with
  | nil => simpa [wakeAll] using h
  | cons v rest ih =>
    refine ih ?_
    rcases h with h | h
    · exact .inl (mem_ready_wake (.inl h))
    · rcases List.mem_cons.mp h with rfl | h
      · exact .inl (mem_ready_wake (.inr rfl))
      · exact .inr h

/-- Whoever stands in the line of an open pool can go on as soon as the pool is closed. -/
theorem mem_ready_close {capacity : Nat} (balanced : Balanced capacity s)
    (isOpen : s.pool.closed = false) {goal : Goal} {expiry : Timer}
    (hs : s.stage? t = some (.queued goal expiry)) : t ∈ s.close.ready :=
  mem_ready_wakeAll (.inr ((balanced.line isOpen t).mpr (hand_of_stage? hs)))

theorem stage?_close (s : Limiter σ) (t : TaskId) : s.close.stage? t = s.stage? t := by
  simp [stage?, close]

theorem outcomes_close (s : Limiter σ) (t : TaskId) : s.close.outcomes t = s.outcomes t := by
  simp [Limiter.outcomes, close]

theorem dismissed_run (shut : Shut s) {goal : Goal} {expiry : Timer}
    (hs : s.stage? t = some (.queued goal expiry)) (moves : List (Move ε)) :
    Dismissed W.backend t (s.outcomes t) (s.run W moves) := by
  have hrun : Shut (s.run W moves) ∧ Dismissed W.backend t (s.outcomes t) (s.run W moves) :=
    run_induction (P := fun u => Shut u ∧ Dismissed W.backend t (s.outcomes t) u)
      (fun _ m h => ⟨(Shut.invariant W).move h.1 m, h.2.move h.1 m⟩)
      ⟨shut, dismissed_of_queued shut hs⟩ moves
  exact hrun.2

/-! ## All of it -/

/-- What holds in a state `s'` that is reached after the pool was closed in the state `s`. -/
structure Final (W : Surroundings σ ε) (s s' : Limiter σ) : Prop where
  closed : s'.pool.closed = true
  idle : s'.pool.idle = []
  line : s'.pool.line = []
  /-- Whoever asks for a permit is told that the pool is closed, in the same step and at the same
  instant. -/
  asks : ∀ {t}, s'.Asks W.backend t → ∃ s'', s'.step? W.backend t = some s'' ∧
    s''.clock = s'.clock ∧ s''.outcomes t = s'.outcomes t ++ [.error (.fault .poolClosed)]
  /-- Nobody gets anything from the pool but who was getting a connection already. -/
  hands : ∀ {t stage s''}, s'.stage? t = some stage → s'.step? W.backend t = some s'' →
    s''.hand t = .nothing ∨ stage.IsGetting
  /-- Whoever stood in the line could go on at once, and learns that the pool is closed. -/
  queued : ∀ {t goal expiry}, s.stage? t = some (.queued goal expiry) →
    (s.pool.closed = false → t ∈ s.close.ready) ∧ Dismissed W.backend t (s.outcomes t) s'
  /-- A check that begins now lets the call pass, and the store is not asked. -/
  checks : ∀ {t job c limit}, s'.stage? t = some (.fresh job) → job.charge? = some (c, limit) →
    (s'.move W (.step t)).backend = s'.backend ∧ ∀ later : List (Move ε),
      Degrades W t s'.nextTask c (c.evaluation limit) (s'.outcomes t)
        ((s'.move W (.step t)).run W later)
  /-- A sweep has the connection in hand that it had when the pool was closed. -/
  sweeping : ∀ {t sweep call}, s'.stage? t = some (.sweeping sweep call) →
    s.stage? t = some (.sweeping sweep call)
  /-- It does not take another one. -/
  swept : ∀ {t sweep call s''}, s'.stage? t = some (.sweeping sweep call) →
    s'.step? W.backend t = some s'' →
    ∃ deadline timer, s''.stage? t = some (.resting deadline timer)
  /-- When the next sweep is due the health checker ends. -/
  ticks : ∀ {t deadline timer}, s'.stage? t = some (.resting deadline timer) →
    s'.rung timer = true → ∃ s'', s'.step? W.backend t = some s'' ∧
      s''.outcomes t = s'.outcomes t ++ [.ok .done] ∧
      s''.journal = .checkerStopped :: s'.journal

/-- The closing of a pool is final, wherever it falls in a run and whatever follows it. -/
theorem close_final (W : Surroundings σ ε) (backend : σ) (settings : PoolSettings)
    (before after : List (Move ε)) :
    let s := (fresh backend settings).run W before
    Final W s (s.close.run W after) := by
  intro s
  have balanced : Balanced (max 1 settings.maxConnections) s :=
    balanced_run W backend settings before
  have shutClose : Shut s.close := shut_close balanced.tidy
  have hswept : Swept s.close (s.close.run W after) := Swept.run shutClose after
  have shut := hswept.shut
  exact
    { closed := shut.closed
      idle := shut.idle
      line := shut.line
      asks := step?_of_asks shut
      hands := hand_of_step?_of_shut shut
      queued := fun {t goal expiry} hs => by
        have hclose : s.close.stage? t = some (.queued goal expiry) := (stage?_close s t).trans hs
        refine ⟨fun isOpen => mem_ready_close balanced isOpen hs, ?_⟩
        rw [← outcomes_close s t]
        exact dismissed_run shutClose hclose after
      checks := fun hs charged =>
        ⟨backend_of_charge hs charged,
          fun later => ((Unenforced.of_charge shut hs charged).run later).degrades⟩
      sweeping := fun {t _ _} hs => (stage?_close s t).symm.trans (hswept.sweeping hs)
      swept := stage?_of_sweeping_of_shut shut
      ticks := step?_of_resting shut }

end Limiter

end Turnstile
