import Mathlib.Data.List.Infix
import Turnstile.Proofs.Runs.Chronology
import Turnstile.Proofs.Runs.Conclusions
import Turnstile.Proofs.Runs.Prompt

/-!
# A charge over a store that works

Somebody is charged for a check or a request: its task has the call counted by a task of its own,
waits for that one and decides. `Phase` says how far this has come, and how many steps are left at
most. As long as the store works, the pool is open and no other task gets in the way, every step
brings the charge nearer to its end (`Phase.step`), and so does every run (`Phase.run`).

The others are out of the way if they are over, or if they stand still. An `Escort` is a condition
that sees to that all along a run.
-/

namespace Turnstile

/-- Whether the move is a step of one of these tasks, or happens while all tasks stand still: time
passes, the store is changed from outside, or the order of the tasks is. -/
def Move.Within {ε : Type} (steps : TaskId → Prop) : Move ε → Prop
  | .step t => steps t
  | .pass _ | .tend _ | .arrange _ => True
  | _ => False

instance {ε : Type} {steps : TaskId → Prop} [DecidablePred steps] :
    DecidablePred (Move.Within steps : Move ε → Prop)
  | .step t => inferInstanceAs (Decidable (steps t))
  | .pass _ | .tend _ | .arrange _ => .isTrue trivial
  | .start _ | .cancel _ | .close | .release _ | .markBroken _ | .raise _ | .clear => .isFalse id

/-- Who is on the way has a permit. -/
theorem Stage.OnTheWay.permits {stage : Stage} {e : Evaluation} (h : stage.OnTheWay e) :
    stage.hand.permits = 1 := by
  unfold OnTheWay at h
  split at h
  · rfl
  · rfl
  · rfl
  · exact h.elim

namespace Limiter

/-- How many steps tasks take in a run. -/
def stepsIn {σ ε : Type} (W : Surroundings σ ε) (s : Limiter σ) : List (Move ε) → Nat
  | [] => 0
  | m :: rest =>
    (match m with
      | .step t => if (s.step? W.backend t).isSome then 1 else 0
      | _ => 0) + stepsIn W (s.move W m) rest

section

variable {σ ε : Type} {W : Surroundings σ ε} {s s' : Limiter σ} {t : TaskId}

theorem stepsIn_cons (W : Surroundings σ ε) (s : Limiter σ) (m : Move ε) (rest : List (Move ε)) :
    s.stepsIn W (m :: rest) = s.stepsIn W [m] + (s.move W m).stepsIn W rest := rfl

theorem stepsIn_step_of_none (blocked : s.step? W.backend t = none) :
    s.stepsIn W [.step t] = 0 := by
  simp [stepsIn, blocked]

theorem stepsIn_step_of_some (step : s.step? W.backend t = some s') :
    s.stepsIn W [.step t] = 1 := by
  simp [stepsIn, step]

end

section

variable {σ : Type} {B : Backend σ} {s s' : Limiter σ} {t v : TaskId}

/-! ## Nobody closes the pool on the way -/

theorem Act.closed {m m' : Motion σ} (a : Act B t m m') :
    m'.state.pool.closed = m.state.pool.closed := by
  cases a with
  | aside a => cases a <;> rfl
  | start jobs => simp
  | free => simp
  | rest => simp
  | _ => rfl

theorem Leads.closed {m : Motion σ} (path : Leads B t m s') :
    s'.pool.closed = m.state.pool.closed := by
  induction path with
  | act a rest ih => exact ih.trans a.closed
  | park stage proper => rfl
  | settle outcome passed => simp

theorem closed_of_step? (tidy : Tidy s) (step : s.step? B t = some s') :
    s'.pool.closed = s.pool.closed := by
  cases hstage : s.stage? t with
  | none => simp [step?, hstage] at step
  | some stage => exact (leads_of_step? hstage (tidy.proper t stage hstage) step).closed

/-! ## Waiting and deciding -/

theorem step?_of_isOver (ended : s.isOver t = true) : s.step? B t = none := by
  unfold isOver at ended
  cases hs : s.stage? t with
  | none => simp [step?, hs]
  | some stage =>
    rw [hs] at ended
    cases stage with
    | done time => simp [step?, hs]
    | cancelled => simp [step?, hs]
    | _ => cases ended

/-- A task that waits for another one to count a call is not given anything. -/
theorem Spared.get?_awaiting {c : Charge} {child : TaskId} {jobs : List Job}
    {outcomes : List Outcome} (spared : Spared t s s')
    (entry : Table.get? s.tasks t = some ⟨.awaiting c child, jobs, outcomes⟩) :
    Table.get? s'.tasks t = some ⟨.awaiting c child, jobs, outcomes⟩ := by
  obtain ⟨stage, entry', handed⟩ := spared.entry _ entry
  rw [entry']
  cases handed
  rfl

/-- A decision by a verdict of the store takes the flag down. -/
@[simp] theorem flag_decideOn_ok (s : Limiter σ) (t child : TaskId) (c : Charge) (v : Verdict) :
    (s.decideOn t child c (.ok v)).1.flag.up = false := by
  cases v <;> exact Flag.clear_up s.flag

end

variable {s s' w : Limiter Memory} {t v : TaskId} {c : Charge} {limit : Limit}
  {past : List Counted} {n : Nat}

/-! ## Phases -/

/-- How far the charge of a task has come, and how many steps are left at most. -/
inductive Phase (t : TaskId) (c : Charge) (limit : Limit) (past : List Counted) :
    Nat → Limiter Memory → Prop where
  /-- It has not begun. -/
  | asked {s : Limiter Memory} {job : Job} (charged : job.charge? = some (c, limit))
    (entry : Table.get? s.tasks t = some ⟨.fresh job, [], []⟩) (next : s.nextTask = t + 1)
    (free : 0 < s.pool.free) (counts : s.counts = past) :
    Phase t c limit past (s.pool.idle.length + 5) s
  /-- A task is there to have the call counted. -/
  | wanting {s : Limiter Memory}
    (entry : Table.get? s.tasks t = some ⟨.awaiting c (t + 1), [], []⟩)
    (child : Table.get? s.tasks (t + 1) = some ⟨.fresh (.evaluate (c.evaluation limit)), [], []⟩)
    (free : 0 < s.pool.free) (counts : s.counts = past) :
    Phase t c limit past (s.pool.idle.length + 4) s
  /-- This task is on its way. -/
  | trying {s : Limiter Memory} {stage : Stage}
    (entry : Table.get? s.tasks t = some ⟨.awaiting c (t + 1), [], []⟩)
    (child : Table.get? s.tasks (t + 1) = some ⟨stage, [], []⟩)
    (way : stage.OnTheWay (c.evaluation limit)) (counts : s.counts = past) :
    Phase t c limit past (stage.stepsLeft s.pool.idle.length) s
  /-- The call has been counted. -/
  | counted {s : Limiter Memory} {count : Counted} {time : Time}
    (entry : Table.get? s.tasks t = some ⟨.awaiting c (t + 1), [], []⟩)
    (child : Table.get? s.tasks (t + 1) = some ⟨.done time, [], [.ok (.verdict count.verdict)]⟩)
    (own : count.IsFor (t + 1) (c.evaluation limit)) (counts : s.counts = past ++ [count]) :
    Phase t c limit past 1 s
  /-- It has been decided on, and the caller knows. -/
  | concluded {s : Limiter Memory} {count : Counted} {time time' : Time}
    (entry : Table.get? s.tasks t =
      some ⟨.done time, [], [.ok (s.tell c count.verdict.decision)]⟩)
    (child : Table.get? s.tasks (t + 1) = some ⟨.done time', [], [.ok (.verdict count.verdict)]⟩)
    (own : count.IsFor (t + 1) (c.evaluation limit)) (counts : s.counts = past ++ [count])
    (flag : s.flag.up = false) : Phase t c limit past 0 s

/-- What a step of a charge has led to. -/
structure Forward (t : TaskId) (c : Charge) (limit : Limit) (past : List Counted) (n : Nat)
    (s s' : Limiter Memory) : Prop where
  tidy : Tidy s'
  isOpen : s'.pool.closed = false
  /-- No task is new but the one that has the call counted. -/
  new : ∀ u ∈ Table.keys s'.tasks, u ∈ Table.keys s.tasks ∨ u = t + 1
  /-- A permit is free or in the hand of that task. -/
  permits : s.pool.line = [] → s'.pool.line = [] ∧
    s'.pool.free + (s'.hand (t + 1)).permits = s.pool.free + (s.hand (t + 1)).permits
  nearer : ∃ m < n, Phase t c limit past m s'

theorem Forward.of_step? (tidy : Tidy s) (isOpen : s.pool.closed = false)
    (step : s.step? Memory.backend v = some s')
    (new : ∀ u ∈ Table.keys s'.tasks, u ∈ Table.keys s.tasks ∨ u = t + 1)
    (permits : s.pool.line = [] → s'.pool.line = [] ∧
      s'.pool.free + (s'.hand (t + 1)).permits = s.pool.free + (s.hand (t + 1)).permits)
    (nearer : ∃ m < n, Phase t c limit past m s') : Forward t c limit past n s s' where
  tidy := (Tidy.invariant Memory.surroundings).step? tidy step
  isOpen := (closed_of_step? tidy step).trans isOpen
  new := new
  permits := permits
  nearer := nearer

namespace Phase

/-! ## Steps -/

/-- The call is to be counted by a task of its own. -/
theorem begin {job : Job} (tidy : Tidy s) (isOpen : s.pool.closed = false)
    (charged : job.charge? = some (c, limit))
    (entry : Table.get? s.tasks t = some ⟨.fresh job, [], []⟩) (next : s.nextTask = t + 1)
    (free : 0 < s.pool.free) (counts : s.counts = past)
    (step : s.step? Memory.backend t = some s') :
    Forward t c limit past (s.pool.idle.length + 5) s s' := by
  have hs' : s' = s.charge t c limit := by
    simp only [step?, stage?_of_get? entry, begin_of_charge? charged] at step
    exact (Option.some.inj step).symm
  have ht : t ≠ s.nextTask := next ▸ Nat.ne_of_lt (Nat.lt_succ_self t)
  have hpool : s'.pool = s.pool := by simp [hs', charge_eq]
  have hchild := get?_charge_child ht c limit
  rw [← hs', next] at hchild
  have hentry := get?_charge_self ht entry c limit
  rw [← hs', next] at hentry
  refine .of_step? tidy isOpen step (fun u hu => ?_) (fun line => ?_)
    ⟨_, ?_, .wanting hentry hchild (hpool ▸ free) ?_⟩
  · simpa [hs', charge_eq, next, or_comm] using hu
  · have hnone : s.hand (t + 1) = .nothing :=
      hand_of_none (stage?_eq_none_iff.mpr (next ▸ tidy.nextTask_not_mem))
    rw [hand_of_get? hchild, Task.hand_ofJobs, hnone, hpool]
    exact ⟨line, rfl⟩
  · rw [hpool]
    omega
  · rw [hs', counts_charge, counts]

/-- The task that has the call counted comes to a stage on its way; `w` is the limiter when it has a
permit. -/
theorem goNearer (tidy : Tidy s) (isOpen : s.pool.closed = false)
    (entry : Table.get? s.tasks t = some ⟨.awaiting c (t + 1), [], []⟩) {stage : Stage}
    (child : Table.get? s.tasks (t + 1) = some ⟨stage, [], []⟩) (counts : s.counts = past)
    (step : s.step? Memory.backend (t + 1) = some s') (before : Steady (t + 1) s w)
    (line : w.pool.line = s.pool.line)
    (free : w.pool.free + 1 = s.pool.free + stage.hand.permits) {m : Nat} (less : m < n)
    (h : Nearer (t + 1) (c.evaluation limit) m w s') : Forward t c limit past n s s' := by
  have hspared := Spared.of_step? tidy (Nat.ne_of_lt (Nat.lt_succ_self t)) step
  have hentry := hspared.get?_awaiting entry
  obtain ⟨idle, hpool⟩ := h.pool
  obtain ⟨u, stage', after, rfl, way, left⟩ := h.parks
  have steady := before.trans after
  obtain ⟨_, hu⟩ := get?_of_ledger? child steady.ledger
  have hchild : Table.get? (u.setStage (t + 1) stage').tasks (t + 1) = some ⟨stage', [], []⟩ := by
    simp [hu]
  refine .of_step? tidy isOpen step (fun v hv => ?_) (fun empty => ?_)
    ⟨_, Nat.lt_of_le_of_lt left less, .trying hentry hchild way (steady.counts.trans counts)⟩
  · rw [keys_setStage, steady.keys] at hv
    exact .inl hv
  · rw [hand_of_get? child, hand_of_get? hchild, way.permits, hpool]
    exact ⟨line.trans empty, free⟩

/-- A task with a permit at hand gets one and goes on. -/
theorem want (tidy : Tidy s) (isOpen : s.pool.closed = false) (sound : Sound s)
    (entry : Table.get? s.tasks t = some ⟨.awaiting c (t + 1), [], []⟩)
    (child : Table.get? s.tasks (t + 1) = some ⟨.fresh (.evaluate (c.evaluation limit)), [], []⟩)
    (free : 0 < s.pool.free) (counts : s.counts = past)
    (step : s.step? Memory.backend (t + 1) = some s') :
    Forward t c limit past (s.pool.idle.length + 4) s s' := by
  have hstep := step
  simp only [step?, stage?_of_get? child, Limiter.begin] at hstep
  rw [Limiter.want, if_neg (by simp [isOpen]), if_pos free] at hstep
  cases hstep
  have htake : Steady (t + 1) s { s with pool := { s.pool with free := s.pool.free - 1 } } :=
    .of_eq rfl rfl rfl
  have sound' : Sound { s with pool := { s.pool with free := s.pool.free - 1 } } :=
    sound.of_eq rfl rfl
  exact goNearer tidy isOpen entry child counts step htake rfl (Nat.sub_add_cancel free)
    (Nat.lt_succ_self _) (.choose sound' 1 (Nat.le_refl _))

theorem goOn (tidy : Tidy s) (isOpen : s.pool.closed = false) (sound : Sound s)
    (entry : Table.get? s.tasks t = some ⟨.awaiting c (t + 1), [], []⟩) {stage : Stage}
    (child : Table.get? s.tasks (t + 1) = some ⟨stage, [], []⟩)
    (way : stage.OnTheWay (c.evaluation limit)) (counts : s.counts = past)
    (step : s.step? Memory.backend (t + 1) = some s') :
    Forward t c limit past (stage.stepsLeft s.pool.idle.length) s s' := by
  have hs : s.stage? (t + 1) = some stage := stage?_of_get? child
  have proper := tidy.proper _ _ hs
  have permit : s.pool.free + 1 = s.pool.free + stage.hand.permits := by rw [way.permits]
  unfold Stage.OnTheWay at way
  split at way
  · obtain ⟨rfl, -⟩ := way
    exact goNearer tidy isOpen entry child counts step (.refl s) rfl permit (Nat.lt_succ_self _)
      (nearer_of_probing sound hs proper step)
  · obtain ⟨rfl, -, now⟩ := way
    exact goNearer tidy isOpen entry child counts step (.refl s) rfl permit (Nat.lt_succ_self _)
      (nearer_of_opening sound hs proper now step)
  · obtain ⟨rfl, -, prompt⟩ := way
    obtain ⟨count, own, -, hcounts, hchild, hkeys, hfree⟩ :=
      counted_of_evaluating child sound hs proper.2 prompt step
    have hspared := Spared.of_step? tidy (Nat.ne_of_lt (Nat.lt_succ_self t)) step
    have hentry := hspared.get?_awaiting entry
    refine .of_step? tidy isOpen step (fun u hu => .inl (by rwa [hkeys] at hu)) (fun line => ?_)
      ⟨1, Nat.lt_succ_self 1, .counted hentry hchild own (hcounts.trans (by rw [counts]))⟩
    rw [hand_of_get? child, hand_of_get? hchild, Task.hand_settled, ← permit]
    exact hfree line
  · exact way.elim

/-- The caller is told the decision that the verdict asks for. -/
theorem conclude (tidy : Tidy s) (isOpen : s.pool.closed = false)
    (entry : Table.get? s.tasks t = some ⟨.awaiting c (t + 1), [], []⟩) {count : Counted}
    {time : Time}
    (child : Table.get? s.tasks (t + 1) = some ⟨.done time, [], [.ok (.verdict count.verdict)]⟩)
    (own : count.IsFor (t + 1) (c.evaluation limit)) (counts : s.counts = past ++ [count])
    (step : s.step? Memory.backend t = some s') : Forward t c limit past 1 s s' := by
  obtain ⟨-, hs'⟩ := step?_of_awaiting (stage?_of_get? entry) step
  have hlast : verdictOf (t + 1) (s.lastOutcome? (t + 1)) = .ok count.verdict := by
    simp [lastOutcome?, child, verdictOf]
  rw [hlast, decision_decideOn_ok] at hs'
  have hchild : Table.get? s'.tasks (t + 1) =
      some ⟨.done time, [], [.ok (.verdict count.verdict)]⟩ := by
    simp [hs', child]
  have hsteady := Steady.decideOn (t := t) s t (t + 1) c (.ok count.verdict)
  have hentry : Table.get? s'.tasks t =
      some ⟨.done s.clock, [], [.ok (s'.tell c count.verdict.decision)]⟩ := by
    simp [hs', entry, Task.settled, tell, status]
  refine .of_step? tidy isOpen step (fun u hu => .inl (by simpa [hs'] using hu)) (fun line => ?_)
    ⟨0, Nat.one_pos, .concluded hentry hchild own ?_ ?_⟩
  · have hpool : s'.pool = s.pool := by simp [hs']
    rw [hand_of_get? child, hand_of_get? hchild, hpool]
    exact ⟨line, rfl⟩
  · simpa [hs', Limiter.counts] using hsteady.counts.trans counts
  · simp [hs']

/-- Every step of the two tasks brings the charge nearer to its end. -/
theorem step (tidy : Tidy s) (isOpen : s.pool.closed = false) (sound : Sound s)
    (h : Phase t c limit past n s) (mine : v = t ∨ v = t + 1)
    (step : s.step? Memory.backend v = some s') : Forward t c limit past n s s' := by
  have idle : ∀ {u : TaskId}, s.isOver u = true → v ≠ u := by
    rintro u ended rfl
    rw [step?_of_isOver ended] at step
    cases step
  -- whoever waits for a task that is not over takes no step
  have waits : ∀ {stage : Stage}, Table.get? s.tasks t = some ⟨.awaiting c (t + 1), [], []⟩ →
      Table.get? s.tasks (t + 1) = some ⟨stage, [], []⟩ → stage.isOver = false → v ≠ t := by
    rintro stage entry child running rfl
    obtain ⟨ended, -⟩ := step?_of_awaiting (stage?_of_get? entry) step
    simp [isOver, stage?_of_get? child, running] at ended
  cases h with
  | asked charged entry next free counts =>
    have hnone : s.stage? (t + 1) = none :=
      stage?_eq_none_iff.mpr (next ▸ tidy.nextTask_not_mem)
    obtain rfl := mine.resolve_right (idle (by rw [isOver, hnone]; rfl))
    exact begin tidy isOpen charged entry next free counts step
  | wanting entry child free counts =>
    obtain rfl := mine.resolve_left (waits entry child rfl)
    exact want tidy isOpen sound entry child free counts step
  | trying entry child way counts =>
    obtain rfl := mine.resolve_left (waits entry child way.isOver)
    exact goOn tidy isOpen sound entry child way counts step
  | counted entry child own counts =>
    obtain rfl := mine.resolve_right (idle (by rw [isOver, stage?_of_get? child]; rfl))
    exact conclude tidy isOpen entry child own counts step
  | concluded entry child own counts flag =>
    rcases mine with rfl | rfl
    · exact absurd rfl (idle (by rw [isOver, stage?_of_get? entry]; rfl))
    · exact absurd rfl (idle (by rw [isOver, stage?_of_get? child]; rfl))

/-- The clock, the store and whose turn it is do not matter. -/
theorem outside (h : Phase t c limit past n s) (clock : Time) (backend : Memory)
    (ready : List TaskId) : Phase t c limit past n { s with clock, backend, ready } := by
  cases h with
  | asked charged entry next free counts =>
    exact .asked (s := { s with clock, backend, ready }) charged entry next free counts
  | wanting entry child free counts =>
    exact .wanting (s := { s with clock, backend, ready }) entry child free counts
  | trying entry child way counts =>
    exact .trying (s := { s with clock, backend, ready }) entry child way counts
  | counted entry child own counts =>
    exact .counted (s := { s with clock, backend, ready }) entry child own counts
  | concluded entry child own counts flag =>
    exact .concluded (s := { s with clock, backend, ready }) entry child own counts flag

end Phase

/-! ## Runs -/

/-- The points of a run can be looked at one by one. -/
theorem sound_of_inits {moves : List (Move MemoryChange)}
    (h : ∀ before ∈ moves.inits, Sound (s.run Memory.surroundings before)) :
    ∀ before, before <+: moves → Sound (s.run Memory.surroundings before) := fun before hbefore =>
  h before ((List.mem_inits _ _).mpr hbefore)

/-- A condition `J` under which nobody gets in the way of the charge of a task: of those that may
step none can but that task and the one that has the call counted. It is kept by their steps and by
what happens outside. -/
structure Escort (t : TaskId) (steps : TaskId → Prop) (J : Limiter Memory → Prop) : Prop where
  tidy : ∀ {s}, J s → Tidy s
  isOpen : ∀ {s}, J s → s.pool.closed = false
  mine : ∀ {s s' v}, J s → steps v → s.step? Memory.backend v = some s' → v = t ∨ v = t + 1
  step : ∀ {s s' v c limit past n}, J s → (v = t ∨ v = t + 1) →
    s.step? Memory.backend v = some s' → Forward t c limit past n s s' → J s'
  outside : ∀ {s} (clock : Time) (backend : Memory) (ready : List TaskId), J s →
    J { s with clock, backend, ready }

namespace Phase

variable {steps : TaskId → Prop} {J : Limiter Memory → Prop}

/-- A move lets the charge be as far as it was, or is a step of it. -/
theorem move (escort : Escort t steps J) (j : J s) (sound : Sound s)
    (h : Phase t c limit past n s) {m : Move MemoryChange} (within : m.Within steps) :
    J (s.move Memory.surroundings m) ∧ ∃ k, k + stepsIn Memory.surroundings s [m] ≤ n ∧
      Phase t c limit past k (s.move Memory.surroundings m) := by
  cases m with
  | step v =>
    cases hstep : s.step? Memory.surroundings.backend v with
    | none =>
      rw [move_step_of_none hstep, stepsIn_step_of_none hstep]
      exact ⟨j, n, Nat.le_refl n, h⟩
    | some s' =>
      have mine := escort.mine j within hstep
      have forward := Phase.step (escort.tidy j) (escort.isOpen j) sound h mine hstep
      obtain ⟨k, hk, h'⟩ := forward.nearer
      rw [move_step_of_some hstep, stepsIn_step_of_some hstep]
      exact ⟨escort.step j mine hstep forward, k, Nat.succ_le_of_lt hk, h'⟩
  | pass us =>
    exact ⟨escort.outside (s.clock + us) s.backend s.ready j, n, Nat.le_refl n, h.outside ..⟩
  | tend change =>
    exact ⟨escort.outside s.clock (Memory.tend s.clock s.backend change) s.ready j, n,
      Nat.le_refl n, h.outside ..⟩
  | arrange ready =>
    exact ⟨escort.outside s.clock s.backend ready j, n, Nat.le_refl n, h.outside ..⟩
  | _ => exact within.elim

theorem run (escort : Escort t steps J) (j : J s) (h : Phase t c limit past n s)
    {moves : List (Move MemoryChange)} (within : ∀ m ∈ moves, m.Within steps)
    (sound : ∀ before, before <+: moves → Sound (s.run Memory.surroundings before)) :
    J (s.run Memory.surroundings moves) ∧
      ∃ k, k + stepsIn Memory.surroundings s moves ≤ n ∧
        Phase t c limit past k (s.run Memory.surroundings moves) := by
  induction moves generalizing s n with
  | nil => exact ⟨j, n, Nat.le_refl n, h⟩
  | cons m rest ih =>
    obtain ⟨hm, within⟩ := List.forall_mem_cons.mp within
    obtain ⟨j', k, hk, h'⟩ := move escort j (sound [] List.nil_prefix) h hm
    obtain ⟨j'', i, hi, h''⟩ := ih j' h' within fun before hbefore =>
      sound (m :: before) ((List.prefix_cons_inj m).mpr hbefore)
    refine ⟨j'', i, ?_, h''⟩
    rw [stepsIn_cons]
    omega

/-- As long as the charge has not come to its end one of the two tasks can go on after some time. -/
theorem exists_step (h : Phase t c limit past n s) (running : s.isOver t = false) :
    ∃ us v, (v = t ∨ v = t + 1) ∧ ((s.pass us).step? Memory.backend v).isSome = true := by
  cases h with
  | asked charged entry next free counts =>
    exact ⟨0, t, .inl rfl, by simp [step?, pass, stage?, entry]⟩
  | wanting entry child free counts =>
    exact ⟨0, t + 1, .inr rfl, by simp [step?, pass, stage?, child]⟩
  | trying entry child way counts =>
    obtain ⟨us, h⟩ := exists_step_of_onTheWay (stage?_of_get? child) way
    exact ⟨us, t + 1, .inr rfl, h⟩
  | counted entry child own counts =>
    exact ⟨0, t, .inl rfl, by simp [step?, pass, isOver, stage?, entry, child, Stage.isOver]⟩
  | concluded entry child own counts flag =>
    rw [isOver, stage?_of_get? entry] at running
    cases running

/-- A charge that has come to its end has been counted once and decided on by that. -/
theorem of_isOver (h : Phase t c limit past n s) (ended : s.isOver t = true) :
    ∃ count : Counted, count.IsFor (t + 1) (c.evaluation limit) ∧ s.counts = past ++ [count] ∧
      s.outcomes t = [.ok (s.tell c count.verdict.decision)] ∧ s.flag.up = false ∧
      s.isOver (t + 1) = true := by
  have stops : ∀ {task : Task}, Table.get? s.tasks t = some task → task.stage.isOver = true :=
    fun entry => by rwa [isOver, stage?_of_get? entry] at ended
  cases h with
  | concluded entry child own counts flag =>
    refine ⟨_, own, counts, outcomes_of_get? entry, flag, ?_⟩
    rw [isOver, stage?_of_get? child]
    rfl
  | asked charged entry next free counts => cases stops entry
  | wanting entry child free counts => cases stops entry
  | trying entry child way counts => cases stops entry
  | counted entry child own counts => cases stops entry

/-- A charge that has just been asked for. -/
theorem of_start {job : Job} (free : 0 < s.pool.free) (charged : job.charge? = some (c, limit)) :
    Phase s.nextTask c limit s.counts (s.pool.idle.length + 5) (s.start [job]).1 := by
  have idle : (s.start [job]).1.pool.idle.length = s.pool.idle.length := by simp
  exact idle ▸ .asked charged (get?_start_self s [job]) (by simp) (by simpa using free) (by simp)

end Phase

end Limiter

end Turnstile
