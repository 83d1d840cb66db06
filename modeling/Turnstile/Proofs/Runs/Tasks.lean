import Turnstile.Proofs.Runs.Hand
import Turnstile.Proofs.Table

/-!
# The table of tasks

How the operations on tasks change what is in hand. A task that steps changes its own entry, starts
tasks under new numbers, and hands a permit to one that stands in the line; every other entry stays.
-/

namespace Turnstile

/-- A task after one of its jobs has ended. -/
def Task.settled (task : Task) (now : Time) (outcome : Outcome) : Task :=
  match task.jobs with
  | job :: jobs => ⟨.fresh job, jobs, outcome :: task.outcomes⟩
  | [] => ⟨.done now, [], outcome :: task.outcomes⟩

@[simp] theorem Task.hand_settled (task : Task) (now : Time) (outcome : Outcome) :
    (task.settled now outcome).stage.hand = .nothing := by
  unfold Task.settled
  split <;> rfl

@[simp] theorem Task.outcomes_settled (task : Task) (now : Time) (outcome : Outcome) :
    (task.settled now outcome).outcomes = outcome :: task.outcomes := by
  unfold Task.settled
  split <;> rfl

theorem Task.proper_settled (task : Task) (now : Time) (outcome : Outcome) :
    (task.settled now outcome).stage.Proper := by
  unfold Task.settled
  split <;> trivial

@[simp] theorem Task.hand_ofJobs (now : Time) (jobs : List Job) :
    (Task.ofJobs now jobs).stage.hand = .nothing := by
  cases jobs <;> rfl

@[simp] theorem Task.outcomes_ofJobs (now : Time) (jobs : List Job) :
    (Task.ofJobs now jobs).outcomes = [] := by
  cases jobs <;> rfl

theorem Task.proper_ofJobs (now : Time) (jobs : List Job) :
    (Task.ofJobs now jobs).stage.Proper := by
  cases jobs <;> trivial

theorem Stage.hand_eq_place_iff {stage : Stage} :
    stage.hand = .place ↔ ∃ goal expiry, stage = .queued goal expiry := by
  cases stage <;> simp [Stage.hand]

namespace Limiter

variable {σ : Type} {s : Limiter σ} {t u : TaskId}

/-- What a task has in hand while it stands at its stage. -/
def hand (s : Limiter σ) (t : TaskId) : Hand :=
  match s.stage? t with
  | some stage => stage.hand
  | none => .nothing

theorem hand_of_stage? {stage : Stage} (hs : s.stage? t = some stage) : s.hand t = stage.hand := by
  simp [hand, hs]

theorem hand_of_none (hs : s.stage? t = none) : s.hand t = .nothing := by
  simp [hand, hs]

theorem stage?_of_get? {task : Task} (h : Table.get? s.tasks t = some task) :
    s.stage? t = some task.stage := by
  simp [stage?, h]

theorem hand_of_get? {task : Task} (h : Table.get? s.tasks t = some task) :
    s.hand t = task.stage.hand :=
  hand_of_stage? (stage?_of_get? h)

theorem stage?_eq_none_iff : s.stage? t = none ↔ t ∉ Table.keys s.tasks := by
  rw [← Table.get?_eq_none_iff]
  simp [stage?]

/-- Whoever has a place in the line stands in it. -/
theorem stage?_of_hand_eq_place (hh : s.hand t = .place) :
    ∃ goal expiry, s.stage? t = some (.queued goal expiry) := by
  cases hs : s.stage? t with
  | none =>
    rw [hand_of_none hs] at hh
    cases hh
  | some stage =>
    rw [hand_of_stage? hs, Stage.hand_eq_place_iff] at hh
    obtain ⟨goal, expiry, rfl⟩ := hh
    exact ⟨goal, expiry, rfl⟩

/-! ## Waking -/

/-- Waking a task changes only the order of turns. -/
theorem wake_eq (s : Limiter σ) (t : TaskId) : ∃ ready, s.wake t = { s with ready } := by
  unfold wake
  split
  · exact ⟨s.ready, rfl⟩
  · exact ⟨_, rfl⟩

theorem wakeAll_eq (s : Limiter σ) (ts : List TaskId) :
    ∃ ready, s.wakeAll ts = { s with ready } := by
  unfold wakeAll
  induction ts generalizing s with
  | nil => exact ⟨s.ready, rfl⟩
  | cons t rest ih =>
    -- the first waking gives a limiter to which the rest applies again
    obtain ⟨ready, hwake⟩ := s.wake_eq t
    obtain ⟨ready', hrest⟩ := ih (s.wake t)
    rw [List.foldl_cons, hrest, hwake]
    exact ⟨ready', rfl⟩

/-! ## Moving to a stage -/

@[simp] theorem keys_setStage (stage : Stage) :
    Table.keys (s.setStage t stage).tasks = Table.keys s.tasks :=
  Table.keys_modify ..

@[simp] theorem get?_setStage_self (s : Limiter σ) (t : TaskId) (stage : Stage) :
    Table.get? (s.setStage t stage).tasks t =
      (Table.get? s.tasks t).map fun task => { task with stage } :=
  Table.get?_modify_self ..

@[simp] theorem get?_setStage_ne (hne : u ≠ t) (stage : Stage) :
    Table.get? (s.setStage t stage).tasks u = Table.get? s.tasks u :=
  Table.get?_modify_ne _ _ hne

@[simp] theorem stage?_setStage_self (ht : t ∈ Table.keys s.tasks) (stage : Stage) :
    (s.setStage t stage).stage? t = some stage := by
  cases h : Table.get? s.tasks t with
  | none => exact absurd ht (Table.get?_eq_none_iff.mp h)
  | some task => simp [stage?, h]

@[simp] theorem stage?_setStage_ne (hne : u ≠ t) (stage : Stage) :
    (s.setStage t stage).stage? u = s.stage? u := by
  simp [stage?, hne]

@[simp] theorem hand_setStage_self (ht : t ∈ Table.keys s.tasks) (stage : Stage) :
    (s.setStage t stage).hand t = stage.hand :=
  hand_of_stage? (stage?_setStage_self ht stage)

@[simp] theorem hand_setStage_ne (hne : u ≠ t) (stage : Stage) :
    (s.setStage t stage).hand u = s.hand u := by
  simp [hand, hne]

/-- The outcomes of a task's jobs, the first one in front. -/
def outcomes (s : Limiter σ) (t : TaskId) : List Outcome :=
  ((Table.get? s.tasks t).map fun task => task.outcomes.reverse).getD []

@[simp]
theorem outcomes_setStage (stage : Stage) : (s.setStage t stage).outcomes u = s.outcomes u := by
  by_cases hu : u = t
  · subst hu
    simp [outcomes, Function.comp_def]
  · simp [outcomes, hu]

/-! ## Starting and ending -/

theorem start_eq (s : Limiter σ) (jobs : List Job) : ∃ ready, (s.start jobs).1 =
    { s with tasks := Table.put s.tasks s.nextTask (.ofJobs s.clock jobs),
             nextTask := s.nextTask + 1, ready } := by
  obtain ⟨ready, hwake⟩ := wake_eq { s with
    tasks := Table.put s.tasks s.nextTask (.ofJobs s.clock jobs), nextTask := s.nextTask + 1 }
    s.nextTask
  exact ⟨ready, hwake⟩

/-- Ending a job changes the task's entry and, perhaps, whose turn it is. -/
theorem settle_eq {task : Task} (ht : Table.get? s.tasks t = some task) (outcome : Outcome) :
    ∃ ready, s.settle t outcome =
      { s with tasks := Table.put s.tasks t (task.settled s.clock outcome), ready } := by
  obtain ⟨stage, jobs, outcomes⟩ := task
  cases jobs with
  | cons job jobs =>
    exact ⟨s.ready, by simp [settle, ht, Task.settled]⟩
  | nil =>
    obtain ⟨ready, hwake⟩ := wakeAll_eq { s with
      tasks := Table.put s.tasks t ⟨.done s.clock, [], outcome :: outcomes⟩ } (s.watchers t)
    refine ⟨ready, ?_⟩
    simpa [settle, ht, Task.settled] using hwake

/-! ## Giving a permit back -/

/-- A permit that is given back is free if nobody stands in the line. Otherwise whoever stands in
front leaves the line, and has the permit if it is still waiting. -/
theorem freePermit_cases (s : Limiter σ) :
    (s.pool.line = [] ∧ s.freePermit = { s with pool := { s.pool with free := s.pool.free + 1 } }) ∨
    (∃ u rest, s.pool.line = u :: rest ∧ s.hand u ≠ .place ∧
      s.freePermit = { s with pool := { s.pool with line := rest } }) ∨
    (∃ u rest goal expiry ready, s.pool.line = u :: rest ∧
      s.stage? u = some (.queued goal expiry) ∧
      s.freePermit = { s.setStage u (.granted goal) with
        pool := { s.pool with line := rest }, ready }) := by
  cases hline : s.pool.line with
  | nil => exact .inl ⟨rfl, by simp [freePermit, hline]⟩
  | cons u rest =>
    by_cases hu : s.hand u = .place
    · obtain ⟨goal, expiry, hs⟩ := stage?_of_hand_eq_place hu
      have hs' : { s with pool := { s.pool with line := rest } }.stage? u =
          some (.queued goal expiry) := hs
      obtain ⟨ready, hwake⟩ := wake_eq
        ({ s with pool := { s.pool with line := rest } }.setStage u (.granted goal)) u
      refine .inr (.inr ⟨u, rest, goal, expiry, ready, rfl, hs, ?_⟩)
      -- `setStage` and the change of the pool commute by computation
      simp only [freePermit, Pool.release_of_cons hline, grant, hs', hwake]
      rfl
    · refine .inr (.inl ⟨u, rest, rfl, hu, ?_⟩)
      have hs : ∀ goal expiry, { s with pool := { s.pool with line := rest } }.stage? u ≠
          some (.queued goal expiry) := by
        intro goal expiry hs
        exact hu (hand_of_stage? (s := s) hs)
      simp only [freePermit, Pool.release_of_cons hline, grant]

/-- Apart from the pool and whose turn it is, a permit that is given back changes at most the stage
of one task. -/
theorem freePermit_eq (s : Limiter σ) :
    (∃ pool, s.freePermit = { s with pool }) ∨
    (∃ u goal pool ready, s.freePermit = { s.setStage u (.granted goal) with pool, ready }) := by
  rcases s.freePermit_cases with ⟨-, h⟩ | ⟨u, rest, -, -, h⟩ |
    ⟨u, rest, goal, expiry, ready, -, -, h⟩
  · exact .inl ⟨_, h⟩
  · exact .inl ⟨_, h⟩
  · exact .inr ⟨u, goal, _, ready, h⟩

@[simp]
theorem keys_freePermit (s : Limiter σ) : Table.keys s.freePermit.tasks = Table.keys s.tasks := by
  rcases s.freePermit_eq with ⟨pool, h⟩ | ⟨u, goal, pool, ready, h⟩ <;> simp [h]

/-- A permit goes only to somebody who has a place in the line. -/
theorem hand_freePermit (ht : s.hand t ≠ .place) : s.freePermit.hand t = s.hand t := by
  rcases s.freePermit_cases with ⟨-, h⟩ | ⟨u, rest, -, -, h⟩ |
    ⟨u, rest, goal, expiry, ready, -, hs, h⟩
  · rw [h]
    rfl
  · rw [h]
    rfl
  · have hne : t ≠ u := by
      rintro rfl
      exact ht (hand_of_stage? hs)
    rw [h]
    exact hand_setStage_ne hne _

end Limiter

end Turnstile
