import Turnstile.Proofs.Abort.Steps
import Turnstile.Proofs.Runs.Attendance

/-!
# Hidden tasks

A task that has nothing to do but to wait for others can be hidden: whatever it does, and also its
being cancelled, does not show in the view, as long as nobody who is seen waits for it
(`Staffed.view_step`, `Staffed.view_cancel`). A run keeps it so (`Staffed.move`) if its tasks either
join no other task or do nothing else; those that do nothing else are hidden from their start.
-/

namespace Turnstile

/-- Whether the job is to wait for a task to end. -/
def Job.isJoin : Job → Bool
  | .join _ => true
  | _ => false

/-- Whether a task at the stage only waits for others, or is over. -/
def Stage.isIdle : Stage → Bool
  | .fresh job => job.isJoin
  | .joining _ | .awaiting .. | .done _ | .cancelled => true
  | _ => false

/-- A task that has nothing left to do but to wait for others. -/
structure Task.Idle (task : Task) : Prop where
  last : task.jobs = []
  stage : task.stage.isIdle = true

namespace Move

variable {ε : Type}

/-- Whether the move starts a task that does nothing but join another one. -/
def isJoin : Move ε → Bool
  | .start [.join _] => true
  | _ => false

/-- Whether a task that is started by the move either joins no other task or does nothing else. -/
def joinsApart : Move ε → Bool
  | .start jobs => (jobs.all fun job => !job.isJoin) || isJoin (.start jobs : Move ε)
  | _ => true

/-- The tasks that are hidden after the move, if the next number is that one. -/
def hide (m : Move ε) (next : TaskId) (hidden : List TaskId) : List TaskId :=
  if m.isJoin then next :: hidden else hidden

theorem hide_append (m : Move ε) (next : TaskId) (hidden more : List TaskId) :
    m.hide next (hidden ++ more) = m.hide next hidden ++ more := by
  unfold hide
  split <;> rfl

theorem subset_hide (m : Move ε) (next : TaskId) (hidden : List TaskId) :
    hidden ⊆ m.hide next hidden := by
  unfold hide
  split
  · exact List.subset_cons_self next hidden
  · exact List.Subset.refl hidden

theorem mem_hide {m : Move ε} {next t : TaskId} {hidden : List TaskId}
    (h : t ∈ m.hide next hidden) : t ∈ hidden ∨ (t = next ∧ m.isJoin = true) := by
  unfold hide at h
  split at h
  · rcases List.mem_cons.mp h with h | h
    · exact .inr ⟨h, ‹_›⟩
    · exact .inl h
  · exact .inl h

theorem eq_of_isJoin {m : Move ε} (h : m.isJoin = true) : ∃ v, m = .start [.join v] := by
  unfold isJoin at h
  split at h
  · exact ⟨_, rfl⟩
  · cases h

/-- Who is started and not hidden joins nobody. -/
theorem alone_of_not_isJoin {jobs : List Job} (apart : (Move.start jobs : Move ε).joinsApart = true)
    (h : (Move.start jobs : Move ε).isJoin = false) : ∀ job ∈ jobs, job.isJoin = false := by
  simpa [joinsApart, h] using apart

end Move

namespace Limiter

variable {σ ε : Type} {W : Surroundings σ ε} {B : Backend σ} {hidden : List TaskId}
  {s s' u : Limiter σ} {t v : TaskId} {m : Move ε}

/-! ## Idle tasks -/

/-- A step of an idle task is to wait for another one or to end its job, and before it ends the job
nothing happens that is seen by those who look away from the task. -/
theorem cases_of_isIdle {stage : Stage} (hs : s.stage? t = some stage)
    (idle : stage.isIdle = true) (step : s.step? B t = some s') :
    (∃ v, s' = s.setStage t (.joining v)) ∨
    ∃ (u : Limiter σ) (outcome : Outcome), s' = u.settle t outcome ∧ u.tasks = s.tasks ∧
      ∀ hidden, t ∈ hidden → u.view hidden = s.view hidden := by
  cases stage with
  | fresh job =>
    simp only [step?, hs] at step
    cases step
    cases job with
    | join v => exact .inl ⟨v, rfl⟩
    | _ => cases idle
  | joining v =>
    simp only [step?, hs] at step
    split at step
    · cases step
      exact .inr ⟨s, _, rfl, rfl, fun _ _ => rfl⟩
    · cases step
  | awaiting c child =>
    obtain ⟨-, rfl⟩ := step?_of_awaiting hs step
    refine .inr ⟨_, _, rfl, by simp, fun hidden ht => ?_⟩
    rw [view_decideOn, if_pos ht]
  | done time => simp [step?, hs] at step
  | cancelled => simp [step?, hs] at step
  | _ => cases idle

/-- A task that is idle stays so. -/
theorem idle_move (tidy : Tidy s) {task : Task} (hget : Table.get? s.tasks t = some task)
    (idle : task.Idle) (m : Move ε) :
    ∃ task', Table.get? (s.move W m).tasks t = some task' ∧ task'.Idle := by
  obtain ⟨stage, jobs, outcomes⟩ := task
  obtain ⟨last, hidle⟩ := idle
  cases fate_move W tidy hget m with
  | spared stage' entry handed counts =>
    refine ⟨_, entry, last, ?_⟩
    cases handed with
    | same => exact hidle
    | permit goal expiry => cases hidle
  | cancelled which entry counts => exact ⟨_, entry, last, rfl⟩
  | stepped which step =>
    rcases cases_of_isIdle (stage?_of_get? hget) hidle step with ⟨v, heq⟩ |
      ⟨u, outcome, heq, htasks, -⟩
    · exact ⟨⟨.joining v, jobs, outcomes⟩, by simp [heq, hget], last, rfl⟩
    · -- no job follows, so the task is done
      obtain rfl : jobs = [] := last
      exact ⟨⟨.done u.clock, [], outcome :: outcomes⟩, by simp [heq, htasks, hget, Task.settled],
        rfl, rfl⟩

/-! ## Tasks that nobody waits for -/

/-- Nobody waits for a call that the task counts. -/
def Unawaited (s : Limiter σ) (t : TaskId) : Prop := ∀ u c, s.stage? u ≠ some (.awaiting c t)

/-- Every task is about its jobs, and those that are hidden have nothing to do but to wait for
others. Nobody who is seen waits for them. -/
structure Staffed (hidden : List TaskId) (s : Limiter σ) : Prop where
  returned : Returned s
  attends : ∀ t ∈ Table.keys s.tasks, ∃ jobs past left, s.Attends t jobs past left ∧
    (t ∉ hidden → ∀ job ∈ jobs, job.isJoin = false)
  idle : ∀ t ∈ hidden, ∃ task, Table.get? s.tasks t = some task ∧ task.Idle
  unawaited : ∀ t ∈ hidden, s.Unawaited t

namespace Staffed

theorem fresh (backend : σ) (settings : PoolSettings) :
    Staffed [] (Limiter.fresh backend settings) where
  returned := .fresh backend settings
  attends t ht := by cases ht
  idle t ht := by cases ht
  unawaited t ht := by cases ht

theorem does (h : Staffed hidden s) :
    ∀ t ∈ Table.keys s.tasks, ∃ jobs past left, s.Does t jobs past left := by
  intro t ht
  obtain ⟨jobs, past, left, hattends, -⟩ := h.attends t ht
  exact ⟨jobs, past, left, hattends.does⟩

theorem mem_keys (h : Staffed hidden s) (ht : t ∈ hidden) : t ∈ Table.keys s.tasks := by
  obtain ⟨task, hget, -⟩ := h.idle t ht
  exact Table.mem_keys_of_get? hget

theorem nextTask_not_mem (h : Staffed hidden s) : s.nextTask ∉ hidden := by
  intro hm
  exact h.returned.tidy.nextTask_not_mem (h.mem_keys hm)

/-- Who is seen waits for nobody who is hidden. -/
theorem apart (h : Staffed hidden s) (ht : t ∉ hidden) {stage : Stage}
    (hs : s.stage? t = some stage) (hv : stage.watched? = some v) : v ∉ hidden := by
  intro hm
  cases stage with
  | awaiting c child =>
    obtain rfl : child = v := Option.some.inj hv
    exact h.unawaited child hm t c hs
  | joining task =>
    -- only a job that is a join leads to this stage, and who is seen has none
    obtain ⟨jobs, past, left, hattends, alone⟩ := h.attends t (mem_keys_of_stage? hs)
    obtain ⟨job, hjob, serves⟩ := hattends.does.exists_serves hs rfl
    have hfalse := alone ht job hjob
    obtain rfl : .join task = job := serves
    cases hfalse
  | _ => cases hv

/-- Whoever comes to wait for a call waits for one that is counted by a new task. -/
theorem unawaited_move (h : Staffed hidden s) (ht : t ∈ Table.keys s.tasks)
    (unawaited : s.Unawaited t) (m : Move ε) : (s.move W m).Unawaited t := by
  have hlt : t < s.nextTask := h.returned.tidy.numbered t ht
  have hbegun : ∀ {u c now jobs}, Table.get? (s.move W m).tasks u = some (.ofJobs now jobs) →
      (s.move W m).stage? u ≠ some (.awaiting c t) := by
    intro u c now jobs entry hu
    rw [stage?_of_get? entry] at hu
    cases jobs <;> cases hu
  intro u c hu
  cases enters_move h.returned.tidy h.does (mem_keys_of_stage? hu) with
  | started which number entry => exact hbegun entry hu
  | charged which number entry => exact hbegun entry hu
  | before old =>
    obtain ⟨jobs, past, left, hdoes⟩ := h.does u old
    cases hdoes.move (W := W) h.returned.tidy m with
    | stays does awaiting => exact unawaited u c (awaiting c t hu)
    | ends next which step does alone => exact alone c t hu
    | @charges job rest c' limit next charged after does =>
      obtain ⟨task, hget, -⟩ := hdoes.entry
      have hne : u ≠ s.nextTask := by
        rintro rfl
        exact h.returned.tidy.nextTask_not_mem old
      rw [after, stage?_of_get? (get?_charge_self hne hget c' limit)] at hu
      cases hu
      exact Nat.lt_irrefl _ hlt

/-- Nobody waits for a call that a task counts which has just been started by hand. -/
theorem unawaited_start (h : Staffed hidden s) (jobs : List Job) :
    (s.start jobs).1.Unawaited s.nextTask := by
  intro u c hu
  by_cases hnew : u = s.nextTask
  · subst hnew
    rw [stage?_of_get? (get?_start_self s jobs)] at hu
    cases jobs <;> cases hu
  · -- a task that waits for a call waits for one that is in the table already
    have hu' : s.stage? u = some (.awaiting c s.nextTask) := by
      rwa [stage?, get?_start_ne hnew] at hu
    obtain ⟨jobs', past, left, hattends, -⟩ := h.attends u (mem_keys_of_stage? hu')
    obtain ⟨job, rest, limit, done, undone, -, -, hchild⟩ := hattends.backed c s.nextTask hu'
    obtain ⟨task, hget, -⟩ := hchild.entry
    exact h.returned.tidy.nextTask_not_mem (Table.mem_keys_of_get? hget)

theorem attends_move (h : Staffed hidden s) (apart : m.joinsApart = true)
    (ht : t ∈ Table.keys (s.move W m).tasks) :
    ∃ jobs past left, (s.move W m).Attends t jobs past left ∧
      (t ∉ m.hide s.nextTask hidden → ∀ job ∈ jobs, job.isJoin = false) := by
  have returned' : Returned (s.move W m) := (Returned.invariant W).move h.returned m
  cases enters_move h.returned.tidy h.does ht with
  | before old =>
    obtain ⟨jobs, past, left, hattends, alone⟩ := h.attends t old
    have alone' : t ∉ m.hide s.nextTask hidden → ∀ job ∈ jobs, job.isJoin = false := by
      intro hseen
      apply alone
      intro hm
      exact hseen (m.subset_hide s.nextTask hidden hm)
    obtain ⟨past', left', hattends'⟩ := hattends.exists_move (W := W) h.returned m
    exact ⟨jobs, past', left', hattends', alone'⟩
  | @started jobs which number entry =>
    subst which
    refine ⟨jobs, [], jobs, .of_begun returned' entry, fun hseen => ?_⟩
    cases hjoin : (Move.start jobs : Move ε).isJoin with
    | false => exact Move.alone_of_not_isJoin apart hjoin
    | true =>
      rw [Move.hide, hjoin, if_pos rfl, number] at hseen
      exact absurd (List.mem_cons_self ..) hseen
  | @charged v e which number entry =>
    refine ⟨_, [], _, .of_begun returned' entry, fun _ job hjob => ?_⟩
    rw [List.mem_singleton] at hjob
    subst hjob
    rfl

theorem move (h : Staffed hidden s) (apart : m.joinsApart = true) :
    Staffed (m.hide s.nextTask hidden) (s.move W m) where
  returned := (Returned.invariant W).move h.returned m
  attends t ht := h.attends_move apart ht
  idle t ht := by
    rcases Move.mem_hide ht with ht | ⟨rfl, hjoin⟩
    · obtain ⟨task, hget, idle⟩ := h.idle t ht
      exact idle_move h.returned.tidy hget idle m
    · obtain ⟨v, rfl⟩ := Move.eq_of_isJoin hjoin
      exact ⟨_, get?_start_self s [.join v], rfl, rfl⟩
  unawaited t ht := by
    rcases Move.mem_hide ht with ht | ⟨rfl, hjoin⟩
    · exact h.unawaited_move (h.mem_keys ht) (h.unawaited t ht) m
    · obtain ⟨v, rfl⟩ := Move.eq_of_isJoin hjoin
      exact h.unawaited_start [.join v]

end Staffed

end Limiter

end Turnstile
