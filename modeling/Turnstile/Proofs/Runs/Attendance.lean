import Turnstile.Proofs.Runs.Conclusions

/-!
# Everybody is about their jobs

A move adds at most one task, which is then at its beginning (`enters_move`). So in every run each
task is about the jobs that it was started with, and each decision was made from what a task came to
that had one call to count and nothing else (`attended_run`). What is known of the course of a task
may therefore be used for any task that is found at a stage.
-/

namespace Turnstile

namespace Limiter

variable {σ ε : Type} {W : Surroundings σ ε} {s s' : Limiter σ} {t v : TaskId} {m : Move ε}

/-! ## The table of tasks -/

@[simp] theorem keys_reclaim (s : Limiter σ) (t : TaskId) (stage : Stage) :
    Table.keys (s.reclaim t stage).tasks = Table.keys s.tasks := by
  cases stage <;> simp [reclaim]

@[simp] theorem keys_cancel (s : Limiter σ) (t : TaskId) :
    Table.keys (s.cancel t).tasks = Table.keys s.tasks := by
  unfold cancel
  split
  · rfl
  · split <;> simp

/-- How a task comes to be in the table after a move. -/
inductive Enters (W : Surroundings σ ε) (s : Limiter σ) (m : Move ε) (t : TaskId) : Prop where
  | before (old : t ∈ Table.keys s.tasks)
  | started {jobs : List Job} (which : m = .start jobs) (number : t = s.nextTask)
    (entry : Table.get? (s.move W m).tasks t = some (.ofJobs s.clock jobs))
  /-- It counts a call for a task that has taken a step. -/
  | charged {v : TaskId} {e : Evaluation} (which : m = .step v) (number : t = s.nextTask)
    (entry : Table.get? (s.move W m).tasks t = some (.ofJobs s.clock [.evaluate e]))

theorem enters_of_step (tidy : Tidy s)
    (does : ∀ v ∈ Table.keys s.tasks, ∃ jobs past left, s.Does v jobs past left)
    (ht : t ∈ Table.keys (s.move W (.step v)).tasks) : Enters W s (.step v) t := by
  cases hstep : s.step? W.backend v with
  | none =>
    simp only [Limiter.move, hstep, Option.getD_none] at ht
    exact .before ht
  | some s' =>
    have hmove : s.move W (.step v) = s' := move_step_of_some hstep
    cases hs : s.stage? v with
    | none => simp [step?, hs] at hstep
    | some stage =>
      have hv : v ∈ Table.keys s.tasks := mem_keys_of_stage? hs
      obtain ⟨jobs, past, left, hdoes⟩ := does v hv
      obtain ⟨task, hget, -, leaves⟩ := hdoes.entry
      have hstage := stage?_of_get? hget
      obtain ⟨stage', jobs', outcomes⟩ := task
      cases leaves with
      | done time => simp [step?, hstage] at hstep
      | cancelled => simp [step?, hstage] at hstep
      | busy serves =>
        cases advanced_of_step? hget serves (tidy.proper v _ hstage) hstep with
        | waits _ _ _ _ _ keys => exact .before (by rwa [hmove, keys] at ht)
        | ends _ _ _ _ _ _ _ keys => exact .before (by rwa [hmove, keys] at ht)
        | @charges c limit charged after =>
          have hne : v ≠ s.nextTask := by
            rintro rfl
            exact tidy.nextTask_not_mem hv
          by_cases hnew : t = s.nextTask
          · refine .charged (e := c.evaluation limit) rfl hnew ?_
            rw [hmove, after, hnew]
            exact get?_charge_child hne c limit
          · apply Enters.before
            simpa [hmove, after, charge_eq, hnew] using ht

/-- A move adds at most the next task. -/
theorem enters_move (tidy : Tidy s)
    (does : ∀ v ∈ Table.keys s.tasks, ∃ jobs past left, s.Does v jobs past left)
    (ht : t ∈ Table.keys (s.move W m).tasks) : Enters W s m t := by
  cases m with
  | step v => exact enters_of_step tidy does ht
  | start jobs =>
    by_cases hnew : t = s.nextTask
    · subst hnew
      exact .started rfl rfl (get?_start_self s jobs)
    · exact .before (by simpa [Limiter.move, hnew] using ht)
  | cancel v =>
    exact .before (by simpa [Limiter.move] using ht)
  | close =>
    apply Enters.before
    simpa [Limiter.move, close] using ht
  | release name =>
    apply Enters.before
    simp only [Limiter.move] at ht
    split at ht
    · simpa using ht
    · exact ht
  | _ => exact .before ht

/-! ## Tasks under way -/

/-- A task that is under way is at one of its jobs. -/
theorem Does.exists_serves {jobs left : List Job} {past : List (Job × Outcome)}
    (h : s.Does t jobs past left) {stage : Stage} (hs : s.stage? t = some stage)
    (under : stage.isOver = false) : ∃ job ∈ jobs, stage.Serves job := by
  obtain ⟨task, hget, -, leaves⟩ := h.entry
  obtain rfl : task.stage = stage := Option.some.inj ((stage?_of_get? hget).symm.trans hs)
  obtain ⟨stage, jobs', outcomes⟩ := task
  cases leaves with
  | @busy _ job _ serves =>
    refine ⟨job, ?_, serves⟩
    rw [h.parts]
    exact List.mem_append_right _ (List.mem_cons_self ..)
  | done time => cases under
  | cancelled => cases under

/-- The task has one call to count, as the charge has it, and nothing else. -/
def CountsFor (s : Limiter σ) (t : TaskId) (c : Charge) (limit : Limit) : Prop :=
  ∃ past left, s.Does t [.evaluate (c.evaluation limit)] past left

namespace CountsFor

variable {c : Charge} {limit : Limit}

theorem move (tidy : Tidy s) (h : s.CountsFor t c limit) (m : Move ε) :
    (s.move W m).CountsFor t c limit := by
  obtain ⟨past, left, does⟩ := h
  exact does.exists_move tidy m

theorem run (returned : Returned s) (h : s.CountsFor t c limit) (moves : List (Move ε)) :
    (s.run W moves).CountsFor t c limit := by
  induction moves generalizing s with
  | nil => exact h
  | cons m moves ih => exact ih ((Returned.invariant W).move returned m) (h.move returned.tidy m)

/-- It has not counted the call, or it has counted one, as it was to. -/
theorem eq_of_mem (h : s.CountsFor t c limit) {count : Counted} (hcount : count ∈ s.countsOf t) :
    s.countsOf t = [count] ∧ count.key = counterKey c.identity c.service ∧
      count.limit = limit.times ∧ count.windowMs = limit.windowMs := by
  obtain ⟨past, left, does⟩ := h
  rcases does.evaluation_cases with ⟨-, hnone⟩ | ⟨only, -, hone, hkey, hlimit, hwindow⟩ |
    ⟨f, -, hnone⟩
  · rw [hnone] at hcount
    cases hcount
  · rw [hone] at hcount
    obtain rfl : count = only := List.mem_singleton.mp hcount
    exact ⟨hone, hkey, hlimit, hwindow⟩
  · rw [hnone] at hcount
    cases hcount

end CountsFor

/-! ## Everybody -/

/-- Every task is about its jobs, and every decision was made from what a task came to that had a
call to count. -/
structure Attended (s : Limiter σ) : Prop where
  returned : Returned s
  attends : ∀ t ∈ Table.keys s.tasks, ∃ jobs past left, s.Attends t jobs past left
  decided : ∀ d ∈ s.decisions, ∃ c limit, s.CountsFor d.child c limit

namespace Attended

theorem fresh (backend : σ) (settings : PoolSettings) :
    Attended (Limiter.fresh backend settings) where
  returned := .fresh backend settings
  attends t ht := by cases ht
  decided d hd := by cases hd

theorem does (h : Attended s) :
    ∀ t ∈ Table.keys s.tasks, ∃ jobs past left, s.Does t jobs past left := by
  intro t ht
  obtain ⟨jobs, past, left, attends⟩ := h.attends t ht
  exact ⟨jobs, past, left, attends.does⟩

/-- A task has been there before the move, or it is at its beginning. -/
theorem attends_move (h : Attended s) (m : Move ε) (ht : t ∈ Table.keys (s.move W m).tasks) :
    ∃ jobs past left, (s.move W m).Attends t jobs past left := by
  have returned' : Returned (s.move W m) := (Returned.invariant W).move h.returned m
  cases enters_move h.returned.tidy h.does ht with
  | before old =>
    obtain ⟨jobs, past, left, attends⟩ := h.attends t old
    exact ⟨jobs, attends.exists_move h.returned m⟩
  | @started jobs which number entry => exact ⟨jobs, [], jobs, .of_begun returned' entry⟩
  | @charged v e which number entry => exact ⟨_, [], _, .of_begun returned' entry⟩

/-- A decision is made by a task that has waited for the call to be counted. -/
theorem decided_move (h : Attended s) (m : Move ε) :
    ∀ d ∈ (s.move W m).decisions, ∃ c limit, (s.move W m).CountsFor d.child c limit := by
  intro d hd
  have before : d ∈ s.decisions → ∃ c limit, (s.move W m).CountsFor d.child c limit := by
    intro hold
    obtain ⟨c, limit, counts⟩ := h.decided d hold
    exact ⟨c, limit, counts.move h.returned.tidy m⟩
  rcases decisions_move W h.returned.tidy m with heq | ⟨u, child, c, -, waiting, heq⟩
  · exact before (heq ▸ hd)
  · rw [heq, List.mem_append, List.mem_singleton] at hd
    rcases hd with hold | rfl
    · exact before hold
    · obtain ⟨jobs, past, left, attends⟩ := h.attends u (mem_keys_of_stage? waiting)
      obtain ⟨job, rest, limit, done, undone, -, -, does⟩ := attends.backed c child waiting
      have counts : s.CountsFor child c limit := ⟨done, undone, does⟩
      exact ⟨c, limit, counts.move h.returned.tidy m⟩

theorem move (h : Attended s) (m : Move ε) : Attended (s.move W m) where
  returned := (Returned.invariant W).move h.returned m
  attends _ ht := h.attends_move m ht
  decided := h.decided_move m

end Attended

theorem attended_run (W : Surroundings σ ε) (backend : σ) (settings : PoolSettings)
    (moves : List (Move ε)) : Attended ((Limiter.fresh backend settings).run W moves) :=
  run_induction (P := Attended) (fun _ m h => h.move m) (.fresh backend settings) moves

/-! ## Jobs that a task is about to begin -/

/-- A task before a job has that job to do next. -/
theorem Attended.exists_attends (h : Attended s) {job : Job} (hs : s.stage? t = some (.fresh job)) :
    ∃ jobs past rest, s.Attends t jobs past (job :: rest) := by
  obtain ⟨jobs, past, left, attends⟩ := h.attends t (mem_keys_of_stage? hs)
  obtain ⟨task, hget, -, leaves⟩ := id attends.does.entry
  obtain ⟨stage, jobs', outcomes⟩ := task
  obtain rfl : stage = .fresh job := Option.some.inj ((stage?_of_get? hget).symm.trans hs)
  cases leaves with
  | @busy _ job' _ serves =>
    obtain rfl : job = job' := serves
    exact ⟨jobs, past, jobs', attends⟩

/-- If the next job of a task has ended in a run, then it has ended in a step of the task, up to
which it was the next one. -/
theorem Attends.exists_step {jobs rest : List Job} {past : List (Job × Outcome)} {job : Job}
    {o : Outcome} (returned : Returned s) (h : s.Attends t jobs past (job :: rest))
    (moves : List (Move ε))
    (ended : ((s.run W moves).outcomes t)[(s.outcomes t).length]? = some o) :
    ∃ before, (s.run W before).Attends t jobs past (job :: rest) ∧
      (s.run W before).step? W.backend t = some ((s.run W before).move W (.step t)) ∧
      ((s.run W before).move W (.step t)).Attends t jobs (past ++ [(job, o)]) rest := by
  obtain ⟨new, left, hrun, hfound⟩ := h.run (W := W) returned moves
  rw [hrun.does.outcomes, h.does.outcomes, List.map_append, List.length_map,
    List.getElem?_append_right (by simp), List.length_map, Nat.sub_self] at ended
  cases new with
  | nil => cases ended
  | cons p new =>
    obtain ⟨job', o'⟩ := p
    obtain rfl : o' = o := Option.some.inj ended
    obtain ⟨before, after, rest', -, hbefore, hstep, hafter⟩ := hfound [] job' o' new rfl
    rw [List.append_nil] at hbefore hafter
    -- the jobs are the same, so what is left of them after the same past is too
    have hparts := h.does.parts.symm.trans hbefore.does.parts
    rw [List.append_cancel_left_eq] at hparts
    obtain ⟨rfl, rfl⟩ := List.cons.inj hparts
    exact ⟨before, hbefore, hstep, hafter⟩

end Limiter

end Turnstile
