import Turnstile.Proofs.Runs.Jobs

/-!
# What becomes of a task in a run

A move leaves a task alone, cancels it or lets it take a step (`fate_move`). So at any time a task
has done the first of its jobs, each of which has ended in a way of its own, it is at the next one,
and the store has counted for it exactly what these jobs say (`Attends`). Each job ended in a step
of the task, which can be found in the run (`Attends.run`).
-/

namespace Turnstile

/-- What may become of the stage of a task while others act: it stays, or a permit has come. -/
inductive Stage.Handed : Stage → Stage → Prop where
  | same (stage : Stage) : Handed stage stage
  | permit (goal : Goal) (expiry : Timer) : Handed (.queued goal expiry) (.granted goal)

namespace Stage.Handed

variable {a b c : Stage}

theorem trans (h : Handed a b) (h' : Handed b c) : Handed a c := by
  cases h with
  | same => exact h'
  | permit goal expiry =>
    cases h'
    exact .permit goal expiry

theorem serves {job : Job} (h : Handed a b) (serves : a.Serves job) : b.Serves job := by
  cases h <;> exact serves

theorem eq_awaiting {charge : Charge} {child : TaskId} (h : Handed a (.awaiting charge child)) :
    a = .awaiting charge child := by
  cases h
  rfl

theorem eq_of_isOver (h : Handed a b) (ended : a.isOver = true) : b = a := by
  cases h with
  | same => rfl
  | permit => cases ended

end Stage.Handed

/-- What a task at a stage has left to do, given the jobs that it has yet to begin. -/
inductive Stage.Leaves : Stage → List Job → List Job → Prop where
  | busy {stage : Stage} {job : Job} {jobs : List Job} (serves : stage.Serves job) :
    Leaves stage jobs (job :: jobs)
  | done (time : Time) : Leaves (.done time) [] []
  /-- A task that was cancelled does nothing of what it has left. -/
  | cancelled (jobs left : List Job) : Leaves .cancelled jobs left

theorem Stage.Leaves.handed {stage stage' : Stage} {jobs left : List Job}
    (h : stage.Leaves jobs left) (handed : stage.Handed stage') : stage'.Leaves jobs left := by
  cases h with
  | busy serves => exact .busy (handed.serves serves)
  | done time => exact (handed.eq_of_isOver rfl) ▸ .done time
  | cancelled => exact (handed.eq_of_isOver rfl) ▸ .cancelled jobs left

/-- After a job the next one is left, or none. -/
theorem Task.leaves_settled (task : Task) (now : Time) (outcome : Outcome) :
    (task.settled now outcome).stage.Leaves (task.settled now outcome).jobs task.jobs := by
  obtain ⟨stage, jobs, outcomes⟩ := task
  cases jobs with
  | nil => exact .done now
  | cons job jobs => exact .busy rfl

theorem Task.leaves_ofJobs (now : Time) (jobs : List Job) :
    (Task.ofJobs now jobs).stage.Leaves (Task.ofJobs now jobs).jobs jobs := by
  cases jobs with
  | nil => exact .done now
  | cons job jobs => exact .busy rfl

namespace Limiter

variable {σ ε : Type} {W : Surroundings σ ε} {B : Backend σ} {s s' u : Limiter σ} {t : TaskId}

/-! ## Tasks that others leave alone -/

/-- Nothing has happened to a task, except that a permit may have come for it. -/
structure Spared (t : TaskId) (s s' : Limiter σ) : Prop where
  entry : ∀ task, Table.get? s.tasks t = some task →
    ∃ stage, Table.get? s'.tasks t = some { task with stage } ∧ task.stage.Handed stage
  counts : s'.countsOf t = s.countsOf t

namespace Spared

theorem of_get? (tasks : Table.get? s'.tasks t = Table.get? s.tasks t)
    (counts : s'.counts = s.counts) : Spared t s s' where
  entry task hget := ⟨task.stage, tasks.trans hget, .same _⟩
  counts := by rw [countsOf, counts, countsOf]

theorem of_eq (tasks : s'.tasks = s.tasks) (counts : s'.counts = s.counts) : Spared t s s' :=
  of_get? (by rw [tasks]) counts

theorem refl (s : Limiter σ) : Spared t s s := of_eq rfl rfl

theorem trans (h : Spared t s u) (h' : Spared t u s') : Spared t s s' where
  entry task hget := by
    obtain ⟨stage, hu, handed⟩ := h.entry task hget
    obtain ⟨stage', hs', handed'⟩ := h'.entry _ hu
    exact ⟨stage', hs', handed.trans handed'⟩
  counts := h'.counts.trans h.counts

theorem wakeAll (s : Limiter σ) (ts : List TaskId) : Spared t s (s.wakeAll ts) :=
  of_eq (by simp) (by simp [Limiter.counts])

theorem freePermit (s : Limiter σ) : Spared t s s.freePermit := by
  rcases s.freePermit_cases with ⟨-, heq⟩ | ⟨v, rest, -, -, heq⟩ |
    ⟨v, rest, goal, expiry, ready, -, hs, heq⟩
  · rw [heq]
    exact of_eq rfl rfl
  · rw [heq]
    exact of_eq rfl rfl
  · rw [heq]
    by_cases hv : t = v
    · -- the permit is for this task
      subst hv
      refine ⟨fun task hget => ⟨.granted goal, ?_, ?_⟩, rfl⟩
      · simp [hget]
      · rw [stage?_of_get? hget] at hs
        rw [Option.some.inj hs]
        exact .permit goal expiry
    · exact of_get? (by simp [hv]) rfl

theorem giveBack (s : Limiter σ) (l : Lease) : Spared t s (s.giveBack l) := by
  have hback : Spared t s { s with pool := s.pool.takeBack s.settings.keepalive l } :=
    of_eq rfl rfl
  exact hback.trans (freePermit _)

theorem reclaim (s : Limiter σ) (v : TaskId) (stage : Stage) : Spared t s (s.reclaim v stage) := by
  cases stage with
  | queued => exact of_eq rfl rfl
  | granted | probing | opening | sweeping => exact freePermit s
  | evaluating | verifying | holding => exact giveBack ..
  | _ => exact refl s

theorem start (tidy : Tidy s) (jobs : List Job) : Spared t s (s.start jobs).1 := by
  refine ⟨fun task hget => ⟨task.stage, ?_, .same _⟩, by simp [countsOf]⟩
  have hne : t ≠ s.nextTask := by
    rintro rfl
    exact tidy.nextTask_not_mem (Table.mem_keys_of_get? hget)
  simp [hne, hget]

/-- What another task does spares this one. -/
theorem act {v : TaskId} {m m' : Motion σ} (a : Act B v m m') (tidy : Tidy m.state)
    (hne : t ≠ v) : Spared t m.state m'.state := by
  cases a with
  | aside a =>
    refine of_eq ?_ (counts_aside a)
    cases a <;> rfl
  | emit e own => exact of_eq rfl (counts_emit own)
  | start jobs => exact start tidy jobs
  | free => exact freePermit _
  | @finish h s call fits =>
    refine ⟨fun task hget => ⟨task.stage, hget, .same _⟩, ?_⟩
    rw [countsOf, counts_finishCall, List.filter_append, Returning.task_counted? _ _ _ hne,
      List.append_nil]
    rfl
  | _ => exact of_eq rfl rfl

theorem leads {v : TaskId} {m : Motion σ} (path : Leads B v m s') (tidy : Tidy m.state)
    (hne : t ≠ v) : Spared t m.state s' := by
  induction path with
  | act a rest ih => exact (act a tidy hne).trans (ih (tidy.act a))
  | park stage proper => exact of_get? (get?_setStage_ne hne stage) rfl
  | settle outcome passed => exact of_get? (by simp [hne]) (by simp [Limiter.counts])

end Spared

/-! ## One move -/

/-- What a move makes of a task. -/
inductive Fate (W : Surroundings σ ε) (t : TaskId) (task : Task) (m : Move ε) (s : Limiter σ) :
    Prop where
  /-- A permit may have come for it. -/
  | spared (stage : Stage) (entry : Table.get? (s.move W m).tasks t = some { task with stage })
    (handed : task.stage.Handed stage) (counts : (s.move W m).countsOf t = s.countsOf t)
  | cancelled (which : m = .cancel t)
    (entry : Table.get? (s.move W m).tasks t = some { task with stage := .cancelled })
    (counts : (s.move W m).countsOf t = s.countsOf t)
  | stepped (which : m = .step t) (step : s.step? W.backend t = some (s.move W m))

theorem Spared.fate {task : Task} {m : Move ε} (hget : Table.get? s.tasks t = some task)
    (h : Spared t s (s.move W m)) : Fate W t task m s := by
  obtain ⟨stage, entry, handed⟩ := h.entry task hget
  exact .spared stage entry handed h.counts

/-- A task that is cancelled has come to its last stage, whatever is then done with what it had. -/
theorem fate_cancel {task : Task} (hget : Table.get? s.tasks t = some task) :
    Fate W t task (.cancel t) s := by
  have hs : s.stage? t = some task.stage := stage?_of_get? hget
  by_cases ended : task.stage.isOver = true
  · refine Spared.fate hget ?_
    simp only [move, cancel, hs, if_pos ended]
    exact .refl s
  · let stopped := { s with ready := s.ready.erase t }.setStage t .cancelled
    have hstopped : Table.get? stopped.tasks t = some { task with stage := .cancelled } := by
      simp [stopped, hget]
    have hrest : Spared t stopped (s.move W (.cancel t)) := by
      simp only [move, cancel, hs, if_neg ended]
      exact (Spared.reclaim stopped t task.stage).trans (.wakeAll ..)
    obtain ⟨stage, entry, handed⟩ := hrest.entry _ hstopped
    obtain rfl : stage = .cancelled := handed.eq_of_isOver rfl
    exact .cancelled rfl entry hrest.counts

/-- Cancelling a task spares the others. -/
theorem Spared.cancel {v : TaskId} (hne : t ≠ v) : Spared t s (s.cancel v) := by
  unfold Limiter.cancel
  split
  · exact .refl s
  · split
    · exact .refl s
    · rename_i stage _ _
      have hstop : Spared t s ({ s with ready := s.ready.erase v }.setStage v .cancelled) :=
        .of_get? (get?_setStage_ne hne .cancelled) rfl
      exact hstop.trans ((Spared.reclaim _ v stage).trans (.wakeAll ..))

/-- A step of another task spares this one. -/
theorem Spared.of_step? {v : TaskId} (tidy : Tidy s) (hne : t ≠ v)
    (step : s.step? B v = some s') : Spared t s s' := by
  cases hstage : s.stage? v with
  | none => simp [Limiter.step?, hstage] at step
  | some stage =>
    exact Spared.leads (leads_of_step? hstage (tidy.proper v stage hstage) step) tidy hne

theorem Spared.step {v : TaskId} (tidy : Tidy s) (hne : t ≠ v) :
    Spared t s (s.move W (.step v)) := by
  cases hs : s.step? W.backend v with
  | none => simpa [move, hs] using Spared.refl s
  | some s' => simpa [move, hs] using Spared.of_step? tidy hne hs

/-- A move leaves a task alone, cancels it or lets it take a step. -/
theorem fate_move (W : Surroundings σ ε) (tidy : Tidy s) {task : Task}
    (hget : Table.get? s.tasks t = some task) (m : Move ε) : Fate W t task m s := by
  cases m with
  | step v =>
    by_cases hv : t = v
    · subst hv
      cases hs : s.step? W.backend t with
      | none =>
        refine Spared.fate hget ?_
        simpa [move, hs] using Spared.refl s
      | some s' => exact .stepped rfl (by simp [move, hs])
    · exact (Spared.step tidy hv).fate hget
  | cancel v =>
    by_cases hv : t = v
    · subst hv
      exact fate_cancel hget
    · exact (Spared.cancel hv : Spared t s (s.move W (.cancel v))).fate hget
  | start jobs => exact (Spared.start tidy jobs : Spared t s (s.move W (.start jobs))).fate hget
  | close =>
    have hshut : Spared t s { s with pool := s.pool.close.1 } := .of_eq rfl rfl
    exact (hshut.trans (.wakeAll _ s.pool.close.2) : Spared t s (s.move W .close)).fate hget
  | release name =>
    refine Spared.fate hget ?_
    simp only [move]
    split
    · have htake : Spared t s { s with held := Table.without s.held name } := .of_eq rfl rfl
      exact htake.trans (.giveBack ..)
    · exact .refl s
  | raise reason =>
    exact (Spared.of_eq rfl (counts_raise s reason) : Spared t s (s.move W (.raise reason))).fate
      hget
  | clear => exact (Spared.of_eq rfl (counts_clear s) : Spared t s (s.move W .clear)).fate hget
  | markBroken name =>
    exact (Spared.of_eq rfl rfl : Spared t s (s.move W (.markBroken name))).fate hget
  | pass us => exact (Spared.of_eq rfl rfl : Spared t s (s.move W (.pass us))).fate hget
  | tend change => exact (Spared.of_eq rfl rfl : Spared t s (s.move W (.tend change))).fate hget
  | arrange ready => exact (Spared.of_eq rfl rfl : Spared t s (s.move W (.arrange ready))).fate hget

/-! ## Calls that are counted by a task of their own -/

theorem charge_eq (s : Limiter σ) (t : TaskId) (c : Charge) (limit : Limit) :
    s.charge t c limit =
      (s.start [.evaluate (c.evaluation limit)]).1.setStage t (.awaiting c s.nextTask) := rfl

theorem get?_charge_child (ht : t ≠ s.nextTask) (c : Charge) (limit : Limit) :
    Table.get? (s.charge t c limit).tasks s.nextTask =
      some (.ofJobs s.clock [.evaluate (c.evaluation limit)]) := by
  simp [charge_eq, ht.symm]

theorem get?_charge_self (ht : t ≠ s.nextTask) {task : Task}
    (hget : Table.get? s.tasks t = some task) (c : Charge) (limit : Limit) :
    Table.get? (s.charge t c limit).tasks t =
      some { task with stage := .awaiting c s.nextTask } := by
  simp [charge_eq, ht, hget]

@[simp] theorem counts_charge (s : Limiter σ) (t : TaskId) (c : Charge) (limit : Limit) :
    (s.charge t c limit).counts = s.counts :=
  counts_start s _

/-! ## The jobs of a task -/

/-- A task that was to do jobs. It has done the first of them, each of which has ended in a way of
its own; the others are left; and the store has counted for it what the ended jobs say. -/
structure Does (s : Limiter σ) (t : TaskId) (jobs : List Job) (past : List (Job × Outcome))
    (left : List Job) : Prop where
  parts : jobs = past.map Prod.fst ++ left
  entry : ∃ task, Table.get? s.tasks t = some task ∧
    task.outcomes = (past.map Prod.snd).reverse ∧ task.stage.Leaves task.jobs left
  yields : ∀ p ∈ past, p.1.yields p.2 = true
  receipts : (s.countsOf t).map Counted.receipt = past.filterMap fun p => p.1.receipt? p.2

/-- What a move makes of the jobs of a task. -/
inductive Onward (W : Surroundings σ ε) (s : Limiter σ) (t : TaskId) (jobs : List Job)
    (past : List (Job × Outcome)) (left : List Job) (m : Move ε) : Prop where
  /-- No job ends, and no call is counted for the task by another one. -/
  | stays (does : (s.move W m).Does t jobs past left)
    (awaiting : ∀ c child, (s.move W m).stage? t = some (.awaiting c child) →
      s.stage? t = some (.awaiting c child))
  /-- The task has a call counted by another one. -/
  | charges {job : Job} {rest : List Job} {c : Charge} {limit : Limit} (next : left = job :: rest)
    (charged : job.charge? = some (c, limit)) (after : s.move W m = s.charge t c limit)
    (does : (s.move W m).Does t jobs past left)
  /-- A job ends in a step of the task. -/
  | ends {job : Job} {rest : List Job} {o : Outcome} (next : left = job :: rest)
    (which : m = .step t) (step : s.step? W.backend t = some (s.move W m))
    (does : (s.move W m).Does t jobs (past ++ [(job, o)]) rest)
    (alone : ∀ c child, (s.move W m).stage? t ≠ some (.awaiting c child))

namespace Does

variable {jobs left : List Job} {past : List (Job × Outcome)}

/-- A task at its beginning has done nothing, and nothing has been counted for it. -/
theorem of_begun (returned : Returned s) {now : Time}
    (begun : Table.get? s.tasks t = some (.ofJobs now jobs)) : s.Does t jobs [] jobs where
  parts := rfl
  entry := ⟨_, begun, Task.outcomes_ofJobs now jobs, Task.leaves_ofJobs now jobs⟩
  yields := by simp
  receipts := by
    have hverdicts : s.verdicts t = [] := by
      rw [verdicts, outcomes_of_get? begun, Task.outcomes_ofJobs]
      rfl
    rw [returned.verdicts t, List.map_eq_nil_iff] at hverdicts
    rw [hverdicts]
    rfl

theorem outcomes (h : s.Does t jobs past left) : s.outcomes t = past.map Prod.snd := by
  obtain ⟨task, hget, houtcomes, -⟩ := h.entry
  rw [outcomes_of_get? hget, houtcomes, List.reverse_reverse]

/-- The jobs and the outcomes together tell what has been done. -/
theorem past_eq_zip (h : s.Does t jobs past left) : past = jobs.zip (s.outcomes t) := by
  rw [h.outcomes, h.parts, ← List.append_nil (past.map Prod.snd),
    List.zip_append (by simp), List.zip_nil_right, List.append_nil, List.zip_map',
    show (fun p : Job × Outcome => (p.1, p.2)) = id from rfl, List.map_id]

/-- Another stage about the same jobs. -/
theorem park (h : s.Does t jobs past left) {task : Task} {stage : Stage}
    (hget : Table.get? s.tasks t = some task)
    (entry : Table.get? s'.tasks t = some { task with stage })
    (leaves : stage.Leaves task.jobs left) (counts : s'.countsOf t = s.countsOf t) :
    s'.Does t jobs past left := by
  obtain ⟨_, hget', houtcomes, -⟩ := h.entry
  obtain rfl := Option.some.inj (hget.symm.trans hget')
  exact ⟨h.parts, ⟨_, entry, houtcomes, leaves⟩, h.yields, counts ▸ h.receipts⟩

/-- The next job has ended. -/
theorem settle {job : Job} {rest : List Job} {o : Outcome}
    (h : s.Does t jobs past (job :: rest)) {task : Task} {now : Time}
    (hget : Table.get? s.tasks t = some task) (follows : task.jobs = rest)
    (yields : job.yields o = true)
    (entry : Table.get? s'.tasks t = some (task.settled now o))
    {new : List Counted} (counts : s'.countsOf t = s.countsOf t ++ new)
    (receipts : new.map Counted.receipt = (job.receipt? o).toList) :
    s'.Does t jobs (past ++ [(job, o)]) rest := by
  obtain ⟨_, hget', houtcomes, -⟩ := h.entry
  obtain rfl := Option.some.inj (hget.symm.trans hget')
  refine ⟨?_, ⟨_, entry, ?_, follows ▸ Task.leaves_settled ..⟩, ?_, ?_⟩
  · rw [h.parts, List.map_append, List.append_assoc]
    rfl
  · rw [Task.outcomes_settled, houtcomes, List.map_append, List.reverse_append]
    rfl
  · exact List.forall_mem_append.mpr ⟨h.yields, by simpa using yields⟩
  · rw [counts, List.map_append, h.receipts, receipts, List.filterMap_append]
    cases hr : job.receipt? o <;> simp [hr]

theorem filter_own {new : List Counted} (own : ∀ c ∈ new, c.task = t) :
    new.filter (fun c => c.task = t) = new :=
  List.filter_eq_self.mpr fun c hc => decide_eq_true (own c hc)

/-- A task takes a step. -/
theorem step (tidy : Tidy s) (h : s.Does t jobs past left)
    (hs : s.step? W.backend t = some (s.move W (.step t))) :
    Onward W s t jobs past left (.step t) := by
  obtain ⟨task, hget, -, leaves⟩ := id h.entry
  have hstage : s.stage? t = some task.stage := stage?_of_get? hget
  obtain ⟨stage, rest, outcomes⟩ := task
  cases leaves with
  | done time => simp [step?, hstage] at hs
  | cancelled => simp [step?, hstage] at hs
  | @busy _ job _ serves =>
    have ht : t ≠ s.nextTask := by
      rintro rfl
      exact tidy.nextTask_not_mem (Table.mem_keys_of_get? hget)
    have alone : ∀ {stage' : Stage}, stage'.isAwaiting = false → ∀ c child,
        stage' ≠ .awaiting c child := by
      rintro _ hfalse c child rfl
      cases hfalse
    cases advanced_of_step? hget serves (tidy.proper t _ hstage) hs with
    | @charges c limit charged after =>
      have waiting : (Stage.awaiting c s.nextTask).Serves job := ⟨limit, charged⟩
      refine .charges rfl charged after (h.park hget ?_ (.busy waiting) ?_)
      · rw [after]
        exact get?_charge_self ht hget c limit
      · rw [after, countsOf, counts_charge, countsOf]
    | waits stage' serves' hfalse entry counts keys =>
      refine .stays (h.park hget entry (.busy serves') (by rw [countsOf, counts, countsOf])) ?_
      intro c child hc
      rw [stage?_of_get? entry] at hc
      exact absurd (Option.some.inj hc) (alone hfalse c child)
    | ends o yields entry new counts own receipts keys =>
      have hcounts : (s.move W (.step t)).countsOf t = s.countsOf t ++ new := by
        rw [countsOf, counts, List.filter_append, filter_own own, countsOf]
      refine .ends rfl rfl hs (h.settle hget rfl yields entry hcounts receipts) ?_
      intro c child hc
      rw [stage?_of_get? entry] at hc
      cases rest <;> cases hc

theorem move (tidy : Tidy s) (h : s.Does t jobs past left) (m : Move ε) :
    Onward W s t jobs past left m := by
  obtain ⟨task, hget, -, leaves⟩ := id h.entry
  cases fate_move W tidy hget m with
  | spared stage entry handed counts =>
    refine .stays (h.park hget entry (leaves.handed handed) counts) fun c child hc => ?_
    rw [stage?_of_get? entry] at hc
    obtain rfl : stage = .awaiting c child := Option.some.inj hc
    rw [stage?_of_get? hget, handed.eq_awaiting]
  | cancelled which entry counts =>
    refine .stays (h.park hget entry (.cancelled ..) counts) fun c child hc => ?_
    rw [stage?_of_get? entry] at hc
    cases hc
  | stepped which hs =>
    subst which
    exact h.step tidy hs

theorem exists_move (tidy : Tidy s) (h : s.Does t jobs past left) (m : Move ε) :
    ∃ past left, (s.move W m).Does t jobs past left := by
  cases h.move (W := W) tidy m with
  | stays does _ => exact ⟨_, _, does⟩
  | charges _ _ _ does => exact ⟨_, _, does⟩
  | ends _ _ _ does _ => exact ⟨_, _, does⟩

/-- A task that is to count one call has not done so yet, has counted it once and brought the
verdict back, or has failed and not counted it. -/
theorem evaluation_cases {e : Evaluation} {left : List Job} {past : List (Job × Outcome)}
    (h : s.Does t [.evaluate e] past left) :
    (s.outcomes t = [] ∧ s.countsOf t = []) ∨
    (∃ c, s.outcomes t = [.ok (.verdict c.verdict)] ∧ s.countsOf t = [c] ∧
      c.key = e.key ∧ c.limit = e.limit ∧ c.windowMs = e.windowMs) ∨
    (∃ f, s.outcomes t = [.error (.fault f)] ∧ s.countsOf t = []) := by
  have hparts := h.parts
  rw [h.outcomes]
  match past with
  | [] => exact .inl ⟨rfl, List.map_eq_nil_iff.mp h.receipts⟩
  | [(job, o)] =>
    obtain ⟨rfl, -⟩ := List.cons.inj hparts
    have hyields := h.yields _ (List.mem_singleton_self _)
    rcases Job.eq_of_yields_evaluate hyields with ⟨v, rfl⟩ | ⟨f, rfl⟩
    · obtain ⟨c, hc, hreceipt⟩ := List.map_eq_singleton_iff.mp h.receipts
      obtain ⟨hkey, hlimit, hwindow, hverdict⟩ := Receipt.mk.inj hreceipt
      exact .inr (.inl ⟨c, by rw [hverdict]; rfl, hc, hkey, hlimit, hwindow⟩)
    · exact .inr (.inr ⟨f, rfl, List.map_eq_nil_iff.mp h.receipts⟩)
  | _ :: _ :: _ => simp at hparts

end Does

/-- A task that does jobs, with what holds while another task counts a call for it. -/
structure Attends (s : Limiter σ) (t : TaskId) (jobs : List Job) (past : List (Job × Outcome))
    (left : List Job) : Prop where
  does : s.Does t jobs past left
  /-- The task that it waits for counts the call that its job is about, and does nothing else. -/
  backed : ∀ c child, s.stage? t = some (.awaiting c child) →
    ∃ job rest limit done undone, left = job :: rest ∧ job.charge? = some (c, limit) ∧
      s.Does child [.evaluate (c.evaluation limit)] done undone

namespace Attends

variable {jobs left : List Job} {past : List (Job × Outcome)}

theorem of_begun (returned : Returned s) {now : Time}
    (begun : Table.get? s.tasks t = some (.ofJobs now jobs)) : s.Attends t jobs [] jobs where
  does := .of_begun returned begun
  backed c child hc := by
    rw [stage?_of_get? begun] at hc
    cases jobs <;> cases hc

/-- After a move a task is where it was with its jobs, or a job has ended in a step of the task. -/
theorem move (returned : Returned s) (h : s.Attends t jobs past left) (m : Move ε) :
    (s.move W m).Attends t jobs past left ∨
    ∃ job rest o, left = job :: rest ∧ m = .step t ∧
      s.step? W.backend t = some (s.move W m) ∧
      (s.move W m).Attends t jobs (past ++ [(job, o)]) rest := by
  have returned' : Returned (s.move W m) := (Returned.invariant W).move returned m
  cases h.does.move (W := W) returned.tidy m with
  | stays does awaiting =>
    refine .inl ⟨does, fun c child hc => ?_⟩
    -- it waits for the same task as before, which has gone on with its call
    obtain ⟨job, rest, limit, _, _, hleft, charged, hchild⟩ :=
      h.backed c child (awaiting c child hc)
    obtain ⟨done, undone, hchild⟩ := hchild.exists_move (W := W) returned.tidy m
    exact ⟨job, rest, limit, done, undone, hleft, charged, hchild⟩
  | @charges job rest c limit next charged after does =>
    refine .inl ⟨does, fun c' child hc => ?_⟩
    obtain ⟨task, hget, -⟩ := h.does.entry
    have ht : t ≠ s.nextTask := by
      rintro rfl
      exact returned.tidy.nextTask_not_mem (Table.mem_keys_of_get? hget)
    rw [after, stage?_of_get? (get?_charge_self ht hget c limit)] at hc
    cases hc
    have begun := get?_charge_child ht c limit
    rw [← after] at begun
    exact ⟨job, rest, limit, [], _, next, charged, .of_begun returned' begun⟩
  | ends next which step does alone =>
    exact .inr ⟨_, _, _, next, which, step, does, fun c child hc => absurd hc (alone c child)⟩

theorem exists_move (returned : Returned s) (h : s.Attends t jobs past left) (m : Move ε) :
    ∃ past left, (s.move W m).Attends t jobs past left := by
  rcases h.move (W := W) returned m with hsame | ⟨job, rest, o, -, -, -, hended⟩
  · exact ⟨past, left, hsame⟩
  · exact ⟨_, rest, hended⟩

/-- After a run a task has done some more of its jobs, each of which has ended in a step of the
task. -/
theorem run (returned : Returned s) (h : s.Attends t jobs past left) (moves : List (Move ε)) :
    ∃ fresh left', (s.run W moves).Attends t jobs (past ++ fresh) left' ∧
      ∀ pre job o post, fresh = pre ++ (job, o) :: post →
        ∃ before after rest, moves = before ++ .step t :: after ∧
          (s.run W before).Attends t jobs (past ++ pre) (job :: rest) ∧
          (s.run W before).step? W.backend t = some ((s.run W before).move W (.step t)) ∧
          ((s.run W before).move W (.step t)).Attends t jobs (past ++ pre ++ [(job, o)]) rest := by
  induction moves generalizing s past left with
  | nil =>
    refine ⟨[], left, by rwa [List.append_nil], fun pre job o post hnil => ?_⟩
    simp at hnil
  | cons m moves ih =>
    have returned' : Returned (s.move W m) := (Returned.invariant W).move returned m
    rcases h.move (W := W) returned m with hsame | ⟨job, rest, o, hleft, rfl, hstep, hended⟩
    · obtain ⟨fresh, left', hrun, hfound⟩ := ih returned' hsame
      refine ⟨fresh, left', hrun, fun pre job o post hfresh => ?_⟩
      obtain ⟨before, after, rest, hmoves, hbefore⟩ := hfound pre job o post hfresh
      exact ⟨m :: before, after, rest, by rw [hmoves, List.cons_append], hbefore⟩
    · obtain ⟨fresh, left', hrun, hfound⟩ := ih returned' hended
      refine ⟨(job, o) :: fresh, left', ?_, fun pre job' o' post hfresh => ?_⟩
      · rwa [List.append_assoc] at hrun
      · cases pre with
        | nil =>
          -- the job that has ended in the first move
          cases hfresh
          exact ⟨[], moves, rest, rfl, by rwa [List.append_nil, ← hleft], hstep,
            by rwa [List.append_nil]⟩
        | cons p pre =>
          cases hfresh
          obtain ⟨before, after, rest', hmoves, hbefore⟩ := hfound pre job' o' post rfl
          refine ⟨.step t :: before, after, rest', by rw [hmoves, List.cons_append], ?_⟩
          rwa [List.append_assoc] at hbefore

end Attends

end Limiter

end Turnstile
