import Turnstile.Proofs.Runs.Attendance
import Turnstile.Proofs.Runs.Metrics

/-!
# Decisions are announced

Of a run one sees what one sees before each of its moves (`seen`): the tasks that are started with
their jobs, and the decisions that are come to. A task decides exactly as often as a job of it that
has somebody charged ends, and each of these jobs ends with the decision being told
(`Attends.announced`). Tasks that others start to have a call counted decide nothing, so after every
run each decision is one that a started task has announced (`Kept.run`).
-/

namespace Turnstile

/-- What a caller is told of a decision when the limiter has that status. -/
def Charge.answer (c : Charge) (status : Status) (d : Decision) : Answer :=
  match c.request with
  | none => .decision d
  | some r => .response (Site.respond r status d)

/-- A job that has somebody charged has ended with the decision, which is for the charged
service. -/
def Announces (p : Job × Outcome) (d : Decided) : Prop :=
  ∃ c limit status, p.1.charge? = some (c, limit) ∧ d.service = c.service ∧
    p.2 = .ok (c.answer status d.decision)

namespace Limiter

variable {σ ε α : Type} {W : Surroundings σ ε} {B : Backend σ} {s s' : Limiter σ} {t : TaskId}

theorem tell_eq (s : Limiter σ) (c : Charge) (d : Decision) : s.tell c d = c.answer s.status d :=
  rfl

/-- What somebody sees who looks at the limiter and the next move before each move of a run. -/
def seen (W : Surroundings σ ε) (look : Limiter σ → Move ε → Option α) (s : Limiter σ) :
    List (Move ε) → List α
  | [] => []
  | m :: moves => (look s m).toList ++ (s.move W m).seen W look moves

/-- The task that a move starts, with its jobs. -/
def started? (s : Limiter σ) : Move ε → Option (TaskId × List Job)
  | .start jobs => some (s.nextTask, jobs)
  | _ => none

/-! ## A task that was started -/

/-- Whoever waits for a call to be counted is about a job that has somebody charged. -/
theorem Does.charged_of_awaiting {jobs left : List Job} {past : List (Job × Outcome)} {c : Charge}
    {child : TaskId} (h : s.Does t jobs past left) (hs : s.stage? t = some (.awaiting c child)) :
    ∃ job rest limit, left = job :: rest ∧ job.charge? = some (c, limit) := by
  obtain ⟨task, hget, -, leaves⟩ := h.entry
  rw [stage?_of_get? hget] at hs
  rw [Option.some.inj hs] at leaves
  cases leaves with
  | busy serves =>
    obtain ⟨limit, charged⟩ := serves
    exact ⟨_, _, limit, rfl, charged⟩

namespace Attends

variable {jobs left rest : List Job} {past : List (Job × Outcome)} {job : Job} {o : Outcome}

/-- A task that decides ends a job. -/
theorem task_ne_of_stays {m : Move ε} {d : Decided} (h : s.Attends t jobs past left)
    (stays : (s.move W m).Attends t jobs past left) (hd : s.decided? m = some d) : d.task ≠ t := by
  rintro rfl
  obtain ⟨t, c, child, rfl, hs, ended, rfl⟩ := eq_of_decided? hd
  have step : s.step? W.backend t = some (s.move W (.step t)) := by
    simp [Limiter.move, step?, hs, ended]
  obtain ⟨task, hget, -⟩ := h.does.entry
  obtain ⟨d, -, houtcomes⟩ := concluded_of_awaiting hget hs step
  rw [stays.does.outcomes, h.does.outcomes] at houtcomes
  simp at houtcomes

/-- A task does not decide at a job that has nobody charged. -/
theorem decided?_of_uncharged (h : s.Attends t jobs past (job :: rest))
    (uncharged : job.charge? = none) : s.decided? (.step t : Move ε) = none := by
  cases hd : s.decided? (.step t : Move ε) with
  | none => rfl
  | some d =>
    obtain ⟨_, c, child, hstep, hs, -⟩ := eq_of_decided? hd
    cases hstep
    obtain ⟨job', rest', limit, hleft, charged⟩ := h.does.charged_of_awaiting hs
    cases hleft
    rw [uncharged] at charged
    cases charged

/-- A job that has somebody charged ends with a decision, which it announces. -/
theorem announces_of_ended {c : Charge} {limit : Limit} (tidy : Tidy s)
    (h : s.Attends t jobs past (job :: rest)) (charged : job.charge? = some (c, limit))
    (step : s.step? W.backend t = some s') (ended : s'.Does t jobs (past ++ [(job, o)]) rest) :
    ∃ d, s.decided? (.step t : Move ε) = some d ∧ d.task = t ∧ Announces (job, o) d := by
  obtain ⟨child, hs⟩ := h.awaiting_of_ended tidy charged step ended
  obtain ⟨task, hget, -⟩ := h.does.entry
  obtain ⟨d, concluded, houtcomes⟩ := concluded_of_awaiting hget hs step
  rw [ended.outcomes, h.does.outcomes, List.map_append, List.append_cancel_left_eq, tell_eq]
    at houtcomes
  refine ⟨⟨t, child, c.service, d⟩, ?_, rfl, c, limit, _, charged, rfl,
    List.singleton_inj.mp houtcomes⟩
  simp [decided?, hs, concluded.ended, concluded.decision, decision_decideOn_eq]

/-- Of the decisions that a move comes to, those of a task are announced by the jobs of the task
that the move ends. -/
theorem announced (returned : Returned s) (h : s.Attends t jobs past left) (m : Move ε) :
    ∃ new left', (s.move W m).Attends t jobs (past ++ new) left' ∧
      List.Forall₂ Announces (new.filter fun p => p.1.charge?.isSome)
        ((s.decided? m).toList.filter fun d => d.task = t) := by
  rcases h.move (W := W) returned m with stays | ⟨job, rest, o, rfl, rfl, step, ended⟩
  · refine ⟨[], left, by rwa [List.append_nil], ?_⟩
    cases hd : s.decided? m with
    | none => exact .nil
    | some d => simp [h.task_ne_of_stays stays hd]
  · refine ⟨[(job, o)], rest, ended, ?_⟩
    cases charged : job.charge? with
    | none => simp [charged, h.decided?_of_uncharged charged]
    | some charge =>
      obtain ⟨c, limit⟩ := charge
      obtain ⟨d, hd, rfl, hannounces⟩ :=
        h.announces_of_ended returned.tidy charged step ended.does
      simpa [charged, hd] using hannounces

end Attends

/-! ## All tasks -/

/-- Every task is one of those that were started or has a call counted for another one. The
decisions are those that the started tasks have announced. -/
structure Kept (s : Limiter σ) (starts : List (TaskId × List Job)) (ds : List Decided) : Prop where
  returned : Returned s
  distinct : (starts.map Prod.fst).Nodup
  announced : ∀ t jobs, (t, jobs) ∈ starts → ∃ past left, s.Attends t jobs past left ∧
    List.Forall₂ Announces (past.filter fun p => p.1.charge?.isSome) (ds.filter fun d => d.task = t)
  others : ∀ t ∈ Table.keys s.tasks, t ∉ starts.map Prod.fst →
    ∃ e past left, s.Does t [.evaluate e] past left
  deciders : ∀ d ∈ ds, d.task ∈ starts.map Prod.fst

namespace Kept

variable {starts : List (TaskId × List Job)} {ds : List Decided}

theorem fresh (backend : σ) (settings : PoolSettings) :
    Kept (Limiter.fresh backend settings) [] [] where
  returned := .fresh backend settings
  distinct := .nil
  announced t jobs hmem := by cases hmem
  others t ht := by cases ht
  deciders d hd := by cases hd

/-- Started tasks are tasks. -/
theorem mem_keys (h : Kept s starts ds) (ht : t ∈ starts.map Prod.fst) :
    t ∈ Table.keys s.tasks := by
  obtain ⟨⟨t, jobs⟩, hmem, rfl⟩ := List.mem_map.mp ht
  obtain ⟨past, left, attends, -⟩ := h.announced t jobs hmem
  obtain ⟨task, hget, -⟩ := attends.does.entry
  exact Table.mem_keys_of_get? hget

theorem does (h : Kept s starts ds) :
    ∀ t ∈ Table.keys s.tasks, ∃ jobs past left, s.Does t jobs past left := by
  intro t ht
  by_cases started : t ∈ starts.map Prod.fst
  · obtain ⟨⟨t, jobs⟩, hmem, rfl⟩ := List.mem_map.mp started
    obtain ⟨past, left, attends, -⟩ := h.announced t jobs hmem
    exact ⟨jobs, past, left, attends.does⟩
  · obtain ⟨e, past, left, does⟩ := h.others t ht started
    exact ⟨_, past, left, does⟩

/-- Only started tasks decide. -/
theorem mem_of_decided? (h : Kept s starts ds) {m : Move ε} {d : Decided}
    (hd : s.decided? m = some d) : d.task ∈ starts.map Prod.fst := by
  obtain ⟨t, c, child, rfl, hs, -, rfl⟩ := eq_of_decided? hd
  apply Decidable.byContradiction
  intro unstarted
  obtain ⟨e, past, left, does⟩ := h.others t (mem_keys_of_stage? hs) unstarted
  -- the one job of such a task has nobody charged
  obtain ⟨job, hmem, limit, charged⟩ := does.exists_serves hs rfl
  obtain rfl := List.mem_singleton.mp hmem
  cases charged

/-- A move that starts a task gives it a number that no other task has. -/
theorem started_new (h : Kept s starts ds) {m : Move ε} {jobs : List Job}
    (started : s.started? m = some (t, jobs)) : t ∉ starts.map Prod.fst ∧ s.decided? m = none ∧
      Table.get? (s.move W m).tasks t = some (.ofJobs s.clock jobs) := by
  cases m with
  | start jobs =>
    cases started
    refine ⟨?_, rfl, get?_start_self s jobs⟩
    intro hmem
    exact h.returned.tidy.nextTask_not_mem (h.mem_keys hmem)
  | _ => cases started

/-- A new task has announced nothing. -/
theorem filter_eq_nil (h : Kept s starts ds) (ht : t ∉ starts.map Prod.fst) :
    (ds.filter fun d => d.task = t) = [] := by
  rw [List.filter_eq_nil_iff]
  intro d hd heq
  rw [decide_eq_true_eq] at heq
  exact ht (heq ▸ h.deciders d hd)

theorem move (h : Kept s starts ds) (m : Move ε) :
    Kept (s.move W m) (starts ++ (s.started? m).toList) (ds ++ (s.decided? m).toList) where
  returned := (Returned.invariant W).move h.returned m
  distinct := by
    cases started : s.started? m with
    | none => simpa using h.distinct
    | some e =>
      rw [Option.toList_some, List.map_append, List.map_singleton, List.nodup_append]
      refine ⟨h.distinct, List.nodup_singleton _, ?_⟩
      rintro a ha b hb rfl
      obtain rfl := List.mem_singleton.mp hb
      exact (h.started_new (W := W) started).1 ha
  announced t jobs hmem := by
    rcases List.mem_append.mp hmem with hold | hnew
    · obtain ⟨past, left, attends, hpast⟩ := h.announced t jobs hold
      obtain ⟨new, left', attends', hnew⟩ := attends.announced (W := W) h.returned m
      refine ⟨past ++ new, left', attends', ?_⟩
      rw [List.filter_append, List.filter_append]
      exact List.rel_append hpast hnew
    · have started : s.started? m = some (t, jobs) := Option.mem_toList.mp hnew
      obtain ⟨hfresh, unseen, begun⟩ := h.started_new (W := W) started
      refine ⟨[], jobs, .of_begun ((Returned.invariant W).move h.returned m) begun, ?_⟩
      rw [unseen, Option.toList_none, List.append_nil, h.filter_eq_nil hfresh]
      exact .nil
  others t ht unstarted := by
    rw [List.map_append, List.mem_append, not_or] at unstarted
    cases enters_move h.returned.tidy h.does ht with
    | before old =>
      obtain ⟨e, past, left, does⟩ := h.others t old unstarted.1
      obtain ⟨past', left', does'⟩ := does.exists_move (W := W) h.returned.tidy m
      exact ⟨e, past', left', does'⟩
    | started which number entry =>
      subst which number
      simp [started?] at unstarted
    | @charged v e which number entry =>
      exact ⟨e, [], _, .of_begun ((Returned.invariant W).move h.returned m) entry⟩
  deciders d hd := by
    rw [List.map_append, List.mem_append]
    rcases List.mem_append.mp hd with hold | hnew
    · exact .inl (h.deciders d hold)
    · exact .inl (h.mem_of_decided? (Option.mem_toList.mp hnew))

theorem run (h : Kept s starts ds) (moves : List (Move ε)) :
    Kept (s.run W moves) (starts ++ s.seen W started? moves) (ds ++ s.seen W decided? moves) := by
  induction moves generalizing s starts ds with
  | nil =>
    rw [seen, seen, List.append_nil, List.append_nil]
    exact h
  | cons m moves ih =>
    have hrest := ih (h.move (W := W) m)
    rwa [List.append_assoc, List.append_assoc] at hrest

/-- The jobs and the outcomes of a started task tell its decisions. -/
theorem forall₂_announces (h : Kept s starts ds) {jobs : List Job} (hmem : (t, jobs) ∈ starts) :
    List.Forall₂ Announces ((jobs.zip (s.outcomes t)).filter fun p => p.1.charge?.isSome)
      (ds.filter fun d => d.task = t) := by
  obtain ⟨past, left, attends, hpast⟩ := h.announced t jobs hmem
  rwa [← attends.does.past_eq_zip]

/-- If no job of a started task has somebody charged and an outcome, the task has not decided. -/
theorem task_ne (h : Kept s starts ds) {jobs : List Job} (hmem : (t, jobs) ∈ starts)
    (uncharged : ∀ p ∈ jobs.zip (s.outcomes t), p.1.charge? = none) : ∀ d ∈ ds, d.task ≠ t := by
  intro d hd heq
  have hall := h.forall₂_announces hmem
  have hnone : (jobs.zip (s.outcomes t)).filter (fun p => p.1.charge?.isSome) = [] := by
    rw [List.filter_eq_nil_iff]
    intro p hp
    simp [uncharged p hp]
  rw [hnone, List.forall₂_nil_left_iff, List.filter_eq_nil_iff] at hall
  exact hall d hd (decide_eq_true heq)

end Kept

end Limiter

end Turnstile
