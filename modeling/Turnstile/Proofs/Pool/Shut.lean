import Turnstile.Proofs.Degraded.Recovery
import Turnstile.Proofs.Pool.Freshness

/-!
# Closed pools

A pool that has been closed stays closed: nothing comes to rest in it and nobody gets into its line
or a permit out of it (`Shut`). So a task changes only by what it does itself
(`get?_move_of_shut`), a step ends with empty hands unless the task was getting a connection already
(`hand_of_step?_of_shut`), and whoever has nothing in hand gets nothing any more (`EmptyHanded`).
-/

namespace Turnstile

/-- Whether a task at the stage is getting a connection under a permit that it already has. -/
def Stage.IsGetting (stage : Stage) : Prop :=
  ∃ goal call, stage = .probing goal call ∨ stage = .opening goal call

namespace Limiter

variable {σ ε : Type} {W : Surroundings σ ε} {B : Backend σ} {s s' : Limiter σ} {t u : TaskId}

/-! ## Closed pools -/

/-- The pool is closed, nothing rests in it and nobody waits for it. -/
structure Shut (s : Limiter σ) : Prop where
  tidy : Tidy s
  closed : s.pool.closed = true
  idle : s.pool.idle = []
  line : s.pool.line = []

theorem shut_close (tidy : Tidy s) : Shut s.close where
  tidy := tidy.of_eq (by simp [close]) (by simp [close]) (by simp [close])
  closed := by simp [close, Pool.close]
  idle := by simp [close, Pool.close]
  line := by simp [close, Pool.close]

/-- A permit that is given back to a closed pool is nobody's. -/
theorem freePermit_of_shut (line : s.pool.line = []) :
    s.freePermit = { s with pool := { s.pool with free := s.pool.free + 1 } } := by
  simp [freePermit, line]

/-- A connection that is given back to a closed pool is dropped. -/
theorem giveBack_of_shut (closed : s.pool.closed = true) (line : s.pool.line = []) (l : Lease) :
    s.giveBack l = { s with pool := { s.pool with free := s.pool.free + 1 } } := by
  have hback : s.pool.takeBack s.settings.keepalive l = s.pool := by
    unfold Pool.takeBack
    split
    · rfl
    · exact Pool.rest_of_closed closed _
  rw [giveBack, hback]
  exact freePermit_of_shut line

namespace Shut

theorem act {m m' : Motion σ} (a : Act B t m m') (h : Shut m.state) : Shut m'.state := by
  have tidy := h.tidy.act a
  cases a with
  | aside a => cases a <;> exact ⟨tidy, h.closed, h.idle, h.line⟩
  | start jobs =>
    exact ⟨tidy, by simpa using h.closed, by simpa using h.idle, by simpa using h.line⟩
  | enqueue isOpen none_free => exact absurd (h.closed.symm.trans isOpen) (by simp)
  | take isOpen some_free => exact absurd (h.closed.symm.trans isOpen) (by simp)
  | @leave s =>
    have hline : s.pool.line = [] := h.line
    exact ⟨tidy, h.closed, h.idle, by simp [Pool.leave, hline]⟩
  | free =>
    have hfree := freePermit_of_shut h.line
    simp only at hfree
    rw [hfree] at tidy ⊢
    exact ⟨tidy, h.closed, h.idle, h.line⟩
  | lend front fresh => exact absurd (front.symm.trans h.idle) (by simp)
  | probe front => exact absurd (front.symm.trans h.idle) (by simp)
  | rest =>
    have hrest := Pool.rest_of_closed h.closed
    simp only [hrest] at tidy ⊢
    exact ⟨tidy, h.closed, h.idle, h.line⟩
  | _ => exact ⟨tidy, h.closed, h.idle, h.line⟩

theorem outside (ho : Outside W s s') (h : Shut s) : Shut s' := by
  have tidy := Tidy.outside ho h.tidy
  cases ho with
  | shut => exact ⟨tidy, rfl, rfl, rfl⟩
  | _ => exact ⟨tidy, h.closed, h.idle, h.line⟩

theorem invariant (W : Surroundings σ ε) :
    Invariant W Shut fun (_ : TaskId) (m : Motion σ) => Shut m.state where
  proper h hs := h.tidy.proper _ _ hs
  takeUp _ h := h
  layDown h := h
  act := act
  setStage proper h := ⟨h.tidy.setStage proper, h.closed, h.idle, h.line⟩
  settle hget _ h := ⟨h.tidy.settle hget _, h.closed, h.idle, h.line⟩
  outside := outside
  unkeep _ _ h := ⟨h.tidy.unkeep _, h.closed, h.idle, h.line⟩

end Shut

/-! ## Tasks in a closed pool -/

theorem Act.get?_of_shut {m m' : Motion σ} (a : Act B t m m') (shut : Shut m.state)
    (hu : u ∈ Table.keys m.state.tasks) :
    Table.get? m'.state.tasks u = Table.get? m.state.tasks u := by
  cases a with
  | aside a => cases a <;> rfl
  | start jobs =>
    refine get?_start_ne ?_ jobs
    rintro rfl
    exact shut.tidy.nextTask_not_mem hu
  | free =>
    have hfree := freePermit_of_shut shut.line
    simp only at hfree ⊢
    rw [hfree]
  | _ => rfl

theorem Leads.get?_of_shut {m : Motion σ} (path : Leads B t m s') (shut : Shut m.state)
    (hu : u ∈ Table.keys m.state.tasks) (hne : u ≠ t) :
    Table.get? s'.tasks u = Table.get? m.state.tasks u := by
  induction path with
  | act a rest ih => exact (ih (shut.act a) (a.mem_keys hu)).trans (a.get?_of_shut shut hu)
  | park stage proper => exact get?_setStage_ne hne stage
  | settle outcome passed => simp [hne]

theorem tasks_reclaim_of_shut (closed : s.pool.closed = true) (line : s.pool.line = [])
    (t : TaskId) (stage : Stage) : (s.reclaim t stage).tasks = s.tasks := by
  cases stage with
  | granted | probing | opening | sweeping =>
    simp only [reclaim, freePermit_of_shut line]
  | evaluating | verifying | holding => simp only [reclaim, giveBack_of_shut closed line]
  | _ => rfl

/-- Once the pool is closed, a task changes only if it steps or is cancelled itself. -/
theorem get?_move_of_shut (shut : Shut s) (hu : u ∈ Table.keys s.tasks) (m : Move ε) :
    Table.get? (s.move W m).tasks u = Table.get? s.tasks u ∨ m = .step u ∨ m = .cancel u := by
  cases m with
  | step t =>
    by_cases hne : u = t
    · exact .inr (.inl (hne ▸ rfl))
    · left
      cases hs : s.step? W.backend t with
      | none => simp only [move, hs, Option.getD_none]
      | some s' =>
        cases hstage : s.stage? t with
        | none => simp [step?, hstage] at hs
        | some stage =>
          have path := leads_of_step? hstage (shut.tidy.proper t stage hstage) hs
          simpa only [move, hs, Option.getD_some] using path.get?_of_shut shut hu hne
  | cancel t =>
    by_cases hne : u = t
    · exact .inr (.inr (hne ▸ rfl))
    · left
      cases hs : s.stage? t with
      | none => simp only [move, cancel, hs]
      | some stage =>
        simp only [move, cancel, hs]
        split
        · rfl
        · have hreclaim := tasks_reclaim_of_shut
            (s := { s with ready := s.ready.erase t }.setStage t .cancelled) shut.closed shut.line
            t stage
          simp [hreclaim, hne]
  | start jobs =>
    left
    refine get?_start_ne ?_ jobs
    rintro rfl
    exact shut.tidy.nextTask_not_mem hu
  | close =>
    left
    simp [move, close]
  | release name =>
    left
    simp only [move]
    split
    · have hback := giveBack_of_shut
        (s := { s with held := Table.without s.held name }) shut.closed shut.line
      rw [hback]
    · rfl
  | markBroken | raise | clear | pass | tend | arrange => exact .inl rfl

/-- An act in a closed pool gives nothing to whoever has nothing. -/
theorem Act.hand_of_closed {m m' : Motion σ} (a : Act B t m m')
    (closed : m.state.pool.closed = true) (empty : m.hand = .nothing) : m'.hand = .nothing := by
  cases a with
  | aside a => exact empty
  | emit e own => exact empty
  | start jobs => rfl
  | leave | dismiss => rfl
  | enqueue isOpen none_free => exact absurd (closed.symm.trans isOpen) (by simp)
  | take isOpen some_free => exact absurd (closed.symm.trans isOpen) (by simp)
  | @finish h s call fits =>
    obtain rfl : h = .nothing := empty
    cases (s.finishCall B t call).2 <;> rfl
  | @drop h o s has =>
    obtain rfl : h = .nothing := empty
    cases has
  | free | keep | swap | mark | rest | lend | probe | «open» => cases empty

/-- Whoever has nothing in hand gets nothing from a closed pool. -/
theorem Leads.hand_of_closed {m : Motion σ} (path : Leads B t m s')
    (closed : m.state.pool.closed = true) (ht : t ∈ Table.keys m.state.tasks)
    (empty : m.hand = .nothing) : s'.hand t = .nothing := by
  induction path with
  | act a rest ih =>
    exact ih (a.closed.trans closed) (a.mem_keys ht) (a.hand_of_closed closed empty)
  | park stage proper => exact (hand_setStage_self ht stage).trans empty
  | settle outcome passed => simp

/-! ## Steps in a closed pool -/

theorem want_of_closed (closed : s.pool.closed = true) (goal : Goal) :
    s.want B t goal = s.fail t .poolClosed := if_pos closed

/-- Giving a connection back first does not help. -/
theorem want_giveBack_of_closed (closed : s.pool.closed = true) (l : Lease) (goal : Goal) :
    (s.giveBack l).want B t goal = (s.giveBack l).fail t .poolClosed :=
  want_of_closed (by simpa using closed) goal

/-- Whoever ends an attempt to count a call when the pool is closed does not make another. -/
theorem hand_counted_of_closed (closed : s.pool.closed = true) (e : Evaluation) (attempt : Nat)
    (lease : Lease) (reply : Reply) :
    (s.counted B t e attempt lease reply).hand t = .nothing := by
  cases reply with
  | ok ms => simp [counted]
  | error f =>
    simp only [counted]
    split
    · rw [want_giveBack_of_closed]
      · simp
      · exact closed
    · simp

theorem outcomes_counted_of_closed (closed : s.pool.closed = true)
    (ht : t ∈ Table.keys s.tasks) (e : Evaluation) {attempt : Nat} (lease : Lease) {f : Fault}
    (timeout : f.isTimeout = true) (left : attempt < s.settings.attempts) :
    (s.counted B t e attempt lease (.error f)).outcomes t =
      s.outcomes t ++ [.error (.fault .poolClosed)] := by
  have again : (f.isTimeout && decide (attempt < s.settings.attempts)) = true := by
    simp [timeout, left]
  refine (congrArg (fun v : Limiter σ => v.outcomes t) (if_pos again)).trans ?_
  rw [want_giveBack_of_closed]
  · refine (outcomes_settle ?_ _).trans ?_
    · simpa [tally, emit] using ht
    · exact congrArg (· ++ _) (outcomes_freePermit _ t)
  · exact closed

theorem hand_verified (lease : Lease) (reply : Reply) :
    (s.verified t lease reply).hand t = .nothing := by
  cases reply <;> simp [verified]

/-- A sweep that finds nothing at rest ends. -/
theorem stage?_sweepOn (ht : t ∈ Table.keys s.tasks) (idle : s.pool.idle = []) (sweep : Sweep) :
    ∃ deadline timer, (s.sweepOn B t sweep).stage? t = some (.resting deadline timer) := by
  simp only [sweepOn, idle, endSweep]
  split
  · exact ⟨_, _, stage?_setStage_self ht _⟩
  · exact ⟨_, _, stage?_setStage_self ht _⟩

/-- The ping of a sweep under way is the last one. -/
theorem stage?_swept_of_shut (ht : t ∈ Table.keys s.tasks) (closed : s.pool.closed = true)
    (idle : s.pool.idle = []) (sweep : Sweep) (call : Call) (answered : Bool) :
    ∃ deadline timer,
      (s.swept B t sweep call answered).stage? t = some (.resting deadline timer) := by
  cases answered with
  | true =>
    have hrest := Pool.rest_of_closed closed ⟨call.conn, s.clock⟩
    simp only [swept, hrest, if_true]
    exact stage?_sweepOn (by simpa using ht) (by simpa using idle) _
  | false => exact stage?_sweepOn (by simpa using ht) (by simpa using idle) _

/-- A sweep's ping is the last one once the pool is closed. -/
theorem stage?_of_sweeping_of_shut (shut : Shut s) {sweep : Sweep} {call : Call}
    (hs : s.stage? t = some (.sweeping sweep call)) (step : s.step? B t = some s') :
    ∃ deadline timer, s'.stage? t = some (.resting deadline timer) := by
  have ht := mem_keys_of_stage? hs
  simp only [step?, hs] at step
  split at step
  · cases step
  · cases step
    exact stage?_swept_of_shut ht shut.closed shut.idle sweep call false
  · cases hr : s.finishCall B t call with
    | mk v reply =>
      -- the answer to a ping changes neither the tasks nor the pool
      have hv : v = (s.finishCall B t call).1 := by rw [hr]
      have ht : t ∈ Table.keys v.tasks := hv ▸ ht
      have closed : v.pool.closed = true := hv ▸ shut.closed
      have idle : v.pool.idle = [] := hv ▸ shut.idle
      simp only [hr] at step
      cases reply with
      | ok ms =>
        cases step
        exact stage?_swept_of_shut ht closed idle sweep call true
      | error f =>
        cases step
        exact stage?_swept_of_shut ht closed idle sweep call false

/-- Once the pool is closed a step ends with empty hands, unless the task was getting a connection
already. -/
theorem hand_of_step?_of_shut (shut : Shut s) {stage : Stage} (hs : s.stage? t = some stage)
    (step : s.step? B t = some s') : s'.hand t = .nothing ∨ stage.IsGetting := by
  have ht := mem_keys_of_stage? hs
  have path := leads_of_step? hs (shut.tidy.proper t stage hs) step
  cases stage with
  | probing goal call => exact .inr ⟨goal, call, .inl rfl⟩
  | opening goal call => exact .inr ⟨goal, call, .inr rfl⟩
  | queued goal expiry =>
    simp only [step?, hs, shut.closed, if_true] at step
    cases step
    exact .inl (by simp)
  | granted goal =>
    simp only [step?, hs, shut.closed, if_true] at step
    cases step
    exact .inl (by simp)
  | evaluating e attempt lease call =>
    left
    simp only [step?, hs] at step
    split at step
    · cases step
    · cases step
      exact hand_counted_of_closed shut.closed ..
    · cases step
      exact hand_counted_of_closed (s := (s.finishCall B t call).1) shut.closed ..
  | verifying lease call =>
    left
    simp only [step?, hs] at step
    split at step
    · cases step
    · cases step
      exact hand_verified ..
    · cases step
      exact hand_verified ..
  | holding lease broken since timer =>
    left
    simp only [step?, hs] at step
    split at step
    · cases step
      simp
    · cases step
  | sweeping sweep call =>
    obtain ⟨deadline, timer, hrest⟩ := stage?_of_sweeping_of_shut shut hs step
    exact .inl (hand_of_stage? hrest)
  | _ => exact .inl (path.hand_of_closed shut.closed ht rfl)

/-! ## Empty hands -/

/-- The pool is closed and a task has nothing in hand. -/
structure EmptyHanded (u : TaskId) (s : Limiter σ) : Prop where
  shut : Shut s
  empty : s.hand u = .nothing

/-- The same while task `t` is under way, which may be that task. -/
structure StillEmpty (u t : TaskId) (m : Motion σ) : Prop where
  shut : Shut m.state
  own : u = t → u ∈ Table.keys m.state.tasks → m.hand = .nothing
  others : u ≠ t → m.state.hand u = .nothing

/-- Who is no task yet has nothing in hand after an act either. -/
theorem Act.hand_of_new {m m' : Motion σ} (a : Act B t m m') (shut : Shut m.state)
    (hu : u ∉ Table.keys m.state.tasks) :
    m'.state.hand u = .nothing ∧ (u ∈ Table.keys m'.state.tasks → m'.hand = .nothing) := by
  have hold : m.state.hand u = .nothing := hand_of_none (stage?_eq_none_iff.mpr hu)
  cases a with
  | start jobs => exact ⟨hand_start jobs hold, fun _ => rfl⟩
  | free =>
    have hfree := freePermit_of_shut shut.line
    simp only at hfree ⊢
    rw [hfree]
    exact ⟨hold, fun h => absurd h hu⟩
  | aside a => cases a <;> exact ⟨hold, fun h => absurd h hu⟩
  | _ => exact ⟨hold, fun h => absurd h hu⟩

namespace StillEmpty

theorem act {m m' : Motion σ} (a : Act B t m m') (h : StillEmpty u t m) : StillEmpty u t m' := by
  refine ⟨h.shut.act a, fun hut hkey => ?_, fun hut => ?_⟩
  · by_cases hu : u ∈ Table.keys m.state.tasks
    · exact a.hand_of_closed h.shut.closed (h.own hut hu)
    · exact (a.hand_of_new h.shut hu).2 hkey
  · by_cases hu : u ∈ Table.keys m.state.tasks
    · rw [hand, stage?, a.get?_of_shut h.shut hu]
      exact h.others hut
    · exact (a.hand_of_new h.shut hu).1

theorem layDown (h : StillEmpty u t ⟨s.hand t, none, s⟩) : EmptyHanded u s where
  shut := h.shut
  empty := by
    by_cases hut : u = t
    · subst hut
      by_cases hu : u ∈ Table.keys s.tasks
      · exact h.own rfl hu
      · exact hand_of_none (stage?_eq_none_iff.mpr hu)
    · exact h.others hut

end StillEmpty

theorem EmptyHanded.outside (ho : Outside W s s') (h : EmptyHanded u s) : EmptyHanded u s' :=
  ⟨Shut.outside ho h.shut, by cases ho <;> exact h.empty⟩

theorem EmptyHanded.invariant (W : Surroundings σ ε) (u : TaskId) :
    Invariant W (EmptyHanded u) (StillEmpty (σ := σ) u) where
  proper h hs := h.shut.tidy.proper _ _ hs
  takeUp t h := ⟨h.shut, fun hu _ => hu ▸ h.empty, fun _ => h.empty⟩
  layDown := StillEmpty.layDown
  act := StillEmpty.act
  setStage {s t h stage} proper hi :=
    ⟨⟨hi.shut.tidy.setStage proper, hi.shut.closed, hi.shut.idle, hi.shut.line⟩,
      fun hu hkey => hi.own hu (by simpa using hkey),
      fun hu => (hand_setStage_ne hu _).trans (hi.others hu)⟩
  settle {s t o task outcome} hget _ hi := by
    refine ⟨⟨hi.shut.tidy.settle hget outcome, hi.shut.closed, hi.shut.idle, hi.shut.line⟩,
      fun _ _ => rfl, fun hu => ?_⟩
    simpa [hand, stage?, hu] using hi.others hu
  outside := EmptyHanded.outside
  unkeep {s t name lease} _ ht hi :=
    ⟨⟨hi.shut.tidy.unkeep name, hi.shut.closed, hi.shut.idle, hi.shut.line⟩,
      fun hu hkey => absurd (hu ▸ hkey) ht, fun _ => hi.empty⟩

/-! ## Tasks that have ended a job -/

/-- How the jobs of a task have ended is not forgotten. -/
structure Remembers (u : TaskId) (past : List Outcome) (s : Limiter σ) : Prop where
  tidy : Tidy s
  outcomes : past <+: s.outcomes u

theorem Remembers.act {past : List Outcome} {m m' : Motion σ} (a : Act B t m m')
    (h : Remembers u past m.state) : Remembers u past m'.state where
  tidy := h.tidy.act a
  outcomes := by
    rcases a.still_or_finish h.tidy with ⟨-, -, houtcomes⟩ | ⟨call, -, -, hstate⟩
    · exact houtcomes u ▸ h.outcomes
    · rw [hstate]
      exact h.outcomes

theorem Remembers.invariant (W : Surroundings σ ε) (u : TaskId) (past : List Outcome) :
    Invariant W (Remembers u past) fun (_ : TaskId) (m : Motion σ) => Remembers u past m.state where
  proper h hs := h.tidy.proper _ _ hs
  takeUp _ h := h
  layDown h := h
  act := Remembers.act
  setStage proper h := ⟨h.tidy.setStage proper, (outcomes_setStage _).symm ▸ h.outcomes⟩
  settle {s t o task outcome} hget _ h := by
    refine ⟨h.tidy.settle hget _, ?_⟩
    by_cases hu : u = t
    · subst hu
      have houtcomes := h.outcomes
      rw [outcomes_of_get? hget] at houtcomes
      simpa [Limiter.outcomes] using houtcomes.trans (List.prefix_append ..)
    · have hsame : Limiter.outcomes { s with
          tasks := Table.put s.tasks t (task.settled s.clock outcome) } u = s.outcomes u := by
        simp [Limiter.outcomes, hu]
      exact hsame ▸ h.outcomes
  outside ho h := by
    have tidy := Tidy.outside ho h.tidy
    cases ho <;> exact ⟨tidy, h.outcomes⟩
  unkeep _ _ h := ⟨h.tidy.unkeep _, h.outcomes⟩

theorem outcomes_prefix_move (tidy : Tidy s) (m : Move ε) :
    s.outcomes u <+: (s.move W m).outcomes u :=
  ((Remembers.invariant W u _).move ⟨tidy, List.prefix_refl _⟩ m).outcomes

/-- A task that is cancelled stands at the last stage, unless it was over. -/
theorem get?_cancel_of_shut (shut : Shut s) {task : Task}
    (hget : Table.get? s.tasks t = some task) (busy : task.stage.isOver = false) :
    Table.get? (s.cancel t).tasks t = some { task with stage := .cancelled } := by
  have hs : s.stage? t = some task.stage := stage?_of_get? hget
  have hreclaim := tasks_reclaim_of_shut
    (s := { s with ready := s.ready.erase t }.setStage t .cancelled) shut.closed shut.line
    t task.stage
  simp [cancel, hs, busy, hreclaim, hget]

theorem cancel_of_isOver {stage : Stage} (hs : s.stage? t = some stage)
    (ended : stage.isOver = true) : s.cancel t = s := by
  simp [cancel, hs, ended]

theorem step?_of_over {stage : Stage} (hs : s.stage? t = some stage)
    (ended : stage.isOver = true) : s.step? B t = none :=
  step?_of_isOver (by simp [isOver, hs, ended])

/-- A task that is over stays as it is. -/
theorem get?_move_of_over (shut : Shut s) {task : Task}
    (hget : Table.get? s.tasks t = some task) (ended : task.stage.isOver = true) (m : Move ε) :
    Table.get? (s.move W m).tasks t = some task := by
  have hs : s.stage? t = some task.stage := stage?_of_get? hget
  rcases get?_move_of_shut (W := W) shut (mem_keys_of_stage? hs) m with hsame | rfl | rfl
  · exact hsame.trans hget
  · simpa [move, step?_of_over hs ended] using hget
  · simpa [move, cancel_of_isOver hs ended] using hget

end Limiter

end Turnstile
