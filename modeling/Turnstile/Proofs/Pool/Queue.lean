import Turnstile.Proofs.Pool.Discards
import Turnstile.Proofs.Runs.Phases

/-!
# The queue of resting connections

Connections come to rest at the back of a queue and are taken from its front. So what a move does to
the queue is known once it is known what has been taken (`Draws`), and a connection that was not
taken has not got farther from the front (`draws_move`). A step takes a connection only after
it has given back what the task had in hand, and whoever takes one has it at the end of the step.
-/

namespace Turnstile

namespace Limiter

variable {σ ε : Type} {W : Surroundings σ ε} {B : Backend σ} {s s' u : Limiter σ} {t : TaskId}

/-- Nothing has been taken from the queue. -/
def Grows (s s' : Limiter σ) : Prop := s.pool.idle <+: s'.pool.idle

/-- The task has the connection in hand, or it is kept under a name. -/
def Has (s : Limiter σ) (t : TaskId) (c : ConnId) : Prop :=
  c ∈ (s.hand t).conns ∨ ∃ name l, Table.get? s.held name = some l ∧ l.conn = c

/-- Connections have been taken from the front of the queue, and task `t` has them. -/
def Draws (t : TaskId) (s s' : Limiter σ) : Prop :=
  ∃ taken left, s.pool.idle = taken ++ left ∧ left <+: s'.pool.idle ∧ ∀ i ∈ taken, s'.Has t i.conn

namespace Grows

theorem of_eq (idle : s'.pool.idle = s.pool.idle) : Grows s s' := by
  rw [Grows, idle]

theorem trans (first : Grows s u) (second : Grows u s') : Grows s s' :=
  List.IsPrefix.trans first second

theorem settle (outcome : Outcome) : Grows s (s.settle t outcome) := .of_eq (by simp)

theorem wakeAll (ts : List TaskId) : Grows s (s.wakeAll ts) := .of_eq (by simp)

theorem freePermit : Grows s s.freePermit := .of_eq (by simp)

theorem rest (i : Idle) : Grows s { s with pool := s.pool.rest i } := by
  unfold Grows Pool.rest
  split
  · exact List.prefix_refl _
  · exact List.prefix_append ..

theorem giveBack (l : Lease) : Grows s (s.giveBack l) := by
  refine trans ?_ freePermit
  unfold Pool.takeBack
  split
  · exact .of_eq rfl
  · exact rest _

theorem startCall (conn : ConnId) (command : Command) (patience : Option Nat) :
    Grows s (s.startCall B conn command patience).1 :=
  .of_eq (by simp)

theorem reclaim (stage : Stage) : Grows s (s.reclaim t stage) := by
  cases stage with
  | granted | probing | opening | sweeping => exact freePermit
  | evaluating | verifying | holding => exact giveBack _
  | _ => exact .of_eq rfl

end Grows

namespace Draws

theorem of_grows (h : Grows s s') : Draws t s s' := ⟨[], s.pool.idle, rfl, h, nofun⟩

/-- What is laid to rest before connections are taken stands behind those that rested. -/
theorem after (first : Grows s u) (rest : Draws t u s') : Draws t s s' := by
  obtain ⟨pushed, hpushed⟩ := first
  obtain ⟨taken, left, hidle, hleft, has⟩ := rest
  rw [← hpushed] at hidle
  rcases List.append_eq_append_iff.mp hidle with ⟨more, rfl, -⟩ | ⟨behind, hs, rfl⟩
  · exact ⟨s.pool.idle, [], (List.append_nil _).symm, List.nil_prefix, fun i hi =>
      has i (List.mem_append_left _ hi)⟩
  · exact ⟨taken, behind, hs, (List.prefix_append ..).trans hleft, has⟩

end Draws

/-! ## Getting a connection -/

/-- Whoever uses a connection takes no other one. -/
theorem grows_employ (goal : Goal) (l : Lease) : Grows s (s.employ B t goal l) := by
  cases goal with
  | evaluate e attempt => exact .of_eq (by simp [employ])
  | verify => exact .of_eq (by simp [employ])
  | borrow holdMs broken => exact .of_eq rfl
  | keep name =>
    simp only [employ]
    split
    · exact (Grows.giveBack (s := { s with held := Table.put s.held name l }) _).trans (.settle _)
    · exact Grows.settle (s := { s with held := Table.put s.held name l }) _

theorem has_setStage (ht : t ∈ Table.keys s.tasks) (stage : Stage) {c : ConnId}
    (hc : c ∈ stage.hand.conns) : (s.setStage t stage).Has t c :=
  .inl (by simpa [ht] using hc)

/-- Whoever uses a connection has it, or it is kept under a name. -/
theorem has_employ (ht : t ∈ Table.keys s.tasks) (goal : Goal) (l : Lease) :
    (s.employ B t goal l).Has t l.conn := by
  have own : l.conn ∈ (Hand.lease l).conns := List.mem_singleton_self _
  cases goal with
  | evaluate e attempt =>
    have still := Still.startCall (B := B) s l.conn (.count e.key e.limit e.windowMs)
      (some s.settings.commandTimeout)
    exact has_setStage (still.keys ht) (.evaluating e attempt l _) own
  | verify =>
    have still := Still.startCall (B := B) s l.conn .ping (some s.settings.connectTimeout)
    exact has_setStage (still.keys ht) (.verifying l _) own
  | borrow holdMs broken =>
    exact has_setStage (s := (s.setTimer holdMs).1) ht (.holding l broken _ _) own
  | keep name =>
    simp only [employ]
    split
    · exact .inr ⟨name, l, by simp, rfl⟩
    · exact .inr ⟨name, l, by simp, rfl⟩

theorem grows_openFor (goal : Goal) : Grows s (s.openFor B t goal) :=
  .of_eq (Still.startCall (B := B) { s with nextConn := s.nextConn + 1 } s.nextConn .connect
    (some s.settings.connectTimeout)).idle

/-- With a permit in hand, a task takes the connection in front if there is one. -/
theorem draws_choose (ht : t ∈ Table.keys s.tasks) (goal : Goal) :
    Draws t s (s.choose B t goal) := by
  cases front : s.pool.idle with
  | nil =>
    simp only [choose, front]
    exact .of_grows (grows_openFor goal)
  | cons i rest =>
    simp only [choose, front]
    let u : Limiter σ := { s with pool := { s.pool with idle := rest } }
    split
    · refine ⟨[i], rest, front, grows_employ (s := u) goal _, fun j hj => ?_⟩
      obtain rfl := List.mem_singleton.mp hj
      exact has_employ (s := u) ht goal _
    · have still : Still u (u.startCall B i.conn .ping (some s.settings.connectTimeout)).1 :=
        .startCall ..
      refine ⟨[i], rest, front, Grows.of_eq (s := u) still.idle, fun j hj => ?_⟩
      obtain rfl := List.mem_singleton.mp hj
      refine has_setStage (still.keys ht) _ ?_
      rw [Stage.hand, Hand.conns, conn_startCall]
      exact List.mem_singleton_self _

theorem draws_want (ht : t ∈ Table.keys s.tasks) (goal : Goal) : Draws t s (s.want B t goal) := by
  unfold want
  split
  · exact .of_grows (.settle _)
  · split
    · let u : Limiter σ := { s with pool := { s.pool with free := s.pool.free - 1 } }
      exact .after (u := u) (.of_eq rfl) (draws_choose (s := u) ht goal)
    · simp only
      split
      · exact .of_grows (Grows.settle (s := (s.setTimer s.settings.connectTimeout).1) _)
      · exact .of_grows (.of_eq rfl)

/-- A sweep takes the connection in front, if it takes one. -/
theorem draws_sweepOn (ht : t ∈ Table.keys s.tasks) (sweep : Sweep) :
    Draws t s (s.sweepOn B t sweep) := by
  have ended : Grows s (s.endSweep t sweep) := by
    unfold endSweep
    split <;> exact .of_eq rfl
  cases front : s.pool.idle with
  | nil =>
    simp only [sweepOn, front]
    exact .of_grows ended
  | cons i rest =>
    simp only [sweepOn, front]
    split
    · exact .of_grows ended
    · let u : Limiter σ :=
        { s with pool := { s.pool with idle := rest, free := s.pool.free - 1 } }
      have still : Still u (u.startCall B i.conn .ping (some s.settings.connectTimeout)).1 :=
        .startCall ..
      refine ⟨[i], rest, front, Grows.of_eq (s := u) still.idle, fun j hj => ?_⟩
      obtain rfl := List.mem_singleton.mp hj
      refine has_setStage (still.keys ht) _ ?_
      rw [Stage.hand, Hand.conns, conn_startCall]
      exact List.mem_singleton_self _

/-! ## Steps -/

section

variable {call : Call} {goal : Goal} {lease : Lease}

theorem draws_counted (ht : t ∈ Table.keys s.tasks) (e : Evaluation) (attempt : Nat) (l : Lease)
    (reply : Reply) : Draws t s (s.counted B t e attempt l reply) := by
  simp only [counted]
  let u := ((s.tally .commands).tally .durations).emit (.commanded t l.conn reply)
  cases reply with
  | ok ms => exact .of_grows ((Grows.giveBack (s := u) l).trans (.settle _))
  | error f =>
    simp only
    split
    · let v := u.emit (.retrying e.key)
      have hkeys : t ∈ Table.keys (v.giveBack { l with broken := true }).tasks := by
        rw [keys_giveBack]
        exact ht
      exact .after (Grows.giveBack (s := v) _) (draws_want hkeys _)
    · exact .of_grows ((Grows.giveBack (s := u) _).trans (.settle _))

theorem draws_swept (ht : t ∈ Table.keys s.tasks) (sweep : Sweep) (answered : Bool) :
    Draws t s (s.swept B t sweep call answered) := by
  unfold swept
  split
  · let u : Limiter σ := { s with pool := s.pool.rest ⟨call.conn, s.clock⟩ }
    have hkeys : t ∈ Table.keys u.freePermit.tasks := by simpa [u] using ht
    exact .after ((Grows.rest _).trans Grows.freePermit) (draws_sweepOn hkeys sweep)
  · have hkeys : t ∈ Table.keys s.freePermit.tasks := by simpa using ht
    exact .after Grows.freePermit (draws_sweepOn hkeys _)

theorem draws_begin (ht : t ∈ Table.keys s.tasks) (job : Job) : Draws t s (s.begin B t job) := by
  have charged : ∀ c limit, Grows s (s.charge t c limit) := fun c limit =>
    .of_eq (Still.start s _).idle
  cases job with
  | check identity service numbers =>
    cases numbers with
    | none => exact .of_grows (charged _ _)
    | some numbers =>
      simp only [begin]
      split
      · exact .of_grows (.settle _)
      · exact .of_grows (charged _ _)
  | serve site r =>
    cases site with
    | error e => exact .of_grows (.settle _)
    | ok site =>
      simp only [begin]
      split
      · exact .of_grows (charged _ _)
      · exact .of_grows (.settle _)
  | evaluate e => exact draws_want ht _
  | verify => exact draws_want ht _
  | borrow holdMs broken => exact draws_want ht _
  | keep name => exact draws_want ht _
  | sleep ms => exact .of_grows (.of_eq rfl)
  | connect =>
    exact .of_grows (.of_eq (Still.startCall (B := B) { s with nextConn := s.nextConn + 1 }
      s.nextConn .connect none).idle)
  | request conn command =>
    exact .of_grows (.of_eq (Still.startCall (B := B) s conn command none).idle)
  | join task => exact .of_grows (.of_eq rfl)
  | guard =>
    simp only [begin]
    split
    · exact .of_grows (.of_eq rfl)
    · exact .of_grows (.settle _)

theorem draws_of_probing (hs : s.stage? t = some (.probing goal call))
    (step : s.step? B t = some s') : Draws t s s' := by
  have ht := mem_keys_of_stage? hs
  have still := still_finishCall (B := B) s t call
  simp only [step?, hs] at step
  split at step
  · cases step
  · cases step
    exact draws_choose (s := s.emit .evicted) ht goal
  · cases hr : s.finishCall B t call with
    | mk u reply =>
      simp only [hr] at step still
      cases reply with
      | ok ms =>
        cases step
        exact .of_grows ((Grows.of_eq still.idle).trans (grows_employ goal _))
      | error f =>
        cases step
        exact .after (.of_eq still.idle) (draws_choose (s := u.emit .evicted) (still.keys ht) goal)

theorem draws_of_opening (hs : s.stage? t = some (.opening goal call))
    (step : s.step? B t = some s') : Draws t s s' := by
  have still := still_finishCall (B := B) s t call
  have failed : ∀ (v : Limiter σ) (f : Fault), Grows v (v.openFailed t f) := fun v f =>
    (Grows.freePermit (s := (v.raise f.message).1)).trans (.settle _)
  simp only [step?, hs] at step
  split at step
  · cases step
  · cases step
    exact .of_grows (failed _ _)
  · cases hr : s.finishCall B t call with
    | mk u reply =>
      simp only [hr] at step still
      cases reply with
      | ok ms =>
        cases step
        exact .of_grows ((Grows.of_eq still.idle).trans (grows_employ (s := u.clear.1) goal _))
      | error f =>
        cases step
        exact .of_grows ((Grows.of_eq still.idle).trans (failed u f))

theorem draws_of_evaluating {e : Evaluation} {attempt : Nat}
    (hs : s.stage? t = some (.evaluating e attempt lease call)) (step : s.step? B t = some s') :
    Draws t s s' := by
  have ht := mem_keys_of_stage? hs
  have still := still_finishCall (B := B) s t call
  simp only [step?, hs] at step
  split at step
  · cases step
  · cases step
    exact draws_counted ht e attempt lease _
  · cases hr : s.finishCall B t call with
    | mk u reply =>
      simp only [hr] at step still
      cases step
      exact .after (.of_eq still.idle) (draws_counted (still.keys ht) e attempt lease reply)

theorem draws_of_verifying (hs : s.stage? t = some (.verifying lease call))
    (step : s.step? B t = some s') : Draws t s s' := by
  have still := still_finishCall (B := B) s t call
  have verified : ∀ (v : Limiter σ) (reply : Reply), Grows v (v.verified t lease reply) :=
    fun v reply => by
      cases reply with
      | ok ms => exact (Grows.giveBack _).trans (.settle _)
      | error f => exact (Grows.giveBack _).trans (.settle _)
  simp only [step?, hs] at step
  split at step
  · cases step
  · cases step
    exact .of_grows (verified _ _)
  · cases hr : s.finishCall B t call with
    | mk u reply =>
      simp only [hr] at step still
      cases step
      exact .of_grows ((Grows.of_eq still.idle).trans (verified u reply))

theorem draws_of_sweeping {sweep : Sweep} (hs : s.stage? t = some (.sweeping sweep call))
    (step : s.step? B t = some s') : Draws t s s' := by
  have ht := mem_keys_of_stage? hs
  have still := still_finishCall (B := B) s t call
  simp only [step?, hs] at step
  split at step
  · cases step
  · cases step
    exact draws_swept ht sweep false
  · cases hr : s.finishCall B t call with
    | mk u reply =>
      simp only [hr] at step still
      cases reply <;> cases step <;>
        exact .after (.of_eq still.idle) (draws_swept (still.keys ht) sweep _)

end

/-- A step takes connections from the front of the queue, and the task has them. -/
theorem draws_of_step? (step : s.step? B t = some s') : Draws t s s' := by
  obtain ⟨stage, hs⟩ := exists_stage_of_step? step
  have ht := mem_keys_of_stage? hs
  have ended : ∀ {v : Limiter σ} {outcome}, v.pool.idle = s.pool.idle →
      Draws t s (v.settle t outcome) := fun idle => .of_grows ((Grows.of_eq idle).trans (.settle _))
  cases stage with
  | probing goal call => exact draws_of_probing hs step
  | opening goal call => exact draws_of_opening hs step
  | evaluating e attempt lease call => exact draws_of_evaluating hs step
  | verifying lease call => exact draws_of_verifying hs step
  | sweeping sweep call => exact draws_of_sweeping hs step
  | fresh job =>
    simp only [step?, hs, Option.some.injEq] at step
    subst step
    exact draws_begin ht job
  | queued goal expiry =>
    simp only [step?, hs] at step
    split at step
    · cases step
      exact ended rfl
    · split at step
      · cases step
        exact ended (v := { s with pool := s.pool.leave t }) rfl
      · cases step
  | granted goal =>
    simp only [step?, hs] at step
    split at step
    · cases step
      exact ended (still_freePermit s).idle
    · cases step
      exact draws_choose ht goal
  | holding lease broken since timer =>
    simp only [step?, hs] at step
    split at step
    · cases step
      exact .of_grows ((Grows.giveBack _).trans (.settle _))
    · cases step
  | awaiting charge child =>
    simp only [step?, hs] at step
    split at step
    · cases step
      exact ended (by simp)
    · cases step
  | joining task =>
    simp only [step?, hs] at step
    split at step
    · cases step
      exact ended rfl
    · cases step
  | sleeping timer =>
    simp only [step?, hs] at step
    split at step
    · cases step
      exact ended rfl
    · cases step
  | calling call =>
    simp only [step?, hs] at step
    split at step
    · cases step
      exact ended (still_finishCall (B := B) s t call).idle
    · cases step
  | resting deadline timer =>
    simp only [step?, hs] at step
    split at step
    · cases step
      unfold beginSweep
      split
      · exact ended (v := s.emit .checkerStopped) rfl
      · exact draws_sweepOn ht _
    · cases step
  | done time => simp [step?, hs] at step
  | cancelled => simp [step?, hs] at step

/-! ## Moves -/

theorem grows_cancel : Grows s (s.cancel t) := by
  unfold cancel
  split
  · exact .of_eq rfl
  · rename_i stage _
    split
    · exact .of_eq rfl
    · let u := { s with ready := s.ready.erase t }.setStage t .cancelled
      exact (Grows.reclaim (s := u) stage).trans (.wakeAll _)

/-- Only closing the pool and steps of tasks take connections from the queue. -/
theorem draws_move (W : Surroundings σ ε) (s : Limiter σ) (m : Move ε) :
    (∃ t, m = .step t ∧ Draws t s (s.move W m)) ∨ Grows s (s.move W m) ∨ m = .close := by
  cases m with
  | step t =>
    cases step : s.step? W.backend t with
    | none => exact .inr (.inl (.of_eq (by rw [move_step_of_none step])))
    | some s' =>
      rw [move_step_of_some step]
      exact .inl ⟨t, rfl, draws_of_step? step⟩
  | start jobs => exact .inr (.inl (.of_eq (Still.start s jobs).idle))
  | cancel t => exact .inr (.inl grows_cancel)
  | close => exact .inr (.inr rfl)
  | release name =>
    refine .inr (.inl ?_)
    simp only [move]
    split
    · exact Grows.giveBack (s := { s with held := Table.without s.held name }) _
    · exact .of_eq rfl
  | _ => exact .inr (.inl (.of_eq rfl))

end Limiter

end Turnstile
