import Turnstile.Proofs.Pool.Flow
import Turnstile.Proofs.Pool.Freshness
import Turnstile.Proofs.Runs.Timely

/-!
# A check ends in time

Nobody waits without a timer. A permit, a ping and a new connection are waited for no longer than
the connect timeout, the answer to a counted call no longer than the command timeout. Who gets no
permit in time gives up; each resting connection is pinged once at most, in whichever attempt; and a
store in memory opens connections at once. So a task that has a call counted can tell at every stage
when it will have ended at the latest (`Stage.InTime`), a step of it never puts that off (`Lands`),
and a check comes to a decision by then, whatever the store does
(`Memory.decided_within_timeouts`).
-/

namespace Turnstile

namespace PoolSettings

/-- The milliseconds that so many attempts take at most while so many connections rest: a ping for
each of these or something else that is waited for as long, and the attempts themselves. -/
def patience (p : PoolSettings) (idle attempts : Nat) : Nat :=
  (idle + 1) * p.connectTimeout + attempts * p.commandTimeout

/-- There is time for so many attempts, and the clock stands at a whole millisecond. -/
structure Affords (p : PoolSettings) (deadline now idle attempts : Nat) : Prop where
  whole : now % usPerMs = 0
  time : now + p.patience idle attempts * usPerMs ≤ deadline

theorem patience_succ (p : PoolSettings) (idle attempts : Nat) :
    p.patience idle (attempts + 1) = p.commandTimeout + p.patience idle attempts := by
  simp only [patience, Nat.succ_mul]
  omega

theorem patience_cons (p : PoolSettings) (idle attempts : Nat) :
    p.patience (idle + 1) attempts = p.connectTimeout + p.patience idle attempts := by
  simp only [patience, Nat.succ_mul]
  omega

theorem connectTimeout_le_patience (p : PoolSettings) (idle attempts : Nat) :
    p.connectTimeout ≤ p.patience idle attempts := by
  simp only [patience, Nat.succ_mul]
  omega

theorem attempts_pos (p : PoolSettings) : 0 < p.attempts := by
  unfold attempts
  split <;> decide

end PoolSettings

/-- Whether a task that has a call counted will have ended by the deadline, given how many
connections rest. -/
def Stage.InTime (p : PoolSettings) (deadline now idle : Nat) : Stage → Prop
  | .fresh (.evaluate _) => p.Affords deadline now idle p.attempts
  | .queued (.evaluate ..) expiry =>
    now ≤ expiry.tick * usPerMs ∧ expiry.tick * usPerMs ≤ deadline
  | .probing (.evaluate _ attempt) call =>
    call.Ends deadline now (p.patience idle (p.attempts - attempt + 1))
  | .opening (.evaluate _ attempt) call =>
    call.due = .now ∧ p.Affords deadline now idle (p.attempts - attempt + 1)
  | .evaluating _ attempt _ call => call.Ends deadline now (p.patience idle (p.attempts - attempt))
  | _ => False

/-- How many steps it takes at most until the task has ended and the one that waits for it too. -/
def Stage.stepsAhead (p : PoolSettings) (idle : Nat) : Stage → Nat
  | .fresh _ => idle + 2 * p.attempts + 2
  | .queued .. => 2
  | .probing (.evaluate _ attempt) _ => idle + 2 * (p.attempts - attempt) + 4
  | .opening (.evaluate _ attempt) _ => idle + 2 * (p.attempts - attempt) + 3
  | .evaluating _ attempt _ _ => idle + 2 * (p.attempts - attempt) + 2
  | _ => 0

namespace Limiter

variable {s s' u : Limiter Memory} {t v : TaskId} {deadline n : Nat}

/-! ## Where a step leads -/

/-- At one instant a task goes on, while no job of it ends. -/
structure Instant (t : TaskId) (s s' : Limiter Memory) : Prop where
  clock : s'.clock = s.clock
  settings : s'.settings = s.settings
  keys : Table.keys s'.tasks = Table.keys s.tasks
  ledger : s'.ledger? t = s.ledger? t

namespace Instant

theorem refl (s : Limiter Memory) : Instant t s s := ⟨rfl, rfl, rfl, rfl⟩

theorem trans (h : Instant t s u) (h' : Instant t u s') : Instant t s s' :=
  ⟨h'.clock.trans h.clock, h'.settings.trans h.settings, h'.keys.trans h.keys,
    h'.ledger.trans h.ledger⟩

theorem of_steady (steady : Steady t s u) (settings : u.settings = s.settings) : Instant t s u :=
  ⟨steady.clock, settings, steady.keys, steady.ledger⟩

theorem freePermit (s : Limiter Memory) : Instant t s s.freePermit :=
  of_steady (.freePermit s) s.still_freePermit.settings

theorem giveBack (s : Limiter Memory) (l : Lease) : Instant t s (s.giveBack l) :=
  of_steady (.giveBack s l) (still_freePermit _).settings

theorem startCall (s : Limiter Memory) (conn : ConnId) (command : Command)
    (patience : Option Nat) :
    Instant t s (s.startCall Memory.backend conn command patience).1 :=
  of_steady (.startCall s conn command patience) (Still.startCall s conn command patience).settings

end Instant

/-- A step of a task that has a call counted leads, at one instant, to a stage from which it will
have ended in time and in so many steps, or ends its job. -/
inductive Lands (t : TaskId) (deadline n : Nat) (s : Limiter Memory) : Limiter Memory → Prop
  | parks {u : Limiter Memory} (before : Instant t s u) (stage : Stage)
    (inTime : stage.InTime s.settings deadline s.clock u.pool.idle.length)
    (left : stage.stepsAhead s.settings u.pool.idle.length ≤ n) :
    Lands t deadline n s (u.setStage t stage)
  | settles {u : Limiter Memory} (before : Instant t s u) (outcome : Outcome) :
    Lands t deadline n s (u.settle t outcome)

namespace Lands

variable {e : Evaluation} {attempt : Nat}

theorem after (before : Instant t s u) (rest : Lands t deadline n u s') :
    Lands t deadline n s s' := by
  cases rest with
  | parks later stage inTime left =>
    rw [before.settings, before.clock] at inTime
    rw [before.settings] at left
    exact .parks (before.trans later) stage inTime left
  | settles later outcome => exact .settles (before.trans later) outcome

theorem fail (before : Instant t s u) (f : Fault) : Lands t deadline n s (u.fail t f) :=
  .settles before _

/-- A request is made and waited for. -/
theorem call {ms wait : Nat} (conn : ConnId) (command : Command) (stage : Call → Stage)
    (whole : s.clock % usPerMs = 0) (time : s.clock + (wait + ms) * usPerMs ≤ deadline)
    (inTime : ∀ call : Call, call.Ends deadline s.clock ms →
      (stage call).InTime s.settings deadline s.clock s.pool.idle.length)
    (left : ∀ call, (stage call).stepsAhead s.settings s.pool.idle.length ≤ n) :
    Lands t deadline n s ((s.startCall Memory.backend conn command (some wait)).1.setStage t
      (stage (s.startCall Memory.backend conn command (some wait)).2)) := by
  refine .parks (.startCall ..) _ ?_ ?_
  · simpa using inTime _ (.startCall rfl whole conn command time)
  · simpa using left _

/-- A call is counted on a connection that has been lent. -/
theorem employ (affords : s.settings.Affords deadline s.clock s.pool.idle.length
      (s.settings.attempts - attempt + 1)) (l : Lease)
    (left : s.pool.idle.length + 2 * (s.settings.attempts - attempt) + 2 ≤ n) :
    Lands t deadline n s (s.employ Memory.backend t (.evaluate e attempt) l) := by
  have time := affords.time
  rw [PoolSettings.patience_succ] at time
  exact call l.conn (.count e.key e.limit e.windowMs) (.evaluating e attempt l) affords.whole time
    (fun _ h => h) fun _ => left

/-- With a permit at hand the connection in front is lent or pinged, or one is opened. -/
theorem choose (affords : s.settings.Affords deadline s.clock s.pool.idle.length
      (s.settings.attempts - attempt + 1))
    (left : s.pool.idle.length + 2 * (s.settings.attempts - attempt) + 3 ≤ n) :
    Lands t deadline n s (s.choose Memory.backend t (.evaluate e attempt)) := by
  cases front : s.pool.idle with
  | nil =>
    let u : Limiter Memory := { s with nextConn := s.nextConn + 1 }
    have before : Instant t s u := ⟨rfl, rfl, rfl, rfl⟩
    simp only [Limiter.choose, front]
    -- a store in memory has opened the connection before any time can pass
    refine .parks (before.trans (.startCall u s.nextConn .connect (some s.settings.connectTimeout)))
      (.opening (.evaluate e attempt)
        (u.startCall Memory.backend s.nextConn .connect (some s.settings.connectTimeout)).2) ?_ ?_
    · simp only [startCall_frame]
      exact ⟨rfl, affords⟩
    · simp only [startCall_frame]
      exact left
  | cons i rest =>
    let u : Limiter Memory := { s with pool := { s.pool with idle := rest } }
    have before : Instant t s u := ⟨rfl, rfl, rfl, rfl⟩
    have whole := affords.whole
    have time := affords.time
    rw [front, List.length_cons, PoolSettings.patience_cons] at time
    rw [front, List.length_cons] at left
    simp only [Limiter.choose, front]
    split
    · have affords' : u.settings.Affords deadline u.clock u.pool.idle.length
          (u.settings.attempts - attempt + 1) :=
        ⟨whole, Nat.le_trans (Nat.add_le_add_left (Nat.mul_le_mul_right _
          (Nat.le_add_left ..)) _) time⟩
      have left' : u.pool.idle.length + 2 * (u.settings.attempts - attempt) + 2 ≤ n := by
        show rest.length + 2 * (s.settings.attempts - attempt) + 2 ≤ n
        omega
      exact after before (employ affords' _ left')
    · have left' : rest.length + 2 * (s.settings.attempts - attempt) + 4 ≤ n := by omega
      exact after before (call (s := u) i.conn .ping (.probing (.evaluate e attempt)) whole time
        (fun _ h => h) fun _ => left')

/-- Whoever asks for a permit gets one, fails, or stands in the line until a timer rings. -/
theorem want (affords : s.settings.Affords deadline s.clock s.pool.idle.length
      (s.settings.attempts - attempt + 1))
    (left : s.pool.idle.length + 2 * (s.settings.attempts - attempt) + 3 ≤ n) :
    Lands t deadline n s (s.want Memory.backend t (.evaluate e attempt)) := by
  unfold Limiter.want
  split
  · exact fail (.refl s) _
  · split
    · let u : Limiter Memory := { s with pool := { s.pool with free := s.pool.free - 1 } }
      have before : Instant t s u := ⟨rfl, rfl, rfl, rfl⟩
      exact after before (choose (s := u) affords left)
    · let u : Limiter Memory := (s.setTimer s.settings.connectTimeout).1
      have before : Instant t s u := ⟨rfl, rfl, rfl, rfl⟩
      simp only
      split
      · exact fail before .poolExhausted
      · let v : Limiter Memory := { u with pool := u.pool.enqueue t }
        have before' : Instant t s v := ⟨rfl, rfl, rfl, rfl⟩
        have ends := tick_setTimer_of_whole (s := s) rfl affords.whole s.settings.connectTimeout
        have short := Nat.mul_le_mul_right usPerMs (s.settings.connectTimeout_le_patience
          s.pool.idle.length (s.settings.attempts - attempt + 1))
        refine .parks before' (.queued (.evaluate e attempt) (s.setTimer _).2) ?_ ?_
        · exact ⟨le_tick_setTimer rfl _, Nat.le_trans ends
            (Nat.le_trans (Nat.add_le_add_left short _) affords.time)⟩
        · show 2 ≤ n
          omega

theorem evict (affords : s.settings.Affords deadline s.clock s.pool.idle.length
      (s.settings.attempts - attempt + 1))
    (left : s.pool.idle.length + 2 * (s.settings.attempts - attempt) + 3 ≤ n) :
    Lands t deadline n s (s.evict Memory.backend t (.evaluate e attempt)) := by
  have before : Instant t s (s.emit .evicted) := ⟨rfl, rfl, rfl, rfl⟩
  exact after before (choose (s := s.emit .evicted) affords left)

/-- After an attempt that has failed there may be another one, for which there is time. -/
theorem counted (affords : s.settings.Affords deadline s.clock s.pool.idle.length
      (s.settings.attempts - attempt)) (l : Lease) (reply : Reply)
    (left : s.pool.idle.length + 2 * (s.settings.attempts - attempt) + 1 ≤ n) :
    Lands t deadline n s (s.counted Memory.backend t e attempt l reply) := by
  let u : Limiter Memory :=
    ((s.tally .commands).tally .durations).emit (.commanded t l.conn reply)
  have told : Instant t s u := ⟨rfl, rfl, rfl, rfl⟩
  cases reply with
  | ok ms => exact .settles (told.trans (.giveBack u l)) _
  | error f =>
    let broken : Lease := { l with broken := true }
    simp only [Limiter.counted]
    split
    · rename_i again
      have more : attempt < s.settings.attempts :=
        of_decide_eq_true (Bool.and_eq_true_iff.mp again).2
      let v : Limiter Memory := (u.emit (.retrying e.key)).giveBack broken
      have retrying : Instant t u (u.emit (.retrying e.key)) := ⟨rfl, rfl, rfl, rfl⟩
      have back : Instant t s v := told.trans (retrying.trans (.giveBack _ broken))
      -- a broken connection does not go to rest
      have hidle : v.pool.idle = s.pool.idle :=
        (Still.giveBack (s := u.emit (.retrying e.key)) (l := broken) rfl).idle
      have hattempts : s.settings.attempts - attempt =
          s.settings.attempts - (attempt + 1) + 1 := by omega
      refine after back (want ?_ ?_)
      · rw [back.settings, back.clock, hidle, ← hattempts]
        exact affords
      · rw [back.settings, hidle]
        omega
    · exact fail (told.trans (.giveBack u broken)) f

theorem openFailed (s : Limiter Memory) (f : Fault) :
    Lands t deadline n s (s.openFailed t f) := by
  have raised : Instant t s (s.raise f.message).1 := ⟨rfl, rfl, rfl, rfl⟩
  exact fail (raised.trans (.freePermit _)) f

end Lands

theorem Instant.finishCall {call : Call} {reply : Reply}
    (hr : s.finishCall Memory.backend t call = (u, reply)) :
    Instant t s u ∧ u.pool = s.pool := by
  obtain rfl : u = (s.finishCall Memory.backend t call).1 := by rw [hr]
  exact ⟨⟨rfl, rfl, rfl, rfl⟩, rfl⟩

section

variable {e : Evaluation} {attempt : Nat}

theorem lands_of_queued {expiry : Timer}
    (hs : s.stage? t = some (.queued (.evaluate e attempt) expiry))
    (step : s.step? Memory.backend t = some s') : Lands t deadline n s s' := by
  simp only [step?, hs] at step
  split at step
  · cases step
    exact .fail (.refl s) .poolClosed
  · split at step
    · cases step
      have before : Instant t s { s with pool := s.pool.leave t } := ⟨rfl, rfl, rfl, rfl⟩
      exact .fail before .poolExhausted
    · cases step

/-- A ping that is over leaves time for the command, and for those that rest to be pinged. -/
theorem lands_of_probing {call : Call}
    (hs : s.stage? t = some (.probing (.evaluate e attempt) call))
    (ends : call.Ends deadline s.clock
      (s.settings.patience s.pool.idle.length (s.settings.attempts - attempt + 1)))
    (step : s.step? Memory.backend t = some s') :
    Lands t deadline (s.pool.idle.length + 2 * (s.settings.attempts - attempt) + 3) s s' := by
  have affords (ended : s.progress call ≠ .pending) : s.settings.Affords deadline s.clock
      s.pool.idle.length (s.settings.attempts - attempt + 1) := by
    obtain ⟨whole, time⟩ := Call.Ends.of_progress rfl ends ended
    exact ⟨whole, time⟩
  simp only [step?, hs] at step
  split at step
  · cases step
  · rename_i late
    cases step
    exact .evict (affords (by simp [late])) (Nat.le_refl _)
  · rename_i ripe
    cases hr : s.finishCall Memory.backend t call with
    | mk u reply =>
      obtain ⟨told, hpool⟩ := Instant.finishCall hr
      have affords' : u.settings.Affords deadline u.clock u.pool.idle.length
          (u.settings.attempts - attempt + 1) := by
        rw [told.settings, told.clock, hpool]
        exact affords (by simp [ripe])
      simp only [hr] at step
      cases reply with
      | ok ms =>
        cases step
        refine .after told (.employ affords' _ ?_)
        rw [told.settings, hpool]
        exact Nat.le_succ _
      | error f =>
        cases step
        refine .after told (.evict affords' ?_)
        rw [told.settings, hpool]

theorem lands_of_opening {call : Call}
    (hs : s.stage? t = some (.opening (.evaluate e attempt) call))
    (affords : s.settings.Affords deadline s.clock s.pool.idle.length
      (s.settings.attempts - attempt + 1))
    (step : s.step? Memory.backend t = some s') :
    Lands t deadline (s.pool.idle.length + 2 * (s.settings.attempts - attempt) + 2) s s' := by
  simp only [step?, hs] at step
  split at step
  · cases step
  · cases step
    exact .openFailed s .connectTimeout
  · cases hr : s.finishCall Memory.backend t call with
    | mk u reply =>
      obtain ⟨told, hpool⟩ := Instant.finishCall hr
      simp only [hr] at step
      cases reply with
      | ok ms =>
        cases step
        have cleared : Instant t u u.clear.1 := ⟨rfl, rfl, rfl, rfl⟩
        have hsettings : u.clear.1.settings = s.settings := told.settings
        have hclock : u.clear.1.clock = s.clock := told.clock
        have hpool : u.clear.1.pool = s.pool := hpool
        refine .after (told.trans cleared) (.employ ?_ _ ?_)
        · rw [hsettings, hclock, hpool]
          exact affords
        · rw [hsettings, hpool]
      | error f =>
        cases step
        exact .after told (.openFailed u f)

/-- A command that is over leaves time for the attempts that are left. -/
theorem lands_of_evaluating {lease : Lease} {call : Call}
    (hs : s.stage? t = some (.evaluating e attempt lease call))
    (ends : call.Ends deadline s.clock
      (s.settings.patience s.pool.idle.length (s.settings.attempts - attempt)))
    (step : s.step? Memory.backend t = some s') :
    Lands t deadline (s.pool.idle.length + 2 * (s.settings.attempts - attempt) + 1) s s' := by
  have affords (ended : s.progress call ≠ .pending) : s.settings.Affords deadline s.clock
      s.pool.idle.length (s.settings.attempts - attempt) := by
    obtain ⟨whole, time⟩ := Call.Ends.of_progress rfl ends ended
    exact ⟨whole, time⟩
  simp only [step?, hs] at step
  split at step
  · cases step
  · rename_i late
    cases step
    exact .counted (affords (by simp [late])) lease _ (Nat.le_refl _)
  · rename_i ripe
    cases hr : s.finishCall Memory.backend t call with
    | mk u reply =>
      obtain ⟨told, hpool⟩ := Instant.finishCall hr
      simp only [hr] at step
      cases step
      refine .after told (.counted ?_ lease reply ?_)
      · rw [told.settings, told.clock, hpool]
        exact affords (by simp [ripe])
      · rw [told.settings, hpool]

end

/-- A step that is made in time leads on. -/
theorem lands_of_step? {stage : Stage} (hs : s.stage? t = some stage)
    (inTime : stage.InTime s.settings deadline s.clock s.pool.idle.length)
    (step : s.step? Memory.backend t = some s') :
    ∃ n < stage.stepsAhead s.settings s.pool.idle.length, Lands t deadline n s s' := by
  unfold Stage.InTime at inTime
  split at inTime
  · have first : s.settings.attempts = s.settings.attempts - 1 + 1 := by
      have := s.settings.attempts_pos
      omega
    simp only [step?, hs, Limiter.begin] at step
    cases step
    refine ⟨_, Nat.lt_succ_self _, .want (first ▸ inTime) ?_⟩
    show s.pool.idle.length + 2 * (s.settings.attempts - 1) + 3 ≤
      s.pool.idle.length + 2 * s.settings.attempts + 1
    omega
  · exact ⟨_, Nat.lt_succ_self 1, lands_of_queued hs step⟩
  · exact ⟨_, Nat.lt_succ_self _, lands_of_probing hs inTime step⟩
  · exact ⟨_, Nat.lt_succ_self _, lands_of_opening hs inTime.2 step⟩
  · exact ⟨_, Nat.lt_succ_self _, lands_of_evaluating hs inTime step⟩
  · exact inTime.elim

theorem two_le_stepsAhead {stage : Stage} {p : PoolSettings} {now idle : Nat}
    (inTime : stage.InTime p deadline now idle) : 2 ≤ stage.stepsAhead p idle := by
  unfold Stage.InTime at inTime
  split at inTime
  · exact Nat.le_add_left ..
  · exact Nat.le_refl 2
  · exact Nat.le_add_left_of_le (by decide)
  · exact Nat.le_add_left_of_le (by decide)
  · exact Nat.le_add_left ..
  · exact inTime.elim

theorem isOver_of_inTime {stage : Stage} {p : PoolSettings} {now idle : Nat}
    (inTime : stage.InTime p deadline now idle) : stage.isOver = false := by
  cases stage with
  | done time => exact inTime.elim
  | cancelled => exact inTime.elim
  | _ => rfl

theorem clock_le_of_inTime {stage : Stage} {p : PoolSettings} {now idle : Nat}
    (inTime : stage.InTime p deadline now idle) : now ≤ deadline := by
  have ends : ∀ {call : Call} {ms : Nat}, call.Ends deadline now ms → now ≤ deadline := by
    intro call ms ends
    obtain ⟨expiry, hexpiry, hend⟩ := ends.expires
    have hle := ends.ahead expiry (Call.Ends.expiry_mem hexpiry)
    exact Nat.le_trans hle (Nat.le_trans (Nat.mul_le_mul_right _ (Nat.le_add_right ..)) hend)
  unfold Stage.InTime at inTime
  split at inTime
  · exact Nat.le_trans (Nat.le_add_right ..) inTime.time
  · exact Nat.le_trans inTime.1 inTime.2
  · exact ends inTime
  · exact Nat.le_trans (Nat.le_add_right ..) inTime.2.time
  · exact ends inTime
  · exact inTime.elim

/-! ## While a task waits -/

/-- What a task that has to wait waits for: a timer that is set, up to which time may pass. -/
structure Waits (s : Limiter Memory) (t : TaskId) (deadline : Nat) (stage : Stage) : Prop where
  timers : stage.timers ≠ []
  ahead : ∀ timer ∈ stage.timers, s.clock ≤ timer.tick * usPerMs
  pass : ∀ us : Nat, (∀ timer ∈ stage.timers, s.clock + us ≤ timer.tick * usPerMs) →
    stage.InTime s.settings deadline (s.clock + us) s.pool.idle.length
  rings : ∀ us : Nat, ∀ timer ∈ stage.timers, (s.pass us).rung timer = true →
    ((s.pass us).step? Memory.backend t).isSome = true

/-- A request that is waited for. -/
theorem Waits.of_call {stage : Stage} {call : Call} {ms : Nat} (hs : s.stage? t = some stage)
    (request : stage.request? = some call) (ends : call.Ends deadline s.clock ms)
    (blocked : s.step? Memory.backend t = none) (timers : stage.timers = call.timers)
    (inTime : ∀ now : Nat, call.Ends deadline now ms →
      stage.InTime s.settings deadline now s.pool.idle.length) : s.Waits t deadline stage where
  timers := by
    obtain ⟨expiry, hexpiry, -⟩ := ends.expires
    exact timers ▸ List.ne_nil_of_mem (Call.Ends.expiry_mem hexpiry)
  ahead := timers ▸ ends.ahead
  pass us ahead := inTime _ (ends.pass (progress_of_blocked hs request blocked) (timers ▸ ahead))
  rings us timer htimer rung := by
    have stays : (s.pass us).stage? t = some stage := hs
    exact (isSome_step?_iff _ stays request).mpr
      (Call.Ends.progress_of_rung (timers ▸ htimer) rung)

/-- A task that cannot go on waits for a timer. -/
theorem waits_of_blocked {stage : Stage} (hs : s.stage? t = some stage)
    (inTime : stage.InTime s.settings deadline s.clock s.pool.idle.length)
    (blocked : s.step? Memory.backend t = none) : s.Waits t deadline stage := by
  have kept := inTime
  unfold Stage.InTime at inTime
  split at inTime
  · simp [step?, hs] at blocked
  · rename_i e attempt expiry
    refine ⟨by simp [Stage.timers], ?_, fun us ahead => ?_, fun us timer htimer rung => ?_⟩
    · simpa [Stage.timers] using inTime.1
    · exact ⟨ahead expiry (by simp [Stage.timers]), inTime.2⟩
    · obtain rfl : timer = expiry := by simpa [Stage.timers] using htimer
      have hs' : (s.pass us).stage? t = some (.queued (.evaluate e attempt) timer) := hs
      simp only [step?, hs', rung, if_true]
      split <;> rfl
  · exact .of_call hs rfl inTime blocked rfl fun _ h => h
  · have pending := progress_of_blocked hs rfl blocked
    simp [progress, inTime.1] at pending
  · exact .of_call hs rfl inTime blocked rfl fun _ h => h
  · exact inTime.elim

/-! ## A check and the call that is counted for it -/

/-- Nothing goes on but a check and the call that is counted for it. -/
structure Quiet (t : TaskId) (s : Limiter Memory) : Prop where
  tidy : Tidy s
  others : ∀ v, v ≠ t → v ≠ t + 1 → s.isOver v = true

theorem Quiet.mine (quiet : Quiet t s) (step : s.step? Memory.backend v = some s') :
    v = t ∨ v = t + 1 := by
  refine Decidable.byContradiction fun hne => ?_
  obtain ⟨ht, hchild⟩ := not_or.mp hne
  rw [step?_of_isOver (quiet.others v ht hchild)] at step
  cases step

theorem Quiet.step (quiet : Quiet t s) (step : s.step? Memory.backend v = some s')
    (new : ∀ u ∈ Table.keys s'.tasks, u ∈ Table.keys s.tasks ∨ u = t + 1) : Quiet t s' where
  tidy := (Tidy.invariant Memory.surroundings).step? quiet.tidy step
  others u ht hchild := by
    have hne : u ≠ v := by
      rintro rfl
      exact (quiet.mine step).elim ht hchild
    exact (Spared.of_step? quiet.tidy hne step).isOver (quiet.others u ht hchild)
      fun hu => (new u hu).resolve_right hchild

theorem Quiet.outside (quiet : Quiet t s) (clock : Time) (backend : Memory)
    (ready : List TaskId) : Quiet t { s with clock, backend, ready } :=
  ⟨quiet.tidy.of_eq rfl rfl rfl, quiet.others⟩

theorem Quiet.of_start {job : Job} (tidy : Tidy s) (alone : ∀ v, s.isOver v = true) :
    Quiet s.nextTask (s.start [job]).1 where
  tidy := tidy.start [job]
  others v hv _ := by
    rw [isOver, stage?, get?_start_ne hv]
    exact alone v

/-- How far a check has come that is to end by the deadline, and how many steps are left at
most. -/
inductive Timed (t : TaskId) (c : Charge) (deadline : Nat) : Nat → Limiter Memory → Prop where
  /-- It has not begun. -/
  | asked {s : Limiter Memory} {job : Job} {limit : Limit}
    (charged : job.charge? = some (c, limit))
    (entry : Table.get? s.tasks t = some ⟨.fresh job, [], []⟩) (next : s.nextTask = t + 1)
    (affords : s.settings.Affords deadline s.clock s.pool.idle.length s.settings.attempts) :
    Timed t c deadline (s.pool.idle.length + 2 * s.settings.attempts + 3) s
  /-- A task is there that has the call counted. -/
  | trying {s : Limiter Memory} {stage : Stage}
    (entry : Table.get? s.tasks t = some ⟨.awaiting c (t + 1), [], []⟩)
    (child : Table.get? s.tasks (t + 1) = some ⟨stage, [], []⟩)
    (inTime : stage.InTime s.settings deadline s.clock s.pool.idle.length) :
    Timed t c deadline (stage.stepsAhead s.settings s.pool.idle.length) s
  /-- This task has ended, with a verdict or without. -/
  | answered {s : Limiter Memory}
    (entry : Table.get? s.tasks t = some ⟨.awaiting c (t + 1), [], []⟩)
    (ended : s.isOver (t + 1) = true) (inTime : s.clock ≤ deadline) : Timed t c deadline 1 s
  /-- The caller knows the decision. -/
  | concluded {s : Limiter Memory} {d : Decision} {time : Nat}
    (entry : Table.get? s.tasks t = some ⟨.done time, [], [.ok (.decision d)]⟩)
    (ended : s.isOver (t + 1) = true) (inTime : time ≤ deadline) : Timed t c deadline 0 s

namespace Timed

variable {c : Charge}

/-- What a step of a check has led to. -/
structure Forward (t : TaskId) (c : Charge) (deadline n : Nat) (s s' : Limiter Memory) : Prop where
  /-- No task is new but the one that has the call counted. -/
  new : ∀ u ∈ Table.keys s'.tasks, u ∈ Table.keys s.tasks ∨ u = t + 1
  nearer : ∃ m < n, Timed t c deadline m s'

/-- The call is to be counted by a task of its own. -/
theorem begin {job : Job} {limit : Limit} (charged : job.charge? = some (c, limit))
    (entry : Table.get? s.tasks t = some ⟨.fresh job, [], []⟩) (next : s.nextTask = t + 1)
    (affords : s.settings.Affords deadline s.clock s.pool.idle.length s.settings.attempts)
    (step : s.step? Memory.backend t = some s') :
    Forward t c deadline (s.pool.idle.length + 2 * s.settings.attempts + 3) s s' := by
  have ht : t ≠ s.nextTask := next ▸ Nat.ne_of_lt (Nat.lt_succ_self t)
  have hentry := get?_charge_self ht entry c limit
  have hchild := get?_charge_child ht c limit
  simp only [step?, stage?_of_get? entry, begin_of_charge? charged] at step
  obtain rfl := Option.some.inj step
  rw [next] at hentry hchild
  refine ⟨fun u hu => ?_, _, Nat.lt_succ_self _, ?_⟩
  · simpa [charge_eq, next, or_comm] using hu
  · have inTime : Stage.InTime (s.charge t c limit).settings deadline (s.charge t c limit).clock
        (s.charge t c limit).pool.idle.length (.fresh (.evaluate (c.evaluation limit))) := by
      simpa [charge_eq, Stage.InTime] using affords
    have trying : Timed t c deadline _ (s.charge t c limit) := .trying hentry hchild inTime
    simpa [charge_eq, Stage.stepsAhead] using trying

/-- The task that has the call counted goes on. -/
theorem goOn (tidy : Tidy s)
    (entry : Table.get? s.tasks t = some ⟨.awaiting c (t + 1), [], []⟩) {stage : Stage}
    (child : Table.get? s.tasks (t + 1) = some ⟨stage, [], []⟩)
    (inTime : stage.InTime s.settings deadline s.clock s.pool.idle.length)
    (step : s.step? Memory.backend (t + 1) = some s') :
    Forward t c deadline (stage.stepsAhead s.settings s.pool.idle.length) s s' := by
  have entry' := (Spared.of_step? tidy (Nat.ne_of_lt (Nat.lt_succ_self t)) step).get?_awaiting entry
  have soon := clock_le_of_inTime inTime
  obtain ⟨n, hn, lands⟩ := lands_of_step? (stage?_of_get? child) inTime step
  cases lands with
  | @parks u before stage' inTime' left =>
    obtain ⟨_, hu⟩ := get?_of_ledger? child before.ledger
    have child' : Table.get? (u.setStage (t + 1) stage').tasks (t + 1) = some ⟨stage', [], []⟩ := by
      simp [hu]
    refine ⟨fun v hv => .inl ?_, _, Nat.lt_of_le_of_lt ?_ hn, .trying entry' child' ?_⟩
    · simpa [before.keys] using hv
    · rw [← before.settings] at left
      exact left
    · rw [← before.settings, ← before.clock] at inTime'
      exact inTime'
  | @settles u before outcome =>
    obtain ⟨_, hu⟩ := get?_of_ledger? child before.ledger
    refine ⟨fun v hv => .inl ?_, 1, two_le_stepsAhead inTime, .answered entry' ?_ ?_⟩
    · simpa [before.keys] using hv
    · simp [isOver, stage?, hu, Task.settled, Stage.isOver]
    · simpa [before.clock] using soon

/-- The caller is told a decision. -/
theorem conclude (request : c.request = none)
    (entry : Table.get? s.tasks t = some ⟨.awaiting c (t + 1), [], []⟩)
    (ended : s.isOver (t + 1) = true) (inTime : s.clock ≤ deadline)
    (step : s.step? Memory.backend t = some s') : Forward t c deadline 1 s s' := by
  obtain ⟨-, hs'⟩ := step?_of_awaiting (stage?_of_get? entry) step
  generalize hv : verdictOf (t + 1) (s.lastOutcome? (t + 1)) = verdict at hs'
  simp only [tell, request] at hs'
  have ended' : s'.isOver (t + 1) = true := by
    simpa [hs', isOver, stage?] using ended
  have entry' : Table.get? s'.tasks t =
      some ⟨.done s.clock, [], [.ok (.decision (s.decideOn t (t + 1) c verdict).2)]⟩ := by
    simp [hs', entry, Task.settled]
  refine ⟨fun u hu => .inl ?_, 0, Nat.one_pos, .concluded entry' ended' inTime⟩
  simpa [hs'] using hu

/-- Every step brings a check nearer to its end. -/
theorem step (quiet : Quiet t s) (request : c.request = none) (h : Timed t c deadline n s)
    (step : s.step? Memory.backend v = some s') : Forward t c deadline n s s' := by
  have mine := quiet.mine step
  have idle : ∀ {u : TaskId}, s.isOver u = true → v ≠ u := by
    rintro u ended rfl
    rw [step?_of_isOver ended] at step
    cases step
  cases h with
  | asked charged entry next affords =>
    have hnone : s.stage? (t + 1) = none :=
      stage?_eq_none_iff.mpr (next ▸ quiet.tidy.nextTask_not_mem)
    obtain rfl := mine.resolve_right (idle (by rw [isOver, hnone]; rfl))
    exact begin charged entry next affords step
  | trying entry child inTime =>
    -- whoever waits for a task that is not over takes no step
    have waits : v ≠ t := by
      rintro rfl
      obtain ⟨ended, -⟩ := step?_of_awaiting (stage?_of_get? entry) step
      simp [isOver, stage?_of_get? child, isOver_of_inTime inTime] at ended
    obtain rfl := mine.resolve_left waits
    exact goOn quiet.tidy entry child inTime step
  | answered entry ended inTime =>
    obtain rfl := mine.resolve_right (idle ended)
    exact conclude request entry ended inTime step
  | concluded entry ended inTime =>
    rcases mine with rfl | rfl
    · exact absurd rfl (idle (by rw [isOver, stage?_of_get? entry]; rfl))
    · exact absurd rfl (idle ended)

/-- The store and whose turn it is do not matter. -/
theorem outside (h : Timed t c deadline n s) (backend : Memory) (ready : List TaskId) :
    Timed t c deadline n { s with backend, ready } := by
  cases h with
  | asked charged entry next affords =>
    exact .asked (s := { s with backend, ready }) charged entry next affords
  | trying entry child inTime => exact .trying (s := { s with backend, ready }) entry child inTime
  | answered entry ended inTime =>
    exact .answered (s := { s with backend, ready }) entry ended inTime
  | concluded entry ended inTime =>
    exact .concluded (s := { s with backend, ready }) entry ended inTime

/-- A check is not kept waiting beyond what it waits for. -/
theorem pass (h : Timed t c deadline n s) {us : Nat} (may : s.MayPass Memory.backend us) :
    Timed t c deadline n (s.pass us) := by
  cases h with
  | asked charged entry next affords =>
    have blocked := may.blocked t
    simp [step?, stage?_of_get? entry] at blocked
  | @trying _ stage entry child inTime =>
    have waits := waits_of_blocked (stage?_of_get? child) inTime (may.blocked _)
    have ahead : ∀ timer ∈ stage.timers, s.clock + us ≤ timer.tick * usPerMs :=
      fun timer htimer => may.2 (timer, t + 1) (mem_timers child htimer)
    exact .trying (s := s.pass us) entry child (waits.pass us ahead)
  | answered entry ended inTime =>
    have blocked := may.blocked t
    simp [step?, stage?_of_get? entry, ended] at blocked
  | concluded entry ended inTime => exact .concluded (s := s.pass us) entry ended inTime

theorem move (quiet : Quiet t s) (request : c.request = none) (h : Timed t c deadline n s)
    {m : Move MemoryChange} (calm : m.isCalm = true) (timely : Timely Memory.surroundings s [m]) :
    Quiet t (s.move Memory.surroundings m) ∧
      ∃ k, k + s.stepsIn Memory.surroundings [m] ≤ n ∧
        Timed t c deadline k (s.move Memory.surroundings m) := by
  cases m with
  | step v =>
    cases hstep : s.step? Memory.surroundings.backend v with
    | none =>
      rw [move_step_of_none hstep, stepsIn_step_of_none hstep]
      exact ⟨quiet, n, Nat.le_refl n, h⟩
    | some s' =>
      have forward := h.step quiet request hstep
      obtain ⟨k, hk, h'⟩ := forward.nearer
      rw [move_step_of_some hstep, stepsIn_step_of_some hstep]
      exact ⟨quiet.step hstep forward.new, k, Nat.succ_le_of_lt hk, h'⟩
  | pass us =>
    exact ⟨quiet.outside (s.clock + us) s.backend s.ready, n, Nat.le_refl n, h.pass timely.1⟩
  | tend change =>
    exact ⟨quiet.outside s.clock (Memory.tend s.clock s.backend change) s.ready, n, Nat.le_refl n,
      h.outside ..⟩
  | arrange ready =>
    exact ⟨quiet.outside s.clock s.backend ready, n, Nat.le_refl n, h.outside ..⟩
  | _ => cases calm

/-- A check keeps its deadline all along a run in which nothing else goes on. -/
theorem run (quiet : Quiet t s) (request : c.request = none) (h : Timed t c deadline n s)
    {moves : List (Move MemoryChange)} (calm : ∀ m ∈ moves, m.isCalm = true)
    (timely : Timely Memory.surroundings s moves) :
    Quiet t (s.run Memory.surroundings moves) ∧
      ∃ k, k + s.stepsIn Memory.surroundings moves ≤ n ∧
        Timed t c deadline k (s.run Memory.surroundings moves) := by
  induction moves generalizing s n with
  | nil => exact ⟨quiet, n, Nat.le_refl n, h⟩
  | cons m rest ih =>
    obtain ⟨hm, calm⟩ := List.forall_mem_cons.mp calm
    obtain ⟨quiet', k, hk, h'⟩ := h.move quiet request hm ⟨timely.1, trivial⟩
    obtain ⟨quiet'', i, hi, h''⟩ := ih quiet' h' calm timely.2
    refine ⟨quiet'', i, ?_, h''⟩
    rw [stepsIn_cons]
    omega

/-- As long as a check has not come to its end somebody can go on now, or as soon as the next timer
has rung. -/
theorem exists_step (quiet : Quiet t s) (h : Timed t c deadline n s)
    (running : s.isOver t = false) :
    (∃ v, (s.step? Memory.backend v).isSome = true) ∨
      ∃ us, s.MayPass Memory.backend us ∧
        ∃ v, ((s.pass us).step? Memory.backend v).isSome = true := by
  cases h with
  | asked charged entry next affords => exact .inl ⟨t, by simp [step?, stage?_of_get? entry]⟩
  | @trying _ stage entry child inTime =>
    cases blocked : s.step? Memory.backend (t + 1) with
    | some s' => exact .inl ⟨t + 1, by simp [blocked]⟩
    | none =>
      have waits := waits_of_blocked (stage?_of_get? child) inTime blocked
      -- the other tasks wait for this one or are over, and have no timers
      have still : ∀ e ∈ s.tasks, s.step? Memory.backend e.1 = none := by
        rintro ⟨v, task⟩ -
        cases hstep : s.step? Memory.backend v with
        | none => rfl
        | some s' =>
          rcases quiet.mine hstep with rfl | rfl
          · obtain ⟨ended, -⟩ := step?_of_awaiting (stage?_of_get? entry) hstep
            simp [isOver, stage?_of_get? child, isOver_of_inTime inTime] at ended
          · cases hstep.symm.trans blocked
      have only : ∀ e ∈ s.timers, e.2 = t + 1 ∧ e.1 ∈ stage.timers := by
        intro e he
        obtain ⟨task, hget, htimer⟩ := exists_of_mem_timers quiet.tidy he
        have hne : e.2 ≠ t := fun heq => by
          rw [heq, entry] at hget
          cases hget
          cases htimer
        have hchild : e.2 = t + 1 := by
          by_contra hne'
          have hover := quiet.others e.2 hne hne'
          rw [isOver, stage?_of_get? hget] at hover
          rw [Stage.timers_of_isOver hover] at htimer
          cases htimer
        rw [hchild, child] at hget
        cases hget
        exact ⟨hchild, htimer⟩
      obtain ⟨timer, htimer⟩ := List.exists_mem_of_ne_nil _ waits.timers
      obtain ⟨us, may, e, he, rung⟩ := exists_mayPass still
        (List.ne_nil_of_mem (mem_timers child htimer)) fun e he => waits.ahead e.1 (only e he).2
      exact .inr ⟨us, may, t + 1, waits.rings us e.1 (only e he).2 rung⟩
  | answered entry ended inTime =>
    exact .inl ⟨t, by simp [step?, stage?_of_get? entry, ended]⟩
  | concluded entry ended inTime =>
    rw [isOver, stage?_of_get? entry] at running
    cases running

/-- However far a check has come, it can go on to its end. -/
theorem exists_end (quiet : Quiet t s) (request : c.request = none)
    (h : Timed t c deadline n s) : ∃ further : List (Move MemoryChange),
      (∀ m ∈ further, m.isCalm = true) ∧ Timely Memory.surroundings s further ∧
        (s.run Memory.surroundings further).isOver t = true := by
  induction n using Nat.strongRecOn generalizing s with
  | ind n ih =>
    cases hover : s.isOver t with
    | true => exact ⟨[], nofun, trivial, hover⟩
    | false =>
      have goOn : ∀ {u : Limiter Memory} {v : TaskId}, Quiet t u → Timed t c deadline n u →
          (u.step? Memory.backend v).isSome = true → ∃ further : List (Move MemoryChange),
            (∀ m ∈ further, m.isCalm = true) ∧ Timely Memory.surroundings u further ∧
              (u.run Memory.surroundings further).isOver t = true := by
        intro u v quiet h hsome
        obtain ⟨u', hstep⟩ := Option.isSome_iff_exists.mp hsome
        have forward := h.step quiet request hstep
        obtain ⟨k, hk, h'⟩ := forward.nearer
        obtain ⟨further, calm, timely, ends⟩ := ih k hk (quiet.step hstep forward.new) h'
        have hmove : u.move Memory.surroundings (.step v) = u' := move_step_of_some hstep
        refine ⟨.step v :: further, List.forall_mem_cons.mpr ⟨rfl, calm⟩, ⟨trivial, ?_⟩, ?_⟩
        · rwa [hmove]
        · rwa [Limiter.run, List.foldl_cons, hmove]
      rcases h.exists_step quiet hover with ⟨v, hsome⟩ | ⟨us, may, v, hsome⟩
      · exact goOn quiet h hsome
      · obtain ⟨further, calm, timely, ends⟩ :=
          goOn (quiet.outside (s.clock + us) s.backend s.ready) (h.pass may) hsome
        exact ⟨.pass us :: further, List.forall_mem_cons.mpr ⟨rfl, calm⟩, ⟨may, timely⟩, ends⟩

/-- Until a check has come to its end its deadline has not passed. -/
theorem clock_le (h : Timed t c deadline n s) (running : s.isOver t = false) :
    s.clock ≤ deadline := by
  cases h with
  | asked charged entry next affords => exact Nat.le_trans (Nat.le_add_right ..) affords.time
  | trying entry child inTime => exact clock_le_of_inTime inTime
  | answered entry ended inTime => exact inTime
  | concluded entry ended inTime =>
    rw [isOver, stage?_of_get? entry] at running
    cases running

/-- A check that has come to its end has come to a decision, in time. -/
theorem of_isOver (h : Timed t c deadline n s) (ended : s.isOver t = true) :
    ∃ d time, s.stage? t = some (.done time) ∧ s.outcomes t = [.ok (.decision d)] ∧
      time ≤ deadline := by
  have stops : ∀ {task : Task}, Table.get? s.tasks t = some task → task.stage.isOver = true :=
    fun entry => by rwa [isOver, stage?_of_get? entry] at ended
  cases h with
  | concluded entry ended inTime =>
    exact ⟨_, _, stage?_of_get? entry, outcomes_of_get? entry, inTime⟩
  | asked charged entry next affords => cases stops entry
  | trying entry child inTime => cases stops entry
  | answered entry ended inTime => cases stops entry

/-- A check that has just been asked for. -/
theorem of_start {job : Job} {limit : Limit} (charged : job.charge? = some (c, limit))
    (affords : s.settings.Affords deadline s.clock s.pool.idle.length s.settings.attempts) :
    Timed s.nextTask c deadline (s.pool.idle.length + 2 * s.settings.attempts + 3)
      (s.start [job]).1 := by
  have asked : Timed s.nextTask c deadline _ (s.start [job]).1 :=
    .asked charged (get?_start_self s [job]) (by simp) (by simpa using affords)
  simpa using asked

end Timed

end Limiter

namespace Memory

/-- After any run, with whatever faults there were in it, whether or not the pool is open and a
permit is free: if no task is under way and the clock stands at a whole millisecond, then a check
with a valid limit takes no more steps than this bound, whatever happens to the store meanwhile;
from wherever it has come to it can go on to its end; until then the clock has not moved on by more
than the timeouts, one connect timeout for each connection that rested and one more, and one
command timeout for each attempt; and in the end it has come to a decision within that time. -/
theorem decided_within_timeouts (settings : PoolSettings) (moves more : List (Move MemoryChange))
    (identity service : String) (numbers : Option (Int × Int)) {limit : Limit}
    (valid : (Job.check identity service numbers).charge? =
      some (⟨identity, service, none⟩, limit))
    (alone : ∀ e ∈ ((Limiter.fresh fresh settings).run surroundings moves).tasks,
      e.2.stage.isOver = true)
    (whole : ((Limiter.fresh fresh settings).run surroundings moves).clock % usPerMs = 0)
    (calm : ∀ m ∈ more, m.isCalm = true)
    (timely : Limiter.Timely surroundings
      (((Limiter.fresh fresh settings).run surroundings moves).start
        [.check identity service numbers]).1 more) :
    let s := (Limiter.fresh fresh settings).run surroundings moves
    let asked := (s.start [.check identity service numbers]).1
    let s' := asked.run surroundings more
    let attempts := if settings.retryOnTimeout then 2 else 1
    let timeouts := (s.pool.idle.length + 1) * settings.connectTimeout +
      attempts * settings.commandTimeout
    asked.stepsIn surroundings more ≤ s.pool.idle.length + 2 * attempts + 3 ∧
      (∃ further : List (Move MemoryChange), (∀ m ∈ further, m.isCalm = true) ∧
        Limiter.Timely surroundings asked (more ++ further) ∧
        (asked.run surroundings (more ++ further)).isOver s.nextTask = true) ∧
      (s'.isOver s.nextTask = false → s'.clock ≤ s.clock + timeouts * usPerMs) ∧
      (s'.isOver s.nextTask = true → ∃ d time, s'.stage? s.nextTask = some (.done time) ∧
        s'.outcomes s.nextTask = [.ok (.decision d)] ∧
        time ≤ s.clock + timeouts * usPerMs) := by
  intro s asked s' attempts timeouts
  have checked : Limiter.Checked (Limiter.fresh fresh settings) s :=
    (Limiter.Checked.invariant surroundings _).run (.fresh fresh settings) moves
  have hsettings : s.settings = settings := checked.settings
  have hattempts : s.settings.attempts = attempts := by rw [hsettings, PoolSettings.attempts]
  have affords : s.settings.Affords (s.clock + timeouts * usPerMs) s.clock s.pool.idle.length
      s.settings.attempts := by
    refine ⟨whole, ?_⟩
    rw [hattempts, PoolSettings.patience, hsettings]
  have quiet : Limiter.Quiet s.nextTask asked :=
    .of_start checked.tidy (Limiter.isOver_of_forall_mem alone)
  have timed : Limiter.Timed s.nextTask ⟨identity, service, none⟩ (s.clock + timeouts * usPerMs)
      (s.pool.idle.length + 2 * s.settings.attempts + 3) asked := .of_start valid affords
  obtain ⟨quiet', k, hk, timed'⟩ := timed.run quiet rfl calm timely
  refine ⟨?_, ?_, timed'.clock_le, timed'.of_isOver⟩
  · rw [← hattempts]
    exact Nat.le_trans (Nat.le_add_left ..) hk
  · obtain ⟨further, calm', timely', ends⟩ := timed'.exists_end quiet' rfl
    refine ⟨further, calm', timely.append timely', ?_⟩
    rwa [Limiter.run_append]

/-- Two connections come to rest, and half a minute later the store has become slow. -/
def slowAfterRest : List (Move MemoryChange) :=
  [.start [.keep "a"], .step 0, .step 0, .start [.keep "b"], .step 1, .step 1, .release "a",
    .release "b", .pass 30000000, .tend (.turn (.latency 10000000)),
    .tend (.turn (.pingLatency 10000000))]

/-- A check that waits for two pings and for the answer to two attempts, each of them in vain. -/
def checkInVain : List (Move MemoryChange) :=
  [.step 2, .step 3, .pass 5000000, .step 3, .pass 5000000, .step 3, .step 3, .pass 5000000,
    .step 3, .step 3, .pass 5000000, .step 3, .step 2]

/-- The check takes as many steps as it may at most, and ends five seconds before it has to. -/
theorem decided_within_timeouts_checkInVain :
    let s := (Limiter.fresh fresh .standard).run surroundings slowAfterRest
    let asked := (s.start [.check "u" "svc" (some (2, 60))]).1
    let s' := asked.run surroundings checkInVain
    ((∀ e ∈ s.tasks, e.2.stage.isOver = true) ∧ s.clock % usPerMs = 0 ∧
      (∀ m ∈ checkInVain, m.isCalm = true) ∧ Limiter.Timely surroundings asked checkInVain) ∧
      (s.clock = 30000000 ∧ s'.clock = 50000000 ∧ asked.stepsIn surroundings checkInVain = 9) ∧
      asked.stepsIn surroundings checkInVain ≤ 9 ∧
      ∃ d time, s'.stage? 2 = some (.done time) ∧ s'.outcomes 2 = [.ok (.decision d)] ∧
        time ≤ 55000000 := by
  intro s asked s'
  have alone : ∀ e ∈ s.tasks, e.2.stage.isOver = true := by decide +kernel
  have whole : s.clock % usPerMs = 0 := by decide +kernel
  have timely : Limiter.Timely surroundings asked checkInVain := by decide +kernel
  have valid : (Job.check "u" "svc" (some (2, 60))).charge? =
      some (⟨"u", "svc", none⟩, ⟨2, 60, by decide, by decide, by decide⟩) := rfl
  obtain ⟨hsteps, -, -, hover⟩ := decided_within_timeouts .standard slowAfterRest checkInVain "u"
    "svc" (some (2, 60)) valid alone whole (by decide) timely
  have hidle : s.pool.idle.length = 2 := by decide +kernel
  have hclock : s.clock = 30000000 := by decide +kernel
  have hnext : s.nextTask = 2 := by decide +kernel
  have ended : s'.isOver s.nextTask = true := by decide +kernel
  refine ⟨⟨alone, whole, by decide, timely⟩, by decide +kernel, ?_, ?_⟩
  · exact hsteps.trans (by rw [hidle]; decide)
  · have hdecided := hover ended
    rw [hidle, hclock, hnext] at hdecided
    exact hdecided

end Memory

end Turnstile
