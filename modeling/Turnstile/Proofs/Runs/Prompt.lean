import Turnstile.Limiter.Schedule
import Turnstile.Proofs.Runs.Courses
import Turnstile.Proofs.Window.Admission

/-!
# A call on its way through a store that works

A store in memory that can be reached, runs scripts and is quick enough (`Sound`) lets no attempt to
count a call come to nothing: resting connections may fail their pings, but each that does is one
less, and in the end a connection is opened on which the call is counted. Every step of the task
brings it nearer to that (`Nearer`), and the call is counted in the last one
(`nearer_or_counted`).
-/

namespace Turnstile

/-- Whether the answer is due no later than the patience for it ends. -/
def Call.Prompt (call : Call) : Prop :=
  call.due = .now ∨
    ∃ due expiry, call.due = .on due ∧ call.expiry = some expiry ∧ due.tick ≤ expiry.tick

/-- The request for which a task at the stage waits until it is answered or takes too long. -/
def Stage.request? : Stage → Option Call
  | .probing _ call | .opening _ call | .evaluating _ _ _ call | .verifying _ call
  | .sweeping _ call => some call
  | _ => none

instance (m : Memory) : Decidable m.Works := inferInstanceAs (Decidable (_ ∧ _))

theorem Memory.Works.answer_connect {m : Memory} (works : m.Works) (now : Time) :
    m.answer now .connect = (m, .ok 0) := by
  simp [answer, works.1]

namespace Limiter

/-! ## Requests that end -/

section

variable {σ : Type} {s : Limiter σ} {call : Call}

theorem rung_mono {due expiry : Timer} (le : due.tick ≤ expiry.tick)
    (rung : s.rung expiry = true) : s.rung due = true := by
  simp only [Limiter.rung, decide_eq_true_eq] at rung ⊢
  exact Nat.le_trans le rung

/-- A prompt answer does not come too late. -/
theorem progress_ne_late (prompt : call.Prompt) : s.progress call ≠ .late := by
  rcases prompt with due | ⟨due, expiry, hdue, hexpiry, le⟩
  · simp [progress, due]
  · cases hr : s.rung expiry with
    | false => cases hd : s.rung due <;> simp [progress, hdue, hexpiry, hd, hr]
    | true => simp [progress, hdue, rung_mono le hr]

/-- Once the patience has ended there is no more waiting. -/
theorem exists_pass_ne_pending (s : Limiter σ) {expiry : Timer} (h : call.expiry = some expiry) :
    ∃ us, (s.pass us).progress call ≠ .pending := by
  refine ⟨expiry.tick * usPerMs, ?_⟩
  have hrung : (s.pass (expiry.tick * usPerMs)).rung expiry = true :=
    decide_eq_true ((Nat.le_div_iff_mul_le (by decide)).mpr (Nat.le_add_left ..))
  cases hdue : call.due with
  | now => simp [progress, hdue]
  | on due => cases hr : (s.pass (expiry.tick * usPerMs)).rung due <;>
      simp [progress, hdue, h, hr, hrung]
  | never => simp [progress, hdue, h, hrung]

/-- Whoever waits for a request can go on as soon as the waiting is over, and not before. -/
theorem isSome_step?_iff (B : Backend σ) {t : TaskId} {stage : Stage}
    (hs : s.stage? t = some stage) (request : stage.request? = some call) :
    (s.step? B t).isSome = true ↔ s.progress call ≠ .pending := by
  cases stage with
  | probing | opening | evaluating | verifying | sweeping =>
    cases request
    cases progress : s.progress call with
    | pending | late => simp [step?, hs, progress]
    | ripe =>
      cases hr : s.finishCall B t call with
      | mk u reply => cases reply <;> simp [step?, hs, progress, hr]
  | _ => cases request

theorem progress_of_blocked {B : Backend σ} {t : TaskId} {stage : Stage}
    (hs : s.stage? t = some stage) (request : stage.request? = some call)
    (blocked : s.step? B t = none) : s.progress call = .pending := by
  by_contra ended
  have goes := (isSome_step?_iff B hs request).mpr ended
  rw [blocked] at goes
  cases goes

/-- Whoever waits for a request can go on after some time. -/
theorem exists_isSome_step? (B : Backend σ) {t : TaskId} {stage : Stage}
    (hs : s.stage? t = some stage) (request : stage.request? = some call)
    (expires : call.expiry.isSome = true) : ∃ us, ((s.pass us).step? B t).isSome = true := by
  obtain ⟨expiry, hexpiry⟩ := Option.isSome_iff_exists.mp expires
  obtain ⟨us, ended⟩ := exists_pass_ne_pending s hexpiry
  have stays : (s.pass us).stage? t = some stage := hs
  exact ⟨us, (isSome_step?_iff B stays request).mpr ended⟩

@[simp] theorem expiry_startCall (B : Backend σ) (conn : ConnId) (command : Command) (ms : Nat) :
    ((s.startCall B conn command (some ms)).2.expiry).isSome = true := rfl

theorem tickOf_mono {a b : Time} (h : a ≤ b) : tickOf a ≤ tickOf b :=
  Nat.div_le_div_right (Nat.add_le_add_right h _)

@[simp] theorem tick_setTimer (s : Limiter σ) (ms : Nat) :
    (s.setTimer ms).2.tick = tickOf (s.clock + min ms farFutureMs * usPerMs) := rfl

/-- A timer for a shorter time rings no later. -/
theorem tick_setTimer_mono {u : Limiter σ} (clock : u.clock = s.clock) {n ms : Nat} (le : n ≤ ms) :
    (s.setTimer n).2.tick ≤ (u.setTimer ms).2.tick := by
  rw [tick_setTimer, tick_setTimer, clock]
  apply tickOf_mono
  have hmin : min n farFutureMs ≤ min ms farFutureMs :=
    Nat.le_min.mpr ⟨Nat.le_trans (Nat.min_le_left ..) le, Nat.min_le_right ..⟩
  exact Nat.add_le_add_left (Nat.mul_le_mul_right _ hmin) _

end

variable {s s' u : Limiter Memory} {t : TaskId} {e : Evaluation}

/-- The store works and counts a call before the patience for it ends. -/
structure Sound (s : Limiter Memory) : Prop where
  works : s.backend.Works
  prompt : s.backend.latencyMs ≤ s.settings.commandTimeout

instance (s : Limiter Memory) : Decidable s.Sound :=
  decidable_of_iff (s.backend.Works ∧ s.backend.latencyMs ≤ s.settings.commandTimeout)
    ⟨fun ⟨works, prompt⟩ => ⟨works, prompt⟩, fun sound => ⟨sound.works, sound.prompt⟩⟩

theorem Sound.of_eq (sound : Sound s) (backend : s'.backend = s.backend)
    (settings : s'.settings = s.settings) : Sound s' where
  works := backend ▸ sound.works
  prompt := by
    rw [backend, settings]
    exact sound.prompt

/-- A call that a sound store is asked to count is answered in time. -/
theorem Sound.prompt_startCall (sound : Sound s) (conn : ConnId) (key : String)
    (limit windowMs : Nat) :
    (s.startCall Memory.backend conn (.count key limit windowMs)
      (some s.settings.commandTimeout)).2.Prompt := by
  have hdelay : (Memory.backend.start s.backend conn (.count key limit windowMs)).2 =
      .ofMs s.backend.latencyMs := rfl
  by_cases h : s.backend.latencyMs = 0
  · refine .inl ?_
    simp only [startCall, hdelay, Delay.ofMs, if_pos h, dueAfter]
  · -- one timer for the answer and one for the patience, set at the same instant
    have hcall : (s.startCall Memory.backend conn (.count key limit windowMs)
        (some s.settings.commandTimeout)).2 =
          ⟨conn, .count key limit windowMs, .on (s.setTimer s.backend.latencyMs).2,
            some ((s.setTimer s.backend.latencyMs).1.setTimer s.settings.commandTimeout).2⟩ := by
      simp only [startCall, hdelay, Delay.ofMs, if_neg h, dueAfter]
      rfl
    rw [hcall]
    exact .inr ⟨_, _, rfl, rfl, tick_setTimer_mono rfl sound.prompt⟩

/-! ## Stages on the way -/

end Limiter

/-- Whether a task at the stage is on its way to have the call counted, with nothing to fear from a
store that works. -/
def Stage.OnTheWay (e : Evaluation) : Stage → Prop
  | .probing (.evaluate e' _) call => e' = e ∧ call.expiry.isSome
  | .opening (.evaluate e' _) call => e' = e ∧ call.expiry.isSome ∧ call.due = .now
  | .evaluating e' _ _ call => e' = e ∧ call.expiry.isSome ∧ call.Prompt
  | _ => False

/-- Whether the call was counted for the task, and is the one that the evaluation asks for. -/
structure Counted.IsFor (c : Counted) (t : TaskId) (e : Evaluation) : Prop where
  task : c.task = t
  key : c.key = e.key
  limit : c.limit = e.limit
  windowMs : c.windowMs = e.windowMs

/-- The most steps that are left on the way, given how many other connections rest. -/
def Stage.stepsLeft (idle : Nat) : Stage → Nat
  | .probing .. => idle + 4
  | .opening .. => 3
  | _ => 2

theorem Stage.OnTheWay.isOver {stage : Stage} {e : Evaluation} (h : stage.OnTheWay e) :
    stage.isOver = false := by
  unfold OnTheWay at h
  split at h
  · rfl
  · rfl
  · rfl
  · exact h.elim

namespace Limiter

variable {s s' u : Limiter Memory} {t : TaskId} {e : Evaluation}

/-- A task has gone on to a stage on its way, from which so many steps are left at most. -/
structure Nearer (t : TaskId) (e : Evaluation) (n : Nat) (s s' : Limiter Memory) : Prop where
  parks : ∃ u stage, Steady t s u ∧ s' = u.setStage t stage ∧ stage.OnTheWay e ∧
    stage.stepsLeft u.pool.idle.length ≤ n
  /-- Of the pool it has used resting connections at most. -/
  pool : ∃ idle, s'.pool = { s.pool with idle }

namespace Nearer

variable {n : Nat}

theorem after (h : Steady t s u) {idle : List Idle} (pool : u.pool = { s.pool with idle })
    (rest : Nearer t e n u s') : Nearer t e n s s' := by
  obtain ⟨v, stage, before, hs', way, left⟩ := rest.parks
  obtain ⟨idle', pool'⟩ := rest.pool
  exact ⟨⟨v, stage, h.trans before, hs', way, left⟩, idle', by rw [pool', pool]⟩

/-- A request is made and waited for. -/
theorem call (conn : ConnId) (command : Command) (ms : Nat) (stage : Call → Stage)
    (way : (stage (s.startCall Memory.backend conn command (some ms)).2).OnTheWay e)
    (left : ∀ call, (stage call).stepsLeft s.pool.idle.length ≤ n) :
    Nearer t e n s ((s.startCall Memory.backend conn command (some ms)).1.setStage t
      (stage (s.startCall Memory.backend conn command (some ms)).2)) :=
  ⟨⟨_, _, .startCall .., rfl, way, by simpa using left _⟩, s.pool.idle, by simp⟩

theorem employ (sound : Sound s) (attempt : Nat) (l : Lease) (two : 2 ≤ n) :
    Nearer t e n s (s.employ Memory.backend t (.evaluate e attempt) l) :=
  call l.conn (.count e.key e.limit e.windowMs) s.settings.commandTimeout (.evaluating e attempt l)
    ⟨rfl, expiry_startCall .., sound.prompt_startCall l.conn e.key e.limit e.windowMs⟩ fun _ => two

/-- Whoever has a permit takes the resting connection in front or opens one. -/
theorem choose (sound : Sound s) (attempt : Nat) (left : s.pool.idle.length + 3 ≤ n) :
    Nearer t e n s (s.choose Memory.backend t (.evaluate e attempt)) := by
  cases front : s.pool.idle with
  | nil =>
    have hnumber : Steady t s { s with nextConn := s.nextConn + 1 } := .of_eq rfl rfl rfl
    simp only [Limiter.choose, front]
    exact after hnumber rfl (call s.nextConn .connect s.settings.connectTimeout
      (.opening (.evaluate e attempt)) ⟨rfl, expiry_startCall .., rfl⟩ fun _ => by
        simp only [Stage.stepsLeft]
        omega)
  | cons i rest =>
    have htake : Steady t s { s with pool := { s.pool with idle := rest } } := .of_eq rfl rfl rfl
    have hlength : rest.length + 4 ≤ n := by simpa [front] using left
    simp only [Limiter.choose, front]
    split
    · have sound' : Sound { s with pool := { s.pool with idle := rest } } :=
        sound.of_eq rfl rfl
      exact after htake rfl (employ sound' attempt ⟨i.conn, i.checkedAt, false⟩ (by omega))
    · exact after htake rfl (call i.conn .ping s.settings.connectTimeout
        (.probing (.evaluate e attempt)) ⟨rfl, expiry_startCall ..⟩ fun _ => hlength)

end Nearer

/-! ## Steps on the way -/

variable {task : Task} {goal : Goal} {call : Call} {attempt : Nat}

/-- A ping changes nothing in the store. -/
theorem backend_of_ping {reply : Reply} (ping : call.command = .ping)
    (hr : s.finishCall Memory.backend t call = (u, reply)) : u.backend = s.backend := by
  rw [show u = (s.finishCall Memory.backend t call).1 from by rw [hr]]
  rcases s.backend.answer_cases s.clock call.command with ⟨hsame, -⟩ | ⟨_, _, _, hcount, -⟩
  · exact hsame
  · rw [ping] at hcount
    cases hcount

/-- Somebody pings a connection: it is used if it answers, and if it does not, there is one less. -/
theorem nearer_of_probing (sound : Sound s)
    (hs : s.stage? t = some (.probing (.evaluate e attempt) call)) (ping : call.command = .ping)
    (step : s.step? Memory.backend t = some s') : Nearer t e (s.pool.idle.length + 3) s s' := by
  have evicted : ∀ {u : Limiter Memory}, Steady t s u → Sound u → u.pool = s.pool →
      Nearer t e (s.pool.idle.length + 3) s (u.evict Memory.backend t (.evaluate e attempt)) := by
    intro u before sound hpool
    have sound' : Sound (u.emit .evicted) := sound.of_eq rfl rfl
    have left : (u.emit .evicted).pool.idle.length + 3 ≤ s.pool.idle.length + 3 := by
      rw [show (u.emit .evicted).pool = s.pool from hpool]
    exact .after (before.trans (.emit u rfl)) hpool (.choose sound' attempt left)
  simp only [step?, hs] at step
  split at step
  · cases step
  · cases step
    exact evicted (.refl s) sound rfl
  · cases hr : s.finishCall Memory.backend t call with
    | mk u reply =>
      have hu : Steady t s u := .finishCall hr (counted?_of_ne (by simp [ping]) ..)
      have hframe : u.settings = s.settings ∧ u.pool = s.pool := by
        rw [show u = (s.finishCall Memory.backend t call).1 from by rw [hr]]
        exact ⟨rfl, rfl⟩
      have sound' : Sound u := sound.of_eq (backend_of_ping ping hr) hframe.1
      simp only [hr] at step
      cases reply with
      | ok ms =>
        cases step
        exact .after hu hframe.2 (.employ sound' attempt _ (by omega))
      | error f =>
        cases step
        exact evicted hu sound' hframe.2

/-- A store that can be reached takes new connections at once. -/
theorem nearer_of_opening (sound : Sound s)
    (hs : s.stage? t = some (.opening (.evaluate e attempt) call))
    (connect : call.command = .connect) (now : call.due = .now)
    (step : s.step? Memory.backend t = some s') : Nearer t e 2 s s' := by
  have hanswer := sound.works.answer_connect s.clock
  have hr : s.finishCall Memory.backend t call =
      ((s.finishCall Memory.backend t call).1, .ok 0) :=
    Prod.ext rfl ((congrArg (fun c => (s.backend.answer s.clock c).2) connect).trans
      (congrArg Prod.snd hanswer))
  have hbackend : (s.finishCall Memory.backend t call).1.backend = s.backend :=
    (congrArg (fun c => (s.backend.answer s.clock c).1) connect).trans (congrArg Prod.fst hanswer)
  have hu : Steady t s (s.finishCall Memory.backend t call).1 :=
    .finishCall hr (counted?_of_ne (by simp [connect]) ..)
  have ripe : s.progress call = .ripe := by simp [progress, now]
  simp only [step?, hs, ripe] at step
  rw [hr] at step
  cases step
  have sound' : Sound (s.finishCall Memory.backend t call).1.clear.1 :=
    sound.of_eq hbackend rfl
  exact .after (hu.trans (.clear _)) rfl
    (.employ sound' attempt ⟨call.conn, _, false⟩ (Nat.le_refl 2))

/-- If nobody stands in the line, a connection that is given back leaves its permit free. -/
theorem free_giveBack {σ : Type} {s : Limiter σ} (line : s.pool.line = []) (l : Lease) :
    (s.giveBack l).pool.line = [] ∧ (s.giveBack l).pool.free = s.pool.free + 1 := by
  simp [giveBack, freePermit, line]

/-- Once the answer is there the call has been counted, and the job ends with the verdict. The
permit is free again if nobody stands in the line. -/
theorem counted_of_evaluating (hget : Table.get? s.tasks t = some task) (sound : Sound s)
    {lease : Lease} (hs : s.stage? t = some (.evaluating e attempt lease call))
    (count : call.command = .count e.key e.limit e.windowMs) (prompt : call.Prompt)
    (step : s.step? Memory.backend t = some s') :
    ∃ c : Counted, c.IsFor t e ∧ c.time = s.clock ∧ s'.counts = s.counts ++ [c] ∧
      Table.get? s'.tasks t = some (task.settled s.clock (.ok (.verdict c.verdict))) ∧
      Table.keys s'.tasks = Table.keys s.tasks ∧
      (s.pool.line = [] → s'.pool.line = [] ∧ s'.pool.free = s.pool.free + 1) := by
  have hreply : (s.finishCall Memory.backend t call).2 =
      .ok (s.backend.store.count s.clock e.key e.limit e.windowMs).2 :=
    (congrArg (fun c => (s.backend.answer s.clock c).2) count).trans
      (congrArg Prod.snd (sound.works.answer_count s.clock e.key e.limit e.windowMs))
  generalize hms : (s.backend.store.count s.clock e.key e.limit e.windowMs).2 = ms at hreply
  have hcounts := counts_finishCall (B := Memory.backend) (s := s) (t := t) call
  rw [hreply, show call.counted? s.clock t (.ok ms) =
    some ⟨t, e.key, e.limit, e.windowMs, s.clock, ms⟩ by simp [Call.counted?, count]] at hcounts
  simp only [step?, hs] at step
  split at step
  · cases step
  · exact absurd ‹_› (progress_ne_late prompt)
  · rw [hreply] at step
    cases step
    have hsteady := (Steady.commanded (t := t) (s.finishCall Memory.backend t call).1 lease.conn
      (.ok ms)).trans (.giveBack _ lease)
    obtain ⟨stage, hv⟩ := get?_of_ledger? hget hsteady.ledger
    refine ⟨⟨t, e.key, e.limit, e.windowMs, s.clock, ms⟩, ⟨rfl, rfl, rfl, rfl⟩, rfl,
      ?_, ?_, ?_, fun line => ?_⟩
    · simpa [counted, counts] using hsteady.counts.trans hcounts
    · simp only [counted, settle_frame, Table.get?_modify_self, hv, hsteady.clock]
      rfl
    · simp only [counted, settle_frame, Table.keys_modify]
      exact hsteady.keys
    · have hline : ((((s.finishCall Memory.backend t call).1.tally .commands).tally
          .durations).emit (.commanded t lease.conn (.ok ms))).pool.line = [] := line
      simp only [counted, settle_frame]
      exact free_giveBack hline lease

/-- Whoever is on the way can go on after some time. -/
theorem exists_step_of_onTheWay {stage : Stage} (hs : s.stage? t = some stage)
    (way : stage.OnTheWay e) : ∃ us, ((s.pass us).step? Memory.backend t).isSome = true := by
  unfold Stage.OnTheWay at way
  split at way
  · exact exists_isSome_step? _ hs rfl way.2
  · exact exists_isSome_step? _ hs rfl way.2.1
  · exact exists_isSome_step? _ hs rfl way.2.1
  · exact way.elim

end Limiter

end Turnstile
