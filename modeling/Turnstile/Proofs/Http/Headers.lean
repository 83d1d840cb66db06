import Turnstile.Proofs.Http.Answers
import Turnstile.Proofs.Table

/-!
# Headers buy nothing

Whom a request is charged to is settled when its job begins; afterwards nobody looks at where it
came from. So a limiter may be told of every request only by whom it is charged to, its method and
its target: `identified` forgets the rest, and every move of the limiter that knows more is a move
of the one that has forgotten it (`identified_move`). Where proxies are not believed the headers are
part of what is forgotten, and two runs that differ only in them are the same in all that can be
seen of them (`headers_without_effect`).
-/

namespace Turnstile

/-- Whether a site believes the headers of proxies. -/
def Site.trusts : Except SiteFault Site → Bool
  | .ok site => site.policy.trustProxyHeaders
  | .error _ => false

/-- The request of somebody who is known, without where it came from. -/
def Request.identified (r : Request) (identity : String) : Request :=
  { r with headers := [], peer := none, caller := some identity }

namespace Job

/-- The job with the requester identified. -/
def identified : Job → Job
  | .serve site r => .serve site (r.identified (r.identity (Site.trusts site)))
  | job => job

/-- The same job but for the headers of the request that it answers for a site. -/
inductive Alike (site : Except SiteFault Site) : Job → Job → Prop
  | same (job : Job) : Alike site job job
  | serve (r : Request) (headers : List (String × String)) :
    Alike site (.serve site r) (.serve site { r with headers })

/-- Where proxies are not believed, headers identify nobody. -/
theorem Alike.identified_eq {site : Except SiteFault Site} {job job' : Job}
    (alike : Alike site job job') (direct : Site.trusts site = false) :
    job.identified = job'.identified := by
  cases alike with
  | same => rfl
  | serve r headers =>
    simp only [identified, direct, Request.identity_direct]
    rfl

end Job

/-- A charge for a requester who is identified. -/
def Charge.identified (c : Charge) : Charge :=
  { c with request := c.request.map fun r => r.identified c.identity }

def Stage.identified : Stage → Stage
  | .fresh job => .fresh job.identified
  | .awaiting c child => .awaiting c.identified child
  | stage => stage

@[simp] theorem Stage.watched?_identified (stage : Stage) :
    stage.identified.watched? = stage.watched? := by
  cases stage <;> rfl

@[simp] theorem Stage.hand_identified (stage : Stage) : stage.identified.hand = stage.hand := by
  cases stage <;> rfl

@[simp] theorem Stage.isOver_identified (stage : Stage) :
    stage.identified.isOver = stage.isOver := by
  cases stage <;> rfl

def Task.identified (task : Task) : Task :=
  ⟨task.stage.identified, task.jobs.map Job.identified, task.outcomes⟩

@[simp] theorem Task.identified_ofJobs (now : Time) (jobs : List Job) :
    (ofJobs now jobs).identified = ofJobs now (jobs.map Job.identified) := by
  cases jobs <;> rfl

namespace Move

variable {ε : Type}

/-- The move with the requesters of started jobs identified. -/
def identified : Move ε → Move ε
  | .start jobs => .start (jobs.map Job.identified)
  | m => m

/-- The same move but for headers of requests that are answered for a site. -/
inductive Alike (site : Except SiteFault Site) : Move ε → Move ε → Prop
  | same (m : Move ε) : Alike site m m
  | start {jobs jobs' : List Job} (alike : List.Forall₂ (Job.Alike site) jobs jobs') :
    Alike site (.start jobs) (.start jobs')

theorem Alike.identified_eq {site : Except SiteFault Site} {m m' : Move ε} (alike : Alike site m m')
    (direct : Site.trusts site = false) : m.identified = m'.identified := by
  cases alike with
  | same => rfl
  | start alike =>
    refine congrArg Move.start ?_
    induction alike with
    | nil => rfl
    | cons job _ ih => exact congrArg₂ List.cons (job.identified_eq direct) ih

end Move

namespace Limiter

variable {σ ε : Type} {B : Backend σ} {t : TaskId}

/-- The limiter with all requesters identified. -/
def identified (s : Limiter σ) : Limiter σ :=
  { s with tasks := Table.mapValues Task.identified s.tasks }

@[simp] theorem identified_frame (s : Limiter σ) :
    s.identified.clock = s.clock ∧ s.identified.backend = s.backend ∧
      s.identified.settings = s.settings ∧ s.identified.pool = s.pool ∧
      s.identified.flag = s.flag ∧ s.identified.totals = s.totals ∧
      s.identified.metrics = s.metrics ∧ s.identified.journal = s.journal ∧
      s.identified.ready = s.ready ∧ s.identified.held = s.held ∧
      s.identified.opened = s.opened ∧ s.identified.nextTask = s.nextTask ∧
      s.identified.nextConn = s.nextConn ∧ s.identified.nextSerial = s.nextSerial := by
  simp [identified]

@[simp] theorem progress_identified (s : Limiter σ) (call : Call) :
    s.identified.progress call = s.progress call := rfl

@[simp] theorem rung_identified (s : Limiter σ) (timer : Timer) :
    s.identified.rung timer = s.rung timer := by
  simp [rung]

/-! ## What is known of tasks -/

@[simp] theorem get?_identified (s : Limiter σ) (t : TaskId) :
    Table.get? s.identified.tasks t = (Table.get? s.tasks t).map Task.identified :=
  Table.get?_mapValues ..

@[simp] theorem stage?_identified (s : Limiter σ) (t : TaskId) :
    s.identified.stage? t = (s.stage? t).map Stage.identified := by
  simp only [stage?, get?_identified, Option.map_map]
  rfl

@[simp] theorem isOver_identified (s : Limiter σ) (t : TaskId) :
    s.identified.isOver t = s.isOver t := by
  cases hs : s.stage? t <;> simp [isOver, hs]

@[simp] theorem hand_identified (s : Limiter σ) (t : TaskId) : s.identified.hand t = s.hand t := by
  cases hs : s.stage? t <;> simp [hand, hs]

@[simp] theorem outcomes_identified (s : Limiter σ) (t : TaskId) :
    s.identified.outcomes t = s.outcomes t := by
  cases hget : Table.get? s.tasks t <;> simp [outcomes, hget, Task.identified]

@[simp] theorem lastOutcome?_identified (s : Limiter σ) (t : TaskId) :
    s.identified.lastOutcome? t = s.lastOutcome? t := by
  cases hget : Table.get? s.tasks t <;> simp [lastOutcome?, hget, Task.identified]

@[simp] theorem watchers_identified (s : Limiter σ) (t : TaskId) :
    s.identified.watchers t = s.watchers t := by
  simp only [watchers, identified, Table.mapValues, List.filter_map, List.map_map]
  congr 1
  refine List.filter_congr fun e _ => ?_
  simp only [Function.comp_apply, Task.identified, Stage.watched?_identified]

/-! ## Tasks -/

@[simp] theorem identified_wakeAll (s : Limiter σ) (ts : List TaskId) :
    (s.wakeAll ts).identified = s.identified.wakeAll ts := by
  induction ts generalizing s with
  | nil => rfl
  | cons t rest ih =>
    have hwake : (s.wake t).identified = s.identified.wake t := by
      simp only [wake]
      exact apply_ite identified ..
    exact (ih (s.wake t)).trans (congrArg (wakeAll · rest) hwake)

@[simp] theorem identified_wake (s : Limiter σ) (t : TaskId) :
    (s.wake t).identified = s.identified.wake t :=
  identified_wakeAll s [t]

@[simp] theorem identified_setStage (s : Limiter σ) (t : TaskId) (stage : Stage) :
    (s.setStage t stage).identified = s.identified.setStage t stage.identified := by
  simp only [identified, setStage]
  rw [Table.mapValues_modify Task.identified _ t
    (k := fun task => { task with stage := stage.identified }) fun _ => rfl]

theorem identified_put (s : Limiter σ) (t : TaskId) (task : Task) :
    ({ s with tasks := Table.put s.tasks t task } : Limiter σ).identified =
      { s.identified with tasks := Table.put s.identified.tasks t task.identified } := by
  simp only [identified, Table.mapValues_put]

@[simp] theorem identified_start (s : Limiter σ) (jobs : List Job) :
    (s.start jobs).1.identified = (s.identified.start (jobs.map Job.identified)).1 := by
  have hput := identified_put s s.nextTask (.ofJobs s.clock jobs)
  rw [Task.identified_ofJobs] at hput
  refine (identified_wake _ _).trans ?_
  exact congrArg (fun u : Limiter σ => { u with nextTask := s.nextTask + 1 }.wake s.nextTask) hput

@[simp] theorem identified_settle (s : Limiter σ) (t : TaskId) (outcome : Outcome) :
    (s.settle t outcome).identified = s.identified.settle t outcome := by
  cases hget : Table.get? s.tasks t with
  | none => simp only [settle, get?_identified, hget, Option.map_none]
  | some task =>
    obtain ⟨stage, jobs, outcomes⟩ := task
    cases jobs with
    | cons job jobs =>
      simp only [settle, get?_identified, hget, Option.map_some, Task.identified, List.map_cons]
      exact identified_put ..
    | nil =>
      simp only [settle, get?_identified, hget, Option.map_some, Task.identified, List.map_nil]
      rw [identified_wakeAll, identified_put, watchers_identified]
      rfl

/-! ## Permits and connections -/

@[simp] theorem identified_grant (s : Limiter σ) (t : TaskId) :
    (s.grant t).identified = s.identified.grant t := by
  simp only [grant, stage?_identified]
  cases s.stage? t with
  | none => rfl
  | some stage =>
    cases stage with
    | queued goal expiry =>
      simp only [Option.map_some, Stage.identified]
      rw [identified_wake, identified_setStage]
      rfl
    | _ => rfl

@[simp] theorem identified_freePermit (s : Limiter σ) :
    s.freePermit.identified = s.identified.freePermit := by
  simp only [freePermit, identified_frame]
  cases s.pool.release.2 with
  | none => rfl
  | some heir => exact identified_grant ..

@[simp] theorem identified_giveBack (s : Limiter σ) (l : Lease) :
    (s.giveBack l).identified = s.identified.giveBack l :=
  identified_freePermit _

/-! ## Requests to the store -/

theorem identified_startCall (s : Limiter σ) (conn : ConnId) (command : Command)
    (patience : Option Nat) : s.identified.startCall B conn command patience =
      ((s.startCall B conn command patience).1.identified,
        (s.startCall B conn command patience).2) := by
  simp only [startCall, identified_frame]
  cases (B.start s.backend conn command).2 <;> cases patience <;> rfl

/-- A request is made and waited for. -/
theorem identified_call (s : Limiter σ) (conn : ConnId) (command : Command)
    (patience : Option Nat) (stage : Call → Stage)
    (plain : ∀ call, (stage call).identified = stage call) :
    ((s.startCall B conn command patience).1.setStage t
      (stage (s.startCall B conn command patience).2)).identified =
    (s.identified.startCall B conn command patience).1.setStage t
      (stage (s.identified.startCall B conn command patience).2) := by
  rw [identified_setStage, plain, identified_startCall]

theorem finishCall_identified {s u : Limiter σ} {call : Call} {reply : Reply}
    (hr : s.finishCall B t call = (u, reply)) :
    s.identified.finishCall B t call = (u.identified, reply) := by
  have hsame : s.identified.finishCall B t call =
      ((s.finishCall B t call).1.identified, (s.finishCall B t call).2) := rfl
  rw [hsame, hr]

/-! ## Getting a connection -/

@[simp] theorem identified_employ (s : Limiter σ) (goal : Goal) (l : Lease) :
    (s.employ B t goal l).identified = s.identified.employ B t goal l := by
  cases goal with
  | evaluate e attempt =>
    exact identified_call s l.conn (.count e.key e.limit e.windowMs)
      (some s.settings.commandTimeout) (.evaluating e attempt l) fun _ => rfl
  | verify =>
    exact identified_call s l.conn .ping (some s.settings.connectTimeout) (.verifying l)
      fun _ => rfl
  | borrow holdMs broken => exact identified_setStage ..
  | keep name =>
    simp only [employ, identified_frame, identified_settle]
    cases Table.get? s.held name with
    | none => rfl
    | some old => exact congrArg (fun u => settle u t (.ok .done)) (identified_giveBack _ old)

@[simp] theorem identified_choose (s : Limiter σ) (goal : Goal) :
    (s.choose B t goal).identified = s.identified.choose B t goal := by
  simp only [choose, identified_frame]
  cases s.pool.idle with
  | nil =>
    exact identified_call { s with nextConn := s.nextConn + 1 } s.nextConn .connect
      (some s.settings.connectTimeout) (.opening goal) fun _ => rfl
  | cons i rest =>
    refine (apply_ite identified ..).trans ?_
    congr 1
    · exact identified_employ ..
    · exact identified_call { s with pool := { s.pool with idle := rest } } i.conn .ping
        (some s.settings.connectTimeout) (.probing goal) fun _ => rfl

@[simp] theorem identified_want (s : Limiter σ) (goal : Goal) :
    (s.want B t goal).identified = s.identified.want B t goal := by
  simp only [want, identified_frame]
  split
  · exact identified_settle ..
  · split
    · exact identified_choose { s with pool := { s.pool with free := s.pool.free - 1 } } goal
    · refine (apply_ite identified ..).trans ?_
      congr 1
      · exact identified_settle ..
      · exact identified_setStage ..

@[simp] theorem identified_evict (s : Limiter σ) (goal : Goal) :
    (s.evict B t goal).identified = s.identified.evict B t goal :=
  identified_choose (s.emit .evicted) goal

@[simp] theorem identified_openFailed (s : Limiter σ) (f : Fault) :
    (s.openFailed t f).identified = s.identified.openFailed t f := by
  simp only [openFailed, fail_eq, identified_settle, identified_freePermit]
  rfl

@[simp] theorem identified_openDone (s : Limiter σ) (goal : Goal) (conn : ConnId) :
    (s.openDone B t goal conn).identified = s.identified.openDone B t goal conn :=
  identified_employ s.clear.1 goal ⟨conn, s.clock, false⟩

/-! ## Using a connection -/

@[simp] theorem identified_counted (s : Limiter σ) (e : Evaluation) (attempt : Nat) (l : Lease)
    (reply : Reply) :
    (s.counted B t e attempt l reply).identified = s.identified.counted B t e attempt l reply := by
  cases reply with
  | ok ms =>
    simp only [counted, identified_settle, identified_giveBack]
    rfl
  | error f =>
    simp only [counted]
    refine (apply_ite identified ..).trans ?_
    congr 1
    · rw [identified_want, identified_giveBack]
      rfl
    · simp only [fail_eq, identified_settle, identified_giveBack]
      rfl

@[simp] theorem identified_verified (s : Limiter σ) (l : Lease) (reply : Reply) :
    (s.verified t l reply).identified = s.identified.verified t l reply := by
  cases reply <;> simp [verified]

/-! ## Deciding -/

/-- A decision is the same whether the requester is identified or not, and so is what the caller is
told. -/
theorem identified_conclude (s : Limiter σ) (child : TaskId) (c : Charge)
    (outcome : Except Fault Verdict) :
    ((s.decideOn t child c outcome).1.settle t
      (.ok ((s.decideOn t child c outcome).1.tell c (s.decideOn t child c outcome).2))).identified =
    (s.identified.decideOn t child c.identified outcome).1.settle t
      (.ok ((s.identified.decideOn t child c.identified outcome).1.tell c.identified
        (s.identified.decideOn t child c.identified outcome).2)) := by
  have hdecide : s.identified.decideOn t child c.identified outcome =
      ((s.decideOn t child c outcome).1.identified, (s.decideOn t child c outcome).2) := by
    cases outcome with
    | ok v => cases v <;> rfl
    | error f => rfl
  have htell : ∀ (u : Limiter σ) d, u.identified.tell c.identified d = u.tell c d := by
    intro u d
    obtain ⟨identity, service, request⟩ := c
    cases request with
    | none => rfl
    | some r => cases d <;> rfl
  rw [identified_settle, hdecide, htell]

@[simp] theorem identified_charge (s : Limiter σ) (c : Charge) (limit : Limit) :
    (s.charge t c limit).identified = s.identified.charge t c.identified limit := by
  simp only [charge_eq, identified_setStage, identified_start]
  rfl

/-! ## Sweeping -/

@[simp] theorem identified_endSweep (s : Limiter σ) (sweep : Sweep) :
    (s.endSweep t sweep).identified = s.identified.endSweep t sweep := by
  unfold endSweep
  split
  · exact identified_setStage ..
  · exact identified_setStage ..

@[simp] theorem identified_sweepOn (s : Limiter σ) (sweep : Sweep) :
    (s.sweepOn B t sweep).identified = s.identified.sweepOn B t sweep := by
  simp only [sweepOn, identified_frame]
  cases s.pool.idle with
  | nil => exact identified_endSweep ..
  | cons i rest =>
    refine (apply_ite identified ..).trans ?_
    congr 1
    · exact identified_endSweep ..
    · exact identified_call { s with
        pool := { s.pool with idle := rest, free := s.pool.free - 1 } } i.conn .ping
        (some s.settings.connectTimeout) (.sweeping { sweep with left := sweep.left - 1 })
        fun _ => rfl

@[simp] theorem identified_swept (s : Limiter σ) (sweep : Sweep) (call : Call) (answered : Bool) :
    (s.swept B t sweep call answered).identified = s.identified.swept B t sweep call answered := by
  cases answered with
  | true =>
    refine (identified_sweepOn _ sweep).trans ?_
    exact congrArg (fun u => sweepOn B u t sweep) (identified_freePermit _)
  | false =>
    refine (identified_sweepOn _ _).trans ?_
    rw [identified_freePermit]
    rfl

@[simp] theorem identified_beginSweep (s : Limiter σ) (deadline : Time) :
    (s.beginSweep B t deadline).identified = s.identified.beginSweep B t deadline := by
  simp only [beginSweep, identified_frame]
  split
  · exact identified_settle ..
  · exact identified_sweepOn ..

/-! ## Jobs and steps -/

@[simp] theorem identified_begin (s : Limiter σ) (job : Job) :
    (s.begin B t job).identified = s.identified.begin B t job.identified := by
  cases job with
  | check identity service numbers =>
    cases numbers with
    | none => exact identified_charge ..
    | some n =>
      simp only [begin, Job.identified]
      split
      · exact identified_settle ..
      · exact identified_charge ..
  | serve site r =>
    cases site with
    | error e => exact identified_settle ..
    | ok site =>
      simp only [begin, Job.identified]
      refine (apply_ite identified ..).trans ?_
      congr 1
      · exact identified_charge ..
      · exact identified_settle ..
  | evaluate e => exact identified_want ..
  | verify => exact identified_want ..
  | borrow holdMs broken => exact identified_want ..
  | keep name => exact identified_want ..
  | sleep ms => exact identified_setStage ..
  | connect =>
    exact identified_call { s with nextConn := s.nextConn + 1 } s.nextConn .connect none .calling
      fun _ => rfl
  | request conn command => exact identified_call s conn command none .calling fun _ => rfl
  | join task => exact identified_setStage ..
  | guard =>
    have hafter : s.identified.after? s.identified.settings.checkPeriod =
        s.after? s.settings.checkPeriod := rfl
    simp only [begin, Job.identified, hafter]
    split
    · exact identified_setStage ..
    · exact identified_settle ..

/-- A step of a limiter is a step of the one that has forgotten where requests came from. -/
theorem identified_step? (s : Limiter σ) (t : TaskId) :
    (s.step? B t).map identified = s.identified.step? B t := by
  have hstage := stage?_identified s t
  cases hs : s.stage? t with
  | none =>
    rw [hs] at hstage
    simp only [step?, hs, hstage, Option.map_none]
  | some stage =>
    rw [hs, Option.map_some] at hstage
    cases stage with
    | fresh job =>
      simp only [step?, hs, hstage, Stage.identified]
      exact congrArg some (identified_begin s job)
    | queued goal expiry =>
      simp only [step?, hs, hstage, Stage.identified, identified_frame, rung_identified]
      split
      · exact congrArg some (identified_settle ..)
      · split
        · exact congrArg some (identified_settle ..)
        · rfl
    | granted goal =>
      simp only [step?, hs, hstage, Stage.identified, identified_frame]
      split
      · simp
      · exact congrArg some (identified_choose s goal)
    | probing goal call =>
      simp only [step?, hs, hstage, Stage.identified, progress_identified]
      cases s.progress call with
      | pending => rfl
      | late => exact congrArg some (identified_evict s goal)
      | ripe =>
        cases hr : s.finishCall B t call with
        | mk u reply =>
          simp only [finishCall_identified hr]
          cases reply with
          | ok ms => exact congrArg some (identified_employ u goal _)
          | error f => exact congrArg some (identified_evict u goal)
    | opening goal call =>
      simp only [step?, hs, hstage, Stage.identified, progress_identified]
      cases s.progress call with
      | pending => rfl
      | late => exact congrArg some (identified_openFailed s _)
      | ripe =>
        cases hr : s.finishCall B t call with
        | mk u reply =>
          simp only [finishCall_identified hr]
          cases reply with
          | ok ms => exact congrArg some (identified_openDone u goal _)
          | error f => exact congrArg some (identified_openFailed u f)
    | evaluating e attempt lease call =>
      simp only [step?, hs, hstage, Stage.identified, progress_identified]
      cases s.progress call with
      | pending => rfl
      | late => exact congrArg some (identified_counted s e attempt lease _)
      | ripe =>
        cases hr : s.finishCall B t call with
        | mk u reply =>
          simp only [finishCall_identified hr]
          exact congrArg some (identified_counted u e attempt lease reply)
    | verifying lease call =>
      simp only [step?, hs, hstage, Stage.identified, progress_identified]
      cases s.progress call with
      | pending => rfl
      | late => exact congrArg some (identified_verified s lease _)
      | ripe =>
        cases hr : s.finishCall B t call with
        | mk u reply =>
          simp only [finishCall_identified hr]
          exact congrArg some (identified_verified u lease reply)
    | holding lease broken since timer =>
      simp only [step?, hs, hstage, Stage.identified, rung_identified]
      split
      · simp
      · rfl
    | awaiting c child =>
      simp only [step?, hs, hstage, Stage.identified, isOver_identified, lastOutcome?_identified]
      split
      · exact congrArg some (identified_conclude s child c _)
      · rfl
    | joining task =>
      simp only [step?, hs, hstage, Stage.identified, isOver_identified]
      split
      · exact congrArg some (identified_settle ..)
      · rfl
    | sleeping timer =>
      simp only [step?, hs, hstage, Stage.identified, rung_identified]
      split
      · exact congrArg some (identified_settle ..)
      · rfl
    | calling call =>
      simp only [step?, hs, hstage, Stage.identified, progress_identified]
      cases s.progress call with
      | pending | late => rfl
      | ripe =>
        cases hr : s.finishCall B t call with
        | mk u reply =>
          simp only [finishCall_identified hr]
          exact congrArg some (identified_settle u t _)
    | resting deadline timer =>
      simp only [step?, hs, hstage, Stage.identified, rung_identified]
      split
      · exact congrArg some (identified_beginSweep s deadline)
      · rfl
    | sweeping sweep call =>
      simp only [step?, hs, hstage, Stage.identified, progress_identified]
      cases s.progress call with
      | pending => rfl
      | late => exact congrArg some (identified_swept s sweep call false)
      | ripe =>
        cases hr : s.finishCall B t call with
        | mk u reply =>
          simp only [finishCall_identified hr]
          cases reply with
          | ok ms => exact congrArg some (identified_swept u sweep call true)
          | error f => exact congrArg some (identified_swept u sweep call false)
    | done time => simp only [step?, hs, hstage, Stage.identified, Option.map_none]
    | cancelled => simp only [step?, hs, hstage, Stage.identified, Option.map_none]

/-! ## Moves and runs -/

@[simp] theorem identified_reclaim (s : Limiter σ) (t : TaskId) (stage : Stage) :
    (s.reclaim t stage).identified = s.identified.reclaim t stage.identified := by
  cases stage with
  | granted | probing | opening | sweeping => exact identified_freePermit s
  | evaluating | verifying | holding => exact identified_giveBack ..
  | _ => rfl

@[simp] theorem identified_cancel (s : Limiter σ) (t : TaskId) :
    (s.cancel t).identified = s.identified.cancel t := by
  simp only [cancel, stage?_identified]
  cases s.stage? t with
  | none => rfl
  | some stage =>
    simp only [Option.map_some, stage.isOver_identified]
    refine (apply_ite identified ..).trans ?_
    congr 1
    rw [identified_wakeAll, identified_reclaim, ← watchers_identified, identified_setStage]
    rfl

/-- A move of a limiter is a move of the one that has forgotten where requests came from. -/
theorem identified_move (W : Surroundings σ ε) (s : Limiter σ) (m : Move ε) :
    (s.move W m).identified = s.identified.move W m.identified := by
  cases m with
  | start jobs => exact identified_start s jobs
  | step t =>
    simp only [move, Move.identified, ← identified_step?]
    cases s.step? W.backend t <;> rfl
  | cancel t => exact identified_cancel s t
  | close => exact identified_wakeAll ..
  | release name =>
    simp only [move, Move.identified, identified_frame]
    cases Table.get? s.held name with
    | none => rfl
    | some lease => exact identified_giveBack ..
  | markBroken | raise | clear | pass | tend | arrange => rfl

theorem identified_run (W : Surroundings σ ε) (s : Limiter σ) (moves : List (Move ε)) :
    (s.run W moves).identified = s.identified.run W (moves.map Move.identified) := by
  induction moves generalizing s with
  | nil => rfl
  | cons m rest ih => exact (ih (s.move W m)).trans (congrArg (run W · _) (identified_move W s m))

/-- Runs that identify everybody alike end alike. -/
theorem identified_run_eq (W : Surroundings σ ε) (s : Limiter σ) {site : Except SiteFault Site}
    (direct : Site.trusts site = false) {moves moves' : List (Move ε)}
    (alike : List.Forall₂ (Move.Alike site) moves moves') :
    (s.run W moves).identified = (s.run W moves').identified := by
  have hmoves : moves.map Move.identified = moves'.map Move.identified := by
    induction alike with
    | nil => rfl
    | cons m _ ih => exact congrArg₂ List.cons (m.identified_eq direct) ih
  rw [identified_run, identified_run, hmoves]

end Limiter

/-- A site believes proxies only if its settings say so. -/
theorem Site.trusts_ofSettings {config : Settings}
    (direct : config.limits.trustProxyHeaders = false) :
    Site.trusts (Site.ofSettings config) = false := by
  cases hpolicy : Policy.perMinute Site.statusName config.limits with
  | error e => simp [Site.ofSettings, hpolicy, Site.trusts]
  | ok policy =>
    have hpolicyTrust : policy.trustProxyHeaders = false := by
      simp only [Policy.perMinute, bind, Except.bind, pure, Except.pure] at hpolicy
      split at hpolicy
      · cases hpolicy
      · split at hpolicy
        · cases hpolicy
        · cases hpolicy
          exact direct
    cases hroute : Route.mount? config.basePath Site.statusPath with
    | none => simp [Site.ofSettings, hpolicy, hroute, Site.trusts]
    | some route => simp [Site.ofSettings, hpolicy, hroute, Site.trusts, hpolicyTrust]

/-- Where the settings do not believe proxies, two runs that are the same but for the headers of the
requests that they serve are the same in every response and in everything else that they leave
behind: the totals, the store, the pool and what everybody has of it, the flag and the journal. -/
theorem headers_without_effect {σ ε : Type} (W : Surroundings σ ε) (start : Limiter σ)
    {config : Settings} (direct : config.limits.trustProxyHeaders = false)
    {moves moves' : List (Move ε)}
    (alike : List.Forall₂ (Move.Alike (Site.ofSettings config)) moves moves') :
    let s := start.run W moves
    let s' := start.run W moves'
    (∀ t, s.outcomes t = s'.outcomes t) ∧ s.totals = s'.totals ∧ s.backend = s'.backend ∧
      s.pool = s'.pool ∧ (∀ t, s.hand t = s'.hand t) ∧ s.held = s'.held ∧ s.flag = s'.flag ∧
      s.metrics = s'.metrics ∧ s.journal = s'.journal ∧ s.clock = s'.clock := by
  intro s s'
  have heq : s.identified = s'.identified :=
    Limiter.identified_run_eq W start (Site.trusts_ofSettings direct) alike
  have houtcomes : ∀ t, s.outcomes t = s'.outcomes t := fun t => by
    rw [← s.outcomes_identified, heq, s'.outcomes_identified]
  have hhand : ∀ t, s.hand t = s'.hand t := fun t => by
    rw [← s.hand_identified, heq, s'.hand_identified]
  simp only [Limiter.identified, Limiter.mk.injEq] at heq
  obtain ⟨hclock, hbackend, -, hpool, hflag, htotals, hmetrics, hjournal, -, -, hheld, -⟩ := heq
  exact ⟨houtcomes, htotals, hbackend, hpool, hhand, hheld, hflag, hmetrics, hjournal, hclock⟩

namespace Memory

/-- Settings with one call to read and one to write in a minute, which do not believe proxies. -/
def strictSettings : Settings where
  serverHost := "0.0.0.0"
  serverPort := 3000
  basePath := "/api"
  store := .memory
  redis := ⟨"localhost", 6379, 0, none, 10, 5, 5, true, true, 30⟩
  limits := ⟨1, 1, false⟩

/-- Two requests from nowhere, each with a header that says where it comes from, or with none. -/
def askTwice (headers : Nat → List (String × String)) : List (Move MemoryChange) :=
  let ask (i : Nat) : Job :=
    .serve (Site.ofSettings strictSettings) { statusRequest "GET" with headers := headers i }
  [.start [ask 1], .start [ask 2], .step 0, .step 2, .step 2, .step 2, .step 0, .step 1, .step 3,
    .step 3, .step 1]

/-- Whoever pretends to come from somewhere else is refused like somebody who does not. -/
theorem headers_without_effect_rotated :
    let rotated (i : Nat) : List (String × String) := [("x-real-ip", "203.0.113." ++ toString i)]
    let start := Limiter.fresh fresh .standard
    strictSettings.limits.trustProxyHeaders = false ∧
      List.Forall₂ (Move.Alike (Site.ofSettings strictSettings)) (askTwice fun _ => [])
        (askTwice rotated) ∧
      (start.run surroundings (askTwice rotated)).outcomes 1 =
        [.ok (.response ((Response.tooManyRequests 60).sent "GET"))] := by
  intro rotated start
  have alike : List.Forall₂ (Move.Alike (Site.ofSettings strictSettings)) (askTwice fun _ => [])
      (askTwice rotated) :=
    .cons (.start (.cons (.serve _ _) .nil)) (.cons (.start (.cons (.serve _ _) .nil))
      (List.forall₂_same.mpr fun m _ => .same m))
  refine ⟨rfl, alike, ?_⟩
  rw [← (headers_without_effect surroundings start rfl alike).1 1]
  have refused : (start.run surroundings (askTwice fun _ => [])).outcomes 1 =
      [.ok (.response ((Response.tooManyRequests 60).sent "GET"))] := by
    decide +kernel
  exact refused

end Memory

end Turnstile
