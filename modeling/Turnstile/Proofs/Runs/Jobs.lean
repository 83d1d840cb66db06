import Turnstile.Proofs.Runs.Journal

/-!
# Tasks do their jobs

At every stage but the last ones a task is about one of its jobs (`Stage.Serves`). A step either has
a call counted by a task of its own, or brings the task to another stage about the same job, or ends
the job in a way of its own (`Progress`). If the store has counted a call in the step, then this is
the call that the job asks for, and the job has ended with the verdict on it (`Job.receipt?`).
-/

namespace Turnstile

/-- The call that is counted for a charge. -/
def Charge.evaluation (c : Charge) (limit : Limit) : Evaluation :=
  ⟨counterKey c.identity c.service, limit.times, limit.windowMs⟩

/-- The job for which a connection is wanted. -/
def Goal.job : Goal → Job
  | .evaluate e _ => .evaluate e
  | .verify => .verify
  | .borrow holdMs broken => .borrow holdMs broken
  | .keep name => .keep name

/-- What a counted call was about, and the verdict on it. -/
structure Receipt where
  key : String
  limit : Nat
  windowMs : Nat
  verdict : Verdict
deriving DecidableEq, Repr

def Counted.receipt (c : Counted) : Receipt := ⟨c.key, c.limit, c.windowMs, c.verdict⟩

namespace Job

/-- Whom a job has charged, and under which limit. -/
def charge? : Job → Option (Charge × Limit)
  | .check identity service none => some (⟨identity, service, none⟩, .standard)
  | .check identity service (some (times, seconds)) =>
    match Limit.ofInts times seconds with
    | .error _ => none
    | .ok limit => some (⟨identity, service, none⟩, limit)
  | .serve (.ok site) r =>
    if site.routes r then
      let (service, limit) := site.policy.forMethod r.method
      some (⟨r.identity site.policy.trustProxyHeaders, service, some r⟩, limit)
    else none
  | _ => none

/-- Whether a job may end that way. -/
def yields (job : Job) (o : Outcome) : Bool :=
  match job with
  | .check .. => (o matches .ok (.decision _) | .error (.limit _))
  | .serve .. => (o matches .ok (.response _) | .error (.site _))
  | .evaluate _ => (o matches .ok (.verdict _) | .error (.fault _))
  | .borrow .. => (o matches .ok (.borrowed _) | .error (.fault _))
  | .verify | .keep _ => (o matches .ok .done | .error (.fault _))
  | .connect => (o matches .ok (.opened _) | .error (.fault _))
  | .request .. =>
    (o matches .ok .done | .ok (.opened _) | .ok (.remaining _) | .error (.fault _))
  | .sleep _ | .join _ | .guard => (o matches .ok .done)

/-- The receipt for the call that a job has had counted, given how it has ended. -/
def receipt? (job : Job) (o : Outcome) : Option Receipt :=
  match job with
  | .evaluate e => (Outcome.verdict? o).map (⟨e.key, e.limit, e.windowMs, ·⟩)
  | .request _ (.count key limit windowMs) =>
    (Outcome.verdict? o).map (⟨key, limit, windowMs, ·⟩)
  | _ => none

/-- Without a verdict nothing has been counted. -/
theorem receipt?_of_silent {o : Outcome} (silent : Outcome.verdict? o = none) (job : Job) :
    job.receipt? o = none := by
  unfold receipt?
  split <;> simp [silent]

/-- An evaluation ends with a verdict, or a fault has kept it from being counted. -/
theorem eq_of_yields_evaluate {e : Evaluation} {o : Outcome}
    (h : (Job.evaluate e).yields o = true) :
    (∃ v, o = .ok (.verdict v)) ∨ ∃ f, o = .error (.fault f) := by
  cases o with
  | ok answer =>
    cases answer with
    | verdict v => exact .inl ⟨v, rfl⟩
    | _ => cases h
  | error failure =>
    cases failure with
    | fault f => exact .inr ⟨f, rfl⟩
    | _ => cases h

end Job

theorem Goal.yields_fault (goal : Goal) (f : Fault) :
    goal.job.yields (.error (.fault f)) = true := by
  cases goal <;> rfl

/-- Whether a task at the stage is about the job. -/
def Stage.Serves (stage : Stage) (job : Job) : Prop :=
  match stage with
  | .fresh j => j = job
  | .queued goal _ | .granted goal | .probing goal _ | .opening goal _ => goal.job = job
  | .evaluating e _ _ _ => .evaluate e = job
  | .verifying .. => .verify = job
  | .holding .. => ∃ holdMs broken, .borrow holdMs broken = job
  | .awaiting c _ => ∃ limit, job.charge? = some (c, limit)
  | .joining task => .join task = job
  | .sleeping _ => ∃ ms, .sleep ms = job
  | .calling call =>
    (.connect = job ∧ call.command = .connect) ∨ .request call.conn call.command = job
  | .resting .. | .sweeping .. => .guard = job
  | .done _ | .cancelled => False

/-- Whether a task at the stage waits for a task that counts a call. -/
def Stage.isAwaiting : Stage → Bool
  | .awaiting .. => true
  | _ => false

namespace Limiter

variable {σ ε : Type} {B : Backend σ} {s s' u : Limiter σ} {t : TaskId} {job : Job}

/-! ## On the way -/

/-- The jobs that a task has yet to begin, and how those that it has done ended. -/
def ledger? (s : Limiter σ) (t : TaskId) : Option (List Job × List Outcome) :=
  (Table.get? s.tasks t).map fun task => (task.jobs, task.outcomes)

/-- What happens on the way to the next stage: no job of the task ends, no task is started, and no
call is counted. -/
structure Steady (t : TaskId) (s s' : Limiter σ) : Prop where
  clock : s'.clock = s.clock
  keys : Table.keys s'.tasks = Table.keys s.tasks
  ledger : s'.ledger? t = s.ledger? t
  counts : s'.counts = s.counts

namespace Steady

theorem of_eq (clock : s'.clock = s.clock) (tasks : s'.tasks = s.tasks)
    (journal : s'.journal = s.journal) : Steady t s s' where
  clock := clock
  keys := by rw [tasks]
  ledger := by rw [ledger?, tasks, ledger?]
  counts := by rw [Limiter.counts, journal, Limiter.counts]

theorem refl (s : Limiter σ) : Steady t s s := of_eq rfl rfl rfl

theorem trans (h : Steady t s u) (h' : Steady t u s') : Steady t s s' :=
  ⟨h'.clock.trans h.clock, h'.keys.trans h.keys, h'.ledger.trans h.ledger,
    h'.counts.trans h.counts⟩

theorem emit (s : Limiter σ) {e : Event} (own : e.isOfStore = false) : Steady t s (s.emit e) :=
  ⟨rfl, rfl, rfl, counts_emit own⟩

theorem raise (s : Limiter σ) (reason : String) : Steady t s (s.raise reason).1 :=
  ⟨rfl, rfl, rfl, counts_raise s reason⟩

theorem clear (s : Limiter σ) : Steady t s s.clear.1 := ⟨rfl, rfl, rfl, counts_clear s⟩

theorem setTimer (s : Limiter σ) (ms : Nat) : Steady t s (s.setTimer ms).1 := of_eq rfl rfl rfl

theorem freePermit (s : Limiter σ) : Steady t s s.freePermit := by
  rcases s.freePermit_eq with ⟨pool, heq⟩ | ⟨v, goal, pool, ready, heq⟩
  · rw [heq]
    exact of_eq rfl rfl rfl
  · rw [heq]
    refine ⟨rfl, keys_setStage _, ?_, rfl⟩
    -- a permit changes the stage of whoever gets it and nothing else
    by_cases hv : t = v
    · subst hv
      simp [ledger?, Function.comp_def]
    · simp [ledger?, hv]

theorem giveBack (s : Limiter σ) (l : Lease) : Steady t s (s.giveBack l) := by
  have hback : Steady t s { s with pool := s.pool.takeBack s.settings.keepalive l } :=
    of_eq rfl rfl rfl
  exact hback.trans (freePermit _)

theorem startCall (s : Limiter σ) (conn : ConnId) (command : Command) (patience : Option Nat) :
    Steady t s (s.startCall B conn command patience).1 :=
  of_eq (by simp) (by simp) (by simp)

/-- An answer to a request that is not about a call to count. -/
theorem finishCall {call : Call} {reply : Reply} (hr : s.finishCall B t call = (u, reply))
    (uncounted : call.counted? s.clock t reply = none) : Steady t s u := by
  have hcounts := counts_finishCall (B := B) (s := s) (t := t) call
  rw [hr, uncounted, Option.toList_none, List.append_nil] at hcounts
  obtain rfl : u = (s.finishCall B t call).1 := by rw [hr]
  exact ⟨rfl, rfl, rfl, hcounts⟩

/-- The answer to a call has come, or comes too late. -/
theorem commanded (s : Limiter σ) (conn : ConnId) (reply : Reply) :
    Steady t s (((s.tally .commands).tally .durations).emit (.commanded t conn reply)) := by
  have htally : Steady t s ((s.tally .commands).tally .durations) := .of_eq rfl rfl rfl
  exact htally.trans (.emit _ rfl)

theorem record (s : Limiter σ) (task child : TaskId) (service : String) (d : Decision) :
    Steady t s (s.record task child service d) := by
  have htotal : Steady t s ({ s with totals := s.totals.add d }.tally (.ofDecision service d)) :=
    of_eq rfl rfl rfl
  exact htotal.trans (emit _ rfl)

theorem decideOn (s : Limiter σ) (task child : TaskId) (c : Charge)
    (outcome : Except Fault Verdict) : Steady t s (s.decideOn task child c outcome).1 := by
  cases outcome with
  | ok v =>
    cases v with
    | admitted => exact (clear s).trans (record ..)
    | blocked ms => exact (clear s).trans ((record ..).trans (emit _ rfl))
  | error f => exact (emit s rfl).trans ((raise ..).trans (record ..))

end Steady

/-! ## Where the way leads -/

/-- A task that is about a job goes on, without a call being counted, until it waits at another
stage about the same job or has ended it. -/
inductive Halts (t : TaskId) (job : Job) (s : Limiter σ) : Limiter σ → Prop where
  | parks {u : Limiter σ} (before : Steady t s u) (stage : Stage) (serves : stage.Serves job)
    (alone : stage.isAwaiting = false) : Halts t job s (u.setStage t stage)
  | settles {u : Limiter σ} (before : Steady t s u) (outcome : Outcome)
    (yields : job.yields outcome = true) (silent : Outcome.verdict? outcome = none) :
    Halts t job s (u.settle t outcome)

namespace Halts

theorem after (h : Steady t s u) (rest : Halts t job u s') : Halts t job s s' := by
  cases rest with
  | parks before stage serves alone => exact .parks (h.trans before) stage serves alone
  | settles before outcome yields silent => exact .settles (h.trans before) outcome yields silent

theorem done (h : Steady t s u) (yields : job.yields (.ok .done) = true) :
    Halts t job s (u.settle t (.ok .done)) :=
  .settles h _ yields rfl

theorem fail (h : Steady t s u) (f : Fault) (yields : job.yields (.error (.fault f)) = true) :
    Halts t job s (u.fail t f) :=
  .settles h _ yields rfl

/-- A request is made and waited for. -/
theorem call (conn : ConnId) (command : Command) (patience : Option Nat) (stage : Call → Stage)
    (serves : ∀ call, call.conn = conn → call.command = command → (stage call).Serves job)
    (alone : ∀ call, (stage call).isAwaiting = false) :
    Halts t job s ((s.startCall B conn command patience).1.setStage t
      (stage (s.startCall B conn command patience).2)) :=
  .parks (.startCall ..) _
    (serves _ (conn_startCall conn command patience) (command_startCall conn command patience))
    (alone _)

/-! ## Getting a connection -/

theorem employ (s : Limiter σ) (t : TaskId) (goal : Goal) (l : Lease) :
    Halts t goal.job s (s.employ B t goal l) := by
  cases goal with
  | evaluate e attempt =>
    exact call l.conn (.count e.key e.limit e.windowMs) (some s.settings.commandTimeout)
      (.evaluating e attempt l) (fun _ _ _ => rfl) fun _ => rfl
  | verify =>
    exact call l.conn .ping (some s.settings.connectTimeout) (.verifying l) (fun _ _ _ => rfl)
      fun _ => rfl
  | borrow holdMs broken =>
    exact .parks (.setTimer s holdMs) (.holding l broken s.clock _) ⟨holdMs, broken, rfl⟩ rfl
  | keep name =>
    have hput : Steady t s { s with held := Table.put s.held name l } := .of_eq rfl rfl rfl
    cases hold : Table.get? s.held name with
    | none =>
      simp only [Limiter.employ, hold]
      exact done hput rfl
    | some old =>
      simp only [Limiter.employ, hold]
      exact done (hput.trans (.giveBack ..)) rfl

theorem openFor (s : Limiter σ) (t : TaskId) (goal : Goal) :
    Halts t goal.job s (s.openFor B t goal) := by
  have hnumber : Steady t s { s with nextConn := s.nextConn + 1 } := .of_eq rfl rfl rfl
  exact after hnumber (call s.nextConn .connect (some s.settings.connectTimeout) (.opening goal)
    (fun _ _ _ => rfl) fun _ => rfl)

theorem choose (s : Limiter σ) (t : TaskId) (goal : Goal) :
    Halts t goal.job s (s.choose B t goal) := by
  cases front : s.pool.idle with
  | nil =>
    simp only [Limiter.choose, front]
    exact openFor s t goal
  | cons i rest =>
    have htake : Steady t s { s with pool := { s.pool with idle := rest } } := .of_eq rfl rfl rfl
    simp only [Limiter.choose, front]
    split
    · exact after htake (employ ..)
    · exact after htake (call i.conn .ping (some s.settings.connectTimeout) (.probing goal)
        (fun _ _ _ => rfl) fun _ => rfl)

theorem want (s : Limiter σ) (t : TaskId) (goal : Goal) : Halts t goal.job s (s.want B t goal) := by
  unfold Limiter.want
  split
  · exact fail (.refl s) _ (goal.yields_fault _)
  · split
    · have htake : Steady t s { s with pool := { s.pool with free := s.pool.free - 1 } } :=
        .of_eq rfl rfl rfl
      exact after htake (choose ..)
    · simp only
      have htimer : Steady t s (s.setTimer s.settings.connectTimeout).1 := .setTimer ..
      split
      · exact fail htimer _ (goal.yields_fault _)
      · have hline : Steady t (s.setTimer s.settings.connectTimeout).1
            { (s.setTimer s.settings.connectTimeout).1 with
              pool := (s.setTimer s.settings.connectTimeout).1.pool.enqueue t } :=
          .of_eq rfl rfl rfl
        exact .parks (htimer.trans hline) (.queued goal _) rfl rfl

theorem openFailed (s : Limiter σ) (t : TaskId) (goal : Goal) (f : Fault) :
    Halts t goal.job s (s.openFailed t f) :=
  fail ((Steady.raise ..).trans (.freePermit _)) f (goal.yields_fault f)

theorem openDone (s : Limiter σ) (t : TaskId) (goal : Goal) (conn : ConnId) :
    Halts t goal.job s (s.openDone B t goal conn) :=
  after (.clear s) (employ ..)

theorem evict (s : Limiter σ) (t : TaskId) (goal : Goal) :
    Halts t goal.job s (s.evict B t goal) :=
  after (.emit s rfl) (choose ..)

/-! ## Using a connection -/

/-- An attempt to count a call that has failed. -/
theorem uncounted (s : Limiter σ) (t : TaskId) (e : Evaluation) (attempt : Nat) (l : Lease)
    (f : Fault) : Halts t (.evaluate e) s (s.counted B t e attempt l (.error f)) := by
  simp only [Limiter.counted]
  refine after (.commanded s l.conn (.error f)) ?_
  split
  · exact after ((Steady.emit _ rfl).trans (.giveBack ..)) (want _ t (.evaluate e (attempt + 1)))
  · exact fail (.giveBack ..) f rfl

theorem verified (s : Limiter σ) (t : TaskId) (l : Lease) (reply : Reply) :
    Halts t .verify s (s.verified t l reply) := by
  cases reply with
  | ok ms => exact done (.giveBack ..) rfl
  | error f => exact fail (.giveBack ..) f rfl

/-! ## Deciding -/

/-- Whoever is charged is told a decision, and whose request is charged a response. -/
theorem yields_tell {c : Charge} {limit : Limit} (charged : job.charge? = some (c, limit))
    (s : Limiter σ) (d : Decision) : job.yields (.ok (s.tell c d)) = true := by
  unfold Job.charge? at charged
  split at charged
  · cases charged
    rfl
  · split at charged
    · cases charged
    · cases charged
      rfl
  · split at charged
    · cases charged
      rfl
    · cases charged
  · cases charged

theorem decide {c : Charge} {limit : Limit} (charged : job.charge? = some (c, limit))
    (s : Limiter σ) (t child : TaskId) (outcome : Except Fault Verdict) :
    Halts t job s ((s.decideOn t child c outcome).1.settle t
      (.ok ((s.decideOn t child c outcome).1.tell c (s.decideOn t child c outcome).2))) :=
  .settles (.decideOn ..) _ (yields_tell charged _ _) (verdict?_tell c _)

/-! ## Sweeping -/

theorem restUntil (s : Limiter σ) (t : TaskId) (deadline : Time) :
    Halts t .guard s (s.restUntil t deadline) := by
  have htimer : Steady t s (s.setTimerTo deadline).1 := .of_eq rfl rfl rfl
  exact .parks htimer (.resting deadline _) rfl rfl

theorem endSweep (s : Limiter σ) (t : TaskId) (sweep : Sweep) :
    Halts t .guard s (s.endSweep t sweep) := by
  unfold Limiter.endSweep
  split
  · exact after (.emit s rfl) (restUntil ..)
  · exact restUntil ..

theorem sweepOn (s : Limiter σ) (t : TaskId) (sweep : Sweep) :
    Halts t .guard s (s.sweepOn B t sweep) := by
  cases front : s.pool.idle with
  | nil =>
    simp only [Limiter.sweepOn, front]
    exact endSweep s t sweep
  | cons i rest =>
    simp only [Limiter.sweepOn, front]
    split
    · exact endSweep s t sweep
    · have htake : Steady t s { s with
          pool := { s.pool with idle := rest, free := s.pool.free - 1 } } := .of_eq rfl rfl rfl
      exact after htake (call i.conn .ping (some s.settings.connectTimeout)
        (.sweeping { sweep with left := sweep.left - 1 }) (fun _ _ _ => rfl) fun _ => rfl)

theorem swept (s : Limiter σ) (t : TaskId) (sweep : Sweep) (call : Call) (answered : Bool) :
    Halts t .guard s (s.swept B t sweep call answered) := by
  cases answered with
  | true =>
    have hrest : Steady t s { s with pool := s.pool.rest ⟨call.conn, s.clock⟩ } :=
      .of_eq rfl rfl rfl
    exact after (hrest.trans (.freePermit _)) (sweepOn ..)
  | false => exact after (.freePermit s) (sweepOn ..)

theorem beginSweep (s : Limiter σ) (t : TaskId) (deadline : Time) :
    Halts t .guard s (s.beginSweep B t deadline) := by
  unfold Limiter.beginSweep
  split
  · exact done (.emit s rfl) rfl
  · exact sweepOn ..

end Halts

/-! ## Jobs -/

/-- Whoever has somebody charged has the call counted by a task of its own. -/
theorem begin_of_charge? {c : Charge} {limit : Limit} (charged : job.charge? = some (c, limit)) :
    s.begin B t job = s.charge t c limit := by
  unfold Job.charge? at charged
  split at charged
  · cases charged
    rfl
  · rename_i times seconds
    cases hlimit : Limit.ofInts times seconds with
    | error e => simp [hlimit] at charged
    | ok limit =>
      simp only [hlimit] at charged
      cases charged
      simp only [begin, hlimit]
  · rename_i site r
    split at charged
    · rename_i routed
      cases charged
      simp only [begin, if_pos routed]
      rfl
    · cases charged
  · cases charged

theorem halts_begin (uncharged : job.charge? = none) : Halts t job s (s.begin B t job) := by
  cases job with
  | check identity service numbers =>
    cases numbers with
    | none => cases uncharged
    | some n =>
      obtain ⟨times, seconds⟩ := n
      cases hlimit : Limit.ofInts times seconds with
      | error e =>
        simp only [begin, hlimit]
        exact .settles (.refl s) _ rfl rfl
      | ok limit => simp [Job.charge?, hlimit] at uncharged
  | serve site r =>
    cases site with
    | error e => exact .settles (.refl s) _ rfl rfl
    | ok site =>
      by_cases routed : site.routes r = true
      · simp [Job.charge?, routed] at uncharged
      · simp only [begin, if_neg routed]
        exact .settles (.refl s) _ rfl rfl
  | evaluate e => exact .want s t (.evaluate e 1)
  | verify => exact .want s t .verify
  | borrow holdMs broken => exact .want s t (.borrow holdMs broken)
  | keep name => exact .want s t (.keep name)
  | sleep ms => exact .parks (.setTimer s ms) (.sleeping _) ⟨ms, rfl⟩ rfl
  | connect =>
    have hnumber : Steady t s { s with nextConn := s.nextConn + 1 } := .of_eq rfl rfl rfl
    exact .after hnumber (.call s.nextConn .connect none .calling
      (fun _ _ hm => .inl ⟨rfl, hm⟩) fun _ => rfl)
  | request conn command =>
    exact .call conn command none .calling (fun _ hc hm => .inr (by rw [hc, hm])) fun _ => rfl
  | join task => exact .parks (.refl s) (.joining task) rfl rfl
  | guard =>
    simp only [begin]
    split
    · exact .restUntil ..
    · exact .done (.refl s) rfl

/-! ## Whole steps -/

/-- What a step makes of the task that takes it, if the task was about that job. -/
inductive Advanced (t : TaskId) (job : Job) (task : Task) (s s' : Limiter σ) : Prop where
  /-- It waits for a task that counts the call. -/
  | charges {c : Charge} {limit : Limit} (charged : job.charge? = some (c, limit))
    (after : s' = s.charge t c limit)
  /-- It waits for something else. -/
  | waits (stage : Stage) (serves : stage.Serves job) (alone : stage.isAwaiting = false)
    (entry : Table.get? s'.tasks t = some { task with stage }) (counts : s'.counts = s.counts)
    (keys : Table.keys s'.tasks = Table.keys s.tasks)
  /-- The job has ended, and the store has counted what the job says. -/
  | ends (outcome : Outcome) (yields : job.yields outcome = true)
    (entry : Table.get? s'.tasks t = some (task.settled s.clock outcome)) (new : List Counted)
    (counts : s'.counts = s.counts ++ new) (own : ∀ c ∈ new, c.task = t)
    (receipts : new.map Counted.receipt = (job.receipt? outcome).toList)
    (keys : Table.keys s'.tasks = Table.keys s.tasks)

section

variable {task : Task}

/-- A task with the same jobs and outcomes differs in its stage at most. -/
theorem get?_of_ledger? (hget : Table.get? s.tasks t = some task)
    (ledger : u.ledger? t = s.ledger? t) :
    ∃ stage, Table.get? u.tasks t = some { task with stage } := by
  rw [ledger?, ledger?, hget, Option.map_some, Option.map_eq_some_iff] at ledger
  obtain ⟨⟨stage, jobs, outcomes⟩, hu, heq⟩ := ledger
  cases heq
  exact ⟨stage, hu⟩

namespace Advanced

theorem of_settle (hget : Table.get? s.tasks t = some task) (clock : u.clock = s.clock)
    (keys : Table.keys u.tasks = Table.keys s.tasks) (ledger : u.ledger? t = s.ledger? t)
    {outcome : Outcome} (yields : job.yields outcome = true)
    {new : List Counted} (counts : u.counts = s.counts ++ new) (own : ∀ c ∈ new, c.task = t)
    (receipts : new.map Counted.receipt = (job.receipt? outcome).toList) :
    Advanced t job task s (u.settle t outcome) := by
  obtain ⟨stage, hu⟩ := get?_of_ledger? hget ledger
  refine .ends outcome yields ?_ new ?_ own receipts ?_
  · -- the stage at which the job ends leaves no trace
    simp only [settle_frame, Table.get?_modify_self, hu, clock]
    rfl
  · simpa [Limiter.counts] using counts
  · simpa using keys

theorem of_halts (hget : Table.get? s.tasks t = some task) (h : Halts t job s s') :
    Advanced t job task s s' := by
  cases h with
  | @parks u before stage serves alone =>
    obtain ⟨stage', hu⟩ := get?_of_ledger? hget before.ledger
    refine .waits stage serves alone ?_ before.counts ((keys_setStage stage).trans before.keys)
    simp [hu]
  | @settles u before outcome yields silent =>
    have hcounts : u.counts = s.counts ++ [] := by rw [before.counts, List.append_nil]
    refine of_settle hget before.clock before.keys before.ledger yields hcounts (by simp) ?_
    rw [Job.receipt?_of_silent silent]
    rfl

/-- What an answer adds to the counted calls is the task's own. -/
theorem task_of_counted? {call : Call} {reply : Reply} (now : Time) :
    ∀ c ∈ (call.counted? now t reply).toList, c.task = t := by
  intro c hc
  unfold Call.counted? at hc
  split at hc
  · obtain rfl : c = _ := by simpa using hc
    rfl
  · cases hc

theorem of_finishCall (hget : Table.get? s.tasks t = some task) {call : Call} {reply : Reply}
    (hr : s.finishCall B t call = (u, reply)) {v : Limiter σ} (steady : Steady t u v)
    {outcome : Outcome} (yields : job.yields outcome = true)
    (receipts : (call.counted? s.clock t reply).toList.map Counted.receipt =
      (job.receipt? outcome).toList) : Advanced t job task s (v.settle t outcome) := by
  have hcounts := counts_finishCall (B := B) (s := s) (t := t) call
  rw [hr] at hcounts
  obtain rfl : u = (s.finishCall B t call).1 := by rw [hr]
  exact of_settle hget steady.clock steady.keys steady.ledger yields
    (steady.counts.trans hcounts) (task_of_counted? s.clock) receipts

end Advanced

theorem yields_answerTo (call : Call) (reply : Reply) :
    (Job.request call.conn call.command).yields (answerTo call reply) = true := by
  cases reply with
  | error f => rfl
  | ok ms => cases hc : call.command <;> simp [answerTo, hc, Job.yields]

theorem receipt_answerTo (call : Call) (now : Time) (reply : Reply) :
    (call.counted? now t reply).toList.map Counted.receipt =
      ((Job.request call.conn call.command).receipt? (answerTo call reply)).toList := by
  cases reply with
  | error f => cases hc : call.command <;> simp [Call.counted?, Job.receipt?, answerTo, hc,
      Outcome.verdict?]
  | ok ms => cases hc : call.command <;> simp [Call.counted?, Job.receipt?, answerTo, hc,
      Outcome.verdict?, Counted.receipt, Counted.verdict]

/-- A request about no call to count leaves nothing counted. -/
theorem counted?_of_ne {call : Call} (uncounted : ∀ key limit windowMs,
    call.command ≠ .count key limit windowMs) (now : Time) (reply : Reply) :
    call.counted? now t reply = none := by
  unfold Call.counted?
  split
  · rename_i count
    exact (uncounted _ _ _ count).elim
  · rfl

section

variable {goal : Goal} {call : Call}

theorem halts_of_probing (hs : s.stage? t = some (.probing goal call))
    (ping : call.command = .ping) (step : s.step? B t = some s') : Halts t goal.job s s' := by
  simp only [step?, hs] at step
  split at step
  · cases step
  · cases step
    exact .evict ..
  · cases hr : s.finishCall B t call with
    | mk u reply =>
      have hu : Steady t s u := .finishCall hr (counted?_of_ne (by simp [ping]) ..)
      simp only [hr] at step
      cases reply with
      | ok ms =>
        cases step
        exact .after hu (.employ ..)
      | error f =>
        cases step
        exact .after hu (.evict ..)

theorem halts_of_opening (hs : s.stage? t = some (.opening goal call))
    (connect : call.command = .connect) (step : s.step? B t = some s') :
    Halts t goal.job s s' := by
  simp only [step?, hs] at step
  split at step
  · cases step
  · cases step
    exact .openFailed ..
  · cases hr : s.finishCall B t call with
    | mk u reply =>
      have hu : Steady t s u := .finishCall hr (counted?_of_ne (by simp [connect]) ..)
      simp only [hr] at step
      cases reply with
      | ok ms =>
        cases step
        exact .after hu (.openDone ..)
      | error f =>
        cases step
        exact .after hu (.openFailed ..)

theorem halts_of_verifying {lease : Lease} (hs : s.stage? t = some (.verifying lease call))
    (ping : call.command = .ping) (step : s.step? B t = some s') : Halts t .verify s s' := by
  simp only [step?, hs] at step
  split at step
  · cases step
  · cases step
    exact .verified ..
  · cases hr : s.finishCall B t call with
    | mk u reply =>
      have hu : Steady t s u := .finishCall hr (counted?_of_ne (by simp [ping]) ..)
      simp only [hr] at step
      cases step
      exact .after hu (.verified ..)

theorem halts_of_sweeping {sweep : Sweep} (hs : s.stage? t = some (.sweeping sweep call))
    (ping : call.command = .ping) (step : s.step? B t = some s') : Halts t .guard s s' := by
  simp only [step?, hs] at step
  split at step
  · cases step
  · cases step
    exact .swept ..
  · cases hr : s.finishCall B t call with
    | mk u reply =>
      have hu : Steady t s u := .finishCall hr (counted?_of_ne (by simp [ping]) ..)
      simp only [hr] at step
      cases reply with
      | ok ms =>
        cases step
        exact .after hu (.swept ..)
      | error f =>
        cases step
        exact .after hu (.swept ..)

/-- The one stage at which the pool's connections count calls: the call is counted and the job over,
or the call is not counted and the job goes on or fails. -/
theorem advanced_of_evaluating (hget : Table.get? s.tasks t = some task) {e : Evaluation}
    {attempt : Nat} {lease : Lease} (hs : s.stage? t = some (.evaluating e attempt lease call))
    (count : call.command = .count e.key e.limit e.windowMs) (step : s.step? B t = some s') :
    Advanced t (.evaluate e) task s s' := by
  simp only [step?, hs] at step
  split at step
  · cases step
  · cases step
    exact .of_halts hget (.uncounted ..)
  · cases hr : s.finishCall B t call with
    | mk u reply =>
      simp only [hr] at step
      cases step
      cases reply with
      | ok ms =>
        refine .of_finishCall hget hr ((Steady.commanded u lease.conn (.ok ms)).trans
          (.giveBack _ lease)) rfl ?_
        simp [Call.counted?, count, Job.receipt?, Outcome.verdict?, Counted.receipt,
          Counted.verdict]
      | error f =>
        have uncounted : call.counted? s.clock t (.error f) = none := by
          simp [Call.counted?]
        exact .of_halts hget (.after (.finishCall hr uncounted) (.uncounted ..))

theorem advanced_of_calling (hget : Table.get? s.tasks t = some task)
    (hs : s.stage? t = some (.calling call)) (serves : (Stage.calling call).Serves job)
    (step : s.step? B t = some s') : Advanced t job task s s' := by
  simp only [step?, hs] at step
  split at step
  · cases hr : s.finishCall B t call with
    | mk u reply =>
      simp only [hr] at step
      cases step
      rcases serves with ⟨rfl, connect⟩ | rfl
      · refine .of_finishCall hget hr (.refl u) ?_ ?_
        · cases reply <;> simp [answerTo, connect, Job.yields]
        · rw [counted?_of_ne (by simp [connect])]
          rfl
      · exact .of_finishCall hget hr (.refl u) (yields_answerTo ..) (receipt_answerTo ..)
  · cases step

end

/-- A step advances the task that takes it. -/
theorem advanced_of_step? (hget : Table.get? s.tasks t = some task)
    (serves : task.stage.Serves job) (proper : task.stage.Proper)
    (step : s.step? B t = some s') : Advanced t job task s s' := by
  obtain ⟨stage, jobs, outcomes⟩ := task
  have hs : s.stage? t = some stage := stage?_of_get? hget
  cases stage with
  | evaluating e attempt lease call =>
    obtain rfl : .evaluate e = job := serves
    exact advanced_of_evaluating hget hs proper.2 step
  | calling call => exact advanced_of_calling hget hs serves step
  | fresh j =>
    obtain rfl : j = job := serves
    simp only [step?, hs] at step
    cases step
    cases charged : j.charge? with
    | none => exact .of_halts hget (halts_begin charged)
    | some charge => exact .charges charged (begin_of_charge? charged)
  | queued goal expiry =>
    obtain rfl : goal.job = job := serves
    simp only [step?, hs] at step
    split at step
    · cases step
      exact .of_halts hget (.fail (.refl s) _ (goal.yields_fault _))
    · split at step
      · cases step
        have hleave : Steady t s { s with pool := s.pool.leave t } := .of_eq rfl rfl rfl
        exact .of_halts hget (.fail hleave _ (goal.yields_fault _))
      · cases step
  | granted goal =>
    obtain rfl : goal.job = job := serves
    simp only [step?, hs] at step
    split at step
    · cases step
      exact .of_halts hget (.fail (.freePermit s) _ (goal.yields_fault _))
    · cases step
      exact .of_halts hget (.choose ..)
  | probing goal call =>
    obtain rfl : goal.job = job := serves
    exact .of_halts hget (halts_of_probing hs proper step)
  | opening goal call =>
    obtain rfl : goal.job = job := serves
    exact .of_halts hget (halts_of_opening hs proper step)
  | verifying lease call =>
    obtain rfl : .verify = job := serves
    exact .of_halts hget (halts_of_verifying hs proper.2 step)
  | sweeping sweep call =>
    obtain rfl : .guard = job := serves
    exact .of_halts hget (halts_of_sweeping hs proper step)
  | holding lease broken since timer =>
    obtain ⟨holdMs, _, rfl⟩ := serves
    simp only [step?, hs] at step
    split at step
    · cases step
      exact .of_halts hget (.settles (.giveBack ..) _ rfl rfl)
    · cases step
  | awaiting c child =>
    obtain ⟨limit, charged⟩ := serves
    simp only [step?, hs] at step
    split at step
    · cases step
      exact .of_halts hget (.decide charged ..)
    · cases step
  | joining v =>
    obtain rfl : .join v = job := serves
    simp only [step?, hs] at step
    split at step
    · cases step
      exact .of_halts hget (.done (.refl s) rfl)
    · cases step
  | sleeping timer =>
    obtain ⟨ms, rfl⟩ := serves
    simp only [step?, hs] at step
    split at step
    · cases step
      exact .of_halts hget (.done (.refl s) rfl)
    · cases step
  | resting deadline timer =>
    obtain rfl : .guard = job := serves
    simp only [step?, hs] at step
    split at step
    · cases step
      exact .of_halts hget (.beginSweep ..)
    · cases step
  | done time => exact serves.elim
  | cancelled => exact serves.elim

end

end Limiter

end Turnstile
