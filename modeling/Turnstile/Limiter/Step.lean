import Turnstile.Key
import Turnstile.Limiter.Basic

/-!
# Steps

`step? B s t` carries task `t` from the stage at which it stands to the next one, and is `none` if
the task has to wait. A step is everything that happens between two places at which a task can
pause, so between two steps of a task any other task may take steps of its own.

A task that wants a connection gets a permit first. With the permit it takes resting connections
from the front until one is fresh or answers a ping, and opens a connection if none is left. Whoever
has a connection has a permit, and gives back both at once.
-/

namespace Turnstile

namespace Limiter

variable {σ : Type}

/-! ## Getting a connection -/

def employ (B : Backend σ) (s : Limiter σ) (t : TaskId) (goal : Goal) (lease : Lease) :
    Limiter σ :=
  match goal with
  | .evaluate e attempt =>
    let (s, call) := s.startCall B lease.conn (.count e.key e.limit e.windowMs)
      (some s.settings.commandTimeout)
    s.setStage t (.evaluating e attempt lease call)
  | .verify =>
    let (s, call) := s.startCall B lease.conn .ping (some s.settings.connectTimeout)
    s.setStage t (.verifying lease call)
  | .borrow holdMs broken =>
    let (s, timer) := s.setTimer holdMs
    s.setStage t (.holding lease broken s.clock timer)
  | .keep name =>
    let former := Table.get? s.held name
    let s := { s with held := Table.put s.held name lease }
    let s := match former with
      | some old => s.giveBack old
      | none => s
    s.settle t (.ok .done)

def openFor (B : Backend σ) (s : Limiter σ) (t : TaskId) (goal : Goal) : Limiter σ :=
  let conn := s.nextConn
  let (s, call) := { s with nextConn := conn + 1 }.startCall B conn .connect
    (some s.settings.connectTimeout)
  s.setStage t (.opening goal call)

/-- Whether a resting connection may be lent without a ping. -/
def isFresh (s : Limiter σ) (i : Idle) : Bool :=
  s.clock - i.checkedAt < s.settings.healthCheckInterval * usPerMs

/-- Goes on with a permit in hand: the resting connection in front is lent if it is fresh and pinged
if it is not; if none rests, a connection is opened. -/
def choose (B : Backend σ) (s : Limiter σ) (t : TaskId) (goal : Goal) : Limiter σ :=
  match s.pool.idle with
  | [] => s.openFor B t goal
  | i :: rest =>
    let s := { s with pool := { s.pool with idle := rest } }
    if s.isFresh i then s.employ B t goal ⟨i.conn, i.checkedAt, false⟩
    else
      let (s, call) := s.startCall B i.conn .ping (some s.settings.connectTimeout)
      s.setStage t (.probing goal call)

/-- Asks for a permit. Who has no patience does not stand in the line. -/
def want (B : Backend σ) (s : Limiter σ) (t : TaskId) (goal : Goal) : Limiter σ :=
  if s.pool.closed then s.fail t .poolClosed
  else if 0 < s.pool.free then
    { s with pool := { s.pool with free := s.pool.free - 1 } }.choose B t goal
  else
    let (s, expiry) := s.setTimer s.settings.connectTimeout
    if s.rung expiry then s.fail t .poolExhausted
    else { s with pool := s.pool.enqueue t }.setStage t (.queued goal expiry)

/-- Gives up on a connection that could not be opened. -/
def openFailed (s : Limiter σ) (t : TaskId) (f : Fault) : Limiter σ :=
  let (s, _) := s.raise f.message
  s.freePermit.fail t f

/-- Takes a connection that has just been opened. -/
def openDone (B : Backend σ) (s : Limiter σ) (t : TaskId) (goal : Goal) (conn : ConnId) :
    Limiter σ :=
  let (s, _) := s.clear
  s.employ B t goal ⟨conn, s.clock, false⟩

/-- Drops a resting connection that is broken and looks at the next one. -/
def evict (B : Backend σ) (s : Limiter σ) (t : TaskId) (goal : Goal) : Limiter σ :=
  (s.emit .evicted).choose B t goal

/-! ## Counting -/

/-- Ends an attempt to count a call. A timeout leads to another attempt if one is left; a connection
on which an attempt failed is broken. -/
def counted (B : Backend σ) (s : Limiter σ) (t : TaskId) (e : Evaluation) (attempt : Nat)
    (lease : Lease) (reply : Reply) : Limiter σ :=
  let s := ((s.tally .commands).tally .durations).emit (.commanded t lease.conn reply)
  match reply with
  | .ok ms => (s.giveBack lease).settle t (.ok (.verdict (.ofRemaining ms)))
  | .error f =>
    let lease := { lease with broken := true }
    if f.isTimeout && attempt < s.settings.attempts then
      ((s.emit (.retrying e.key)).giveBack lease).want B t (.evaluate e (attempt + 1))
    else (s.giveBack lease).fail t f

/-- Ends the look at whether the store answers. -/
def verified (s : Limiter σ) (t : TaskId) (lease : Lease) : Reply → Limiter σ
  | .ok _ => (s.giveBack lease).settle t (.ok .done)
  | .error f => (s.giveBack { lease with broken := true }).fail t f

/-! ## Deciding -/

def record (s : Limiter σ) (t child : TaskId) (service : String) (d : Decision) : Limiter σ :=
  { s with totals := s.totals.add d }.tally (.ofDecision service d)
    |>.emit (.decided t child service d)

/-- Decides on a call. A store that answers is not degraded; one that fails lets the call pass. -/
def decideOn (s : Limiter σ) (t child : TaskId) (charge : Charge) :
    Except Fault Verdict → Limiter σ × Decision
  | .ok .admitted =>
    let (s, _) := s.clear
    (s.record t child charge.service .admitted, .admitted)
  | .ok (.blocked ms) =>
    let seconds := Verdict.retryAfterSeconds ms
    let (s, _) := s.clear
    let s := s.record t child charge.service (.rejected seconds)
    (s.emit (.limitHit charge.identity charge.service seconds), .rejected seconds)
  | .error f =>
    let (s, _) := (s.emit (.checkFailed charge.service f)).raise f.message
    (s.record t child charge.service .degraded, .degraded)

/-- What a caller is told: the decision, or the response to the request that it is for. -/
def tell (s : Limiter σ) (charge : Charge) (d : Decision) : Answer :=
  match charge.request with
  | none => .decision d
  | some r => .response (Site.respond r s.status d)

/-- What is said of a task that was cancelled before its end. -/
def cancelledText (t : TaskId) : String := "task " ++ toString t ++ " was cancelled"

/-- How the counting of a call ended, from the outcome of the task that counted it. Without an
outcome the task was cancelled. -/
def verdictOf (child : TaskId) : Option Outcome → Except Fault Verdict
  | some (.ok (.verdict v)) => .ok v
  | some (.error (.fault f)) => .error f
  | _ => .error (.unavailable ("evaluation task failed: " ++ cancelledText child))

/-- Has a call counted by a task of its own, which goes on when the caller is cancelled. -/
def charge (s : Limiter σ) (t : TaskId) (c : Charge) (limit : Limit) : Limiter σ :=
  let (s, child) :=
    s.start [.evaluate ⟨counterKey c.identity c.service, limit.times, limit.windowMs⟩]
  s.setStage t (.awaiting c child)

/-! ## Sweeping -/

def restUntil (s : Limiter σ) (t : TaskId) (deadline : Time) : Limiter σ :=
  let (s, timer) := s.setTimerTo deadline
  s.setStage t (.resting deadline timer)

/-- Ends a sweep. The next one is due a period after this one was. -/
def endSweep (s : Limiter σ) (t : TaskId) (sweep : Sweep) : Limiter σ :=
  let s := if 0 < sweep.failed then s.emit (.sweepEvicted sweep.failed sweep.total) else s
  s.restUntil t (sweep.deadline + s.settings.checkPeriod * usPerMs)

/-- Pings the resting connection in front, under a permit. The sweep ends when it has looked at as
many connections as there were, or when there is no permit or no connection to be had. -/
def sweepOn (B : Backend σ) (s : Limiter σ) (t : TaskId) (sweep : Sweep) : Limiter σ :=
  match s.pool.idle with
  | i :: rest =>
    if sweep.left = 0 ∨ s.pool.closed ∨ s.pool.free = 0 then s.endSweep t sweep
    else
      let pool := { s.pool with idle := rest, free := s.pool.free - 1 }
      let (s, call) := { s with pool }.startCall B i.conn .ping (some s.settings.connectTimeout)
      s.setStage t (.sweeping { sweep with left := sweep.left - 1 } call)
  | [] => s.endSweep t sweep

/-- Ends a ping of the sweep: a connection that answered goes to rest again. -/
def swept (B : Backend σ) (s : Limiter σ) (t : TaskId) (sweep : Sweep) (call : Call)
    (answered : Bool) : Limiter σ :=
  if answered then
    { s with pool := s.pool.rest ⟨call.conn, s.clock⟩ }.freePermit.sweepOn B t sweep
  else s.freePermit.sweepOn B t { sweep with failed := sweep.failed + 1 }

/-- Begins a sweep, or ends the task if the pool is closed. -/
def beginSweep (B : Backend σ) (s : Limiter σ) (t : TaskId) (deadline : Time) : Limiter σ :=
  if s.pool.closed then (s.emit .checkerStopped).settle t (.ok .done)
  else s.sweepOn B t ⟨s.pool.idle.length, s.pool.idle.length, 0, deadline⟩

/-! ## Jobs -/

def begin (B : Backend σ) (s : Limiter σ) (t : TaskId) : Job → Limiter σ
  | .check identity service none => s.charge t ⟨identity, service, none⟩ .standard
  | .check identity service (some (times, seconds)) =>
    match Limit.ofInts times seconds with
    | .error e => s.settle t (.error (.limit e))
    | .ok limit => s.charge t ⟨identity, service, none⟩ limit
  | .serve (.error e) _ => s.settle t (.error (.site e))
  | .serve (.ok site) r =>
    if site.routes r then
      let (service, limit) := site.policy.forMethod r.method
      s.charge t ⟨r.identity site.policy.trustProxyHeaders, service, some r⟩ limit
    else s.settle t (.ok (.response .notFound))
  | .evaluate e => s.want B t (.evaluate e 1)
  | .verify => s.want B t .verify
  | .borrow holdMs broken => s.want B t (.borrow holdMs broken)
  | .keep name => s.want B t (.keep name)
  | .sleep ms =>
    let (s, timer) := s.setTimer ms
    s.setStage t (.sleeping timer)
  | .connect =>
    let conn := s.nextConn
    let (s, call) := { s with nextConn := conn + 1 }.startCall B conn .connect none
    s.setStage t (.calling call)
  | .request conn command =>
    let (s, call) := s.startCall B conn command none
    s.setStage t (.calling call)
  | .join task => s.setStage t (.joining task)
  | .guard =>
    match s.after? s.settings.checkPeriod with
    | some deadline => s.restUntil t deadline
    | none => s.settle t (.ok .done)

/-- What a request that is not the pool's leads to. -/
def answerTo (call : Call) : Reply → Outcome
  | .error f => .error (.fault f)
  | .ok ms =>
    match call.command with
    | .connect => .ok (.opened call.conn)
    | .ping => .ok .done
    | .count .. => .ok (.remaining ms)

def isOver (s : Limiter σ) (t : TaskId) : Bool := (s.stage? t).all Stage.isOver

/-- The outcome of the last job that a task has done. -/
def lastOutcome? (s : Limiter σ) (t : TaskId) : Option Outcome :=
  (Table.get? s.tasks t).bind fun task => task.outcomes.head?

def step? (B : Backend σ) (s : Limiter σ) (t : TaskId) : Option (Limiter σ) :=
  match s.stage? t with
  | none | some (.done _) | some .cancelled => none
  | some (.fresh job) => some (s.begin B t job)
  | some (.queued _ expiry) =>
    if s.pool.closed then some (s.fail t .poolClosed)
    else if s.rung expiry then some ({ s with pool := s.pool.leave t }.fail t .poolExhausted)
    else none
  | some (.granted goal) =>
    if s.pool.closed then some (s.freePermit.fail t .poolClosed) else some (s.choose B t goal)
  | some (.probing goal call) =>
    match s.progress call with
    | .pending => none
    | .late => some (s.evict B t goal)
    | .ripe =>
      match s.finishCall B t call with
      | (s, .ok _) => some (s.employ B t goal ⟨call.conn, s.clock, false⟩)
      | (s, .error _) => some (s.evict B t goal)
  | some (.opening goal call) =>
    match s.progress call with
    | .pending => none
    | .late => some (s.openFailed t .connectTimeout)
    | .ripe =>
      match s.finishCall B t call with
      | (s, .ok _) => some (s.openDone B t goal call.conn)
      | (s, .error f) => some (s.openFailed t f)
  | some (.evaluating e attempt lease call) =>
    match s.progress call with
    | .pending => none
    | .late => some (s.counted B t e attempt lease (.error .commandTimeout))
    | .ripe =>
      let (s, reply) := s.finishCall B t call
      some (s.counted B t e attempt lease reply)
  | some (.verifying lease call) =>
    match s.progress call with
    | .pending => none
    | .late => some (s.verified t lease (.error .connectTimeout))
    | .ripe =>
      let (s, reply) := s.finishCall B t call
      some (s.verified t lease reply)
  | some (.holding lease broken since timer) =>
    if s.rung timer then
      some ((s.giveBack { lease with broken }).settle t (.ok (.borrowed since)))
    else none
  | some (.awaiting c child) =>
    if s.isOver child then
      let (s, d) := s.decideOn t child c (verdictOf child (s.lastOutcome? child))
      some (s.settle t (.ok (s.tell c d)))
    else none
  | some (.joining task) => if s.isOver task then some (s.settle t (.ok .done)) else none
  | some (.sleeping timer) => if s.rung timer then some (s.settle t (.ok .done)) else none
  | some (.calling call) =>
    match s.progress call with
    | .ripe =>
      let (s, reply) := s.finishCall B t call
      some (s.settle t (answerTo call reply))
    | _ => none
  | some (.resting deadline timer) =>
    if s.rung timer then some (s.beginSweep B t deadline) else none
  | some (.sweeping sweep call) =>
    match s.progress call with
    | .pending => none
    | .late => some (s.swept B t sweep call false)
    | .ripe =>
      match s.finishCall B t call with
      | (s, .ok _) => some (s.swept B t sweep call true)
      | (s, .error _) => some (s.swept B t sweep call false)

end Limiter

end Turnstile
