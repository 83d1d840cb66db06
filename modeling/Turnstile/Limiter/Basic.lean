import Turnstile.Degraded.Flag
import Turnstile.Limiter.Metric
import Turnstile.Limiter.Task
import Turnstile.Pool.Settings
import Turnstile.Window.Store

/-!
# The limiter

The state of a limiter: its clock and its store, the pool and the flag, what it has counted and
written down, and its tasks. Tasks that can go on are in the list `ready`, first come, first served.

The operations here are those that a task performs without pausing. Each changes one part of the
state; the exceptions are `freePermit`, which hands a permit to the task at the front of the line,
and `settle`, which ends a job and wakes whoever waits for the task.
-/

namespace Turnstile

/-- A limiter whose store has states of type `σ`. -/
structure Limiter (σ : Type) where
  clock : Time
  backend : σ
  settings : PoolSettings
  pool : Pool
  flag : Flag
  totals : Totals
  metrics : Metrics
  /-- What happened, the last event in front. -/
  journal : List Event
  tasks : Table TaskId Task
  ready : List TaskId
  /-- Borrowed connections that are kept under names. -/
  held : Table String Lease
  /-- How many connections were opened. -/
  opened : Nat
  nextTask : TaskId
  nextConn : ConnId
  nextSerial : Nat
deriving Repr

namespace Limiter

variable {σ : Type}

def fresh (backend : σ) (settings : PoolSettings) : Limiter σ where
  clock := 0
  backend
  settings
  pool := .fresh settings.capacity
  flag := .down
  totals := ⟨0, 0, 0⟩
  metrics := []
  journal := []
  tasks := []
  ready := []
  held := []
  opened := 0
  nextTask := 0
  nextConn := 0
  nextSerial := 0

/-! ## The journal and the flag -/

def emit (s : Limiter σ) (e : Event) : Limiter σ := { s with journal := e :: s.journal }

def emitAll (s : Limiter σ) (es : List Event) : Limiter σ :=
  { s with journal := es.reverse ++ s.journal }

/-- Raises the flag, and tells whether it moved. -/
def raise (s : Limiter σ) (reason : String) : Limiter σ × Bool :=
  let (flag, events, moved) := s.flag.raise s.clock reason
  ({ s with flag }.emitAll events, moved)

/-- Clears the flag, and tells whether it moved. -/
def clear (s : Limiter σ) : Limiter σ × Bool :=
  let (flag, events, moved) := s.flag.clear
  ({ s with flag }.emitAll events, moved)

def tally (s : Limiter σ) (m : Metric) : Limiter σ := { s with metrics := s.metrics.bump m }

def status (s : Limiter σ) : Status where
  allowed := s.totals.allowed
  rejected := s.totals.rejected
  degraded := s.totals.degraded
  outage := s.flag.up
  outageSince := s.flag.since
  maxConnections := s.settings.maxConnections
  idleConnections := s.pool.idle.length

/-! ## Time -/

/-- The second that no clock reaches: an instant at or after it cannot be named. -/
def horizonSeconds : Nat := 9223372036854775807

/-- The instant so many milliseconds from now, if it can be named. -/
def after? (s : Limiter σ) (ms : Nat) : Option Time :=
  if s.clock / usPerSecond + ms / 1000 < horizonSeconds then some (s.clock + ms * usPerMs) else none

/-- The longest that anybody waits: thirty years, in milliseconds. -/
def farFutureMs : Nat := 946080000000

/-- The first millisecond that is not before an instant. -/
def tickOf (time : Time) : Nat := (time + (usPerMs - 1)) / usPerMs

def setTimerTo (s : Limiter σ) (time : Time) : Limiter σ × Timer :=
  ({ s with nextSerial := s.nextSerial + 1 }, ⟨tickOf time, s.nextSerial⟩)

/-- Sets a timer that rings after so many milliseconds, and after thirty years at the latest. -/
def setTimer (s : Limiter σ) (ms : Nat) : Limiter σ × Timer :=
  s.setTimerTo (s.clock + min ms farFutureMs * usPerMs)

def rung (s : Limiter σ) (timer : Timer) : Bool := timer.tick ≤ s.clock / usPerMs

/-! ## Tasks -/

def stage? (s : Limiter σ) (t : TaskId) : Option Stage := (Table.get? s.tasks t).map (·.stage)

def wake (s : Limiter σ) (t : TaskId) : Limiter σ :=
  if t ∈ s.ready then s else { s with ready := s.ready ++ [t] }

def wakeAll (s : Limiter σ) (ts : List TaskId) : Limiter σ := ts.foldl wake s

/-- The tasks that wait for the end of a task. -/
def watchers (s : Limiter σ) (t : TaskId) : List TaskId :=
  (s.tasks.filter fun e => e.2.stage.watched? = some t).map (·.1)

def setStage (s : Limiter σ) (t : TaskId) (stage : Stage) : Limiter σ :=
  { s with tasks := Table.modify s.tasks t fun task => { task with stage } }

def start (s : Limiter σ) (jobs : List Job) : Limiter σ × TaskId :=
  let t := s.nextTask
  ({ s with tasks := Table.put s.tasks t (.ofJobs s.clock jobs), nextTask := t + 1 }.wake t, t)

/-- Ends the job of a task: the next job follows, or the task is done. -/
def settle (s : Limiter σ) (t : TaskId) (outcome : Outcome) : Limiter σ :=
  match Table.get? s.tasks t with
  | none => s
  | some task =>
    let outcomes := outcome :: task.outcomes
    match task.jobs with
    | job :: jobs => { s with tasks := Table.put s.tasks t ⟨.fresh job, jobs, outcomes⟩ }
    | [] =>
      { s with tasks := Table.put s.tasks t ⟨.done s.clock, [], outcomes⟩ }.wakeAll (s.watchers t)

def fail (s : Limiter σ) (t : TaskId) (f : Fault) : Limiter σ := s.settle t (.error (.fault f))

/-! ## Permits and connections -/

/-- Hands a permit to a task that stands in the line. -/
def grant (s : Limiter σ) (t : TaskId) : Limiter σ :=
  match s.stage? t with
  | some (.queued goal _) => (s.setStage t (.granted goal)).wake t
  | _ => s

def freePermit (s : Limiter σ) : Limiter σ :=
  let (pool, heir) := s.pool.release
  let s := { s with pool }
  match heir with
  | some t => s.grant t
  | none => s

/-- Gives a borrowed connection back, and its permit after it. -/
def giveBack (s : Limiter σ) (lease : Lease) : Limiter σ :=
  { s with pool := s.pool.takeBack s.settings.keepalive lease }.freePermit

/-! ## Requests to the store -/

/-- When an answer that takes so long is there. -/
def dueAfter (s : Limiter σ) : Delay → Limiter σ × Due
  | .none => (s, .now)
  | .ms n =>
    let (s, timer) := s.setTimer n
    (s, .on timer)
  | .never => (s, .never)

/-- Starts a request; with a patience, for no longer than that many milliseconds. -/
def startCall (B : Backend σ) (s : Limiter σ) (conn : ConnId) (command : Command)
    (patience : Option Nat) : Limiter σ × Call :=
  let (backend, delay) := B.start s.backend conn command
  let (s, due) := { s with backend }.dueAfter delay
  match patience with
  | none => (s, ⟨conn, command, due, none⟩)
  | some ms =>
    let (s, expiry) := s.setTimer ms
    (s, ⟨conn, command, due, some expiry⟩)

/-- Whether a request is answered now, has taken too long, or has to be waited for. -/
inductive Progress where
  | ripe
  | late
  | pending
deriving DecidableEq, Repr

/-- How far a request is. An answer that comes at the very end of the patience is in time. -/
def progress (s : Limiter σ) (call : Call) : Progress :=
  let answered :=
    match call.due with
    | .now => true
    | .on timer => s.rung timer
    | .never => false
  if answered then .ripe else if call.expiry.any s.rung then .late else .pending

/-- What is written down about an answer to a task. -/
def answerEvents (now : Time) (t : TaskId) (call : Call) : Reply → List Event
  | .error _ => []
  | .ok ms =>
    match call.command with
    | .connect => [.opened call.conn now]
    | .ping => [.pinged call.conn now]
    | .count key limit windowMs => [.counted t key limit windowMs now ms]

def finishCall (B : Backend σ) (s : Limiter σ) (t : TaskId) (call : Call) : Limiter σ × Reply :=
  let (backend, reply) := B.finish s.backend s.clock call.conn call.command
  let opened :=
    match call.command, reply with
    | .connect, .ok _ => s.opened + 1
    | _, _ => s.opened
  ({ s with backend, opened }.emitAll (answerEvents s.clock t call reply), reply)

end Limiter

end Turnstile
