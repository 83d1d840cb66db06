import Turnstile.Backend
import Turnstile.Http.Site
import Turnstile.Pool.Basic

/-!
# Tasks

A task carries out jobs one after another. At every moment it stands at a stage: between two stages
it runs without a pause, and at a stage it waits for an answer, a permit, a timer or another task.
A stage holds all that the task has in hand, so what becomes of it when the task is cancelled can
be read off the stage.
-/

namespace Turnstile

/-- The millisecond at which a timer rings, and the timer's place in the order of setting. -/
structure Timer where
  tick : Nat
  serial : Nat
deriving DecidableEq, Repr

def Timer.precedes (a b : Timer) : Bool :=
  a.tick < b.tick || (a.tick = b.tick && a.serial ≤ b.serial)

inductive Due where
  | now
  | on (timer : Timer)
  | never
deriving DecidableEq, Repr

/-- A request that has been started, and the timer after which nobody waits for its answer. -/
structure Call where
  conn : ConnId
  command : Command
  due : Due
  expiry : Option Timer
deriving DecidableEq, Repr

def Call.timers (c : Call) : List Timer :=
  match c.due with
  | .on timer => timer :: c.expiry.toList
  | _ => c.expiry.toList

structure Evaluation where
  key : String
  limit : Nat
  windowMs : Nat
deriving DecidableEq, Repr

inductive Goal where
  /-- To count a call; this is the attempt of that number. -/
  | evaluate (e : Evaluation) (attempt : Nat)
  /-- To see whether the store answers. -/
  | verify
  /-- To keep it for a while. -/
  | borrow (holdMs : Nat) (broken : Bool)
  /-- To keep it under a name. -/
  | keep (name : String)
deriving DecidableEq, Repr

/-- Who is charged for which service, and the request that it is for, if it is for one. -/
structure Charge where
  identity : String
  service : String
  request : Option Request
deriving DecidableEq, Repr

inductive Job where
  /-- Decides on a call; without numbers under the standard limit. -/
  | check (identity service : String) (numbers : Option (Int × Int))
  /-- Answers a request, unless there is no site. -/
  | serve (site : Except SiteFault Site) (request : Request)
  /-- Counts a call. -/
  | evaluate (e : Evaluation)
  /-- Asks the store for an answer. -/
  | verify
  /-- Borrows a connection, holds it and gives it back. -/
  | borrow (holdMs : Nat) (broken : Bool)
  /-- Borrows a connection and keeps it under a name. -/
  | keep (name : String)
  /-- Waits. -/
  | sleep (ms : Nat)
  /-- Opens a connection that is not the pool's. -/
  | connect
  /-- Makes a request on a connection that is at hand. -/
  | request (conn : ConnId) (command : Command)
  /-- Waits for a task to end. -/
  | join (task : TaskId)
  /-- Checks the pool's resting connections, again and again. -/
  | guard
deriving Repr

inductive Answer where
  | done
  | verdict (v : Verdict)
  | decision (d : Decision)
  | response (r : Response)
  /-- A connection was borrowed at that time. -/
  | borrowed (time : Time)
  /-- A connection was opened. -/
  | opened (conn : ConnId)
  /-- The store answered a counted call. -/
  | remaining (ms : Nat)
deriving DecidableEq, Repr

inductive Failure where
  | fault (f : Fault)
  | limit (e : InvalidLimit)
  | site (e : SiteFault)
deriving DecidableEq, Repr

abbrev Outcome := Except Failure Answer

/-- A sweep over resting connections: how many there were, how many of them are left to be looked
at, how many failed, and the instant at which the sweep was due. -/
structure Sweep where
  total : Nat
  left : Nat
  failed : Nat
  deadline : Time
deriving DecidableEq, Repr

inductive Stage where
  /-- Before a job. -/
  | fresh (job : Job)
  /-- In the line for a permit, until a timer rings. -/
  | queued (goal : Goal) (expiry : Timer)
  /-- With a permit that came while it stood in the line. -/
  | granted (goal : Goal)
  /-- With a permit, and a resting connection in hand that is being pinged. -/
  | probing (goal : Goal) (call : Call)
  /-- With a permit, while a connection is being opened. -/
  | opening (goal : Goal) (call : Call)
  /-- With a borrowed connection on which a call is being counted. -/
  | evaluating (e : Evaluation) (attempt : Nat) (lease : Lease) (call : Call)
  /-- With a borrowed connection that is being pinged. -/
  | verifying (lease : Lease) (call : Call)
  /-- With a borrowed connection that is held until a timer rings. -/
  | holding (lease : Lease) (broken : Bool) (since : Time) (timer : Timer)
  /-- Until the task that counts the call has ended. -/
  | awaiting (charge : Charge) (child : TaskId)
  /-- Until a task has ended. -/
  | joining (task : TaskId)
  /-- Until a timer rings. -/
  | sleeping (timer : Timer)
  /-- Until a request is answered on a connection that is not the pool's to lend. -/
  | calling (call : Call)
  /-- Until the next sweep is due. -/
  | resting (deadline : Time) (timer : Timer)
  /-- With a permit, and a resting connection in hand that a sweep is pinging. -/
  | sweeping (sweep : Sweep) (call : Call)
  /-- After the last job. -/
  | done (time : Time)
  /-- After it was cancelled. -/
  | cancelled
deriving Repr

namespace Stage

/-- The timers that a task at this stage waits for. -/
def timers : Stage → List Timer
  | .queued _ timer | .holding _ _ _ timer | .sleeping timer | .resting _ timer => [timer]
  | .probing _ call | .opening _ call | .evaluating _ _ _ call | .verifying _ call
  | .calling call | .sweeping _ call => call.timers
  | .fresh _ | .granted _ | .awaiting .. | .joining _ | .done _ | .cancelled => []

/-- The task whose end a task at this stage waits for. -/
def watched? : Stage → Option TaskId
  | .awaiting _ task | .joining task => some task
  | _ => none

/-- Whether the task has nothing left to do. -/
def isOver : Stage → Bool
  | .done _ | .cancelled => true
  | _ => false

/-- The permits that a task at this stage has in hand. -/
def permits : Stage → Nat
  | .granted _ | .probing .. | .opening .. | .evaluating .. | .verifying .. | .holding ..
  | .sweeping .. => 1
  | _ => 0

/-- The connections of the pool that a task at this stage has in hand. -/
def conns : Stage → List ConnId
  | .probing _ call | .sweeping _ call => [call.conn]
  | .evaluating _ _ lease _ | .verifying lease _ | .holding lease _ _ _ => [lease.conn]
  | _ => []

end Stage

/-- A task: its stage, the jobs that it has yet to begin, and how those that it has done ended, the
last one in front. -/
structure Task where
  stage : Stage
  jobs : List Job
  outcomes : List Outcome
deriving Repr

/-- A task that is to do these jobs; with none it is done. -/
def Task.ofJobs (now : Time) : List Job → Task
  | [] => ⟨.done now, [], []⟩
  | job :: jobs => ⟨.fresh job, jobs, []⟩

end Turnstile
