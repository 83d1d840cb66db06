import Turnstile.Limiter.Step

/-!
# What a task has in hand

While a task takes a step, what it has of the pool changes hands several times: a place in the line
becomes a permit, a permit and a resting connection become a lease, a lease goes back. `Act` lists
the ways in which that can happen, each with all that it does to the limiter. `Leads` strings acts
together until the task halts at a stage that holds what it then has in hand, or ends its job with
nothing in hand.

So an invariant has to be looked at once for every act, not once for every path through a step.
-/

namespace Turnstile

/-- What a task has of the pool. -/
inductive Hand where
  | nothing
  /-- A place in the line. -/
  | place
  | permit
  /-- A permit, and a connection that has rested for a while. -/
  | probe (conn : ConnId)
  /-- A permit, and a connection that is being opened. -/
  | opening (conn : ConnId)
  /-- A permit, and a connection that can be used. -/
  | lease (l : Lease)
deriving DecidableEq, Repr

namespace Hand

/-- The permits in hand. -/
def permits : Hand → Nat
  | .nothing | .place => 0
  | .permit | .probe _ | .opening _ | .lease _ => 1

/-- The connections in hand, those that are being opened included. -/
def connections : Hand → Nat
  | .nothing | .place | .permit => 0
  | .probe _ | .opening _ | .lease _ => 1

/-- Whoever has a connection has a permit. -/
theorem connections_le_permits (h : Hand) : h.connections ≤ h.permits := by
  cases h <;> simp [connections, permits]

/-- Whether a request is about the connection in hand. -/
def Fits (h : Hand) (call : Call) : Prop :=
  match h with
  | .nothing => True
  | .place | .permit => False
  | .probe conn => call.conn = conn ∧ call.command = .ping
  | .opening conn => call.conn = conn ∧ call.command = .connect
  | .lease l => call.conn = l.conn ∧ call.command ≠ .connect

/-- What is in hand once a request has been answered at that time: a connection that has been opened
or has answered a ping can be used. -/
def answered (h : Hand) (now : Time) : Reply → Hand
  | .ok _ =>
    match h with
    | .probe conn | .opening conn => .lease ⟨conn, now, false⟩
    | h => h
  | .error _ => h

end Hand

/-- What a task at a stage has in hand. -/
def Stage.hand : Stage → Hand
  | .queued .. => .place
  | .granted _ => .permit
  | .probing _ call | .sweeping _ call => .probe call.conn
  | .opening _ call => .opening call.conn
  | .evaluating _ _ lease _ | .verifying lease _ | .holding lease _ _ _ => .lease lease
  | .fresh _ | .awaiting .. | .joining _ | .sleeping _ | .calling _ | .resting .. | .done _
  | .cancelled => .nothing

/-- Whether the request of a stage is the one that the stage is for. -/
def Stage.Proper : Stage → Prop
  | .probing _ call | .sweeping _ call => call.command = .ping
  | .opening _ call => call.command = .connect
  | .evaluating e _ lease call =>
    call.conn = lease.conn ∧ call.command = .count e.key e.limit e.windowMs
  | .verifying lease call => call.conn = lease.conn ∧ call.command = .ping
  | _ => True

/-- The hand holds the permits of the stage. -/
theorem Stage.permits_hand (stage : Stage) : stage.hand.permits = stage.permits := by
  cases stage <;> rfl

/-- The verdict that an outcome brings, if the store was asked for one. -/
def Outcome.verdict? (o : Outcome) : Option Verdict :=
  match o with
  | .ok (.verdict v) => some v
  | .ok (.remaining ms) => some (.ofRemaining ms)
  | _ => none

/-- The answer to a counted call, if the reply is one. -/
def Command.counted? (c : Command) (reply : Reply) : Option Nat :=
  match c, reply with
  | .count .., .ok ms => some ms
  | _, _ => none

/-- Whether the store tells of the event. -/
def Event.isOfStore : Event → Bool
  | .counted .. | .opened .. | .pinged .. => true
  | _ => false

namespace Limiter

variable {σ : Type}

/-- What a task does that changes nothing in the pool, in the tasks or among kept connections, and
that nobody is told of by the store. -/
inductive Aside where
  | tally (m : Metric)
  | total (d : Decision)
  | raise (reason : String)
  | clear
  | setTimer (time : Time)
  /-- Takes a number for a connection that is not the pool's. -/
  | number
  /-- Makes a request to the store. -/
  | ask (conn : ConnId) (command : Command)

/-- The limiter after it. -/
def aside (B : Backend σ) (s : Limiter σ) : Aside → Limiter σ
  | .tally m => s.tally m
  | .total d => { s with totals := s.totals.add d }
  | .raise reason => (s.raise reason).1
  | .clear => s.clear.1
  | .setTimer time => (s.setTimerTo time).1
  | .number => { s with nextConn := s.nextConn + 1 }
  | .ask conn command => { s with backend := (B.start s.backend conn command).1 }

/-- A task under way: what it has in hand, the answer to a counted call that it has yet to pass on,
and the limiter. -/
structure Motion (σ : Type) where
  hand : Hand
  owed : Option Nat
  state : Limiter σ

/-- One thing that a task does in a step. -/
inductive Act (B : Backend σ) (t : TaskId) : Motion σ → Motion σ → Prop where
  | aside {h o s} (a : Aside) : Act B t ⟨h, o, s⟩ ⟨h, o, s.aside B a⟩
  /-- Writes down something that the store does not tell of. -/
  | emit {h o s} (e : Event) (own : e.isOfStore = false) : Act B t ⟨h, o, s⟩ ⟨h, o, s.emit e⟩
  /-- Starts a task. -/
  | start {s} (jobs : List Job) : Act B t ⟨.nothing, none, s⟩ ⟨.nothing, none, (s.start jobs).1⟩
  /-- Gets into the line. -/
  | enqueue {s} (isOpen : s.pool.closed = false) (none_free : s.pool.free = 0) :
    Act B t ⟨.nothing, none, s⟩ ⟨.place, none, { s with pool := s.pool.enqueue t }⟩
  /-- Gets out of the line. -/
  | leave {s} : Act B t ⟨.place, none, s⟩ ⟨.nothing, none, { s with pool := s.pool.leave t }⟩
  /-- Finds that there is no line any more. -/
  | dismiss {s} (closed : s.pool.closed = true) : Act B t ⟨.place, none, s⟩ ⟨.nothing, none, s⟩
  /-- Takes a free permit. -/
  | take {s} (isOpen : s.pool.closed = false) (some_free : 0 < s.pool.free) :
    Act B t ⟨.nothing, none, s⟩
      ⟨.permit, none, { s with pool := { s.pool with free := s.pool.free - 1 } }⟩
  /-- Gives the permit back. -/
  | free {o s} : Act B t ⟨.permit, o, s⟩ ⟨.nothing, o, s.freePermit⟩
  /-- Takes the resting connection in front, to use it as it is. -/
  | lend {s} {i : Idle} {rest : List Idle} (front : s.pool.idle = i :: rest)
    (fresh : s.isFresh i = true) :
    Act B t ⟨.permit, none, s⟩
      ⟨.lease ⟨i.conn, i.checkedAt, false⟩, none, { s with pool := { s.pool with idle := rest } }⟩
  /-- Takes the resting connection in front, to see whether it works. -/
  | probe {s} {i : Idle} {rest : List Idle} (front : s.pool.idle = i :: rest) :
    Act B t ⟨.permit, none, s⟩
      ⟨.probe i.conn, none, { s with pool := { s.pool with idle := rest } }⟩
  /-- Begins to open a connection when none rests. -/
  | open {s} (none_rests : s.pool.idle = []) :
    Act B t ⟨.permit, none, s⟩ ⟨.opening s.nextConn, none, { s with nextConn := s.nextConn + 1 }⟩
  /-- Gets the answer to a request. -/
  | finish {h s} (call : Call) (fits : h.Fits call) :
    Act B t ⟨h, none, s⟩
      ⟨h.answered s.clock (s.finishCall B t call).2,
        call.command.counted? (s.finishCall B t call).2, (s.finishCall B t call).1⟩
  /-- Finds a connection broken or not. -/
  | mark {l o s} (broken : Bool) :
    Act B t ⟨.lease l, o, s⟩ ⟨.lease { l with broken }, o, s⟩
  /-- Lets a connection go. -/
  | drop {h o s} (has : h.connections = 1) : Act B t ⟨h, o, s⟩ ⟨.permit, o, s⟩
  /-- Lays a connection to rest. -/
  | rest {l o s} :
    Act B t ⟨.lease l, o, s⟩ ⟨.permit, o, { s with pool := s.pool.rest ⟨l.conn, l.checkedAt⟩ }⟩
  /-- Keeps a connection under a new name. -/
  | keep {l s} (name : String) (new : Table.get? s.held name = none) :
    Act B t ⟨.lease l, none, s⟩ ⟨.nothing, none, { s with held := Table.put s.held name l }⟩
  /-- Keeps a connection under a name that another one had. -/
  | swap {l s} (name : String) {old : Lease} (had : Table.get? s.held name = some old) :
    Act B t ⟨.lease l, none, s⟩ ⟨.lease old, none, { s with held := Table.put s.held name l }⟩

/-- A task goes on from a motion until it halts with the limiter in that state. -/
inductive Leads (B : Backend σ) (t : TaskId) : Motion σ → Limiter σ → Prop where
  | act {m m' s'} (a : Act B t m m') (rest : Leads B t m' s') : Leads B t m s'
  /-- Halts at a stage that holds what is in hand. -/
  | park {s} (stage : Stage) (proper : stage.Proper) :
    Leads B t ⟨stage.hand, none, s⟩ (s.setStage t stage)
  /-- Ends the job and passes on the answer that is owed. -/
  | settle {o s} (outcome : Outcome)
    (passed : Outcome.verdict? outcome = o.map Verdict.ofRemaining) :
    Leads B t ⟨.nothing, o, s⟩ (s.settle t outcome)

end Limiter

end Turnstile
