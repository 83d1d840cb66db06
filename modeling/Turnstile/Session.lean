import Turnstile.Limiter.Cancel
import Turnstile.Limiter.Schedule
import Turnstile.Order

/-!
# Sessions

A session works with a limiter one action at a time. Connections, borrowed connections and tasks go
by names in it. After every action all that can happen at that instant does happen, and then the
limiter can be looked at.
-/

namespace Turnstile

/-- How the outcomes of an action are shown: the one that there is, all of them, or how many there
are and how many of them are a zero. -/
inductive Shape where
  | one
  | list
  | counts
deriving DecidableEq, Repr

inductive Shown where
  | one (o : Outcome)
  | list (os : List Outcome)
  | counts (calls zeros : Nat)
deriving Repr

/-- Outcomes as they are shown in a shape. A job without an outcome is one that did nothing. -/
def Shape.apply (shape : Shape) (os : List Outcome) : Shown :=
  match shape with
  | .one => .one (os.head?.getD (.ok .done))
  | .list => .list os
  | .counts => .counts os.length (os.countP fun o => o matches .ok (.remaining 0))

/-- How often something is done: once, again and again, or for one key after another. -/
inductive Repeat where
  | once
  | times (n : Nat)
  | distinct (n : Nat)
deriving DecidableEq, Repr

namespace Repeat

def keys (key : String) : Repeat → List String
  | .once => [key]
  | .times n => List.replicate n key
  | .distinct n => (List.range n).map fun i => key ++ toString i

def shape : Repeat → Shape
  | .once => .one
  | .times _ => .list
  | .distinct _ => .counts

end Repeat

inductive Action where
  | sleep (ms : Nat)
  | advance (us : Nat)
  | connect (name : String)
  | ping (name : String)
  | count (name key : String) (limit windowMs : Nat) (often : Repeat)
  | hold (name : String)
  | release (name : String)
  | markBroken (name : String)
  | startGuard
  | stopGuard
  | close
  | raise (reason : String)
  | clear
  | status
  | perform (jobs : List Job) (shape : Shape)
  | spawn (name : String) (jobs : List Job) (shape : Shape)
  | join (name : String)
  | abort (name : String)
deriving Repr

inductive Result where
  | done
  | shown (s : Shown)
  /-- The flag moved or did not. -/
  | moved (b : Bool)
  | status (s : Status)
  /-- The guard was stopped, and whether it had ended before. -/
  | stopped (wasOver : Bool)
  /-- A task ended at that time. -/
  | joined (s : Shown) (time : Time)
  | cancelled
  /-- Nothing has that name. -/
  | unknown
deriving Repr

/-- A limiter with names for connections and tasks. -/
structure Session (σ : Type) where
  limiter : Limiter σ
  conns : Table String ConnId
  tasks : Table String (TaskId × Shape)
  guard : Option TaskId
deriving Repr

namespace Session

variable {σ : Type}

/-- A session with a limiter that has done nothing. -/
def fresh (limiter : Limiter σ) : Session σ := ⟨limiter, [], [], none⟩

def perform (B : Backend σ) (s : Session σ) (jobs : List Job) : Session σ × List Outcome :=
  let (limiter, outcomes) := s.limiter.complete B jobs
  ({ s with limiter }, outcomes)

/-- Does jobs, waits for them and shows how they ended. -/
def performShown (B : Backend σ) (s : Session σ) (jobs : List Job) (shape : Shape) :
    Session σ × Result :=
  let (s, outcomes) := s.perform B jobs
  (s, .shown (shape.apply outcomes))

/-- The connection of that name, opened or borrowed. -/
def conn? (s : Session σ) (name : String) : Option ConnId :=
  match Table.get? s.conns name with
  | some conn => some conn
  | none => (Table.get? s.limiter.held name).map (·.conn)

def ended (s : Session σ) (t : TaskId) (shape : Shape) : Result :=
  match Table.get? s.limiter.tasks t with
  | some ⟨.done time, _, outcomes⟩ => .joined (shape.apply outcomes.reverse) time
  | _ => .cancelled

/-- Carries an action out, without what follows from it. There is no result if a name stands for
nothing that the action could be carried out on. -/
def act? (B : Backend σ) (s : Session σ) : Action → Option (Session σ × Result)
  | .sleep ms => some ((s.perform B [.sleep ms]).1, .done)
  | .advance us => some ({ s with limiter := s.limiter.pass us }, .done)
  | .connect name =>
    let (s, outcomes) := s.perform B [.connect]
    let s :=
      match outcomes with
      | [.ok (.opened conn)] => { s with conns := Table.put s.conns name conn }
      | _ => s
    some (s, .shown (Shape.one.apply outcomes))
  | .ping name => do
    let conn ← s.conn? name
    return s.performShown B [.request conn .ping] .one
  | .count name key limit windowMs often => do
    let conn ← s.conn? name
    let jobs := (often.keys key).map fun k => Job.request conn (.count k limit windowMs)
    return s.performShown B jobs often.shape
  | .hold name => some (s.performShown B [.keep name] .one)
  | .release name =>
    match Table.get? s.limiter.held name with
    | some lease =>
      let limiter := { s.limiter with held := Table.without s.limiter.held name }.giveBack lease
      some ({ s with limiter }, .done)
    | none => some (s, .unknown)
  | .markBroken name =>
    match Table.get? s.limiter.held name with
    | some lease =>
      let held := Table.put s.limiter.held name { lease with broken := true }
      some ({ s with limiter := { s.limiter with held } }, .done)
    | none => some (s, .unknown)
  | .startGuard =>
    let (limiter, t) := s.limiter.start [.guard]
    some ({ s with limiter, guard := some t }, .done)
  | .stopGuard => do
    let t ← s.guard
    return ({ s with limiter := s.limiter.cancel t, guard := none },
      .stopped (s.limiter.isOver t))
  | .close => some ({ s with limiter := s.limiter.close }, .done)
  | .raise reason =>
    let (limiter, moved) := s.limiter.raise reason
    some ({ s with limiter }, .moved moved)
  | .clear =>
    let (limiter, moved) := s.limiter.clear
    some ({ s with limiter }, .moved moved)
  | .status => some (s, .status s.limiter.status)
  | .perform jobs shape => some (s.performShown B jobs shape)
  | .spawn name jobs shape =>
    let (limiter, t) := s.limiter.start jobs
    some ({ s with limiter, tasks := Table.put s.tasks name (t, shape) }, .done)
  | .join name => do
    let (t, shape) ← Table.get? s.tasks name
    let (s, _) := s.perform B [.join t]
    return ({ s with tasks := Table.without s.tasks name }, s.ended t shape)
  | .abort name => do
    let (t, _) ← Table.get? s.tasks name
    return ({ s with limiter := s.limiter.cancel t }, .done)

/-- Lets everything happen that can happen now. -/
def calm (B : Backend σ) (s : Session σ) : Session σ := { s with limiter := s.limiter.calm B }

/-- The names of the tasks that are not over, in order. -/
def running (s : Session σ) : List String :=
  let unfinished := s.tasks.filter fun (_, t, _) => !s.limiter.isOver t
  Order.sort (fun a b => a ≤ b) (unfinished.map (·.1))

/-- The log lines of what has happened since the journal was so long. -/
def logsSince (s : Session σ) (mark : Nat) : List String :=
  let recent := s.limiter.journal.take (s.limiter.journal.length - mark)
  recent.reverse.filterMap Event.line?

end Session

end Turnstile
