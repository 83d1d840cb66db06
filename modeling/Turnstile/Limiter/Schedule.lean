import Turnstile.Limiter.Step
import Turnstile.Order

/-!
# Whose turn it is

Tasks that can go on take turns, first come, first served, and each goes on until it has to wait.
The clock stands still while any task can go on. When all have to wait it moves to the next timer,
and the timers of one instant ring in the order in which they were set.

One task may stand in front: it is the one that somebody waits for, and it comes first whenever
every other task has had its turn.
-/

namespace Turnstile

namespace Limiter

variable {σ : Type}

/-- The most steps that a task takes in one turn. -/
def turnLength : Nat := 10000

/-- A number of turns that is more than anybody waits for. -/
def maxTurns : Nat := 1000000000

/-- Lets a task take up to so many steps. One that could go on after them has to come again. -/
def steps (B : Backend σ) (t : TaskId) : Nat → Limiter σ → Limiter σ
  | 0, s => s.wake t
  | n + 1, s =>
    match s.step? B t with
    | some s => steps B t n s
    | none => s

def poll (B : Backend σ) (s : Limiter σ) (t : TaskId) : Limiter σ :=
  steps B t turnLength { s with ready := s.ready.erase t }

/-- Lets every ready task have its turn until none is left, except for the one in front. -/
def drain (B : Backend σ) (front : Option TaskId) : Nat → Limiter σ → Limiter σ
  | 0, s => s
  | n + 1, s =>
    match s.ready.find? fun t => some t ≠ front with
    | some t => drain B front n (s.poll B t)
    | none => s

/-- The timers that tasks wait for, each with its task. -/
def timers (s : Limiter σ) : List (Timer × TaskId) :=
  s.tasks.flatMap fun (t, task) => task.stage.timers.map fun timer => (timer, t)

/-- Wakes the tasks whose timers have rung. -/
def ring (s : Limiter σ) : Limiter σ :=
  let rung := s.timers.filter fun e => s.rung e.1
  s.wakeAll ((Order.sort (fun a b => Timer.precedes a.1 b.1) rung).map (·.2))

def nextTick? (s : Limiter σ) : Option Nat := (s.timers.map (·.1.tick)).min?

/-- Moves the clock to a millisecond. What the clock has beyond a whole one it keeps. -/
def jumpTo (s : Limiter σ) (tick : Nat) : Limiter σ :=
  { s with clock := s.clock + (tick - s.clock / usPerMs) * usPerMs }

def pass (s : Limiter σ) (us : Nat) : Limiter σ := { s with clock := s.clock + us }

/-- Lets everything happen that can happen at this instant. -/
def calm (B : Backend σ) (s : Limiter σ) : Limiter σ := drain B none maxTurns s.ring

/-- Lets time pass until the task in front is over. -/
def runUntilOver (B : Backend σ) (t : TaskId) : Nat → Limiter σ → Limiter σ
  | 0, s => s
  | n + 1, s =>
    let s := if t ∈ s.ready then s.poll B t else s
    if s.isOver t then s
    else
      let s := drain B (some t) maxTurns s
      if t ∈ s.ready then runUntilOver B t n s
      else
        match s.nextTick? with
        | some tick => runUntilOver B t n (s.jumpTo tick).ring
        | none => s

/-- Starts a task and lets time pass until it is over. Gives how its jobs ended. -/
def complete (B : Backend σ) (s : Limiter σ) (jobs : List Job) : Limiter σ × List Outcome :=
  let (s, t) := s.start jobs
  let s := runUntilOver B t maxTurns s
  (s, ((Table.get? s.tasks t).map fun task => task.outcomes.reverse).getD [])

/-! ## Laws -/

theorem le_clock_jumpTo (s : Limiter σ) (tick : Nat) : s.clock ≤ (s.jumpTo tick).clock :=
  Nat.le_add_right ..

end Limiter

end Turnstile
