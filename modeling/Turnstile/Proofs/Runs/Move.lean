import Turnstile.Limiter.Cancel
import Turnstile.Limiter.Step
import Turnstile.Memory

/-!
# Moves and runs

A move is one thing that happens to a limiter without a pause: a task starts, takes a step or is
cancelled, a borrowed connection comes back, the pool is closed, the clock goes on, somebody raises
or clears the flag, or the store is changed from outside. A run is any sequence of moves. Tasks step
in any order and as often as they like, so runs contain every interleaving; what a scheduler does
is one of them.

What holds at first and is kept by every move holds after every run (`run_induction`).
-/

namespace Turnstile

/-- A store together with what can be done to it from outside. -/
structure Surroundings (σ ε : Type) where
  backend : Backend σ
  /-- The store after a change that is made at that time. -/
  tend : Time → σ → ε → σ

/-- One thing that happens to a limiter. -/
inductive Move (ε : Type) where
  /-- A task is started. -/
  | start (jobs : List Job)
  /-- A task goes on, if it can. -/
  | step (t : TaskId)
  /-- A task is cancelled. -/
  | cancel (t : TaskId)
  /-- The pool is closed. -/
  | close
  /-- A connection that is kept under a name is given back. -/
  | release (name : String)
  /-- A connection that is kept under a name is found broken. -/
  | markBroken (name : String)
  | raise (reason : String)
  | clear
  /-- Time passes, in microseconds. -/
  | pass (us : Nat)
  /-- The store is changed. -/
  | tend (change : ε)
  /-- The tasks that are to go on next are put in this order. -/
  | arrange (ready : List TaskId)
deriving Repr

namespace Limiter

variable {σ ε : Type}

/-- The limiter after a move. -/
def move (W : Surroundings σ ε) (s : Limiter σ) : Move ε → Limiter σ
  | .start jobs => (s.start jobs).1
  | .step t => (s.step? W.backend t).getD s
  | .cancel t => s.cancel t
  | .close => s.close
  | .release name =>
    match Table.get? s.held name with
    | some lease => { s with held := Table.without s.held name }.giveBack lease
    | none => s
  | .markBroken name =>
    { s with held := Table.modify s.held name fun lease => { lease with broken := true } }
  | .raise reason => (s.raise reason).1
  | .clear => s.clear.1
  | .pass us => { s with clock := s.clock + us }
  | .tend change => { s with backend := W.tend s.clock s.backend change }
  | .arrange ready => { s with ready }

/-- The limiter after a run. -/
def run (W : Surroundings σ ε) (s : Limiter σ) (moves : List (Move ε)) : Limiter σ :=
  moves.foldl (move W) s

theorem move_step_of_none {W : Surroundings σ ε} {s : Limiter σ} {t : TaskId}
    (blocked : s.step? W.backend t = none) : s.move W (.step t) = s := by
  rw [move, blocked, Option.getD_none]

theorem move_step_of_some {W : Surroundings σ ε} {s s' : Limiter σ} {t : TaskId}
    (step : s.step? W.backend t = some s') : s.move W (.step t) = s' := by
  rw [move, step, Option.getD_some]

theorem run_append (W : Surroundings σ ε) (s : Limiter σ) (moves more : List (Move ε)) :
    s.run W (moves ++ more) = (s.run W moves).run W more :=
  List.foldl_append

/-- What every move keeps, every run keeps. -/
theorem run_induction {W : Surroundings σ ε} {P : Limiter σ → Prop}
    (hmove : ∀ s m, P s → P (s.move W m)) {s : Limiter σ} (h : P s) (moves : List (Move ε)) :
    P (s.run W moves) := by
  induction moves generalizing s with
  | nil => exact h
  | cons m rest ih => exact ih (hmove s m h)

end Limiter

/-! ## The store in memory -/

/-- What can be done to a store in memory from outside. -/
inductive MemoryChange where
  | turn (switch : Switch)
  | cleanup
deriving DecidableEq, Repr

namespace Memory

/-- The store after a change that is made at that time. -/
def tend (now : Time) (m : Memory) : MemoryChange → Memory
  | .turn switch => m.turn switch
  | .cleanup => { m with store := (m.store.cleanup now).1 }

/-- The store in memory and what can be done to it. -/
def surroundings : Surroundings Memory MemoryChange := ⟨backend, tend⟩

end Memory

end Turnstile
