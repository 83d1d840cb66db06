import Turnstile.Event

/-!
# Pools

A pool lends connections. Whoever borrows needs a permit first; the permits that nobody holds are
counted, and those who wait for one stand in a line, the oldest in front. Connections that are given
back in good order rest in a queue until somebody takes the one in front.

A closed pool has no line and no resting connections, and takes no connection back.
-/

namespace Turnstile

/-- A resting connection, and when it was last known to work. -/
structure Idle where
  conn : ConnId
  checkedAt : Time
deriving DecidableEq, Repr

/-- A borrowed connection, and whether its borrower found it broken. -/
structure Lease where
  conn : ConnId
  checkedAt : Time
  broken : Bool
deriving DecidableEq, Repr

/-- The resting connections, the free permits and the line of those who wait for one. -/
structure Pool where
  idle : List Idle
  free : Nat
  line : List TaskId
  closed : Bool
deriving DecidableEq, Repr

namespace Pool

def fresh (capacity : Nat) : Pool := ⟨[], capacity, [], false⟩

def enqueue (p : Pool) (t : TaskId) : Pool := { p with line := p.line ++ [t] }

def leave (p : Pool) (t : TaskId) : Pool := { p with line := p.line.erase t }

/-- Gives a permit back: to the first in the line, who is named, or to nobody. -/
def release (p : Pool) : Pool × Option TaskId :=
  match p.line with
  | t :: rest => ({ p with line := rest }, some t)
  | [] => ({ p with free := p.free + 1 }, none)

/-- Lays a connection to rest, unless the pool is closed. -/
def rest (p : Pool) (i : Idle) : Pool := if p.closed then p else { p with idle := p.idle ++ [i] }

/-- Takes a connection back from its borrower. A broken one is dropped, and so is every one if
connections are not to be kept. -/
def takeBack (p : Pool) (keepalive : Bool) (l : Lease) : Pool :=
  if l.broken || !keepalive then p else p.rest ⟨l.conn, l.checkedAt⟩

/-- Closes the pool and names those who stood in the line. -/
def close (p : Pool) : Pool × List TaskId := (⟨[], p.free, [], true⟩, p.line)

/-! ## Laws -/

@[simp] theorem rest_of_closed {p : Pool} (h : p.closed = true) (i : Idle) : p.rest i = p := by
  simp [rest, h]

@[simp] theorem rest_of_open {p : Pool} (h : p.closed = false) (i : Idle) :
    p.rest i = { p with idle := p.idle ++ [i] } := by
  simp [rest, h]

@[simp] theorem line_rest (p : Pool) (i : Idle) : (p.rest i).line = p.line := by
  unfold rest
  split <;> rfl

@[simp] theorem free_rest (p : Pool) (i : Idle) : (p.rest i).free = p.free := by
  unfold rest
  split <;> rfl

@[simp] theorem closed_rest (p : Pool) (i : Idle) : (p.rest i).closed = p.closed := by
  unfold rest
  split <;> rfl

theorem length_idle_rest_le (p : Pool) (i : Idle) : (p.rest i).idle.length ≤ p.idle.length + 1 := by
  unfold rest
  split
  · exact Nat.le_succ _
  · simp

@[simp] theorem line_takeBack (p : Pool) (keepalive : Bool) (l : Lease) :
    (p.takeBack keepalive l).line = p.line := by
  unfold takeBack
  split <;> simp

@[simp] theorem free_takeBack (p : Pool) (keepalive : Bool) (l : Lease) :
    (p.takeBack keepalive l).free = p.free := by
  unfold takeBack
  split <;> simp

@[simp] theorem closed_takeBack (p : Pool) (keepalive : Bool) (l : Lease) :
    (p.takeBack keepalive l).closed = p.closed := by
  unfold takeBack
  split <;> simp

@[simp] theorem release_of_nil {p : Pool} (h : p.line = []) :
    p.release = ({ p with free := p.free + 1 }, none) := by
  simp [release, h]

theorem release_of_cons {p : Pool} {t : TaskId} {rest : List TaskId}
    (h : p.line = t :: rest) : p.release = ({ p with line := rest }, some t) := by
  simp [release, h]

/-- A permit that is given back is free or is somebody's. -/
theorem free_release (p : Pool) :
    p.release.1.free + (if p.release.2.isSome then 1 else 0) = p.free + 1 := by
  cases h : p.line with
  | nil => simp [h]
  | cons t rest => simp [release_of_cons h]

end Pool

end Turnstile
