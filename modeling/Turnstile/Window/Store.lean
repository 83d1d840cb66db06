import Turnstile.Event
import Turnstile.Table

/-!
# Windows in memory

A store keeps one window for every key: how many calls it has counted and when it ends. The first
call on a key that has no running window opens one; the calls that follow count up until it ends and
do not move its end. Windows that are over are swept out of the store, at most once a minute, when
some call is counted.
-/

namespace Turnstile

/-- The calls counted on one key, and the instant at which the count is over. -/
structure Window where
  count : Nat
  expiresAt : Time
deriving DecidableEq, Repr

/-- The windows of all keys, and the instant of the last sweep. -/
structure Store where
  windows : Table String Window
  lastPruned : Option Time
deriving DecidableEq, Repr

def usPerMs : Nat := 1000

def usPerSecond : Nat := 1000000

namespace Window

def isLive (w : Window) (now : Time) : Bool := now < w.expiresAt

/-- The whole milliseconds until the window ends. -/
def remainingMs (w : Window) (now : Time) : Nat := (w.expiresAt - now) / usPerMs

/-- The window after one more call: a running one counts up, any other starts anew. -/
def bump (w : Option Window) (now : Time) (windowMs : Nat) : Window :=
  match w with
  | some w =>
    if w.isLive now then ⟨w.count + 1, w.expiresAt⟩ else ⟨1, now + windowMs * usPerMs⟩
  | none => ⟨1, now + windowMs * usPerMs⟩

/-- What a call is told: zero within the limit, else the time left, at least a millisecond. -/
def answer (w : Window) (now : Time) (limit : Nat) : Nat :=
  if limit < w.count then max 1 (w.remainingMs now) else 0

end Window

namespace Store

def empty : Store := ⟨[], none⟩

/-- How long the store waits from one sweep to the next. -/
def pruneEvery : Nat := 60 * usPerSecond

def prune (s : Store) (now : Time) : Store :=
  ⟨s.windows.filter fun e => e.2.isLive now, some now⟩

/-- Whether the last sweep was long enough ago. -/
def isPruneDue (s : Store) (now : Time) : Bool :=
  match s.lastPruned with
  | none => true
  | some last => pruneEvery ≤ now - last

def pruneIfDue (s : Store) (now : Time) : Store := if s.isPruneDue now then s.prune now else s

/-- Counts a call on the key and answers it. -/
def count (s : Store) (now : Time) (key : String) (limit windowMs : Nat) : Store × Nat :=
  let s := s.pruneIfDue now
  let w := Window.bump (Table.get? s.windows key) now windowMs
  ({ s with windows := Table.put s.windows key w }, w.answer now limit)

/-- The calls counted in the running window of the key. -/
def counter? (s : Store) (now : Time) (key : String) : Option Nat :=
  ((Table.get? s.windows key).filter fun w => w.isLive now).map (·.count)

/-- Sweeps at once and tells how many windows went. -/
def cleanup (s : Store) (now : Time) : Store × Nat :=
  let swept := s.prune now
  (swept, s.windows.length - swept.windows.length)

/-- How many windows are kept, those that are over included. -/
def size (s : Store) : Nat := s.windows.length

/-! ## Laws -/

theorem mem_windows_prune {s : Store} {now : Time} {e : String × Window} :
    e ∈ (s.prune now).windows ↔ e ∈ s.windows ∧ now < e.2.expiresAt := by
  simp [prune, Window.isLive]

theorem size_prune_le (s : Store) (now : Time) : (s.prune now).size ≤ s.size :=
  List.length_filter_le ..

/-- After a call is counted on a key, the window of the key is the bumped one. -/
theorem get?_count (s : Store) (now : Time) (key : String) (limit windowMs : Nat) :
    Table.get? (s.count now key limit windowMs).1.windows key =
      some (Window.bump (Table.get? (s.pruneIfDue now).windows key) now windowMs) := by
  simp [count, Table.get?_put_self]

end Store

end Turnstile
