import Turnstile.Window.Store

/-!
# Fixed windows

What the calls on one key come to, told from those calls alone. A call opens a window if there is
none or if the last one is over; every other call has the next rank in the window that is open. A
call is within its limit if its rank is.

`Span.current` is the window after some calls. Nothing here knows of a store.
-/

namespace Turnstile

/-- A call on a key, and the length of the window that it opens if it opens one. -/
structure Arrival where
  time : Time
  windowMs : Nat
deriving DecidableEq, Repr

/-- A window: when it opened, how long it is, and how many calls have come in it. -/
structure Span where
  opened : Time
  windowMs : Nat
  rank : Nat
deriving DecidableEq, Repr

namespace Span

/-- The instant at which the window is over. -/
def ends (w : Span) : Time := w.opened + w.windowMs * usPerMs

/-- Whether the window is still open. -/
def isOpen (w : Span) (now : Time) : Bool := now < w.ends

/-- The window that a call finds itself in, given the one before it. -/
def next (w : Option Span) (a : Arrival) : Span :=
  match w.filter fun w => w.isOpen a.time with
  | some w => { w with rank := w.rank + 1 }
  | none => ⟨a.time, a.windowMs, 1⟩

/-- The window after more calls, in their order. -/
def after (w : Option Span) (calls : List Arrival) : Option Span :=
  calls.foldl (fun w a => some (next w a)) w

/-- The window after all calls there ever were. -/
def current (calls : List Arrival) : Option Span := after none calls

/-- What the call of that rank is told: zero within its limit, else the whole milliseconds until the
window is over, and at least one. -/
def answer (w : Span) (now : Time) (limit : Nat) : Nat :=
  if w.rank ≤ limit then 0 else max 1 ((w.ends - now) / usPerMs)

/-! ## Laws -/

theorem next_of_open {w : Span} {a : Arrival} (h : a.time < w.ends) :
    next (some w) a = { w with rank := w.rank + 1 } := by
  simp [next, Option.filter, isOpen, h]

theorem next_of_over {w : Span} {a : Arrival} (h : w.ends ≤ a.time) :
    next (some w) a = ⟨a.time, a.windowMs, 1⟩ := by
  simp [next, Option.filter, isOpen, Nat.not_lt.mpr h]

theorem after_cons (w : Option Span) (a : Arrival) (calls : List Arrival) :
    after w (a :: calls) = after (some (next w a)) calls := rfl

theorem after_append (w : Option Span) (calls more : List Arrival) :
    after w (calls ++ more) = after (after w calls) more :=
  List.foldl_append

theorem after_concat (w : Option Span) (calls : List Arrival) (a : Arrival) :
    after w (calls ++ [a]) = some (next (after w calls) a) := by
  rw [after_append]
  rfl

theorem current_concat (calls : List Arrival) (a : Arrival) :
    current (calls ++ [a]) = some (next (current calls) a) :=
  after_concat ..

end Span

/-- The calls counted so far, each with its key, the first one in front. -/
abbrev History := List (String × Arrival)

namespace History

/-- The calls on a key. -/
def on (h : History) (key : String) : List Arrival :=
  h.filterMap fun e => if e.1 = key then some e.2 else none

/-- The last window of a key. -/
def span? (h : History) (key : String) : Option Span := Span.current (h.on key)

theorem on_concat_self (h : History) (key : String) (a : Arrival) :
    on (h ++ [(key, a)]) key = h.on key ++ [a] := by
  simp [on, List.filterMap_append]

theorem on_concat_ne (h : History) {key other : String} (a : Arrival) (hne : other ≠ key) :
    on (h ++ [(key, a)]) other = h.on other := by
  simp [on, List.filterMap_append, Ne.symm hne]

theorem span?_concat_self (h : History) (key : String) (a : Arrival) :
    span? (h ++ [(key, a)]) key = some (Span.next (h.span? key) a) := by
  rw [span?, on_concat_self, Span.current_concat, span?]

theorem span?_concat_ne (h : History) {key other : String} (a : Arrival) (hne : other ≠ key) :
    span? (h ++ [(key, a)]) other = h.span? other := by
  rw [span?, on_concat_ne h a hne, span?]

end History

end Turnstile
