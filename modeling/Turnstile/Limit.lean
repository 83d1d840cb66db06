import Turnstile.Text.Numeral

/-!
# Limits

A limit allows a number of calls in a window of some seconds. Only limits that can be enforced
exist: both numbers are positive and the window's length in milliseconds is a signed number of
sixty-four bits, which is what a store that counts in milliseconds takes.
-/

namespace Turnstile

/-- At most `times` calls in a window of `seconds`. -/
structure Limit where
  times : Nat
  seconds : Nat
  times_pos : 0 < times
  seconds_pos : 0 < seconds
  window_fits : (seconds * 1000 : Nat) ≤ Text.maxI64
deriving DecidableEq, Repr

structure InvalidLimit where
  times : Int
  seconds : Int
deriving DecidableEq, Repr

def InvalidLimit.message (e : InvalidLimit) : String :=
  "invalid rate limit configuration: times=" ++ toString e.times
    ++ ", seconds=" ++ toString e.seconds

namespace Limit

def msPerSecond : Nat := 1000

/-- The limit of these numbers, unless one is not positive or the window is too long. -/
def ofInts (times seconds : Int) : Except InvalidLimit Limit :=
  if h : 0 < times ∧ 0 < seconds ∧ (seconds.toNat * 1000 : Nat) ≤ Text.maxI64 then
    .ok ⟨times.toNat, seconds.toNat, by omega, by omega, h.2.2⟩
  else .error ⟨times, seconds⟩

def perMinute (times : Int) : Except InvalidLimit Limit := ofInts times 60

/-- The length of the window in milliseconds. -/
def windowMs (l : Limit) : Nat := l.seconds * msPerSecond

/-- The limit of a caller that names none: five times a minute. -/
def standard : Limit := ⟨5, 60, by decide, by decide, by decide⟩

/-! ## Laws -/

theorem windowMs_pos (l : Limit) : 0 < l.windowMs :=
  Nat.mul_pos l.seconds_pos (by decide)

theorem ofInts_eq_error {times seconds : Int} {e : InvalidLimit}
    (h : ofInts times seconds = .error e) : e = ⟨times, seconds⟩ := by
  unfold ofInts at h
  split at h
  · cases h
  · cases h
    rfl

end Limit

end Turnstile
