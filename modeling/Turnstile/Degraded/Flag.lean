import Turnstile.Event

/-!
# The degraded flag

One flag tells whether the store has failed since it last worked. Raising a raised flag and
clearing a cleared one change nothing; a change is journalled and reported to whoever made it.
-/

namespace Turnstile

/-- Whether the store counts as failed, and since when. -/
structure Flag where
  up : Bool
  since : Option Time
deriving DecidableEq, Repr

namespace Flag

def down : Flag := ⟨false, none⟩

/-- The flag after it is raised, what is journalled, and whether it moved. -/
def raise (f : Flag) (now : Time) (reason : String) : Flag × List Event × Bool :=
  if f.up then (f, [], false) else (⟨true, some now⟩, [.degraded reason], true)

/-- The flag after it is cleared, what is journalled, and whether it moved. -/
def clear (f : Flag) : Flag × List Event × Bool :=
  if f.up then (⟨false, none⟩, [.recovered], true) else (f, [], false)

/-- The start of an outage is known exactly while there is one. -/
def Consistent (f : Flag) : Prop := f.up = f.since.isSome

/-! ## Laws -/

theorem consistent_down : down.Consistent := rfl

theorem Consistent.raise {f : Flag} (h : f.Consistent) (now : Time) (reason : String) :
    (f.raise now reason).1.Consistent := by
  unfold Flag.raise
  split
  · exact h
  · rfl

theorem Consistent.clear {f : Flag} (h : f.Consistent) : f.clear.1.Consistent := by
  unfold Flag.clear
  split
  · rfl
  · exact h

@[simp]
theorem raise_up (f : Flag) (now : Time) (reason : String) : (f.raise now reason).1.up = true := by
  unfold raise
  split <;> simp_all

@[simp] theorem clear_up (f : Flag) : f.clear.1.up = false := by
  unfold clear
  split <;> simp_all

end Flag

end Turnstile
