import Turnstile.Degraded.Flag

/-!
# Handles on flags

Several handles may stand for one flag. A handle is cloned from another, or comes with a flag of its
own; what is done through one handle shows through every other handle on the same flag.
-/

namespace Turnstile

/-- Flags, and for every handle the number of its flag. -/
structure Handles where
  flags : List Flag
  handles : List Nat
deriving DecidableEq, Repr

namespace Handles

def fresh : Handles := ⟨[Flag.down], [0]⟩

def flag? (h : Handles) (handle : Nat) : Option Flag :=
  h.handles[handle]?.bind fun i => h.flags[i]?

/-- What every handle shows, in the order of the handles. -/
def view (h : Handles) : List Flag := h.handles.filterMap fun i => h.flags[i]?

/-- Adds a handle on the flag of another and gives its number. -/
def clone? (h : Handles) (handle : Nat) : Option (Handles × Nat) :=
  h.handles[handle]?.map fun i => (⟨h.flags, h.handles ++ [i]⟩, h.handles.length)

/-- Adds a handle on a flag of its own and gives its number. -/
def add (h : Handles) : Handles × Nat :=
  (⟨h.flags ++ [Flag.down], h.handles ++ [h.flags.length]⟩, h.handles.length)

def update? (h : Handles) (handle : Nat) (change : Flag → Flag × List Event × Bool) :
    Option (Handles × List Event × Bool) := do
  let i ← h.handles[handle]?
  let flag ← h.flags[i]?
  let (flag, events, moved) := change flag
  return (⟨h.flags.set i flag, h.handles⟩, events, moved)

def raise? (h : Handles) (handle : Nat) (now : Time) (reason : String) :
    Option (Handles × List Event × Bool) :=
  h.update? handle fun f => f.raise now reason

def clear? (h : Handles) (handle : Nat) : Option (Handles × List Event × Bool) :=
  h.update? handle Flag.clear

end Handles

end Turnstile
