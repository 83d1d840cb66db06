import Turnstile.Table
import Turnstile.Text.Numeral

/-!
# Keys with deadlines

What a Redis server keeps: a text under each key, and for some keys a deadline in milliseconds of
the server's clock. A key whose time is over is gone. `incr?`, `expire` and `ttl` are the commands
that a counter needs.
-/

namespace Turnstile.Redis

/-- Whether a key goes when its deadline is reached or when it has been passed. -/
inductive Expiry where
  | reached
  | passed
deriving DecidableEq, Repr

structure Entry where
  text : String
  deadline : Option Nat
deriving DecidableEq, Repr

/-- The entries of a server, and when they go. -/
structure Keyspace where
  expiry : Expiry
  entries : Table String Entry
deriving DecidableEq, Repr

namespace Keyspace

def empty (expiry : Expiry) : Keyspace := ⟨expiry, []⟩

def isLive (k : Keyspace) (now : Nat) (e : Entry) : Bool :=
  match e.deadline with
  | none => true
  | some deadline =>
    match k.expiry with
    | .reached => now < deadline
    | .passed => now ≤ deadline

def get? (k : Keyspace) (now : Nat) (key : String) : Option Entry :=
  (Table.get? k.entries key).filter (k.isLive now)

def put (k : Keyspace) (key : String) (e : Entry) : Keyspace :=
  { k with entries := Table.put k.entries key e }

def without (k : Keyspace) (key : String) : Keyspace :=
  { k with entries := Table.without k.entries key }

def integer? (text : String) : Option Int :=
  Text.integer? Text.minI64 Text.maxI64 text.toList

/-- Adds one to the integer under a key and gives the sum. A missing key counts from zero; a
deadline stays. Nothing can be added to what is no integer, nor to the largest. -/
def incr? (k : Keyspace) (now : Nat) (key : String) : Option (Keyspace × Int) :=
  match k.get? now key with
  | none => some (k.put key ⟨"1", none⟩, 1)
  | some e =>
    match integer? e.text with
    | none => none
    | some n =>
      if n < Text.maxI64 then some (k.put key { e with text := toString (n + 1) }, n + 1) else none

/-- Gives a key that is there so many milliseconds from now; with none it goes at once. -/
def expire (k : Keyspace) (now : Nat) (key : String) (ms : Nat) : Keyspace :=
  match k.get? now key with
  | none => k
  | some e => if ms = 0 then k.without key else k.put key { e with deadline := some (now + ms) }

/-- The milliseconds that a key has left; -1 if it has no deadline and -2 if it is not there. -/
def ttl (k : Keyspace) (now : Nat) (key : String) : Int :=
  match k.get? now key with
  | none => -2
  | some ⟨_, none⟩ => -1
  | some ⟨_, some deadline⟩ => (deadline - now : Nat)

/-! ## Laws -/

@[simp]
theorem get?_put_ne (k : Keyspace) (now : Nat) {key other : String} (e : Entry) (h : other ≠ key) :
    (k.put key e).get? now other = k.get? now other := by
  unfold get? put
  rw [Table.get?_put_ne _ _ h]
  rfl

@[simp] theorem get?_without_ne (k : Keyspace) (now : Nat) {key other : String} (h : other ≠ key) :
    (k.without key).get? now other = k.get? now other := by
  unfold get? without
  rw [Table.get?_without_ne _ h]
  rfl

theorem get?_expire_ne (k : Keyspace) (now : Nat) {key other : String} (ms : Nat)
    (h : other ≠ key) : (k.expire now key ms).get? now other = k.get? now other := by
  unfold expire
  split
  · rfl
  · split
    · exact get?_without_ne k now h
    · exact get?_put_ne k now _ h

end Keyspace

end Turnstile.Redis
