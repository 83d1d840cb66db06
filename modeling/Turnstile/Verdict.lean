/-!
# Verdicts and decisions

A store that counts a call answers with the milliseconds that are left of the window if the call is
over its limit and with zero if it is not. The answer read that way is the verdict; what becomes of
the caller is the decision, which also covers the case that there is no answer.
-/

namespace Turnstile

inductive Verdict where
  | admitted
  | blocked (remainingMs : Nat)
deriving DecidableEq, Repr

namespace Verdict

/-- Zero admits the call; any other answer is the time left to wait. -/
def ofRemaining (remainingMs : Nat) : Verdict :=
  if remainingMs = 0 then .admitted else .blocked remainingMs

/-- A wait in whole seconds: rounded up, and never less than one. -/
def retryAfterSeconds (remainingMs : Nat) : Nat := max 1 ((remainingMs + 999) / 1000)

theorem ofRemaining_eq_admitted_iff {ms : Nat} : ofRemaining ms = .admitted ↔ ms = 0 := by
  by_cases h : ms = 0 <;> simp [ofRemaining, h]

theorem retryAfterSeconds_pos (ms : Nat) : 1 ≤ retryAfterSeconds ms := Nat.le_max_left _ _

end Verdict

/-- What becomes of a call: it passes, waits, or passes because nobody could count it. -/
inductive Decision where
  | admitted
  | rejected (retryAfterSeconds : Nat)
  | degraded
deriving DecidableEq, Repr

/-- Everything but a rejection lets the call pass. -/
def Decision.isAdmitted : Decision → Bool
  | .rejected _ => false
  | _ => true

end Turnstile
