import Turnstile.Order
import Turnstile.Table
import Turnstile.Verdict

/-!
# Metrics

Counters under a name and a label. Decisions are counted for each service, commands to the store and
observations of their duration for the one command there is.
-/

namespace Turnstile

inductive Metric where
  | commands
  | durations
  | allowed (service : String)
  | rejected (service : String)
  | degraded (service : String)
deriving DecidableEq, Repr

namespace Metric

def name : Metric → String
  | .commands => "redis_commands_total"
  | .durations => "redis_command_duration_ms"
  | .allowed _ => "ratelimiter_allowed_total"
  | .rejected _ => "ratelimiter_rejected_total"
  | .degraded _ => "ratelimiter_degraded_total"

def label : Metric → String
  | .commands | .durations => "command=EVALSHA"
  | .allowed service | .rejected service | .degraded service => "service=" ++ service

def ofDecision (service : String) : Decision → Metric
  | .admitted => .allowed service
  | .rejected _ => .rejected service
  | .degraded => .degraded service

/-- The order of names, and of labels under one name. -/
def precedes (a b : Metric) : Bool := a.name < b.name || (a.name = b.name && a.label ≤ b.label)

end Metric

abbrev Metrics := Table Metric Nat

namespace Metrics

def value (t : Metrics) (m : Metric) : Nat := (Table.get? t m).getD 0

def bump (t : Metrics) (m : Metric) : Metrics := Table.put t m (t.value m + 1)

/-- Name, label and count of everything that was counted, in order. -/
def rows (t : Metrics) : List (String × String × Nat) :=
  (Order.sort (fun a b => a.1.precedes b.1) t).map fun (m, n) => (m.name, m.label, n)

@[simp]
theorem value_bump_self (t : Metrics) (m : Metric) : (t.bump m).value m = t.value m + 1 := by
  simp [bump, value, Table.get?_put_self]

@[simp] theorem value_bump_ne (t : Metrics) {m m' : Metric} (h : m' ≠ m) :
    (t.bump m).value m' = t.value m' := by
  simp [bump, value, Table.get?_put_ne _ _ h]

end Metrics

/-- How often calls passed, waited, and passed uncounted. -/
structure Totals where
  allowed : Nat
  rejected : Nat
  degraded : Nat
deriving DecidableEq, Repr

def Totals.add (t : Totals) : Decision → Totals
  | .admitted => { t with allowed := t.allowed + 1 }
  | .rejected _ => { t with rejected := t.rejected + 1 }
  | .degraded => { t with degraded := t.degraded + 1 }

end Turnstile
