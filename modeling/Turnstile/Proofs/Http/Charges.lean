import Turnstile.Proofs.Degraded.Recovery
import Turnstile.Proofs.Http.Budgets
import Turnstile.Proofs.Http.Headers
import Turnstile.Proofs.Pool.Capacity

/-!
# What a request costs

Requests come to a site one after another, each with a free permit and over a store that works. One
whose path is the route's is counted once, under the key of its caller and the service of its
method, whatever it is answered; the counters of all other keys stay as they are. One for any other
path is answered that there is nothing, and changes nothing (`Memory.requests_charged`).

Other tasks may be in the middle of something all the while, as long as they stand still: what they
do when they go on is their own.
-/

namespace Turnstile

/-! ## Policies and sites -/

theorem Policy.eq_of_perMinute {route : String} {limits : LimitSettings} {p : Policy}
    (accepted : perMinute route limits = .ok p) :
    ∃ read write, p = ⟨route ++ "_read", route ++ "_write", read, write,
      limits.trustProxyHeaders⟩ := by
  unfold perMinute at accepted
  cases hread : Limit.perMinute limits.readPerMin with
  | error e => simp [hread, bind, Except.bind] at accepted
  | ok read =>
    cases hwrite : Limit.perMinute limits.writePerMin with
    | error e => simp [hread, hwrite, bind, Except.bind] at accepted
    | ok write =>
      simp only [hread, hwrite, bind, Except.bind, pure, Except.pure, Except.ok.injEq] at accepted
      exact ⟨read, write, accepted.symm⟩

namespace Site

variable {config : Settings} {site : Site}

theorem policy_of_ofSettings (mounted : ofSettings config = .ok site) :
    Policy.perMinute statusName config.limits = .ok site.policy := by
  unfold ofSettings at mounted
  split at mounted
  · cases mounted
  · split at mounted
    · cases mounted
      assumption
    · cases mounted

/-- The key under which a request is counted. -/
theorem key_of_ofSettings (mounted : ofSettings config = .ok site) (r : Request) :
    ((site.charge r).evaluation (site.limit r)).key =
      counterKey (r.identity config.limits.trustProxyHeaders)
        (if Policy.isReading r.method then "status_read" else "status_write") := by
  obtain ⟨read, write, hpolicy⟩ := Policy.eq_of_perMinute (policy_of_ofSettings mounted)
  simp only [Charge.evaluation, charge, hpolicy, Policy.forMethod]
  split <;> rfl

theorem status_respond (r : Request) (status : Status) (d : Decision) :
    (respond r status d).status =
      if d.isAdmitted then (if Response.isServed r.method then 200 else 405) else 429 := by
  cases d with
  | rejected seconds => rfl
  | admitted | degraded =>
    simp only [respond, Response.sent, Response.ofStatus, Decision.isAdmitted, if_true]
    split <;> rfl

end Site

namespace Limiter

/-! ## Counters -/

/-- One call has been counted between two states. The running counter of its key has gone up by one,
or begins at one if there was none; no other counter has changed. -/
structure Charged (count : Counted) (s s' : Limiter Memory) : Prop where
  counts : s'.counts = s.counts ++ [count]
  notBefore : s.clock ≤ count.time
  notAfter : count.time ≤ s'.clock
  raised : ∀ n, s.backend.store.counter? count.time count.key = some n → ∀ now, s'.clock ≤ now →
    s'.backend.store.counter? now count.key =
      (s.backend.store.counter? now count.key).map (· + 1)
  restarted : s.backend.store.counter? count.time count.key = none → ∀ now, s'.clock ≤ now →
    s'.backend.store.counter? now count.key = if now < count.ends then some 1 else none
  others : ∀ key, key ≠ count.key → ∀ now, s'.clock ≤ now →
    s'.backend.store.counter? now key = s.backend.store.counter? now key

namespace Counting

variable {s s' : Limiter Memory} {count : Counted}

theorem span?_concat (counts : s'.counts = s.counts ++ [count]) : s'.history.span? count.key =
    some (Span.next (s.history.span? count.key) count.arrival) := by
  rw [history_concat counts, History.span?_concat_self]

/-- The counter of a key is the rank of its last call while that call's window is open. -/
theorem counter?_eq (h : Counting s) {now : Time} (later : s.clock ≤ now) (key : String) :
    s.backend.store.counter? now key =
      (s.history.span? key).bind fun w => if now < w.ends then some w.rank else none := by
  rw [(h.agrees.later later).counter? key]
  cases s.history.span? key with
  | none => rfl
  | some w => by_cases hin : now < w.ends <;> simp [Option.filter, Span.isOpen, hin]

/-- A call in an open window raises its counter. -/
theorem counter?_raised (h : Counting s) (h' : Counting s')
    (counts : s'.counts = s.counts ++ [count]) (notBefore : s.clock ≤ count.time) {n : Nat}
    (running : s.backend.store.counter? count.time count.key = some n) {now : Time}
    (later : s.clock ≤ now) (later' : s'.clock ≤ now) :
    s'.backend.store.counter? now count.key =
      (s.backend.store.counter? now count.key).map (· + 1) := by
  rw [h.counter?_eq notBefore, Option.bind_eq_some_iff] at running
  obtain ⟨w, hspan, hrank⟩ := running
  have hopen : count.time < w.ends := by
    by_cases hin : count.time < w.ends
    · exact hin
    · rw [if_neg hin] at hrank
      cases hrank
  have hnext : s'.history.span? count.key = some { w with rank := w.rank + 1 } := by
    rw [span?_concat counts, hspan]
    exact congrArg some (Span.next_of_open hopen)
  rw [h.counter?_eq later, h'.counter?_eq later', hspan, hnext, Option.bind_some, Option.bind_some]
  show (if now < w.ends then some (w.rank + 1) else none) = _
  split <;> rfl

/-- A call for which no window is open begins one. -/
theorem counter?_restarted (h : Counting s) (h' : Counting s')
    (counts : s'.counts = s.counts ++ [count]) (notBefore : s.clock ≤ count.time)
    (absent : s.backend.store.counter? count.time count.key = none) {now : Time}
    (later' : s'.clock ≤ now) :
    s'.backend.store.counter? now count.key = if now < count.ends then some 1 else none := by
  have hclosed : (s.history.span? count.key).filter (fun w => w.isOpen count.time) = none := by
    rwa [(h.agrees.later notBefore).counter? count.key, Option.map_eq_none_iff] at absent
  have hnext : s'.history.span? count.key = some ⟨count.time, count.windowMs, 1⟩ := by
    rw [span?_concat counts]
    simp only [Span.next, Counted.arrival, hclosed]
  rw [h'.counter?_eq later', hnext, Option.bind_some]
  rfl

/-- What a counted call does to the counters. -/
theorem charged (h : Counting s) (h' : Counting s') (counts : s'.counts = s.counts ++ [count])
    (notBefore : s.clock ≤ count.time) (notAfter : count.time ≤ s'.clock) :
    Charged count s s' := by
  have hlater : ∀ {now}, s'.clock ≤ now → s.clock ≤ now := fun later =>
    Nat.le_trans (Nat.le_trans notBefore notAfter) later
  refine ⟨counts, notBefore, notAfter, fun n running now later => ?_, fun absent now later => ?_,
    fun key hne now later => ?_⟩
  · exact h.counter?_raised h' counts notBefore running (hlater later) later
  · exact h.counter?_restarted h' counts notBefore absent later
  · rw [h'.counter?_eq later, h.counter?_eq (hlater later), history_concat counts,
      History.span?_concat_ne _ _ hne]

/-- The decision on a call is made from the counter as it was. -/
theorem decision_concat (h : Counting s) (h' : Counting s')
    (counts : s'.counts = s.counts ++ [count]) (notBefore : s.clock ≤ count.time) :
    count.verdict.decision.isAdmitted =
      decide ((s.backend.store.counter? count.time count.key).getD 0 < count.limit) := by
  have told := h'.told count.key
  rw [countsOn_concat_self counts] at told
  rw [Told.decision_concat told, h.counter?_eq_openWindow notBefore]
  by_cases hle : (openWindow (s.countsOn count.key) count.time).length + 1 ≤ count.limit
  · rw [if_pos hle, decide_eq_true (Nat.lt_of_succ_le hle)]
    rfl
  · rw [if_neg hle, decide_eq_false fun h => hle (Nat.succ_le_of_lt h)]
    rfl

end Counting

/-! ## Others that stand still -/

/-- Who is over has nothing in hand. -/
theorem hand_of_isOver {σ : Type} {s : Limiter σ} {t : TaskId} (ended : s.isOver t = true) :
    s.hand t = .nothing := by
  cases hs : s.stage? t with
  | none => exact hand_of_none hs
  | some stage =>
    rw [isOver, hs] at ended
    rw [hand_of_stage? hs]
    cases stage with
    | done | cancelled => rfl
    | _ => cases ended

/-- In an open pool nobody stands in the line, and so many permits are free or in the hand of the
task that has the call counted for `t`. -/
structure Spare (t : TaskId) (permits : Nat) (s : Limiter Memory) : Prop where
  tidy : Tidy s
  isOpen : s.pool.closed = false
  line : s.pool.line = []
  permits : s.pool.free + (s.hand (t + 1)).permits = permits

/-- Tasks that stand still are in nobody's way, whatever they have in hand. -/
theorem Spare.escort (t : TaskId) (permits : Nat) :
    Escort t (fun v => v = t ∨ v = t + 1) (Spare t permits) where
  tidy spare := spare.tidy
  isOpen spare := spare.isOpen
  mine _ mine _ := mine
  step spare _ _ forward :=
    let ⟨line, permits⟩ := forward.permits spare.line
    ⟨forward.tidy, forward.isOpen, line, permits.trans spare.permits⟩
  outside _ _ _ spare :=
    ⟨spare.tidy.of_eq rfl rfl rfl, spare.isOpen, spare.line, spare.permits⟩

theorem Spare.of_start {s : Limiter Memory} {capacity : Nat} (balanced : Balanced capacity s)
    (isOpen : s.pool.closed = false) (free : 0 < s.pool.free) (job : Job) :
    Spare s.nextTask s.pool.free (s.start [job]).1 := by
  have tidy := balanced.tidy.start [job]
  have hline : s.pool.line = [] :=
    Decidable.byContradiction fun h => Nat.ne_of_gt free (balanced.waits h)
  have hnext := tidy.nextTask_not_mem
  refine ⟨tidy, by simpa using isOpen, by simpa using hline, ?_⟩
  rw [hand_of_none (stage?_eq_none_iff.mpr (by simpa using hnext))]
  simp [Hand.permits]

/-! ## Requests for other paths -/

/-- Two limiters in which everything that requests leave behind is the same, apart from tasks and
from the store. -/
structure Untouched {σ : Type} (s s' : Limiter σ) : Prop where
  settings : s'.settings = s.settings
  pool : s'.pool = s.pool
  flag : s'.flag = s.flag
  totals : s'.totals = s.totals
  metrics : s'.metrics = s.metrics
  journal : s'.journal = s.journal
  held : s'.held = s.held
  opened : s'.opened = s.opened

/-- Tasks, the clock, the store and whose turn it is do not matter. -/
theorem Untouched.outside {σ : Type} {s s' : Limiter σ} (h : Untouched s s')
    (tasks : List (TaskId × Task)) (clock : Time) (backend : σ) (ready : List TaskId) :
    Untouched s { s' with tasks, clock, backend, ready } :=
  ⟨h.settings, h.pool, h.flag, h.totals, h.metrics, h.journal, h.held, h.opened⟩

theorem Untouched.settle {σ : Type} {s s' : Limiter σ} (h : Untouched s s') (t : TaskId)
    (outcome : Outcome) : Untouched s (s'.settle t outcome) := by
  constructor <;> simp [h.settings, h.pool, h.flag, h.totals, h.metrics, h.journal, h.held,
    h.opened]

/-- A limiter with a request for another path, beside what it was and what it would be by now if the
request had not come; and how many steps are left at most. -/
structure Passing (site : Site) (r : Request) (t : TaskId) (start : Limiter Memory) (n : Nat)
    (s s' : Limiter Memory) : Prop where
  untouched : Untouched start s'
  tasks : s.tasks = start.tasks
  clock : s'.clock = s.clock
  backend : s'.backend = s.backend
  last : s'.stage? (t + 1) = none
  entry : (n = 1 ∧ Table.get? s'.tasks t = some ⟨.fresh (.serve (.ok site) r), [], []⟩) ∨
    ∃ time, Table.get? s'.tasks t = some ⟨.done time, [], [.ok (.response .notFound)]⟩

/-- Nobody who could go on is there, so only somebody outside changes the store. -/
theorem backend_of_still {s : Limiter Memory} {steps : TaskId → Prop}
    (still : ∀ t, steps t → s.stage? t = none) {moves : List (Move MemoryChange)}
    (within : ∀ m ∈ moves, m.Within steps) (untended : ∀ change, .tend change ∉ moves) :
    (s.run Memory.surroundings moves).backend = s.backend := by
  induction moves generalizing s with
  | nil => rfl
  | cons m rest ih =>
    obtain ⟨hm, hrest⟩ := List.forall_mem_cons.mp within
    have untended' : ∀ change, .tend change ∉ rest := fun change hmem =>
      untended change (List.mem_cons_of_mem _ hmem)
    cases m with
    | step t =>
      have blocked : s.step? Memory.backend t = none := by simp [step?, still t hm]
      rw [run, List.foldl_cons, move_step_of_none blocked]
      exact ih still hrest untended'
    | pass us => exact ih (s := s.move Memory.surroundings (.pass us)) still hrest untended'
    | arrange ready =>
      exact ih (s := s.move Memory.surroundings (.arrange ready)) still hrest untended'
    | tend change => exact absurd (List.mem_cons_self ..) (untended change)
    | _ => exact hm.elim

namespace Passing

variable {site : Site} {r : Request} {t : TaskId} {start s s' : Limiter Memory} {n : Nat}

/-- The request is answered in one step, and nothing else happens in it. -/
theorem step (h : Passing site r t start n s s') (unrouted : site.routes r = false)
    {u : Limiter Memory} (hstep : s'.step? Memory.backend t = some u) :
    n = 1 ∧ Passing site r t start 0 s u := by
  rcases h.entry with ⟨rfl, entry⟩ | ⟨time, entry⟩
  · simp only [step?, stage?_of_get? entry, Limiter.begin, unrouted, Bool.false_eq_true,
      if_false] at hstep
    cases hstep
    exact ⟨rfl, h.untouched.settle t _, h.tasks, by simpa using h.clock, by simpa using h.backend,
      by simpa [stage?] using h.last, .inr ⟨s'.clock, by simp [entry, Task.settled]⟩⟩
  · simp [step?, stage?_of_get? entry] at hstep

theorem move (h : Passing site r t start n s s') (unrouted : site.routes r = false)
    (new : ∀ v, v = t ∨ v = t + 1 → start.stage? v = none) {m : Move MemoryChange}
    (within : m.Within fun v => v = t ∨ v = t + 1) :
    ∃ k, k + stepsIn Memory.surroundings s' [m] ≤ n ∧ Passing site r t start k
      (s.move Memory.surroundings m) (s'.move Memory.surroundings m) := by
  cases m with
  | step v =>
    -- there is nobody who could go on where the request has not come
    have hnone : s.stage? v = none := by
      rw [stage?, h.tasks]
      exact new v within
    have blocked : s.step? Memory.surroundings.backend v = none := by simp [step?, hnone]
    rw [move_step_of_none blocked]
    cases hstep : s'.step? Memory.surroundings.backend v with
    | none =>
      rw [move_step_of_none hstep, stepsIn_step_of_none hstep]
      exact ⟨n, Nat.le_refl n, h⟩
    | some u =>
      have hv : v = t := by
        refine within.resolve_right ?_
        rintro rfl
        simp [step?, h.last] at hstep
      subst hv
      obtain ⟨rfl, h'⟩ := h.step unrouted hstep
      rw [move_step_of_some hstep, stepsIn_step_of_some hstep]
      exact ⟨0, Nat.le_refl 1, h'⟩
  | pass us =>
    exact ⟨n, Nat.le_refl n, h.untouched.outside .., h.tasks, congrArg (· + us) h.clock,
      h.backend, h.last, h.entry⟩
  | tend change =>
    refine ⟨n, Nat.le_refl n, h.untouched.outside .., h.tasks, h.clock, ?_, h.last, h.entry⟩
    show Memory.tend s'.clock s'.backend change = Memory.tend s.clock s.backend change
    rw [h.clock, h.backend]
  | arrange ready =>
    exact ⟨n, Nat.le_refl n, h.untouched.outside .., h.tasks, h.clock, h.backend, h.last, h.entry⟩
  | _ => exact within.elim

theorem run (h : Passing site r t start n s s') (unrouted : site.routes r = false)
    (new : ∀ v, v = t ∨ v = t + 1 → start.stage? v = none) {moves : List (Move MemoryChange)}
    (within : ∀ m ∈ moves, m.Within fun v => v = t ∨ v = t + 1) :
    ∃ k, k + stepsIn Memory.surroundings s' moves ≤ n ∧ Passing site r t start k
      (s.run Memory.surroundings moves) (s'.run Memory.surroundings moves) := by
  induction moves generalizing s s' n with
  | nil => exact ⟨n, Nat.le_refl n, h⟩
  | cons m rest ih =>
    obtain ⟨hm, within⟩ := List.forall_mem_cons.mp within
    obtain ⟨k, hk, h'⟩ := h.move unrouted new hm
    obtain ⟨i, hi, h''⟩ := ih h' within
    refine ⟨i, ?_, h''⟩
    rw [stepsIn_cons]
    omega

/-- As long as there is no answer the request can go on. -/
theorem exists_step (h : Passing site r t start n s s') (running : s'.isOver t = false) :
    (s'.step? Memory.backend t).isSome = true := by
  rcases h.entry with ⟨-, entry⟩ | ⟨time, entry⟩
  · simp [step?, stage?_of_get? entry]
  · rw [isOver, stage?_of_get? entry] at running
    cases running

theorem of_isOver (h : Passing site r t start n s s') (ended : s'.isOver t = true) :
    s'.outcomes t = [.ok (.response .notFound)] := by
  rcases h.entry with ⟨-, entry⟩ | ⟨time, entry⟩
  · rw [isOver, stage?_of_get? entry] at ended
    cases ended
  · exact outcomes_of_get? entry

theorem of_start (tidy : Tidy s) :
    Passing site r s.nextTask s 1 s (s.start [.serve (.ok site) r]).1 := by
  have hnext := (tidy.start [.serve (.ok site) r]).nextTask_not_mem
  exact ⟨by constructor <;> simp, rfl, by simp, by simp,
    stage?_eq_none_iff.mpr (by simpa using hnext), .inl ⟨rfl, get?_start_self s _⟩⟩

end Passing

end Limiter

/-! ## Visits -/

/-- A request, and what happens from its coming until the next one comes. -/
structure Visit where
  request : Request
  moves : List (Move MemoryChange)

namespace Visit

/-- The request comes to the site, and the rest follows. -/
def script (site : Site) (v : Visit) : List (Move MemoryChange) :=
  .start [.serve (.ok site) v.request] :: v.moves

/-- The request is served by itself: nobody goes on but its task and the one that has the call
counted, and the store works all the while. -/
structure Alone (site : Site) (s : Limiter Memory) (v : Visit) : Prop where
  within : ∀ m ∈ v.moves, m.Within fun t => t = s.nextTask ∨ t = s.nextTask + 1
  sound : ∀ before, before <+: v.moves →
    ((s.start [.serve (.ok site) v.request]).1.run Memory.surroundings before).Sound

end Visit

/-- Requests are served one after another, each by itself. The next one comes when the one before it
has been answered. -/
def InTurn (site : Site) : Limiter Memory → List Visit → Prop
  | _, [] => True
  | s, v :: rest =>
    v.Alone site s ∧
      (rest ≠ [] → (s.run Memory.surroundings (v.script site)).isOver s.nextTask = true) ∧
      InTurn site (s.run Memory.surroundings (v.script site)) rest

namespace Memory

section

variable (settings : PoolSettings) (moves : List (Move MemoryChange)) {site : Site} {v : Visit}

/-- A request that is limited comes to its end, and leaves the pool as usable as it was. -/
theorem charged_of_visit (routed : site.routes v.request = true)
    (isOpen : ((Limiter.fresh fresh settings).run surroundings moves).pool.closed = false)
    (free : 0 < ((Limiter.fresh fresh settings).run surroundings moves).pool.free)
    (alone : v.Alone site ((Limiter.fresh fresh settings).run surroundings moves)) :
    let s := (Limiter.fresh fresh settings).run surroundings moves
    let asked := (s.start [.serve (.ok site) v.request]).1
    let s' := asked.run surroundings v.moves
    asked.stepsIn surroundings v.moves ≤ s.pool.idle.length + 5 ∧
      (s'.isOver s.nextTask = false → ∃ us t, (t = s.nextTask ∨ t = s.nextTask + 1) ∧
        ((s'.pass us).step? backend t).isSome = true) ∧
      (s'.isOver s.nextTask = true → s'.pool.closed = false ∧ 0 < s'.pool.free ∧
        ∃ (count : Counted) (response : Response),
          count.IsFor (s.nextTask + 1) ((site.charge v.request).evaluation (site.limit v.request)) ∧
          Limiter.Charged count s s' ∧ s'.outcomes s.nextTask = [.ok (.response response)] ∧
          response.status =
            if (s.backend.store.counter? count.time count.key).getD 0 <
                (site.limit v.request).times
            then (if Response.isServed v.request.method then 200 else 405) else 429) := by
  intro s asked s'
  have balanced : Limiter.Balanced (max 1 settings.maxConnections) s :=
    Limiter.balanced_run surroundings fresh settings moves
  have hphase : Limiter.Phase s.nextTask (site.charge v.request) (site.limit v.request) s.counts
      (s.pool.idle.length + 5) asked := .of_start free (Site.charge?_serve routed)
  obtain ⟨spare, k, hk, hphase'⟩ := hphase.run (Limiter.Spare.escort s.nextTask s.pool.free)
    (.of_start balanced isOpen free _) alone.within alone.sound
  refine ⟨Nat.le_trans (Nat.le_add_left ..) hk, hphase'.exists_step, fun ended => ?_⟩
  obtain ⟨count, own, hcounts, houtcomes, -, hchild⟩ := hphase'.of_isOver ended
  have hrun : s' = s.run surroundings (v.script site) := rfl
  have counting : Limiter.Counting s := Limiter.Counting.invariant.run (.fresh settings) moves
  have counting' : Limiter.Counting s' := hrun ▸ Limiter.Counting.invariant.run counting _
  have later : Limiter.Later s s' :=
    hrun ▸ (Limiter.Later.invariant surroundings s).run (.refl balanced.tidy) (v.script site)
  have chronological : Limiter.Chronological s' :=
    hrun ▸ (Limiter.Chronological.invariant surroundings).run
      (Limiter.chronological_run surroundings fresh settings moves) _
  have notBefore := later.of_append hcounts count (List.mem_singleton_self _)
  have notAfter := chronological.past count (hcounts ▸ List.mem_append_right _ (by simp))
  refine ⟨spare.isOpen, ?_, count, _, own, counting.charged counting' hcounts notBefore notAfter,
    houtcomes, ?_⟩
  · have hpermits := spare.permits
    rw [Limiter.hand_of_isOver hchild] at hpermits
    exact Nat.lt_of_lt_of_eq free hpermits.symm
  · have hlimit : count.limit = (site.limit v.request).times := own.limit
    rw [Site.status_respond, counting.decision_concat counting' hcounts notBefore, hlimit]
    simp only [decide_eq_true_eq]

/-- A request for another path is answered, and that is all. -/
theorem untouched_of_visit (unrouted : site.routes v.request = false)
    (alone : v.Alone site ((Limiter.fresh fresh settings).run surroundings moves)) :
    let s := (Limiter.fresh fresh settings).run surroundings moves
    let asked := (s.start [.serve (.ok site) v.request]).1
    let s' := asked.run surroundings v.moves
    asked.stepsIn surroundings v.moves ≤ 1 ∧
      (s'.isOver s.nextTask = false → (s'.step? backend s.nextTask).isSome = true) ∧
      Limiter.Untouched s s' ∧ s'.backend = (s.run surroundings v.moves).backend ∧
      ((∀ change, .tend change ∉ v.moves) → s'.backend = s.backend) ∧
      (s'.isOver s.nextTask = true → s'.outcomes s.nextTask = [.ok (.response .notFound)]) := by
  intro s asked s'
  have tidy : Limiter.Tidy s :=
    (Limiter.Tidy.invariant surroundings).run (.fresh fresh settings) moves
  have passing : Limiter.Passing site v.request s.nextTask s 1 s asked := .of_start tidy
  have new : ∀ t, t = s.nextTask ∨ t = s.nextTask + 1 → s.stage? t = none := by
    rintro t (rfl | rfl) <;> refine Limiter.stage?_eq_none_iff.mpr fun hmem => ?_
    · exact tidy.nextTask_not_mem hmem
    · exact Nat.not_succ_lt_self (tidy.numbered _ hmem)
  obtain ⟨k, hk, h⟩ := passing.run unrouted new alone.within
  refine ⟨Nat.le_trans (Nat.le_add_left ..) hk, h.exists_step, h.untouched, h.backend,
    fun untended => ?_, h.of_isOver⟩
  exact h.backend.trans (Limiter.backend_of_still new alone.within untended)

end

/-- Whoever comes next finds an open pool with a free permit, and a state that a run leads to. -/
theorem reach_of_inTurn (settings : PoolSettings) (moves : List (Move MemoryChange)) {site : Site}
    (isOpen : ((Limiter.fresh fresh settings).run surroundings moves).pool.closed = false)
    (free : 0 < ((Limiter.fresh fresh settings).run surroundings moves).pool.free)
    {before after : List Visit} {v : Visit}
    (inTurn : InTurn site ((Limiter.fresh fresh settings).run surroundings moves)
      (before ++ v :: after)) :
    let s := (Limiter.fresh fresh settings).run surroundings
      (moves ++ before.flatMap (Visit.script site))
    s.pool.closed = false ∧ 0 < s.pool.free ∧ v.Alone site s := by
  induction before generalizing moves with
  | nil =>
    rw [List.flatMap_nil, List.append_nil]
    exact ⟨isOpen, free, inTurn.1⟩
  | cons u rest ih =>
    obtain ⟨alone, ended, inTurn⟩ := inTurn
    have ended := ended (by simp)
    rw [List.flatMap_cons, ← List.append_assoc]
    rw [← Limiter.run_append] at ended inTurn
    have usable : ((Limiter.fresh fresh settings).run surroundings
          (moves ++ u.script site)).pool.closed = false ∧
        0 < ((Limiter.fresh fresh settings).run surroundings
          (moves ++ u.script site)).pool.free := by
      rw [Limiter.run_append] at ended ⊢
      cases routed : site.routes u.request with
      | true =>
        obtain ⟨-, -, hover⟩ := charged_of_visit settings moves routed isOpen free alone
        obtain ⟨isOpen', free', -⟩ := hover ended
        exact ⟨isOpen', free'⟩
      | false =>
        obtain ⟨-, -, untouched, -⟩ := untouched_of_visit settings moves routed alone
        have hpool := untouched.pool
        exact ⟨(congrArg Pool.closed hpool).trans isOpen, (congrArg Pool.free hpool) ▸ free⟩
    exact ih (moves ++ u.script site) usable.1 usable.2 inTurn

/-- After any run, if the pool is open and a permit is free, requests come to the site one after
another, each by itself and over a store that works. Take any of them. As long as it has not been
answered its task, or the one that has the call counted, can go on, if need be after some time.

If the path is the route's, the request takes no more steps than this bound. Once it has been
answered, one call has been counted since it came, for this request, under the key of its caller and
the service of its method: the running counter of the key has gone up by one, or begins at one if
there was none, and no other counter has changed. That is so whether the response is the route's
own, which says that there is such a method or not, or refuses the request because the counter had
reached the limit before.

If the path is another one, the request takes one step at most and leaves no trace but its response,
which says that there is nothing: the store is what it would be if the request had not come, and
everything else is what it was. -/
theorem requests_charged (settings : PoolSettings) (moves : List (Move MemoryChange))
    {config : Settings} {site : Site} (mounted : Site.ofSettings config = .ok site)
    (isOpen : ((Limiter.fresh fresh settings).run surroundings moves).pool.closed = false)
    (free : 0 < ((Limiter.fresh fresh settings).run surroundings moves).pool.free)
    {before after : List Visit} {v : Visit}
    (inTurn : InTurn site ((Limiter.fresh fresh settings).run surroundings moves)
      (before ++ v :: after)) :
    let s := ((Limiter.fresh fresh settings).run surroundings moves).run surroundings
      (before.flatMap (Visit.script site))
    let asked := (s.start [.serve (.ok site) v.request]).1
    let s' := asked.run surroundings v.moves
    let key := counterKey (v.request.identity config.limits.trustProxyHeaders)
      (if Policy.isReading v.request.method then "status_read" else "status_write")
    let limit := site.limit v.request
    (s'.isOver s.nextTask = false → ∃ us t, (t = s.nextTask ∨ t = s.nextTask + 1) ∧
        ((s'.pass us).step? backend t).isSome = true) ∧
      (site.routes v.request = true →
        asked.stepsIn surroundings v.moves ≤ s.pool.idle.length + 5 ∧
        (s'.isOver s.nextTask = true → ∃ (count : Counted) (response : Response),
          count.IsFor (s.nextTask + 1) ⟨key, limit.times, limit.windowMs⟩ ∧
          Limiter.Charged count s s' ∧ s'.outcomes s.nextTask = [.ok (.response response)] ∧
          response.status =
            if (s.backend.store.counter? count.time key).getD 0 < limit.times
            then (if Response.isServed v.request.method then 200 else 405) else 429)) ∧
      (site.routes v.request = false →
        asked.stepsIn surroundings v.moves ≤ 1 ∧ Limiter.Untouched s s' ∧
        s'.backend = (s.run surroundings v.moves).backend ∧
        ((∀ change, .tend change ∉ v.moves) → s'.backend = s.backend) ∧
        (s'.isOver s.nextTask = true →
          s'.outcomes s.nextTask = [.ok (.response .notFound)] ∧
            Response.notFound.status = 404)) := by
  intro s asked s' key limit
  have hs : s = (Limiter.fresh fresh settings).run surroundings
      (moves ++ before.flatMap (Visit.script site)) := (Limiter.run_append ..).symm
  obtain ⟨isOpen', free', alone⟩ := reach_of_inTurn settings moves isOpen free inTurn
  have hkey : ((site.charge v.request).evaluation limit).key = key :=
    Site.key_of_ofSettings mounted v.request
  cases routed : site.routes v.request with
  | true =>
    obtain ⟨hsteps, hgo, hover⟩ := charged_of_visit settings _ routed isOpen' free' alone
    rw [← hs] at hsteps hgo hover
    refine ⟨hgo, fun _ => ⟨hsteps, fun ended => ?_⟩, nofun⟩
    obtain ⟨-, -, count, response, own, charged, houtcomes, hstatus⟩ := hover ended
    rw [show count.key = key from own.key.trans hkey] at hstatus
    exact ⟨count, response, ⟨own.task, own.key.trans hkey, own.limit, own.windowMs⟩, charged,
      houtcomes, hstatus⟩
  | false =>
    obtain ⟨hsteps, hgo, untouched, hbackend, hstill, hover⟩ :=
      untouched_of_visit settings _ routed alone
    rw [← hs] at hsteps hgo untouched hbackend hstill hover
    refine ⟨fun running => ⟨0, s.nextTask, .inl rfl, hgo running⟩, nofun, fun _ => ?_⟩
    exact ⟨hsteps, untouched, hbackend, hstill, fun ended => ⟨hover ended, rfl⟩⟩

/-- A visit during which the store is sound at every point. -/
theorem alone_of_inits {site : Site} {s : Limiter Memory} {v : Visit}
    (within : ∀ m ∈ v.moves, m.Within fun t => t = s.nextTask ∨ t = s.nextTask + 1)
    (sound : ∀ before ∈ v.moves.inits,
      ((s.start [.serve (.ok site) v.request]).1.run surroundings before).Sound) :
    v.Alone site s where
  within := within
  sound := Limiter.sound_of_inits sound

theorem mounted_strictSite : Site.ofSettings strictSettings = .ok strictSite := by
  decide +kernel

/-- Somebody asks for the status. -/
def asking : Visit := ⟨statusRequest "GET", [.step 0, .step 1, .step 1, .step 1, .step 0]⟩

/-- Then somebody asks for a page that there is not. -/
def straying : Visit :=
  ⟨{ statusRequest "GET" with target := "/api/rate-limit" }, [.step 2, .pass 1500000]⟩

/-- Then somebody asks for the status by a method that the route does not have. -/
def posting : Visit := ⟨statusRequest "POST", [.step 3, .step 4, .step 4, .step 3]⟩

/-- Of three requests the third is counted although the route does not have the method, and the
second is not. -/
theorem requests_charged_threeVisits :
    let start := (Limiter.fresh fresh .standard).run surroundings []
    let s := start.run surroundings ([asking].flatMap (Visit.script strictSite))
    let s' := (s.start [.serve (.ok strictSite) straying.request]).1.run surroundings straying.moves
    let u := start.run surroundings ([asking, straying].flatMap (Visit.script strictSite))
    let u' := (u.start [.serve (.ok strictSite) posting.request]).1.run surroundings posting.moves
    (Site.ofSettings strictSettings = .ok strictSite ∧ start.pool.closed = false ∧
      0 < start.pool.free ∧ InTurn strictSite start [asking, straying, posting]) ∧
      (Limiter.Untouched s s' ∧ s'.outcomes s.nextTask = [.ok (.response .notFound)]) ∧
      ∃ (count : Counted) (response : Response), count.key = "rl:ip:unknown:status_write" ∧
        Limiter.Charged count u u' ∧ u'.outcomes u.nextTask = [.ok (.response response)] ∧
        response.status = 405 := by
  intro start s s' u u'
  have isOpen : start.pool.closed = false := rfl
  have free : 0 < start.pool.free := by decide
  have inTurn : InTurn strictSite start [asking, straying, posting] :=
    ⟨alone_of_inits (by decide +kernel) (by decide +kernel), fun _ => by decide +kernel,
      alone_of_inits (by decide +kernel) (by decide +kernel), fun _ => by decide +kernel,
      alone_of_inits (by decide +kernel) (by decide +kernel), fun h => absurd rfl h, trivial⟩
  have second : InTurn strictSite start ([asking] ++ straying :: [posting]) := inTurn
  have third : InTurn strictSite start ([asking, straying] ++ posting :: []) := inTurn
  refine ⟨⟨mounted_strictSite, isOpen, free, inTurn⟩, ?_, ?_⟩
  · obtain ⟨-, -, passed⟩ := requests_charged .standard [] mounted_strictSite isOpen free second
    obtain ⟨-, untouched, -, -, answered⟩ := passed (by decide +kernel)
    exact ⟨untouched, (answered (by decide +kernel)).1⟩
  · obtain ⟨-, counted, -⟩ := requests_charged .standard [] mounted_strictSite isOpen free third
    obtain ⟨-, answered⟩ := counted (by decide +kernel)
    obtain ⟨count, response, own, charged, houtcomes, hstatus⟩ := answered (by decide +kernel)
    -- nobody has written before
    have hcounts : u'.counts =
        u.counts ++ [⟨4, "rl:ip:unknown:status_write", 1, 60000, 1500000, 0⟩] := by
      decide +kernel
    obtain rfl := List.singleton_inj.mp
      (List.append_cancel_left (charged.counts.symm.trans hcounts))
    exact ⟨_, response, rfl, charged, houtcomes, hstatus.trans (by decide +kernel)⟩

/-- A request finds the pool closed although all permits are free. It is answered by the route
itself, and it has not been counted. -/
theorem answered_uncharged :
    let shut := (Limiter.fresh fresh .standard).run surroundings [.close]
    let s := (shut.start [.serve (.ok strictSite) (statusRequest "GET")]).1.run surroundings
      [.step 0, .step 1, .step 0]
    strictSite.routes (statusRequest "GET") = true ∧ 0 < shut.pool.free ∧ shut.Sound ∧
      s.outcomes 0 = [.ok (.response (Site.own (statusRequest "GET") s.status))] ∧
      s.counts = [] ∧ s.backend.store.counter? s.clock "rl:ip:unknown:status_read" = none := by
  decide +kernel

end Memory

end Turnstile
