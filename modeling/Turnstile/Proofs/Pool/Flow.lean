import Turnstile.Proofs.Pool.Places

/-!
# Connections on their way

What a task that is under way can reach is what it has in hand, what rests and what is kept under
names. `Flow h t s s'` says that from a limiter `s`, with `h` in hand, task `t` comes to a limiter
`s'` without losing any of it, except for a connection that it puts another one in the place of and
that the pool refuses to take back. Each function that a step is made of has its lemma here.

A pool that keeps no connections has a simpler course: nothing comes to rest in it, so nothing is
ever pinged.
-/

namespace Turnstile

/-- The lease once it has been tried whether the connection works. -/
def Lease.tried (l : Lease) (ok : Bool) : Lease := { l with broken := l.broken || !ok }

theorem Lease.tried_true (l : Lease) : l.tried true = l := by simp [tried]

theorem Lease.tried_false (l : Lease) : l.tried false = { l with broken := true } := by
  simp [tried]

namespace Limiter

variable {σ : Type} {B : Backend σ} {s s' u : Limiter σ} {t : TaskId} {h : Hand}

/-- Whether the pool drops a connection that is given back to it. -/
def refuses (s : Limiter σ) (l : Lease) : Bool :=
  l.broken || !s.settings.keepalive || s.pool.closed

/-- What is in hand once a lease has been given back, as far as it matters: the pool keeps the
connection, or it is gone. -/
def left (s : Limiter σ) (l : Lease) : Hand :=
  if s.refuses l then .nothing else .lease l

/-- A name that stood for the lease stands for another one. -/
def Displaced (s s' : Limiter σ) (l : Lease) : Prop :=
  ∃ name, Table.get? s.held name = some l ∧ Table.get? s'.held name ≠ some l

/-- A name that stood for the connection stands for another one, and the pool has refused it. -/
def Ousted (s s' : Limiter σ) (c : ConnId) : Prop :=
  ∃ l, Displaced s s' l ∧ s.refuses l = true ∧ l.conn = c

/-- How often a number has a place that a task with `h` in hand can reach. -/
def reach (s : Limiter σ) (h : Hand) (c : ConnId) : Nat :=
  h.conns.count c + s.resting c + s.kept c

/-- From a limiter with `h` in hand it has come to another one with `h'` in hand: what could be
reached still can, but for what was ousted. -/
structure Moved (h : Hand) (s : Limiter σ) (h' : Hand) (s' : Limiter σ) : Prop where
  stays : ∀ c, ¬Ousted s s' c → s'.reach h' c = s.reach h c
  goes : ∀ c, Ousted s s' c → s'.reach h' c = 0
  /-- In a pool that keeps no connections nothing comes to rest or is pinged. -/
  calm : s.settings.keepalive = false → s.pool.idle = [] → h.probe? = none →
    s'.pool.idle = [] ∧ h'.probe? = none

/-- Task `t` goes on with `h` in hand from one limiter until it halts in another. -/
def Flow (h : Hand) (t : TaskId) (s s' : Limiter σ) : Prop :=
  t ∈ Table.keys s.tasks → (∀ c, s.reach h c ≤ 1) → Moved h s (s'.hand t) s'

/-! ## What touches no connection -/

/-- A connection that the pool refuses is gone when it is given back. -/
theorem giveBack_of_refused {l : Lease} (refused : s.refuses l = true) :
    s.giveBack l = s.freePermit := by
  have hback : s.pool.takeBack s.settings.keepalive l = s.pool := by
    unfold Pool.takeBack
    split
    · rfl
    · rename_i hkeep
      refine Pool.rest_of_closed ?_ _
      simpa [refuses, Bool.eq_false_iff.mpr hkeep] using refused
  rw [giveBack, hback]

namespace Still

theorem of_eq (idle : s'.pool.idle = s.pool.idle) (closed : s'.pool.closed = s.pool.closed)
    (settings : s'.settings = s.settings) (held : s'.held = s.held)
    (nextConn : s'.nextConn = s.nextConn) (tasks : s'.tasks = s.tasks) : Still s s' :=
  ⟨idle, closed, settings, held, nextConn ▸ Nat.le_refl _, fun _ h => tasks ▸ h⟩

theorem trans (first : Still s u) (second : Still u s') : Still s s' where
  idle := second.idle.trans first.idle
  closed := second.closed.trans first.closed
  settings := second.settings.trans first.settings
  held := second.held.trans first.held
  nextConn := Nat.le_trans first.nextConn second.nextConn
  keys := fun _ h => second.keys (first.keys h)

theorem reach (still : Still s u) (h : Hand) (c : ConnId) : u.reach h c = s.reach h c := by
  simp only [Limiter.reach, resting, kept, still.idle, still.held]

theorem refuses (still : Still s u) (l : Lease) : u.refuses l = s.refuses l := by
  simp only [Limiter.refuses, still.settings, still.closed]

theorem left (still : Still s u) (l : Lease) : u.left l = s.left l := by
  simp only [Limiter.left, still.refuses]

theorem ousted (still : Still s u) (c : ConnId) : Ousted u s' c ↔ Ousted s s' c := by
  simp only [Ousted, Displaced, still.held, still.refuses]

theorem startCall (s : Limiter σ) (conn : ConnId) (command : Command) (patience : Option Nat) :
    Still s (s.startCall B conn command patience).1 := by
  constructor <;> simp

theorem start (s : Limiter σ) (jobs : List Job) : Still s (s.start jobs).1 where
  idle := by simp
  closed := by simp
  settings := by simp
  held := by simp
  nextConn := by simp
  keys _ ht := by simp [ht]

/-- A connection that the pool refuses changes nothing when it is given back. -/
theorem giveBack {l : Lease} (refused : s.refuses l = true) : Still s (s.giveBack l) := by
  rw [giveBack_of_refused refused]
  exact still_freePermit s

end Still

/-- A connection that the pool does not refuse comes to rest when it is given back. -/
theorem giveBack_of_kept {l : Lease} (kept : s.refuses l = false) :
    s.giveBack l = ({ s with pool := { s.pool with
      idle := s.pool.idle ++ [⟨l.conn, l.checkedAt⟩] } } : Limiter σ).freePermit := by
  simp only [refuses, Bool.or_eq_false_iff] at kept
  obtain ⟨⟨sound, keepalive⟩, isOpen⟩ := kept
  simp [giveBack, Pool.takeBack, sound, keepalive, Pool.rest_of_open isOpen]

theorem resting_giveBack {l : Lease} (kept : s.refuses l = false) (c : ConnId) :
    (s.giveBack l).resting c = s.resting c + [l.conn].count c := by
  rw [giveBack_of_kept kept, resting, (still_freePermit _).idle]
  simp [resting]

/-- Nothing is ousted while the names stand for what they stood for. -/
theorem not_ousted (held : s'.held = s.held) (c : ConnId) : ¬Ousted s s' c := by
  rintro ⟨l, ⟨name, had, has⟩, -⟩
  rw [held] at has
  exact has had

/-! ## Ways on -/

/-- Ends the job with nothing in hand. -/
theorem Moved.settle (moved : Moved h s .nothing s') (ht : t ∈ Table.keys s'.tasks)
    (outcome : Outcome) :
    Moved h s ((s'.settle t outcome).hand t) (s'.settle t outcome) := by
  obtain ⟨task, hget⟩ := Option.isSome_iff_exists.mp (Table.get?_isSome_iff.mpr ht)
  obtain ⟨ready, heq⟩ := settle_eq hget outcome
  rw [hand_settle_self, heq]
  exact ⟨moved.stays, moved.goes, moved.calm⟩

namespace Flow

theorem after (still : Still s u) (rest : Flow h t u s') : Flow h t s s' := by
  intro ht once
  have moved := rest (still.keys ht) fun c => still.reach h c ▸ once c
  refine ⟨fun c hc => ?_, fun c hc => ?_, fun off idle unprobed => ?_⟩
  · rw [← still.reach h c]
    exact moved.stays c fun hu => hc ((still.ousted c).mp hu)
  · exact moved.goes c ((still.ousted c).mpr hc)
  · exact moved.calm (still.settings ▸ off) (still.idle.trans idle) unprobed

/-- Only the connections in hand matter, and whether one of them has to be pinged. -/
theorem of_conns {h' : Hand} (flow : Flow h t s s') (conns : h'.conns = h.conns)
    (probes : h'.probe? = none → h.probe? = none) : Flow h' t s s' := by
  have heq : ∀ c, s.reach h' c = s.reach h c := fun c => by simp only [reach, conns]
  intro ht once
  have moved := flow ht fun c => heq c ▸ once c
  exact ⟨fun c hc => (moved.stays c hc).trans (heq c).symm, moved.goes,
    fun off idle unprobed => moved.calm off idle (probes unprobed)⟩

/-- Halts at a stage that holds what is in hand. -/
theorem park (stage : Stage) : Flow stage.hand t s (s.setStage t stage) := by
  intro ht _
  rw [hand_setStage_self ht stage]
  exact ⟨fun _ _ => rfl, fun c hc => absurd hc (not_ousted rfl c),
    fun _ idle probe => ⟨idle, probe⟩⟩

theorem settle (outcome : Outcome) : Flow .nothing t s (s.settle t outcome) := fun ht _ =>
  Moved.settle ⟨fun _ _ => rfl, fun c hc => absurd hc (not_ousted rfl c),
    fun _ idle probe => ⟨idle, probe⟩⟩ ht outcome

theorem fail (f : Fault) : Flow .nothing t s (s.fail t f) := settle _

/-- Halts with a request that has just been made. -/
theorem call (conn : ConnId) (command : Command) (patience : Option Nat) (stage : Call → Stage)
    (fits : ∀ call, call.conn = conn → (stage call).hand = h) :
    Flow h t s ((s.startCall B conn command patience).1.setStage t
      (stage (s.startCall B conn command patience).2)) := by
  refine after (.startCall (B := B) s conn command patience) ?_
  rw [← fits _ (conn_startCall conn command patience)]
  exact park _

/-- Takes the resting connection in front. -/
theorem pop {i : Idle} {rest : List Idle} (front : s.pool.idle = i :: rest)
    (conns : h.conns = [i.conn])
    (flow : Flow h t { s with pool := { s.pool with idle := rest } } s') :
    Flow .nothing t s s' := by
  have heq : ∀ c, ({ s with pool := { s.pool with idle := rest } } : Limiter σ).reach h c =
      s.reach .nothing c := fun c => by
    have hrest := resting_cons front c
    have hnone : Hand.conns .nothing = [] := rfl
    simp only [reach, conns, hnone, List.count_nil, resting, kept] at hrest ⊢
    omega
  intro ht once
  have moved := flow ht fun c => heq c ▸ once c
  exact ⟨fun c hc => (moved.stays c hc).trans (heq c), moved.goes,
    fun _ idle _ => absurd (front.symm.trans idle) (by simp)⟩

/-- Lays a connection to rest. -/
theorem layToRest {i : Idle} (conns : h.conns = [i.conn])
    (keeps : h.probe? = none → s.settings.keepalive = true)
    (flow : Flow .nothing t { s with pool := { s.pool with idle := s.pool.idle ++ [i] } } s') :
    Flow h t s s' := by
  have heq : ∀ c, ({ s with pool := { s.pool with idle := s.pool.idle ++ [i] } } :
      Limiter σ).reach .nothing c = s.reach h c := fun c => by
    have hnone : Hand.conns .nothing = [] := rfl
    simp only [reach, conns, hnone, List.count_nil, resting, kept, List.map_append,
      List.count_append, List.map_cons, List.map_nil]
    omega
  intro ht once
  have moved := flow ht fun c => heq c ▸ once c
  refine ⟨fun c hc => (moved.stays c hc).trans (heq c), moved.goes, fun off _ unprobed => ?_⟩
  simp [keeps unprobed] at off

/-- Gives a connection back. -/
theorem giveBack (l : Lease) (rest : Flow .nothing t (s.giveBack l) s') :
    Flow (s.left l) t s s' := by
  unfold Limiter.left
  split
  · exact after (.giveBack ‹_›) rest
  · rename_i kept
    have kept := Bool.eq_false_iff.mpr kept
    rw [giveBack_of_kept kept] at rest
    refine layToRest (i := ⟨l.conn, l.checkedAt⟩) rfl (fun _ => ?_)
      (after (still_freePermit _) rest)
    simp only [refuses, Bool.or_eq_false_iff, Bool.not_eq_false'] at kept
    exact kept.1.2

/-! ## Getting a connection -/

/-- Keeps a connection under a new name. -/
theorem keep_new {name : String} (new : Table.get? s.held name = none) (l : Lease) :
    Moved (.lease l) s .nothing { s with held := Table.put s.held name l } := by
  have hreach : ∀ c, ({ s with held := Table.put s.held name l } : Limiter σ).reach .nothing c =
      s.reach (.lease l) c := fun c => by
    have hput := kept_put_new new l c
    simp only [reach, resting, Hand.conns, List.count_nil] at hput ⊢
    omega
  have kept : ∀ c, ¬Ousted s ({ s with held := Table.put s.held name l } : Limiter σ) c := by
    rintro c ⟨old, ⟨other, had, has⟩, -⟩
    have hne : other ≠ name := by
      rintro rfl
      simp [had] at new
    exact has (by simpa [hne] using had)
  exact ⟨fun c _ => hreach c, fun c hc => absurd hc (kept c), fun _ idle _ => ⟨idle, rfl⟩⟩

/-- The connection that had the name is the only one that is displaced. -/
theorem displaced_put {name : String} {old l : Lease} (had : Table.get? s.held name = some old)
    (other : old ≠ l) (held : s'.held = Table.put s.held name l) (lease : Lease) :
    Displaced s s' lease ↔ lease = old := by
  constructor
  · rintro ⟨name', hget, has⟩
    rw [held] at has
    by_cases hname : name' = name
    · rw [hname, had] at hget
      exact (Option.some.inj hget).symm
    · exact absurd (by simpa [hname] using hget) has
  · rintro rfl
    exact ⟨name, had, by simpa [held] using other.symm⟩

/-- Keeps a connection under a name that another one had, which goes back to the pool. -/
theorem keep_old {name : String} {old : Lease} (had : Table.get? s.held name = some old)
    (l : Lease) (once : ∀ c, s.reach (.lease l) c ≤ 1) :
    Moved (.lease l) s .nothing
      (({ s with held := Table.put s.held name l } : Limiter σ).giveBack old) := by
  have honce : ∀ c, [l.conn].count c + s.resting c + s.kept c ≤ 1 := once
  have hle : ∀ c, [old.conn].count c ≤ s.kept c :=
    fun c => Table.le_sum_of_get? had fun l => [l.conn].count c
  -- a connection under a name is not in hand as well
  have other : old ≠ l := by
    rintro rfl
    have h := honce old.conn
    have hc := hle old.conn
    simp only [List.count_singleton_self] at h hc
    omega
  have hput := fun c => kept_put_old had l c
  generalize hv : ({ s with held := Table.put s.held name l } : Limiter σ) = v at hput ⊢
  have hheld : v.held = Table.put s.held name l := by rw [← hv]
  have hrefuses : v.refuses old = s.refuses old := by rw [← hv]; rfl
  have hidle : v.pool.idle = s.pool.idle := by rw [← hv]
  have hreach : ∀ c, v.reach .nothing c + [old.conn].count c = s.reach (.lease l) c := fun c => by
    have hc := hput c
    simp only [reach, resting, hidle, Hand.conns, List.count_nil] at hc ⊢
    omega
  have hback : (v.giveBack old).held = Table.put s.held name l := by simp [hheld]
  have hdisplaced := displaced_put had other hback
  have housted : ∀ c, Ousted s (v.giveBack old) c ↔ s.refuses old = true ∧ old.conn = c := by
    intro c
    simp only [Ousted, hdisplaced, exists_eq_left]
  cases refused : s.refuses old with
  | true =>
    have still : Still v (v.giveBack old) := .giveBack (hrefuses.trans refused)
    refine ⟨fun c hc => ?_, fun c hc => ?_, fun _ idle _ => ⟨?_, rfl⟩⟩
    · rw [housted] at hc
      have hne : old.conn ≠ c := fun h => hc ⟨refused, h⟩
      have hcount := hreach c
      simp only [List.count_singleton, beq_iff_eq, hne, if_false] at hcount
      rw [still.reach]
      exact hcount
    · obtain ⟨-, rfl⟩ := (housted c).mp hc
      have hcount := hreach old.conn
      have hone := once old.conn
      simp only [List.count_singleton_self] at hcount
      rw [still.reach]
      omega
    · exact still.idle.trans (hidle.trans idle)
  | false =>
    have kept : v.refuses old = false := hrefuses.trans refused
    refine ⟨fun c _ => ?_, fun c hc => ?_, fun off _ _ => ?_⟩
    · have hcount := hreach c
      simp only [reach, Limiter.kept, resting_giveBack kept, giveBack_frame] at hcount ⊢
      omega
    · simp [((housted c).mp hc).1] at refused
    · simp [refuses, off] at refused

/-- Keeps a connection under a name. -/
theorem keep (name : String) (l : Lease) : Flow (.lease l) t s (s.employ B t (.keep name) l) := by
  intro ht once
  cases hold : Table.get? s.held name with
  | none =>
    simp only [Limiter.employ, hold]
    have moved := keep_new hold l
    exact moved.settle ht _
  | some old =>
    simp only [Limiter.employ, hold]
    refine (keep_old hold l once).settle ?_ _
    rw [keys_giveBack]
    exact ht

theorem employ (goal : Goal) (l : Lease) : Flow (.lease l) t s (s.employ B t goal l) := by
  cases goal with
  | evaluate e attempt =>
    exact call l.conn (.count e.key e.limit e.windowMs) (some s.settings.commandTimeout)
      (.evaluating e attempt l) fun _ _ => rfl
  | verify => exact call l.conn .ping (some s.settings.connectTimeout) (.verifying l) fun _ _ => rfl
  | borrow holdMs broken =>
    exact after (u := (s.setTimer holdMs).1) (.of_eq rfl rfl rfl rfl rfl rfl)
      (park (.holding l broken _ _))
  | keep name => exact keep name l

theorem openFor (goal : Goal) : Flow .nothing t s (s.openFor B t goal) := by
  have flow : Flow (.opening s.nextConn) t s (s.openFor B t goal) :=
    after (u := { s with nextConn := s.nextConn + 1 })
      ⟨rfl, rfl, rfl, rfl, Nat.le_succ _, fun _ h => h⟩
      (call s.nextConn .connect (some s.settings.connectTimeout) (.opening goal)
        fun _ hc => congrArg Hand.opening hc)
  exact flow.of_conns rfl fun _ => rfl

theorem choose (goal : Goal) : Flow .nothing t s (s.choose B t goal) := by
  cases front : s.pool.idle with
  | nil =>
    simp only [Limiter.choose, front]
    exact openFor goal
  | cons i rest =>
    simp only [Limiter.choose, front]
    split
    · exact pop (h := .lease ⟨i.conn, i.checkedAt, false⟩) front rfl (employ goal _)
    · exact pop (h := .probe i.conn) front rfl
        (call i.conn .ping (some s.settings.connectTimeout) (.probing goal)
          fun _ hc => congrArg Hand.probe hc)

theorem want (goal : Goal) : Flow .nothing t s (s.want B t goal) := by
  have take : Still s { s with pool := { s.pool with free := s.pool.free - 1 } } :=
    .of_eq rfl rfl rfl rfl rfl rfl
  have queue : Still s { (s.setTimer s.settings.connectTimeout).1 with
      pool := s.pool.enqueue t } := .of_eq rfl rfl rfl rfl rfl rfl
  unfold Limiter.want
  split
  · exact fail _
  · split
    · exact after take (choose goal)
    · simp only
      split
      · exact after (u := (s.setTimer s.settings.connectTimeout).1)
          (.of_eq rfl rfl rfl rfl rfl rfl) (fail _)
      · exact after queue ((park (.queued goal _)).of_conns rfl fun _ => rfl)

theorem openFailed (f : Fault) : Flow .nothing t s (s.openFailed t f) :=
  after ((Still.of_eq rfl rfl rfl rfl rfl rfl :
    Still s (s.raise f.message).1).trans (still_freePermit _)) (fail f)

theorem openDone (goal : Goal) (conn : ConnId) :
    Flow (.lease ⟨conn, s.clock, false⟩) t s (s.openDone B t goal conn) := by
  have clear : Still s s.clear.1 := .of_eq rfl rfl rfl rfl rfl rfl
  have hclock : s.clear.1.clock = s.clock := rfl
  exact after clear (hclock ▸ employ goal _)

theorem evict (goal : Goal) : Flow .nothing t s (s.evict B t goal) :=
  after (u := s.emit .evicted) (.of_eq rfl rfl rfl rfl rfl rfl) (choose goal)

/-! ## Using a connection -/

/-- A connection on which something has failed is gone. -/
theorem giveBackBroken (l : Lease)
    (rest : Flow .nothing t (s.giveBack { l with broken := true }) s') :
    Flow (s.left (l.tried false)) t s s' := by
  rw [l.tried_false]
  exact giveBack _ rest

theorem counted (e : Evaluation) (attempt : Nat) (l : Lease) (reply : Reply) :
    Flow (s.left (l.tried reply.isOk)) t s (s.counted B t e attempt l reply) := by
  generalize hv : ((s.tally .commands).tally .durations).emit (.commanded t l.conn reply) = v
  have still : Still s v := by
    rw [← hv]
    exact .of_eq rfl rfl rfl rfl rfl rfl
  rw [← still.left]
  refine after still ?_
  cases reply with
  | ok ms =>
    have htried : l.tried (Except.isOk (.ok ms : Reply)) = l := l.tried_true
    simp only [Limiter.counted, hv, htried]
    exact giveBack l (settle _)
  | error f =>
    simp only [Limiter.counted, hv]
    split
    · exact after (u := v.emit (.retrying e.key)) (.of_eq rfl rfl rfl rfl rfl rfl)
        (giveBackBroken l (want _))
    · exact giveBackBroken l (fail f)

theorem verified (l : Lease) (reply : Reply) :
    Flow (s.left (l.tried reply.isOk)) t s (s.verified t l reply) := by
  cases reply with
  | ok ms =>
    have htried : l.tried (Except.isOk (.ok ms : Reply)) = l := l.tried_true
    rw [htried]
    exact giveBack l (settle _)
  | error f => exact giveBackBroken l (fail f)

/-! ## Deciding -/

theorem decide (child : TaskId) (c : Charge) (outcome : Except Fault Verdict) :
    Flow .nothing t s ((s.decideOn t child c outcome).1.settle t
      (.ok ((s.decideOn t child c outcome).1.tell c (s.decideOn t child c outcome).2))) := by
  have still : Still s (s.decideOn t child c outcome).1 := by
    cases outcome with
    | ok v => cases v <;> exact .of_eq rfl rfl rfl rfl rfl rfl
    | error f => exact .of_eq rfl rfl rfl rfl rfl rfl
  exact after still (settle _)

theorem charge (c : Charge) (limit : Limit) : Flow .nothing t s (s.charge t c limit) :=
  after (.start s _) (park (.awaiting c _))

/-! ## Sweeping -/

theorem restUntil (deadline : Time) : Flow .nothing t s (s.restUntil t deadline) :=
  after (u := (s.setTimerTo deadline).1) (.of_eq rfl rfl rfl rfl rfl rfl)
    (park (.resting deadline _))

theorem endSweep (sweep : Sweep) : Flow .nothing t s (s.endSweep t sweep) := by
  unfold Limiter.endSweep
  split
  · exact after (u := s.emit (.sweepEvicted sweep.failed sweep.total))
      (.of_eq rfl rfl rfl rfl rfl rfl) (restUntil _)
  · exact restUntil _

theorem sweepOn (sweep : Sweep) : Flow .nothing t s (s.sweepOn B t sweep) := by
  cases front : s.pool.idle with
  | nil =>
    simp only [Limiter.sweepOn, front]
    exact endSweep sweep
  | cons i rest =>
    simp only [Limiter.sweepOn, front]
    split
    · exact endSweep sweep
    · refine pop (h := .probe i.conn) front rfl ?_
      exact after (u := { s with pool := { s.pool with idle := rest, free := s.pool.free - 1 } })
        (.of_eq rfl rfl rfl rfl rfl rfl)
        (call i.conn .ping (some s.settings.connectTimeout)
          (.sweeping { sweep with left := sweep.left - 1 })
          fun _ hc => congrArg Hand.probe hc)

/-- A connection that has answered the ping of a sweep goes to rest again. -/
theorem swept_ok (sweep : Sweep) (call : Call) (isOpen : s.pool.closed = false) :
    Flow (.probe call.conn) t s (s.swept B t sweep call true) := by
  have heq : s.swept B t sweep call true = ({ s with pool := { s.pool with
      idle := s.pool.idle ++ [⟨call.conn, s.clock⟩] } } : Limiter σ).freePermit.sweepOn B t
        sweep := by
    simp only [Limiter.swept, Pool.rest_of_open isOpen, if_true]
  rw [heq]
  exact layToRest (i := ⟨call.conn, s.clock⟩) rfl (fun h => nomatch h)
    (after (still_freePermit _) (sweepOn sweep))

/-- A closed pool does not take it. -/
theorem swept_closed (sweep : Sweep) (call : Call) (closed : s.pool.closed = true) :
    Flow .nothing t s (s.swept B t sweep call true) := by
  have heq : s.swept B t sweep call true = s.freePermit.sweepOn B t sweep := by
    simp only [Limiter.swept, Pool.rest_of_closed closed, if_true]
  rw [heq]
  exact after (still_freePermit s) (sweepOn sweep)

theorem swept_failed (sweep : Sweep) (call : Call) :
    Flow .nothing t s (s.swept B t sweep call false) :=
  after (still_freePermit s) (sweepOn _)

theorem beginSweep (deadline : Time) : Flow .nothing t s (s.beginSweep B t deadline) := by
  unfold Limiter.beginSweep
  split
  · exact after (u := s.emit .checkerStopped) (.of_eq rfl rfl rfl rfl rfl rfl) (settle _)
  · exact sweepOn _

/-! ## Jobs -/

theorem begin (job : Job) : Flow .nothing t s (s.begin B t job) := by
  cases job with
  | check identity service numbers =>
    cases numbers with
    | none => exact charge _ _
    | some n =>
      obtain ⟨times, seconds⟩ := n
      simp only [Limiter.begin]
      split
      · exact settle _
      · exact charge _ _
  | serve site r =>
    cases site with
    | error e => exact settle _
    | ok site =>
      simp only [Limiter.begin]
      split
      · exact charge _ _
      · exact settle _
  | evaluate e => exact want _
  | verify => exact want _
  | borrow holdMs broken => exact want _
  | keep name => exact want _
  | sleep ms =>
    exact after (u := (s.setTimer ms).1) (.of_eq rfl rfl rfl rfl rfl rfl) (park (.sleeping _))
  | connect =>
    exact after (u := { s with nextConn := s.nextConn + 1 })
      ⟨rfl, rfl, rfl, rfl, Nat.le_succ _, fun _ h => h⟩
      (call s.nextConn .connect none .calling fun _ _ => rfl)
  | request conn command => exact call conn command none .calling fun _ _ => rfl
  | join task => exact park (.joining task)
  | guard =>
    simp only [Limiter.begin]
    split
    · exact restUntil _
    · exact settle _

end Flow

end Limiter

end Turnstile
