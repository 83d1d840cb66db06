import Turnstile.Proofs.Pool.Books

/-!
# Permits and connections

The two things that a pool promises. It never has more connections than it has permits, whatever its
borrowers and its store do (`connections_le_capacity`). And no permit is lost or made
(`permits_conserved`): those that are free and those in hand are always as many as at first, nobody
waits in an open pool while one is free, and once all tasks are over and nothing is kept every
permit is free again.
-/

namespace Turnstile

/-- Whether a task at this stage opens a connection for the pool. -/
def Stage.isOpening : Stage → Bool
  | .opening .. => true
  | _ => false

theorem Stage.connections_hand (stage : Stage) :
    stage.hand.connections = stage.conns.length + (if stage.isOpening then 1 else 0) := by
  cases stage <;> rfl

namespace Limiter

variable {σ ε : Type} {s s' : Limiter σ} {t : TaskId} {capacity : Nat}

/-- The connections of the pool that are in somebody's hands: a borrower's, who may ping it, a
sweep's, and those that are kept under names. -/
def lent (s : Limiter σ) : List ConnId :=
  s.tasks.flatMap (fun e => e.2.stage.conns) ++ s.held.map (fun e => e.2.conn)

/-- How many connections are being opened for the pool. -/
def openings (s : Limiter σ) : Nat := s.tasks.countP fun e => e.2.stage.isOpening

/-- The pool's books and its line are in order. -/
structure Balanced (capacity : Nat) (s : Limiter σ) : Prop where
  tidy : Tidy s
  permits : s.pool.free + s.allHands Hand.permits + s.held.length = capacity
  connections : s.pool.idle.length + s.allHands Hand.connections + s.held.length ≤ capacity
  distinct : s.pool.line.Nodup
  shut : s.pool.closed = true → s.pool.line = []
  line : s.pool.closed = false → ∀ t, t ∈ s.pool.line ↔ s.hand t = .place
  waits : s.pool.line ≠ [] → s.pool.free = 0

/-- The same while a task is under way. -/
structure Underway (capacity : Nat) (t : TaskId) (m : Motion σ) : Prop where
  tidy : Tidy m.state
  queue : Queue t m
  books : Books capacity t m

namespace Balanced

theorem fresh (backend : σ) (settings : PoolSettings) :
    Balanced (max 1 settings.maxConnections) (Limiter.fresh backend settings) where
  tidy := .fresh backend settings
  permits := rfl
  connections := Nat.zero_le _
  distinct := List.nodup_nil
  shut _ := rfl
  line _ t := by simp [Limiter.fresh, Pool.fresh, hand, stage?]
  waits h := absurd rfl h

theorem takeUp (h : Balanced capacity s) (t : TaskId) :
    Underway capacity t ⟨s.hand t, none, s⟩ where
  tidy := h.tidy
  queue := ⟨h.distinct, h.shut, fun hopen => h.line hopen t, fun hopen u _ => h.line hopen u,
    h.waits⟩
  books := by
    have hp := h.permits
    have hc := h.connections
    rw [allHands_eq h.tidy rfl t] at hp hc
    constructor <;> simp only <;> omega

theorem layDown (h : Underway capacity t ⟨s.hand t, none, s⟩) : Balanced capacity s where
  tidy := h.tidy
  permits := by
    have tidy : Tidy s := h.tidy
    have hp := h.books.permits
    rw [allHands_eq tidy rfl t]
    simp only at hp
    omega
  connections := by
    have tidy : Tidy s := h.tidy
    have hc := h.books.connections
    rw [allHands_eq tidy rfl t]
    simp only at hc
    omega
  distinct := h.queue.distinct
  shut := h.queue.shut
  line hopen u := by
    by_cases hu : u = t
    · exact hu ▸ h.queue.own hopen
    · exact h.queue.others hopen u hu
  waits := h.queue.waits

theorem outside {W : Surroundings σ ε} (h : Outside W s s') (b : Balanced capacity s) :
    Balanced capacity s' := by
  have tidy := Tidy.outside h b.tidy
  cases h with
  | shut =>
    have hc := b.connections
    refine ⟨tidy, b.permits, ?_, List.nodup_nil, fun _ => rfl, ?_, fun hne => absurd rfl hne⟩
    · show 0 + s.allHands Hand.connections + s.held.length ≤ capacity
      omega
    · intro hopen
      cases hopen
  | mark name =>
    exact ⟨tidy, by simpa [allHands] using b.permits, by simpa [allHands] using b.connections,
      b.distinct, b.shut, b.line, b.waits⟩
  | _ => exact ⟨tidy, b.permits, b.connections, b.distinct, b.shut, b.line, b.waits⟩

end Balanced

namespace Underway

variable {h : Hand} {o : Option Nat}

theorem setStage {stage : Stage} (proper : stage.Proper) (b : Underway capacity t ⟨h, none, s⟩) :
    Underway capacity t ⟨h, none, s.setStage t stage⟩ where
  tidy := b.tidy.setStage proper
  queue := b.queue.congr_state ⟨rfl, rfl, rfl⟩ fun _ hu => hand_setStage_ne hu stage
  books := by
    refine ⟨?_, ?_⟩
    · have hp := b.books.permits
      rw [← elsewhere_setStage stage] at hp
      exact hp
    · have hc := b.books.connections
      rw [← elsewhere_setStage stage] at hc
      exact hc

theorem act {B : Backend σ} {m m' : Motion σ} (a : Act B t m m') (b : Underway capacity t m) :
    Underway capacity t m' :=
  ⟨b.tidy.act a, b.queue.act a b.tidy, b.books.act a b.tidy b.queue⟩

theorem settle {task : Task} {outcome : Outcome} (hget : Table.get? s.tasks t = some task)
    (b : Underway capacity t ⟨.nothing, o, s⟩) :
    Underway capacity t ⟨.nothing, none,
      { s with tasks := Table.put s.tasks t (task.settled s.clock outcome) }⟩ where
  tidy := b.tidy.settle hget outcome
  queue := (b.queue.congr_hand Iff.rfl).congr_state ⟨rfl, rfl, rfl⟩ fun u hu => by
    simp [hand, stage?, hu]
  books := by
    have hsame : ∀ f, elsewhere f
        { s with tasks := Table.put s.tasks t (task.settled s.clock outcome) } t =
          s.elsewhere f t := fun f => congrArg (Table.sum _) (Table.without_put_self ..)
    refine ⟨?_, ?_⟩
    · have hp := b.books.permits
      rw [← hsame Hand.permits] at hp
      exact hp
    · have hc := b.books.connections
      rw [← hsame Hand.connections] at hc
      exact hc

/-- Who takes a kept connection away takes its permit with it. -/
theorem unkeep {name : String} {lease : Lease} (hheld : Table.get? s.held name = some lease)
    (ht : t ∉ Table.keys s.tasks) (b : Balanced capacity s) :
    Underway capacity t ⟨.lease lease, none,
      { s with held := Table.without s.held name }⟩ where
  tidy := b.tidy.unkeep name
  queue := by
    have hnothing : s.hand t = .nothing := hand_of_none (stage?_eq_none_iff.mpr ht)
    -- a lease is no place in the line, and whoever takes it had none before
    refine ⟨b.distinct, b.shut, fun hopen => ?_, fun hopen u _ => b.line hopen u, b.waits⟩
    rw [b.line hopen t, hnothing]
    simp
  books := by
    have hlength := Table.length_without b.tidy.names hheld
    have hp := (b.takeUp t).books.permits
    have hc := (b.takeUp t).books.connections
    have hnothing : s.hand t = .nothing := hand_of_none (stage?_eq_none_iff.mpr ht)
    simp only [hnothing, Hand.permits, Hand.connections] at hp hc
    constructor
    · show s.pool.free + 1 + s.elsewhere Hand.permits t + (Table.without s.held name).length =
        capacity
      omega
    · show s.pool.idle.length + 1 + s.elsewhere Hand.connections t +
        (Table.without s.held name).length ≤ capacity
      omega

end Underway

theorem Balanced.invariant (capacity : Nat) (W : Surroundings σ ε) :
    Invariant W (Balanced capacity) (Underway capacity) where
  proper h hs := h.tidy.proper _ _ hs
  takeUp t h := h.takeUp t
  layDown := Balanced.layDown
  act := Underway.act
  setStage := Underway.setStage
  settle hget _ := Underway.settle hget
  outside := Balanced.outside
  unkeep := Underway.unkeep

/-- The books of a pool are in order after every run. -/
theorem balanced_run (W : Surroundings σ ε) (backend : σ) (settings : PoolSettings)
    (moves : List (Move ε)) :
    Balanced (max 1 settings.maxConnections) ((fresh backend settings).run W moves) :=
  (Balanced.invariant _ W).run (.fresh backend settings) moves

/-! ## What the books say -/

/-- The connections in hand are those that are lent to tasks and those that are being opened. -/
theorem allHands_connections (s : Limiter σ) :
    s.allHands Hand.connections + s.held.length = s.lent.length + s.openings := by
  have htasks : s.allHands Hand.connections =
      (s.tasks.flatMap fun e => e.2.stage.conns).length + s.openings := by
    unfold allHands openings
    induction s.tasks with
    | nil => rfl
    | cons e rest ih =>
      have hhead := e.2.stage.connections_hand
      rw [Table.sum, ih, hhead, List.flatMap_cons, List.length_append, List.countP_cons]
      omega
  rw [htasks, lent, List.length_append, List.length_map]
  omega

theorem allHands_permits (s : Limiter σ) :
    s.allHands Hand.permits = Table.sum (fun task => task.stage.permits) s.tasks := by
  simp only [allHands, Stage.permits_hand]

/-- A pool never has more connections than its settings allow, resting ones, lent ones and those
that are being opened taken together. This holds after every run, with any store behind the pool. -/
theorem connections_le_capacity (W : Surroundings σ ε) (backend : σ) (settings : PoolSettings)
    (moves : List (Move ε)) :
    let s := (fresh backend settings).run W moves
    s.pool.idle.length + s.lent.length + s.openings ≤ max 1 settings.maxConnections ∧
      s.pool.idle.length ≤ max 1 settings.maxConnections := by
  intro s
  have hconns := (balanced_run W backend settings moves).connections
  have hlent := allHands_connections s
  have hle : s.pool.idle.length + s.allHands Hand.connections + s.held.length ≤
      max 1 settings.maxConnections := hconns
  constructor <;> omega

/-- After every run the free permits and those in hand are as many as the pool had at first; in an
open pool nobody waits while a permit is free; and when all tasks are over and no connection is
kept, all permits are free. -/
theorem permits_conserved (W : Surroundings σ ε) (backend : σ) (settings : PoolSettings)
    (moves : List (Move ε)) :
    let s := (fresh backend settings).run W moves
    s.pool.free + Table.sum (fun task => task.stage.permits) s.tasks + s.held.length =
        max 1 settings.maxConnections ∧
      (s.pool.closed = false → (∃ t goal expiry, s.stage? t = some (.queued goal expiry)) →
        s.pool.free = 0) ∧
      ((∀ e ∈ s.tasks, e.2.stage.isOver) → s.held = [] →
        s.pool.free = max 1 settings.maxConnections) := by
  intro s
  have balanced : Balanced (max 1 settings.maxConnections) s :=
    balanced_run W backend settings moves
  have hpermits := balanced.permits
  rw [allHands_permits] at hpermits
  refine ⟨hpermits, ?_, ?_⟩
  · -- who is queued stands in the line, and the line is empty while a permit is free
    rintro hopen ⟨t, goal, expiry, hs⟩
    have hline : t ∈ s.pool.line := (balanced.line hopen t).mpr (hand_of_stage? hs)
    exact balanced.waits (List.ne_nil_of_mem hline)
  · intro hover hheld
    have hnone : Table.sum (fun task => task.stage.permits) s.tasks = 0 := by
      refine Table.sum_eq_zero fun e he => ?_
      have hstage := hover e he
      revert hstage
      cases e.2.stage <;> simp [Stage.isOver, Stage.permits]
    rw [hnone, hheld] at hpermits
    simpa using hpermits

end Limiter

end Turnstile
