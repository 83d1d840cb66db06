import Turnstile.Proofs.Runs.Tidy

/-!
# The books of the pool

Adding up what every task has in hand. While task `t` is under way its own entry does not tell what
it has in hand, so the others are added up without it (`elsewhere`).

Counting resting connections and permits in use is not enough: with a permit a task may open a
connection, so the books have to say how many connections are in hand as well. A connection is
opened only when none rests, and then every connection that there is has a permit of its own.
-/

namespace Turnstile

namespace Hand

theorem answered_eq_place_iff {h : Hand} {now : Time} {reply : Reply} :
    h.answered now reply = .place ↔ h = .place := by
  cases reply <;> cases h <;> simp [answered]

theorem permits_answered (h : Hand) (now : Time) (reply : Reply) :
    (h.answered now reply).permits = h.permits := by
  cases reply <;> cases h <;> rfl

theorem connections_answered (h : Hand) (now : Time) (reply : Reply) :
    (h.answered now reply).connections = h.connections := by
  cases reply <;> cases h <;> rfl

/-- Whoever has a connection has a permit and no place in the line. -/
theorem permits_of_connections {h : Hand} (has : h.connections = 1) :
    h.permits = 1 ∧ h ≠ .place := by
  cases h <;> simp [connections, permits] at has ⊢

end Hand

namespace Limiter

variable {σ : Type} {s : Limiter σ} {t u : TaskId} {f : Hand → Nat}

/-- What all tasks have in hand, added up. -/
def allHands (f : Hand → Nat) (s : Limiter σ) : Nat :=
  Table.sum (fun task => f task.stage.hand) s.tasks

/-- What all tasks but one have in hand, added up. -/
def elsewhere (f : Hand → Nat) (s : Limiter σ) (t : TaskId) : Nat :=
  Table.sum (fun task => f task.stage.hand) (Table.without s.tasks t)

theorem allHands_eq (h : Tidy s) (hf : f .nothing = 0) (t : TaskId) :
    s.allHands f = f (s.hand t) + s.elsewhere f t := by
  cases hget : Table.get? s.tasks t with
  | none =>
    have ht : t ∉ Table.keys s.tasks := Table.get?_eq_none_iff.mp hget
    rw [hand_of_none (stage?_eq_none_iff.mpr ht), hf, elsewhere, Table.without_of_not_mem ht,
      allHands, Nat.zero_add]
  | some task =>
    rw [hand_of_get? hget]
    exact Table.sum_eq_add_without h.distinct hget _

/-! ## What changes elsewhere -/

theorem elsewhere_setStage (stage : Stage) : (s.setStage t stage).elsewhere f t = s.elsewhere f t :=
  congrArg (Table.sum _) (Table.without_modify_self ..)

theorem elsewhere_start (h : Tidy s) (hf : f .nothing = 0) (jobs : List Job) (t : TaskId) :
    (s.start jobs).1.elsewhere f t = s.elsewhere f t := by
  -- a number that is new adds an empty hand; one that is left out adds nothing at all
  by_cases hn : s.nextTask = t
  · subst hn
    simp [elsewhere]
  · have hnew : s.nextTask ∉ Table.keys (Table.without s.tasks t) := by
      rw [← Table.get?_eq_none_iff, Table.get?_without_ne _ hn, Table.get?_eq_none_iff]
      exact h.nextTask_not_mem
    simp [elsewhere, hn, Table.sum_put_of_not_mem hnew, hf]

/-- Another task changes what it has in hand by moving to a stage. -/
theorem elsewhere_setStage_ne (hu : u ∈ Table.keys s.tasks) (hne : u ≠ t) (stage : Stage) :
    (s.setStage u stage).elsewhere f t + f (s.hand u) = s.elsewhere f t + f stage.hand := by
  obtain ⟨task, hget⟩ := Option.isSome_iff_exists.mp (Table.get?_isSome_iff.mpr hu)
  have hget' : Table.get? (Table.without s.tasks t) u = some task := by simp [hne, hget]
  have hsum := Table.sum_put hget' { task with stage } fun task => f task.stage.hand
  simp only [elsewhere, setStage, Table.modify, hget, hand_of_get? hget]
  rw [Table.without_put_ne _ _ hne]
  exact hsum

theorem elsewhere_le {g : Hand → Nat} (hle : ∀ h, f h ≤ g h) (s : Limiter σ) (t : TaskId) :
    s.elsewhere f t ≤ s.elsewhere g t :=
  Table.sum_le_sum (fun _ => hle _) _

/-! ## The line -/

/-- Who stands in the line of the pool while task `t` is under way. -/
structure Queue (t : TaskId) (m : Motion σ) : Prop where
  distinct : m.state.pool.line.Nodup
  shut : m.state.pool.closed = true → m.state.pool.line = []
  own : m.state.pool.closed = false → (t ∈ m.state.pool.line ↔ m.hand = .place)
  others : m.state.pool.closed = false → ∀ u ≠ t,
    (u ∈ m.state.pool.line ↔ m.state.hand u = .place)
  waits : m.state.pool.line ≠ [] → m.state.pool.free = 0

/-- What the pool has lent while task `t` is under way. -/
structure Books (capacity : Nat) (t : TaskId) (m : Motion σ) : Prop where
  permits : m.state.pool.free + m.hand.permits + m.state.elsewhere Hand.permits t +
    m.state.held.length = capacity
  connections : m.state.pool.idle.length + m.hand.connections +
    m.state.elsewhere Hand.connections t + m.state.held.length ≤ capacity

namespace Queue

variable {h h' : Hand} {o o' : Option Nat}

/-- Only places in the line count. -/
theorem congr_hand (q : Queue t ⟨h, o, s⟩) (hh : h = .place ↔ h' = .place) :
    Queue t ⟨h', o', s⟩ where
  distinct := q.distinct
  shut := q.shut
  own hopen := (q.own hopen).trans hh
  others := q.others
  waits := q.waits

/-- Only the line, the free permits and the stages of the tasks count. -/
theorem congr_state {s' : Limiter σ} (q : Queue t ⟨h, o, s⟩)
    (hpool : s'.pool.line = s.pool.line ∧ s'.pool.free = s.pool.free ∧
      s'.pool.closed = s.pool.closed)
    (hhand : ∀ u ≠ t, s'.hand u = s.hand u) : Queue t ⟨h, o, s'⟩ := by
  obtain ⟨hline, hfree, hclosed⟩ := hpool
  refine ⟨?_, ?_, ?_, ?_, ?_⟩
  · simpa only [hline] using q.distinct
  · simpa only [hline, hclosed] using q.shut
  · simpa only [hline, hclosed] using q.own
  · intro hopen u hu
    simpa only [hline, hhand u hu] using q.others (hclosed ▸ hopen) u hu
  · simpa only [hline, hfree] using q.waits

/-- Whoever stands in front waits for a permit. -/
theorem hand_front (q : Queue t ⟨h, o, s⟩) (hh : h ≠ .place) {rest : List TaskId}
    (hline : s.pool.line = u :: rest) : u ≠ t ∧ s.hand u = .place := by
  have hopen : s.pool.closed = false := by
    cases hclosed : s.pool.closed with
    | false => rfl
    | true =>
      have := q.shut hclosed
      simp [hline] at this
  have hu : u ∈ s.pool.line := by simp [hline]
  have hne : u ≠ t := by
    rintro rfl
    exact hh ((q.own hopen).mp hu)
  exact ⟨hne, (q.others hopen u hne).mp hu⟩

theorem enqueue (q : Queue t ⟨.nothing, none, s⟩) (hopen : s.pool.closed = false)
    (hfree : s.pool.free = 0) :
    Queue t ⟨.place, none, { s with pool := s.pool.enqueue t }⟩ := by
  have hnot : t ∉ s.pool.line := by simp [q.own hopen]
  refine ⟨?_, ?_, ?_, ?_, ?_⟩
  · have hnew : ∀ u ∈ s.pool.line, u ≠ t := fun u hu hut => hnot (hut ▸ hu)
    simpa [Pool.enqueue, List.nodup_append] using ⟨q.distinct, hnew⟩
  · intro hclosed
    simp [Pool.enqueue, hopen] at hclosed
  · simp [Pool.enqueue]
  · intro _ u hu
    have hmem : u ∈ s.pool.line ++ [t] ↔ u ∈ s.pool.line := by simp [hu]
    exact hmem.trans (q.others hopen u hu)
  · exact fun _ => hfree

theorem leave (q : Queue t ⟨.place, none, s⟩) :
    Queue t ⟨.nothing, none, { s with pool := s.pool.leave t }⟩ := by
  refine ⟨q.distinct.erase t, ?_, ?_, ?_, ?_⟩
  · intro hclosed
    have hline : s.pool.line = [] := q.shut hclosed
    simp [Pool.leave, hline]
  · intro _
    simpa [Pool.leave] using q.distinct.not_mem_erase
  · intro hopen u hu
    exact (List.mem_erase_of_ne hu).trans (q.others hopen u hu)
  · intro hline
    refine q.waits fun hnil => hline ?_
    have hnil : s.pool.line = [] := hnil
    simp [Pool.leave, hnil]

/-- Nobody stands in the line while a permit is free. -/
theorem line_eq_nil {m : Motion σ} (q : Queue t m) (hfree : 0 < m.state.pool.free) :
    m.state.pool.line = [] := by
  refine Decidable.byContradiction fun hline => ?_
  have := q.waits hline
  omega

theorem freePermit {o : Option Nat} (q : Queue t ⟨.permit, o, s⟩) :
    Queue t ⟨.nothing, o, s.freePermit⟩ := by
  have hhand : Hand.permit = .place ↔ Hand.nothing = .place := by simp
  rcases s.freePermit_cases with ⟨hline, heq⟩ | ⟨u, rest, hline, hu, heq⟩ |
    ⟨u, rest, goal, expiry, ready, hline, hs, heq⟩
  · rw [heq]
    exact ⟨q.distinct, q.shut, fun hopen => (q.own hopen).trans hhand, q.others,
      fun hne => absurd hline hne⟩
  · exact absurd (q.hand_front (by simp) hline).2 hu
  · -- `u` trades its place for a permit, and everybody else stays where they were
    obtain ⟨hne, -⟩ := q.hand_front (by simp) hline
    have hdistinct : (u :: rest).Nodup := hline ▸ q.distinct
    obtain ⟨hnotin, hrest⟩ := List.nodup_cons.mp hdistinct
    have hmem : ∀ v ≠ u, (v ∈ rest ↔ v ∈ s.pool.line) := by
      intro v hv
      simp [hline, hv]
    rw [heq]
    refine ⟨hrest, ?_, ?_, ?_, ?_⟩
    · intro hclosed
      have := q.shut hclosed
      simp [hline] at this
    · intro hopen
      exact (hmem t hne.symm).trans ((q.own hopen).trans hhand)
    · intro hopen v hv
      by_cases hvu : v = u
      · subst hvu
        have hgranted : (s.setStage v (.granted goal)).hand v = .permit :=
          hand_setStage_self (mem_keys_of_stage? hs) _
        have hplace : (s.setStage v (.granted goal)).hand v ≠ .place := by simp [hgranted]
        exact iff_of_false hnotin hplace
      · have hsame : (s.setStage u (.granted goal)).hand v = s.hand v := hand_setStage_ne hvu _
        have hothers := (hmem v hvu).trans (q.others hopen v hv)
        rw [← hsame] at hothers
        exact hothers
    · exact fun _ => q.waits (by simp [hline])

theorem start (q : Queue t ⟨.nothing, none, s⟩) (h : Tidy s) (jobs : List Job) :
    Queue t ⟨.nothing, none, (s.start jobs).1⟩ := by
  refine q.congr_state (by simp) fun u _ => ?_
  by_cases hu : u = s.nextTask
  · have hnothing : s.hand u = .nothing :=
      hand_of_none (stage?_eq_none_iff.mpr (hu ▸ h.nextTask_not_mem))
    rw [hand_start jobs hnothing, hnothing]
  · simp [hand, stage?, hu]

theorem act {B : Backend σ} {m m' : Motion σ} (a : Act B t m m') (h : Tidy m.state)
    (q : Queue t m) : Queue t m' := by
  cases a with
  | aside a => cases a <;> exact ⟨q.distinct, q.shut, q.own, q.others, q.waits⟩
  | emit e own => exact ⟨q.distinct, q.shut, q.own, q.others, q.waits⟩
  | start jobs => exact q.start h jobs
  | enqueue isOpen none_free => exact q.enqueue isOpen none_free
  | leave => exact q.leave
  | dismiss closed =>
    refine ⟨q.distinct, q.shut, ?_, q.others, q.waits⟩
    intro hopen
    exact absurd (hopen.symm.trans closed) (by simp)
  | take isOpen some_free =>
    -- the line is empty, so nobody is passed over
    have hline := q.line_eq_nil some_free
    exact ⟨q.distinct, q.shut, fun hopen => (q.own hopen).trans (by simp), q.others,
      fun hne => absurd hline hne⟩
  | free => exact q.freePermit
  | finish call fits =>
    exact ⟨q.distinct, q.shut,
      fun hopen => (q.own hopen).trans Hand.answered_eq_place_iff.symm, q.others, q.waits⟩
  | drop has =>
    have hplace := (Hand.permits_of_connections has).2
    exact ⟨q.distinct, q.shut,
      fun hopen => (q.own hopen).trans (iff_of_false hplace (by simp)), q.others, q.waits⟩
  | rest => exact (q.congr_hand (by simp)).congr_state (by simp) fun _ _ => rfl
  | _ =>
    exact ⟨q.distinct, q.shut, fun hopen => (q.own hopen).trans (by simp), q.others, q.waits⟩

end Queue

namespace Books

variable {capacity : Nat}

theorem start (b : Books capacity t ⟨.nothing, none, s⟩) (h : Tidy s) (jobs : List Job) :
    Books capacity t ⟨.nothing, none, (s.start jobs).1⟩ := by
  have hpermits := elsewhere_start (f := Hand.permits) h rfl jobs t
  have hconns := elsewhere_start (f := Hand.connections) h rfl jobs t
  exact ⟨by simpa [hpermits] using b.permits, by simpa [hconns] using b.connections⟩

/-- A permit that goes to the next in the line is in that one's hand. -/
theorem freePermit {o : Option Nat} (q : Queue t ⟨.permit, o, s⟩)
    (b : Books capacity t ⟨.permit, o, s⟩) : Books capacity t ⟨.nothing, o, s.freePermit⟩ := by
  have hp := b.permits
  have hc := b.connections
  simp only [Hand.permits, Hand.connections] at hp hc
  rcases s.freePermit_cases with ⟨hline, heq⟩ | ⟨u, rest, hline, hu, heq⟩ |
    ⟨u, rest, goal, expiry, ready, hline, hs, heq⟩
  · rw [heq]
    refine ⟨?_, hc⟩
    simp only [Hand.permits, elsewhere] at hp ⊢
    omega
  · exact absurd (q.hand_front (by simp) hline).2 hu
  · obtain ⟨hne, hplace⟩ := q.hand_front (by simp) hline
    have hmem := mem_keys_of_stage? hs
    have hpermits := elsewhere_setStage_ne (f := Hand.permits) hmem hne (.granted goal)
    have hconns := elsewhere_setStage_ne (f := Hand.connections) hmem hne (.granted goal)
    rw [hplace] at hpermits hconns
    simp only [Hand.permits, Hand.connections, Stage.hand] at hpermits hconns
    rw [heq]
    constructor
    · show s.pool.free + 0 + (s.setStage u (.granted goal)).elsewhere Hand.permits t +
        s.held.length = capacity
      omega
    · show s.pool.idle.length + 0 + (s.setStage u (.granted goal)).elsewhere Hand.connections t +
        s.held.length ≤ capacity
      omega

/-- A connection is opened only when none rests: then those that there are have a permit each. -/
theorem openOne (b : Books capacity t ⟨.permit, none, s⟩) (hidle : s.pool.idle = []) :
    Books capacity t
      ⟨.opening s.nextConn, none, { s with nextConn := s.nextConn + 1 }⟩ := by
  refine ⟨b.permits, ?_⟩
  have hp := b.permits
  -- the others have no more connections than permits, and this task has a permit to spare
  have hle := elsewhere_le Hand.connections_le_permits s t
  simp only [Hand.permits] at hp
  show s.pool.idle.length + 1 + s.elsewhere Hand.connections t + s.held.length ≤ capacity
  rw [hidle, List.length_nil]
  omega

/-- A resting connection is taken from the front. -/
theorem pop (b : Books capacity t ⟨.permit, none, s⟩) {h : Hand} (hp : h.permits = 1)
    (hc : h.connections = 1) {i : Idle} {rest : List Idle} (front : s.pool.idle = i :: rest) :
    Books capacity t ⟨h, none, { s with pool := { s.pool with idle := rest } }⟩ := by
  have hperm := b.permits
  have hconn := b.connections
  simp only [Hand.permits, Hand.connections, front, List.length_cons] at hperm hconn
  constructor
  · show s.pool.free + h.permits + s.elsewhere Hand.permits t + s.held.length = capacity
    omega
  · show rest.length + h.connections + s.elsewhere Hand.connections t + s.held.length ≤ capacity
    omega

theorem act {B : Backend σ} {m m' : Motion σ} (a : Act B t m m') (h : Tidy m.state)
    (q : Queue t m) (b : Books capacity t m) : Books capacity t m' := by
  have hp := b.permits
  have hc := b.connections
  cases a with
  | aside a => cases a <;> exact ⟨hp, hc⟩
  | emit e own => exact ⟨hp, hc⟩
  | start jobs => exact b.start h jobs
  | enqueue isOpen none_free => exact ⟨hp, hc⟩
  | leave => exact ⟨hp, hc⟩
  | dismiss closed => exact ⟨hp, hc⟩
  | @take s isOpen some_free =>
    refine ⟨?_, hc⟩
    simp only [Hand.permits] at hp
    show s.pool.free - 1 + 1 + s.elsewhere Hand.permits t + s.held.length = capacity
    omega
  | free => exact b.freePermit q
  | lend front fresh => exact b.pop rfl rfl front
  | probe front => exact b.pop rfl rfl front
  | «open» none_rests => exact b.openOne none_rests
  | finish call fits =>
    constructor
    · rw [← Hand.permits_answered] at hp
      exact hp
    · rw [← Hand.connections_answered] at hc
      exact hc
  | mark broken => exact ⟨hp, hc⟩
  | drop has =>
    constructor
    · rw [(Hand.permits_of_connections has).1] at hp
      exact hp
    · simp only [has] at hc
      simp only [Hand.connections]
      omega
  | @rest l o s =>
    have hidle := s.pool.length_idle_rest_le ⟨l.conn, l.checkedAt⟩
    have hfree := s.pool.free_rest ⟨l.conn, l.checkedAt⟩
    simp only [Hand.permits, Hand.connections] at hp hc
    constructor
    · show (s.pool.rest _).free + 1 + s.elsewhere Hand.permits t + s.held.length = capacity
      omega
    · show (s.pool.rest _).idle.length + 0 + s.elsewhere Hand.connections t + s.held.length
        ≤ capacity
      omega
  | @keep l s name new =>
    have hlength := Table.length_put_of_not_mem l (Table.get?_eq_none_iff.mp new)
    simp only [Hand.permits, Hand.connections] at hp hc
    constructor
    · show s.pool.free + 0 + s.elsewhere Hand.permits t + (Table.put s.held name l).length =
        capacity
      omega
    · show s.pool.idle.length + 0 + s.elsewhere Hand.connections t +
        (Table.put s.held name l).length ≤ capacity
      omega
  | @swap l s name old had =>
    have hlength := Table.length_put_of_mem l (Table.mem_keys_of_get? had)
    constructor
    · show s.pool.free + 1 + s.elsewhere Hand.permits t + (Table.put s.held name l).length =
        capacity
      rw [hlength]
      exact hp
    · show s.pool.idle.length + 1 + s.elsewhere Hand.connections t +
        (Table.put s.held name l).length ≤ capacity
      rw [hlength]
      exact hc

end Books

end Limiter

end Turnstile
