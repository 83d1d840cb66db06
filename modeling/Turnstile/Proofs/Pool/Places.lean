import Turnstile.Proofs.Pool.Capacity

/-!
# Where connections are

A connection of the pool rests, or somebody has it: a borrower, whoever pings it for a borrower or
for a sweep, or a name under which it is kept. `places` lists all of these, and a number stands in
at most one place (`Distinct`), the numbers of connections that are still being opened included.

The places of a number are counted (`Limiter.count`), so that an act that moves a connection can be
seen to take it away here and to put it there. While task `t` is under way, its own entry does not
tell what it has in hand, and `besides` counts the places that are not in its hand.
-/

namespace Turnstile

namespace Hand

/-- The lease in hand. -/
def lease? : Hand → Option Lease
  | .lease l => some l
  | _ => none

/-- The connection in hand that has to be pinged before it can be used. -/
def probe? : Hand → Option ConnId
  | .probe conn => some conn
  | _ => none

/-- The connections in hand that are open. -/
def conns : Hand → List ConnId
  | .probe conn => [conn]
  | .lease l => [l.conn]
  | _ => []

/-- The connections in hand, those that are being opened included. -/
def numbers : Hand → List ConnId
  | .probe conn | .opening conn => [conn]
  | .lease l => [l.conn]
  | _ => []

theorem numbers_answered (h : Hand) (now : Time) (reply : Reply) :
    (h.answered now reply).numbers = h.numbers := by
  cases reply <;> cases h <;> rfl

theorem count_conns_le (h : Hand) (c : ConnId) : h.conns.count c ≤ h.numbers.count c := by
  cases h <;> simp [conns, numbers]

theorem count_conns_le_one (h : Hand) (c : ConnId) : h.conns.count c ≤ 1 :=
  Nat.le_trans List.count_le_length (by cases h <;> simp [conns])

end Hand

/-- The hand holds the connections of the stage. -/
theorem Stage.conns_hand (stage : Stage) : stage.conns = stage.hand.conns := by
  cases stage <;> rfl

/-- Nobody gets anything but a permit out of the line. -/
structure Hand.Bare (f : Hand → Nat) : Prop where
  nothing : f .nothing = 0
  place : f .place = 0
  permit : f .permit = 0

theorem Hand.bare_conns (c : ConnId) : Hand.Bare fun h => h.conns.count c := ⟨rfl, rfl, rfl⟩

theorem Hand.bare_numbers (c : ConnId) : Hand.Bare fun h => h.numbers.count c := ⟨rfl, rfl, rfl⟩

namespace Limiter

variable {σ ε : Type} {s s' : Limiter σ} {t u : TaskId} {c : ConnId}

/-- Where there is a connection: the resting ones, and those that somebody has. -/
def places (s : Limiter σ) : List ConnId := s.pool.idle.map (·.conn) ++ s.lent

/-- The connections that are lent to borrowers or kept under names. -/
def borrowed (s : Limiter σ) : List ConnId :=
  s.tasks.flatMap (fun e => (e.2.stage.hand.lease?.map (·.conn)).toList) ++
    s.held.map (fun e => e.2.conn)

/-- The move lends a connection that nobody had borrowed before. -/
structure Lends (W : Surroundings σ ε) (s : Limiter σ) (m : Move ε) (conn : ConnId) : Prop where
  before : conn ∉ s.borrowed
  after : conn ∈ (s.move W m).borrowed

/-- What is borrowed has a place. -/
theorem borrowed_subset_places (s : Limiter σ) : s.borrowed ⊆ s.places := by
  intro conn hconn
  refine List.mem_append_right _ ?_
  rcases List.mem_append.mp hconn with h | h
  · obtain ⟨e, he, hlease⟩ := List.mem_flatMap.mp h
    refine List.mem_append_left _ (List.mem_flatMap.mpr ⟨e, he, ?_⟩)
    rw [e.2.stage.conns_hand]
    cases hhand : e.2.stage.hand <;> simp_all [Hand.lease?, Hand.conns]
  · exact List.mem_append_right _ h

/-- Who has borrowed a connection. -/
theorem mem_borrowed (h : Tidy s) : c ∈ s.borrowed ↔
    (∃ t l, s.hand t = .lease l ∧ l.conn = c) ∨
      ∃ name l, Table.get? s.held name = some l ∧ l.conn = c := by
  have hheld : (∃ e ∈ s.held, e.2.conn = c) ↔
      ∃ name l, Table.get? s.held name = some l ∧ l.conn = c :=
    ⟨fun ⟨e, he, hc⟩ => ⟨e.1, e.2, Table.get?_of_mem h.names he, hc⟩,
      fun ⟨name, l, hget, hc⟩ => ⟨(name, l), Table.mem_of_get? hget, hc⟩⟩
  have htasks : (∃ e ∈ s.tasks, c ∈ (e.2.stage.hand.lease?.map (·.conn)).toList) ↔
      ∃ t l, s.hand t = .lease l ∧ l.conn = c := by
    constructor
    · rintro ⟨e, he, hc⟩
      have hand : s.hand e.1 = e.2.stage.hand := hand_of_get? (Table.get?_of_mem h.distinct he)
      cases hl : e.2.stage.hand with
      | lease l => exact ⟨e.1, l, hand.trans hl, by simpa [hl, Hand.lease?, eq_comm] using hc⟩
      | _ => simp [hl, Hand.lease?] at hc
    · rintro ⟨t, l, hl, hc⟩
      cases hget : Table.get? s.tasks t with
      | none =>
        rw [hand_of_none (stage?_eq_none_iff.mpr (Table.get?_eq_none_iff.mp hget))] at hl
        cases hl
      | some task =>
        refine ⟨(t, task), Table.mem_of_get? hget, ?_⟩
        rw [hand_of_get? hget] at hl
        simp [hl, Hand.lease?, hc]
  rw [borrowed, List.mem_append, List.mem_flatMap, htasks, List.mem_map, hheld]

/-! ## Counting places -/

/-- How often a number rests. -/
def resting (s : Limiter σ) (c : ConnId) : Nat := (s.pool.idle.map (·.conn)).count c

/-- How often a number is kept under a name. -/
def kept (s : Limiter σ) (c : ConnId) : Nat := Table.sum (fun l => [l.conn].count c) s.held

/-- How often a number has a place; `g` tells which numbers in hand count. -/
def count (g : Hand → List ConnId) (s : Limiter σ) (c : ConnId) : Nat :=
  s.resting c + s.allHands (fun h => (g h).count c) + s.kept c

/-- How often a number has a place that is not in the hand of a task. -/
def besides (g : Hand → List ConnId) (s : Limiter σ) (t : TaskId) (c : ConnId) : Nat :=
  s.resting c + s.elsewhere (fun h => (g h).count c) t + s.kept c

theorem count_eq (h : Tidy s) {g : Hand → List ConnId} (hg : g .nothing = []) (t : TaskId)
    (c : ConnId) : s.count g c = (g (s.hand t)).count c + s.besides g t c := by
  rw [count, allHands_eq h (by simp [hg]) t, besides]
  omega

theorem count_flatMap {κ α : Type} (f : α → List ConnId) (t : Table κ α) (c : ConnId) :
    (t.flatMap fun e => f e.2).count c = Table.sum (fun a => (f a).count c) t := by
  induction t with
  | nil => rfl
  | cons e rest ih => rw [List.flatMap_cons, List.count_append, ih, Table.sum]

theorem count_places (s : Limiter σ) (c : ConnId) : s.places.count c = s.count Hand.conns c := by
  have hheld : (s.held.map fun e => e.2.conn).count c = s.kept c := by
    rw [kept, ← count_flatMap (fun l : Lease => [l.conn]), List.map_eq_flatMap]
  have htasks : (s.tasks.flatMap fun e => e.2.stage.conns).count c =
      s.allHands fun h => h.conns.count c := by
    simp only [Stage.conns_hand]
    exact count_flatMap (fun task => task.stage.hand.conns) s.tasks c
  rw [places, lent, List.count_append, List.count_append, hheld, htasks, count, resting]
  omega

/-! ## What others have -/

/-- A permit that somebody gets brings no connection. -/
theorem elsewhere_freePermit {f : Hand → Nat} (bare : Hand.Bare f) (s : Limiter σ) (t : TaskId) :
    s.freePermit.elsewhere f t = s.elsewhere f t := by
  rcases s.freePermit_cases with ⟨-, heq⟩ | ⟨u, rest, -, -, heq⟩ |
    ⟨u, rest, goal, expiry, ready, -, hs, heq⟩
  · rw [heq]
    rfl
  · rw [heq]
    rfl
  · rw [heq]
    by_cases hu : u = t
    · subst hu
      exact elsewhere_setStage _
    · have hset := elsewhere_setStage_ne (f := f) (mem_keys_of_stage? hs) hu (.granted goal)
      rw [hand_of_stage? hs] at hset
      simp only [Stage.hand, bare.place, bare.permit, Nat.add_zero] at hset
      exact hset

theorem allHands_freePermit {f : Hand → Nat} (bare : Hand.Bare f) (s : Limiter σ) :
    s.freePermit.allHands f = s.allHands f := by
  obtain ⟨t, ht⟩ := s.exists_not_mem_keys
  have ht' : t ∉ Table.keys s.freePermit.tasks := by rwa [keys_freePermit]
  have helse := elsewhere_freePermit bare s t
  rwa [elsewhere, elsewhere, Table.without_of_not_mem ht, Table.without_of_not_mem ht'] at helse

/-- Nothing has come to rest or been taken, and every name stands for what it stood for. -/
structure Still (s s' : Limiter σ) : Prop where
  idle : s'.pool.idle = s.pool.idle
  closed : s'.pool.closed = s.pool.closed
  settings : s'.settings = s.settings
  held : s'.held = s.held
  nextConn : s.nextConn ≤ s'.nextConn
  keys : Table.keys s.tasks ⊆ Table.keys s'.tasks

/-- Giving a permit back touches no connection. -/
theorem still_freePermit (s : Limiter σ) : Still s s.freePermit := by
  constructor <;> simp

/-- Others have after an act what they had before. -/
theorem Act.elsewhere {B : Backend σ} {m m' : Motion σ} (a : Act B t m m') (h : Tidy m.state)
    {f : Hand → Nat} (bare : Hand.Bare f) :
    m'.state.elsewhere f t = m.state.elsewhere f t := by
  cases a with
  | aside a => cases a <;> rfl
  | start jobs => exact elsewhere_start h bare.nothing jobs t
  | free => exact elsewhere_freePermit bare ..
  | _ => rfl

/-- What changes besides the hand of `t` changes among resting and kept connections. -/
theorem besides_add (g : Hand → List ConnId) (c : ConnId)
    (helse : s'.elsewhere (fun h => (g h).count c) t = s.elsewhere (fun h => (g h).count c) t) :
    s'.besides g t c + (s.resting c + s.kept c) = s.besides g t c + (s'.resting c + s'.kept c) := by
  simp only [besides, helse]
  omega

theorem resting_cons {i : Idle} {rest : List Idle} (front : s.pool.idle = i :: rest) (c : ConnId) :
    s.resting c = (rest.map (·.conn)).count c + [i.conn].count c := by
  rw [resting, front, List.map_cons, List.count_cons, List.count_singleton]

theorem resting_rest_le (s : Limiter σ) (i : Idle) (c : ConnId) :
    ((s.pool.rest i).idle.map (·.conn)).count c ≤ s.resting c + [i.conn].count c := by
  unfold Pool.rest
  split
  · exact Nat.le_add_right ..
  · simp [resting]

theorem kept_put_new {name : String} (new : Table.get? s.held name = none) (l : Lease)
    (c : ConnId) :
    ({ s with held := Table.put s.held name l } : Limiter σ).kept c =
      s.kept c + [l.conn].count c :=
  Table.sum_put_of_not_mem (Table.get?_eq_none_iff.mp new) l _

theorem kept_put_old {name : String} {old : Lease} (had : Table.get? s.held name = some old)
    (l : Lease) (c : ConnId) :
    ({ s with held := Table.put s.held name l } : Limiter σ).kept c + [old.conn].count c =
      s.kept c + [l.conn].count c :=
  Table.sum_put had l _

theorem kept_mark (s : Limiter σ) (name : String) (c : ConnId) :
    ({ s with
      held := Table.modify s.held name fun l => { l with broken := true } } : Limiter σ).kept c =
        s.kept c := by
  cases hget : Table.get? s.held name with
  | none => simp [kept, Table.modify, hget]
  | some l =>
    have hput := kept_put_old hget { l with broken := true } c
    simp only [Table.modify, hget]
    exact Nat.add_right_cancel hput

/-! ## Every number in one place -/

/-- How often a number has a place that the task under way can reach: in its hand, at rest, or under
a name. -/
def Motion.within (m : Motion σ) (c : ConnId) : Nat :=
  m.hand.numbers.count c + (m.state.resting c + m.state.kept c)

/-- An act opens a connection under the next number, or it brings no number anywhere where it was
not before. -/
theorem Act.within_le {B : Backend σ} {m m' : Motion σ} (a : Act B t m m') :
    (m'.state.nextConn = m.state.nextConn + 1 ∧
      ∀ c, m'.within c = m.within c + [m.state.nextConn].count c) ∨
    (m.state.nextConn ≤ m'.state.nextConn ∧ ∀ c, m'.within c ≤ m.within c) := by
  cases a with
  | @«open» s none_rests =>
    refine .inl ⟨rfl, fun c => ?_⟩
    simp only [Motion.within, Hand.numbers, resting, kept, List.count_nil]
    omega
  | aside a =>
    cases a with
    | number => exact .inr ⟨Nat.le_succ _, fun c => Nat.le_refl _⟩
    | _ => exact .inr ⟨Nat.le_refl _, fun c => Nat.le_refl _⟩
  | start jobs =>
    obtain ⟨ready, heq⟩ := start_eq _ jobs
    rw [heq]
    exact .inr ⟨Nat.le_refl _, fun c => Nat.le_refl _⟩
  | @free o s =>
    have still := s.still_freePermit
    refine .inr ⟨still.nextConn, fun c => ?_⟩
    simp only [Motion.within, Hand.numbers, resting, kept, still.idle, still.held]
    exact Nat.le_refl _
  | lend front fresh | probe front =>
    refine .inr ⟨Nat.le_refl _, fun c => ?_⟩
    have hrest := resting_cons front c
    simp only [Motion.within, Hand.numbers, resting, kept, List.count_nil] at hrest ⊢
    omega
  | finish call fits =>
    refine .inr ⟨Nat.le_refl _, fun c => ?_⟩
    simp only [Motion.within, Hand.numbers_answered]
    exact Nat.le_refl _
  | drop has =>
    refine .inr ⟨Nat.le_refl _, fun c => ?_⟩
    simp only [Motion.within, Hand.numbers, List.count_nil]
    omega
  | @rest l o s =>
    refine .inr ⟨Nat.le_refl _, fun c => ?_⟩
    have hrest := s.resting_rest_le ⟨l.conn, l.checkedAt⟩ c
    simp only [Motion.within, Hand.numbers, resting, kept, List.count_nil] at hrest ⊢
    omega
  | @keep l s name new =>
    refine .inr ⟨Nat.le_refl _, fun c => ?_⟩
    have hput := kept_put_new new l c
    simp only [Motion.within, Hand.numbers, resting, List.count_nil] at hput ⊢
    omega
  | @swap l s name old had =>
    refine .inr ⟨Nat.le_refl _, fun c => ?_⟩
    have hput := kept_put_old had l c
    simp only [Motion.within, Hand.numbers, resting] at hput ⊢
    omega
  | _ => exact .inr ⟨Nat.le_refl _, fun c => Nat.le_refl _⟩

/-- Every number has at most one place, and numbers yet to come have none. -/
structure Distinct (s : Limiter σ) : Prop where
  tidy : Tidy s
  once : ∀ c, s.count Hand.numbers c ≤ 1
  past : ∀ c, s.nextConn ≤ c → s.count Hand.numbers c = 0

/-- The same while task `t` is under way. -/
structure Distinguished (t : TaskId) (m : Motion σ) : Prop where
  tidy : Tidy m.state
  once : ∀ c, m.hand.numbers.count c + m.state.besides Hand.numbers t c ≤ 1
  past : ∀ c, m.state.nextConn ≤ c →
    m.hand.numbers.count c + m.state.besides Hand.numbers t c = 0

namespace Distinct

theorem fresh (backend : σ) (settings : PoolSettings) :
    Distinct (Limiter.fresh backend settings) where
  tidy := .fresh backend settings
  once _ := Nat.zero_le _
  past _ _ := rfl

theorem takeUp (d : Distinct s) (t : TaskId) : Distinguished t ⟨s.hand t, none, s⟩ where
  tidy := d.tidy
  once c := count_eq (g := Hand.numbers) d.tidy rfl t c ▸ d.once c
  past c hc := count_eq (g := Hand.numbers) d.tidy rfl t c ▸ d.past c hc

theorem layDown (d : Distinguished t ⟨s.hand t, none, s⟩) : Distinct s where
  tidy := d.tidy
  once c := count_eq (g := Hand.numbers) d.tidy rfl t c ▸ d.once c
  past c hc := count_eq (g := Hand.numbers) d.tidy rfl t c ▸ d.past c hc

theorem outside {W : Surroundings σ ε} (ho : Outside W s s') (d : Distinct s) : Distinct s' := by
  have tidy := Tidy.outside ho d.tidy
  cases ho with
  | shut =>
    have hle : ∀ c, ({ s with pool := s.pool.close.1 } : Limiter σ).count Hand.numbers c ≤
        s.count Hand.numbers c := fun c => by
      simp only [count, resting, Pool.close, List.map_nil, List.count_nil, allHands, kept]
      omega
    exact ⟨tidy, fun c => Nat.le_trans (hle c) (d.once c),
      fun c hc => Nat.le_zero.mp (d.past c hc ▸ hle c)⟩
  | mark name =>
    have heq : ∀ c, ({ s with
        held := Table.modify s.held name fun l => { l with broken := true } } : Limiter σ).count
          Hand.numbers c = s.count Hand.numbers c := fun c => by
      simp only [count, kept_mark]
      rfl
    exact ⟨tidy, fun c => heq c ▸ d.once c, fun c hc => heq c ▸ d.past c hc⟩
  | _ => exact ⟨tidy, d.once, d.past⟩

end Distinct

namespace Distinguished

/-- Only how often numbers have a place matters, and that may fall. -/
theorem of_le {m m' : Motion σ} (d : Distinguished t m) (tidy : Tidy m'.state)
    (hnext : m.state.nextConn ≤ m'.state.nextConn)
    (hle : ∀ c, m'.hand.numbers.count c + m'.state.besides Hand.numbers t c ≤
      m.hand.numbers.count c + m.state.besides Hand.numbers t c) : Distinguished t m' where
  tidy := tidy
  once c := Nat.le_trans (hle c) (d.once c)
  past c hc := Nat.le_zero.mp (d.past c (Nat.le_trans hnext hc) ▸ hle c)

theorem act {B : Backend σ} {m m' : Motion σ} (a : Act B t m m') (d : Distinguished t m) :
    Distinguished t m' := by
  have tidy := d.tidy.act a
  have hmoved := fun c => besides_add Hand.numbers c (a.elsewhere d.tidy (Hand.bare_numbers c))
  rcases a.within_le with ⟨hnext, hwithin⟩ | ⟨hnext, hwithin⟩
  · -- the next number had no place, and has the one in hand now
    have hnew := d.past m.state.nextConn (Nat.le_refl _)
    refine ⟨tidy, fun c => ?_, fun c hc => ?_⟩
    · have hc := hmoved c
      have hw := hwithin c
      have honce := d.once c
      simp only [Motion.within, List.count_singleton, beq_iff_eq] at hw
      split at hw
      · subst c
        omega
      · omega
    · have hlt : m.state.nextConn < c := Nat.lt_of_lt_of_le (hnext ▸ Nat.lt_succ_self _) hc
      have hne : m.state.nextConn ≠ c := Nat.ne_of_lt hlt
      have hpast := d.past c (Nat.le_of_lt hlt)
      have hm := hmoved c
      have hw := hwithin c
      simp only [Motion.within, List.count_singleton, beq_iff_eq, hne, if_false] at hw
      omega
  · refine d.of_le tidy hnext fun c => ?_
    have hm := hmoved c
    have hw := hwithin c
    simp only [Motion.within] at hw
    omega

theorem setStage {h : Hand} {stage : Stage} (proper : stage.Proper)
    (d : Distinguished t ⟨h, none, s⟩) : Distinguished t ⟨h, none, s.setStage t stage⟩ := by
  refine d.of_le (d.tidy.setStage proper) (Nat.le_refl _) fun c => ?_
  have hset := besides_add (s := s) Hand.numbers c (elsewhere_setStage (t := t) stage)
  simp only [resting, kept, Limiter.setStage] at hset ⊢
  omega

theorem settle {o : Option Nat} {task : Task} {outcome : Outcome}
    (hget : Table.get? s.tasks t = some task) (d : Distinguished t ⟨.nothing, o, s⟩) :
    Distinguished t ⟨.nothing, none,
      { s with tasks := Table.put s.tasks t (task.settled s.clock outcome) }⟩ := by
  refine d.of_le (d.tidy.settle hget outcome) (Nat.le_refl _) fun c => Nat.le_of_eq ?_
  have helse : ∀ f, elsewhere f
      { s with tasks := Table.put s.tasks t (task.settled s.clock outcome) } t =
        s.elsewhere f t := fun f => congrArg (Table.sum _) (Table.without_put_self ..)
  simp only [besides, helse]
  rfl

theorem unkeep {name : String} {lease : Lease} (hheld : Table.get? s.held name = some lease)
    (ht : t ∉ Table.keys s.tasks) (d : Distinct s) :
    Distinguished t ⟨.lease lease, none, { s with held := Table.without s.held name }⟩ := by
  have htake := d.takeUp t
  rw [hand_of_none (stage?_eq_none_iff.mpr ht)] at htake
  have htidy : Tidy s := d.tidy
  -- the name's number moves into the hand
  have heq : ∀ c, [lease.conn].count c +
      ({ s with held := Table.without s.held name } : Limiter σ).besides Hand.numbers t c =
        s.besides Hand.numbers t c := fun c => by
    have hsum := Table.sum_eq_add_without htidy.names hheld fun l => [l.conn].count c
    have helse : ({ s with held := Table.without s.held name } : Limiter σ).elsewhere
        (fun h => h.numbers.count c) t = s.elsewhere (fun h => h.numbers.count c) t := rfl
    simp only [besides, helse, resting, kept]
    omega
  refine ⟨htidy.unkeep name, fun c => ?_, fun c hc => ?_⟩
  · refine Nat.le_trans (Nat.le_of_eq (heq c)) ?_
    simpa [Hand.numbers] using htake.once c
  · refine (heq c).trans ?_
    simpa [Hand.numbers] using htake.past c hc

end Distinguished

theorem Distinct.invariant (W : Surroundings σ ε) :
    Invariant W Distinct (Distinguished (σ := σ)) where
  proper h hs := h.tidy.proper _ _ hs
  takeUp t h := h.takeUp t
  layDown := Distinct.layDown
  act := Distinguished.act
  setStage := Distinguished.setStage
  settle hget _ := Distinguished.settle hget
  outside := Distinct.outside
  unkeep := Distinguished.unkeep

/-- After every run every number has at most one place. -/
theorem distinct_run (W : Surroundings σ ε) (backend : σ) (settings : PoolSettings)
    (moves : List (Move ε)) : Distinct ((Limiter.fresh backend settings).run W moves) :=
  (Distinct.invariant W).run (.fresh backend settings) moves

end Limiter

end Turnstile
