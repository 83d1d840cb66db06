import Turnstile.Proofs.Pool.Places
import Turnstile.Proofs.Runs.Chronology

/-!
# Whoever borrows gets a connection that works

The time at which a connection was last checked goes with it, from hand to hand and through the
queue of resting connections. It is never made up: at that time the connection was opened or
answered a ping, and the journal says so (`Vouched`). And a connection goes out only if it has just
been checked or was checked not long ago, so whatever a move lends has been checked recently
(`lent_recently_checked`).
-/

namespace Turnstile

namespace Limiter

variable {σ ε : Type} {B : Backend σ} {start s s' : Limiter σ} {t u : TaskId}

/-! ## What acts leave alone -/

theorem Act.settings {m m' : Motion σ} (a : Act B t m m') :
    m'.state.settings = m.state.settings := by
  cases a with
  | aside a => cases a <;> rfl
  | start jobs => simp
  | free => simp
  | _ => rfl

/-- Nothing is taken out of the journal. -/
theorem Act.journal_subset {m m' : Motion σ} (a : Act B t m m') :
    m.state.journal ⊆ m'.state.journal := by
  cases a with
  | aside a =>
    cases a with
    | raise reason => exact List.subset_append_right ..
    | clear => exact List.subset_append_right ..
    | _ => exact List.Subset.refl _
  | emit e own => exact List.subset_cons_self ..
  | start jobs => simp
  | free => simp
  | finish call fits => exact List.subset_append_right ..
  | _ => exact List.Subset.refl _

/-- A task that starts, or gets a permit out of the line, has no lease for that. -/
theorem Act.lease_of_hand {m m' : Motion σ} (a : Act B t m m') {l : Lease}
    (hl : m'.state.hand u = .lease l) : m.state.hand u = .lease l := by
  cases a with
  | aside a => cases a <;> exact hl
  | @start s jobs =>
    by_cases hu : u = s.nextTask
    · subst hu
      simp [hand, stage?] at hl
    · simpa [hand, stage?, hu] using hl
  | @free o s =>
    rcases s.freePermit_eq with ⟨pool, heq⟩ | ⟨v, goal, pool, ready, heq⟩
    · simp only [heq] at hl
      exact hl
    · simp only [heq] at hl
      have hl : (s.setStage v (.granted goal)).hand u = .lease l := hl
      by_cases hu : u = v
      · subst hu
        by_cases hkey : u ∈ Table.keys s.tasks
        · simp [hkey, Stage.hand] at hl
        · rw [hand_of_none (stage?_eq_none_iff.mpr (by simpa using hkey))] at hl
          cases hl
      · simpa [hu] using hl
  | _ => exact hl

/-- What rests after an act rested before it or was in hand. -/
theorem Act.idle_of_mem {m m' : Motion σ} (a : Act B t m m') {i : Idle}
    (hi : i ∈ m'.state.pool.idle) :
    i ∈ m.state.pool.idle ∨ ∃ l, m.hand = .lease l ∧ i = ⟨l.conn, l.checkedAt⟩ := by
  cases a with
  | aside a => cases a <;> exact .inl hi
  | start jobs => exact .inl (by simpa using hi)
  | free => exact .inl (by simpa using hi)
  | lend front fresh => exact .inl (front ▸ List.mem_cons_of_mem _ hi)
  | probe front => exact .inl (front ▸ List.mem_cons_of_mem _ hi)
  | @rest l o s =>
    have hi : i ∈ (s.pool.rest ⟨l.conn, l.checkedAt⟩).idle := hi
    unfold Pool.rest at hi
    split at hi
    · exact .inl hi
    · rcases List.mem_append.mp hi with hi | hi
      · exact .inl hi
      · exact .inr ⟨l, rfl, List.mem_singleton.mp hi⟩
  | _ => exact .inl hi

/-- What is kept after an act was kept before it or was in hand. -/
theorem Act.kept_of_get? {m m' : Motion σ} (a : Act B t m m') {name : String} {l : Lease}
    (hl : Table.get? m'.state.held name = some l) :
    Table.get? m.state.held name = some l ∨ m.hand = .lease l := by
  have hput : ∀ {s : Limiter σ} {key : String} {new : Lease},
      Table.get? (Table.put s.held key new) name = some l →
        Table.get? s.held name = some l ∨ new = l := by
    intro s key new hl
    by_cases hn : name = key
    · exact .inr (by simpa [hn] using hl)
    · exact .inl (by simpa [hn] using hl)
  cases a with
  | aside a => cases a <;> exact .inl hl
  | start jobs => exact .inl (by simpa using hl)
  | free => exact .inl (by simpa using hl)
  | keep key new => exact (hput hl).imp id (congrArg Hand.lease)
  | swap key had => exact (hput hl).imp id (congrArg Hand.lease)
  | _ => exact .inl hl

theorem Leads.clock {m : Motion σ} (path : Leads B t m s') : s'.clock = m.state.clock := by
  induction path with
  | act a rest ih => exact ih.trans a.clock
  | park stage proper => rfl
  | settle outcome passed => simp

/-- A step takes no time. -/
theorem clock_of_step? (tidy : Tidy s) (step : s.step? B t = some s') : s'.clock = s.clock := by
  cases hstage : s.stage? t with
  | none => simp [step?, hstage] at step
  | some stage => exact (leads_of_step? hstage (tidy.proper t stage hstage) step).clock

@[simp] theorem clock_reclaim (s : Limiter σ) (t : TaskId) (stage : Stage) :
    (s.reclaim t stage).clock = s.clock := by
  cases stage <;> simp [reclaim]

/-- Only what lets time pass takes time. -/
theorem clock_move (W : Surroundings σ ε) (tidy : Tidy s) (m : Move ε) :
    (s.move W m).clock = s.clock ∨ ∃ us, m = .pass us := by
  cases m with
  | pass us => exact .inr ⟨us, rfl⟩
  | start jobs => exact .inl (by simp [move])
  | step t =>
    left
    cases hs : s.step? W.backend t with
    | none => simp only [move, hs, Option.getD_none]
    | some s' => simpa only [move, hs, Option.getD_some] using clock_of_step? tidy hs
  | cancel t =>
    left
    cases hs : s.stage? t with
    | none => simp only [move, cancel, hs]
    | some stage =>
      simp only [move, cancel, hs]
      split
      · rfl
      · simp
  | close => exact .inl (by simp [move, close])
  | release name =>
    left
    simp only [move]
    split
    · simp
    · rfl
  | markBroken | raise | clear | tend | arrange => exact .inl rfl

/-! ## What is known about connections -/

/-- The connection was opened or answered a ping at that time, which is past. -/
def Vouched (s : Limiter σ) (conn : ConnId) (time : Time) : Prop :=
  (Event.opened conn time ∈ s.journal ∨ Event.pinged conn time ∈ s.journal) ∧ time ≤ s.clock

/-- A connection that was checked at that time need not be checked again now. -/
def IsRecent (s : Limiter σ) (time : Time) : Prop :=
  time = s.clock ∨ s.clock - time < s.settings.healthCheckInterval * usPerMs

/-- The connection of a lease works as far as is known; one that has been lent at the instant of
`start`, and not before, was checked recently. -/
def Trusted (start s : Limiter σ) (l : Lease) : Prop :=
  s.Vouched l.conn l.checkedAt ∧
    (s.clock = start.clock → l.conn ∈ start.borrowed ∨ start.IsRecent l.checkedAt)

theorem Vouched.mono {conn : ConnId} {time : Time} (h : s.Vouched conn time)
    (hjournal : s.journal ⊆ s'.journal) (hclock : s.clock ≤ s'.clock) : s'.Vouched conn time :=
  ⟨h.1.imp (fun h => hjournal h) fun h => hjournal h, Nat.le_trans h.2 hclock⟩

theorem Trusted.mono {l : Lease} (h : Trusted start s l) (hstart : start.clock ≤ s.clock)
    (hjournal : s.journal ⊆ s'.journal) (hclock : s.clock ≤ s'.clock) : Trusted start s' l :=
  ⟨h.1.mono hjournal hclock, fun hnow => h.2 (Nat.le_antisymm (hnow ▸ hclock) hstart)⟩

/-- Whether a connection is broken does not matter for when it was checked. -/
theorem Trusted.mark {l : Lease} (h : Trusted start s l) (broken : Bool) :
    Trusted start s { l with broken } := h

/-- All resting and all lent connections work as far as is known. -/
structure Checked (start s : Limiter σ) : Prop where
  tidy : Tidy s
  settings : s.settings = start.settings
  clock : start.clock ≤ s.clock
  idle : ∀ i ∈ s.pool.idle, s.Vouched i.conn i.checkedAt
  lent : ∀ t l, s.hand t = .lease l → Trusted start s l
  kept : ∀ name l, Table.get? s.held name = some l → Trusted start s l

/-- The same while task `t` is under way. -/
structure Checking (start : Limiter σ) (t : TaskId) (m : Motion σ) : Prop where
  tidy : Tidy m.state
  settings : m.state.settings = start.settings
  clock : start.clock ≤ m.state.clock
  idle : ∀ i ∈ m.state.pool.idle, m.state.Vouched i.conn i.checkedAt
  own : ∀ l, m.hand = .lease l → Trusted start m.state l
  others : ∀ u ≠ t, ∀ l, m.state.hand u = .lease l → Trusted start m.state l
  kept : ∀ name l, Table.get? m.state.held name = some l → Trusted start m.state l

namespace Checking

/-- A connection that has been opened or has answered a ping was checked just now. -/
theorem answered {h : Hand} {call : Call} (fits : h.Fits call) (c : Checking start t ⟨h, none, s⟩)
    {l : Lease} (hl : h.answered s.clock (s.finishCall B t call).2 = .lease l) :
    Trusted start (s.finishCall B t call).1 l := by
  have hjournal : s.journal ⊆ (s.finishCall B t call).1.journal := List.subset_append_right ..
  have hold : h = .lease l → Trusted start (s.finishCall B t call).1 l := fun hh =>
    (c.own l hh).mono c.clock hjournal (Nat.le_refl _)
  have htold : ∀ ms, (s.finishCall B t call).2 = .ok ms →
      ∀ e ∈ answerEvents s.clock t call (.ok ms), e ∈ (s.finishCall B t call).1.journal := by
    intro ms hr e he
    refine List.mem_append_left _ (List.mem_reverse.mpr ?_)
    have hr : (B.finish s.backend s.clock call.conn call.command).2 = .ok ms := hr
    rwa [hr]
  cases hr : (s.finishCall B t call).2 with
  | error f =>
    rw [hr] at hl
    exact hold hl
  | ok ms =>
    rw [hr] at hl
    cases h with
    | probe conn =>
      obtain ⟨hconn, hping⟩ := fits
      cases hl
      refine ⟨⟨.inr (htold ms hr _ ?_), Nat.le_refl _⟩, fun hnow => .inr (.inl hnow)⟩
      simp [answerEvents, hping, hconn]
    | opening conn =>
      obtain ⟨hconn, hconnect⟩ := fits
      cases hl
      refine ⟨⟨.inl (htold ms hr _ ?_), Nat.le_refl _⟩, fun hnow => .inr (.inl hnow)⟩
      simp [answerEvents, hconnect, hconn]
    | _ => exact hold hl

/-- A lease that comes into a hand is lent now, after a check or because there was one recently. -/
theorem own_act {m m' : Motion σ} (a : Act B t m m') (h : Checking start t m) {l : Lease}
    (hl : m'.hand = .lease l) : Trusted start m'.state l := by
  have hold : m.hand = .lease l → Trusted start m'.state l := fun hl =>
    (h.own l hl).mono h.clock a.journal_subset (Nat.le_of_eq a.clock.symm)
  cases a with
  | @lend s i rest front fresh =>
    cases hl
    have hsettings : s.settings = start.settings := h.settings
    refine ⟨h.idle i (front ▸ List.mem_cons_self ..), fun hnow => .inr (.inr ?_)⟩
    have hnow : s.clock = start.clock := hnow
    simpa [isFresh, hnow, hsettings] using fresh
  | finish call fits => exact h.answered fits hl
  | @mark l o s broken =>
    cases hl
    exact (h.own l rfl).mark broken
  | swap name had =>
    cases hl
    exact h.kept name _ had
  | aside a => exact hold hl
  | emit e own => exact hold hl
  | _ => cases hl

theorem act {m m' : Motion σ} (a : Act B t m m') (h : Checking start t m) :
    Checking start t m' := by
  have hjournal := a.journal_subset
  have hclock := Nat.le_of_eq a.clock.symm
  refine ⟨h.tidy.act a, a.settings.trans h.settings, Nat.le_trans h.clock hclock, fun i hi => ?_,
    fun l hl => h.own_act a hl, fun u hu l hl => ?_, fun name l hl => ?_⟩
  · rcases a.idle_of_mem hi with hi | ⟨l, hl, rfl⟩
    · exact (h.idle i hi).mono hjournal hclock
    · exact (h.own l hl).1.mono hjournal hclock
  · exact (h.others u hu l (a.lease_of_hand hl)).mono h.clock hjournal hclock
  · rcases a.kept_of_get? hl with hl | hl
    · exact (h.kept name l hl).mono h.clock hjournal hclock
    · exact (h.own l hl).mono h.clock hjournal hclock

end Checking

namespace Checked

/-- Nothing has been lent yet since a limiter was like that. -/
theorem refl (tidy : Tidy s) (idle : ∀ i ∈ s.pool.idle, s.Vouched i.conn i.checkedAt)
    (lent : ∀ t l, s.hand t = .lease l → s.Vouched l.conn l.checkedAt)
    (kept : ∀ name l, Table.get? s.held name = some l → s.Vouched l.conn l.checkedAt) :
    Checked s s where
  tidy := tidy
  settings := rfl
  clock := Nat.le_refl _
  idle := idle
  lent t l hl :=
    ⟨lent t l hl, fun _ => .inl ((mem_borrowed tidy).mpr (.inl ⟨t, l, hl, rfl⟩))⟩
  kept name l hl :=
    ⟨kept name l hl, fun _ => .inl ((mem_borrowed tidy).mpr (.inr ⟨name, l, hl, rfl⟩))⟩

theorem fresh (backend : σ) (settings : PoolSettings) :
    Checked (Limiter.fresh backend settings) (Limiter.fresh backend settings) :=
  refl (.fresh backend settings) (by simp [Limiter.fresh, Pool.fresh])
    (by simp [Limiter.fresh, hand, stage?]) (by simp [Limiter.fresh])

/-- What has been lent up to now is looked at no more. -/
theorem again (h : Checked start s) : Checked s s :=
  refl h.tidy h.idle (fun t l hl => (h.lent t l hl).1) fun n l hl => (h.kept n l hl).1

theorem layDown (h : Checking start t ⟨s.hand t, none, s⟩) : Checked start s where
  tidy := h.tidy
  settings := h.settings
  clock := h.clock
  idle := h.idle
  lent u l hl := by
    by_cases hu : u = t
    · exact h.own l (hu ▸ hl)
    · exact h.others u hu l hl
  kept := h.kept

theorem outside {W : Surroundings σ ε} (ho : Outside W s s') (h : Checked start s) :
    Checked start s' := by
  have tidy := Tidy.outside ho h.tidy
  cases ho with
  | arrange ready => exact ⟨tidy, h.settings, h.clock, h.idle, h.lent, h.kept⟩
  | tend change => exact ⟨tidy, h.settings, h.clock, h.idle, h.lent, h.kept⟩
  | shut => exact ⟨tidy, h.settings, h.clock, by simp [Pool.close], h.lent, h.kept⟩
  | pass us =>
    have hle : s.clock ≤ s.clock + us := Nat.le_add_right ..
    have hsame : s.journal ⊆ s.journal := List.Subset.refl _
    exact ⟨tidy, h.settings, Nat.le_trans h.clock hle, fun i hi => (h.idle i hi).mono hsame hle,
      fun t l hl => (h.lent t l hl).mono h.clock hsame hle,
      fun name l hl => (h.kept name l hl).mono h.clock hsame hle⟩
  | mark name =>
    refine ⟨tidy, h.settings, h.clock, h.idle, h.lent, fun other l hl => ?_⟩
    by_cases hn : other = name
    · subst hn
      obtain ⟨old, hold, rfl⟩ : ∃ old, Table.get? s.held other = some old ∧
          { old with broken := true } = l := by simpa using hl
      exact (h.kept other old hold).mark true
    · exact h.kept other l (by simpa [hn] using hl)

theorem invariant (W : Surroundings σ ε) (start : Limiter σ) :
    Invariant W (Checked start) (Checking start) where
  proper h hs := h.tidy.proper _ _ hs
  takeUp t h := ⟨h.tidy, h.settings, h.clock, h.idle, h.lent t, fun u _ => h.lent u, h.kept⟩
  layDown := layDown
  act := Checking.act
  setStage proper h :=
    ⟨h.tidy.setStage proper, h.settings, h.clock, h.idle, h.own,
      fun u hu l hl => h.others u hu l (by simpa [hu] using hl), h.kept⟩
  settle {s t o task outcome} hget _ h :=
    ⟨h.tidy.settle hget outcome, h.settings, h.clock, h.idle, by simp,
      fun u hu l hl => h.others u hu l (by simpa [hand, stage?, hu] using hl), h.kept⟩
  outside := outside
  unkeep {s t name lease} hheld ht h := by
    refine ⟨h.tidy.unkeep name, h.settings, h.clock, h.idle, ?_, fun u _ => h.lent u,
      fun other l hl => ?_⟩
    · rintro _ ⟨⟩
      exact h.kept name lease hheld
    · by_cases hn : other = name
      · simp [hn] at hl
      · exact h.kept other l (by simpa [hn] using hl)

end Checked

/-- After every run, a connection that the next move lends, at whatever time that is, was opened or
answered a ping then, or less than the interval between health checks before. Where that interval
is zero, it was then. -/
theorem lent_recently_checked (W : Surroundings σ ε) (backend : σ) (settings : PoolSettings)
    (moves : List (Move ε)) {m : Move ε} {conn : ConnId}
    (lends : ((fresh backend settings).run W moves).Lends W m conn) :
    let s := (fresh backend settings).run W moves
    let s' := s.move W m
    s'.clock = s.clock ∧ ∃ time ≤ s'.clock,
      (.opened conn time ∈ s'.journal ∨ .pinged conn time ∈ s'.journal) ∧
        (time = s'.clock ∨ s'.clock - time < settings.healthCheckInterval * usPerMs) ∧
        (settings.healthCheckInterval = 0 → time = s'.clock) := by
  intro s s'
  have hrun : Checked (fresh backend settings) s :=
    (Checked.invariant W _).run (.fresh backend settings) moves
  have hmove : Checked s s' := (Checked.invariant W s).move hrun.again m
  have hclock : s'.clock = s.clock := by
    rcases clock_move W hrun.tidy m with h | ⟨us, rfl⟩
    · exact h
    · -- nobody lends anything while time passes
      exact absurd lends.after lends.before
  -- whoever has the connection now has a lease that tells when it was checked
  obtain ⟨l, htrusted, rfl⟩ : ∃ l, Trusted s s' l ∧ l.conn = conn := by
    rcases (mem_borrowed hmove.tidy).mp lends.after with ⟨t, l, hl, hconn⟩ | ⟨name, l, hl, hconn⟩
    · exact ⟨l, hmove.lent t l hl, hconn⟩
    · exact ⟨l, hmove.kept name l hl, hconn⟩
  obtain ⟨⟨htold, hpast⟩, hrecent⟩ := htrusted
  have hsettings : s.settings = settings := hrun.settings
  have hnow : s.IsRecent l.checkedAt := (hrecent hclock).resolve_left lends.before
  rw [IsRecent, ← hclock, hsettings] at hnow
  refine ⟨hclock, l.checkedAt, hpast, htold, hnow, fun hzero => hnow.resolve_right ?_⟩
  simp [hzero]

end Limiter

namespace Memory

/-- Somebody borrows a connection for a second, and gives it back. -/
def borrowOnce : List (Move MemoryChange) :=
  [.start [.borrow 1000 false], .step 0, .step 0, .pass 1000000, .step 0, .start [.verify]]

/-- A connection that was opened a second ago is lent again without a ping. -/
theorem lent_recently_checked_secondTime :
    let s := (Limiter.fresh fresh .standard).run surroundings borrowOnce
    let s' := s.move surroundings (.step 1)
    s.Lends surroundings (.step 1) 0 ∧ s'.clock = 1000000 ∧
      ∃ time ≤ 1000000, (.opened 0 time ∈ s'.journal ∨ .pinged 0 time ∈ s'.journal) ∧
        (time = 1000000 ∨ 1000000 - time < 30000 * usPerMs) := by
  intro s s'
  have lends : s.Lends surroundings (.step 1) 0 := ⟨by decide +kernel, by decide +kernel⟩
  have hclock : s'.clock = 1000000 := by decide +kernel
  obtain ⟨-, time, hpast, htold, hrecent, -⟩ :=
    Limiter.lent_recently_checked surroundings fresh .standard borrowOnce lends
  have hpast : time ≤ s'.clock := hpast
  have hrecent : time = s'.clock ∨ s'.clock - time < 30000 * usPerMs := hrecent
  rw [hclock] at hpast hrecent
  exact ⟨lends, hclock, time, hpast, htold, hrecent⟩

end Memory

end Turnstile
