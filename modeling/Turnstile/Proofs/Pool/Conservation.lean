import Turnstile.Proofs.Pool.Discards
import Turnstile.Proofs.Pool.Freshness

/-!
# No connection is lost, doubled or brought back

`Accounted` is the account of a run: a connection has one place from the move that opens it to the
move that drops it, and none before or after. The moves that drop a connection are those of
`Discards`, so one on which a command has failed is never lent again. A pool that keeps no
connections opens one for whoever borrows (`Spent`).
-/

namespace Turnstile

/-- How often the connection of that number is being opened. -/
def Hand.opens (c : ConnId) : Hand → Nat
  | .opening conn => [conn].count c
  | _ => 0

theorem Hand.bare_opens (c : ConnId) : Hand.Bare (Hand.opens c) := ⟨rfl, rfl, rfl⟩

theorem Hand.opens_answered_le (h : Hand) (now : Time) (reply : Reply) (c : ConnId) :
    (h.answered now reply).opens c ≤ h.opens c := by
  cases reply <;> cases h <;> first | exact Nat.le_refl _ | exact Nat.zero_le _

/-- How many connections in hand have to be pinged. -/
def Hand.probes (h : Hand) : Nat := h.probe?.toList.length

theorem Hand.bare_probes : Hand.Bare Hand.probes := ⟨rfl, rfl, rfl⟩

theorem Hand.probes_eq_zero {h : Hand} : h.probes = 0 ↔ h.probe? = none := by
  cases h <;> simp [probes, probe?]

namespace Limiter

variable {σ ε : Type} {W : Surroundings σ ε} {B : Backend σ} {s s' : Limiter σ} {t : TaskId}
  {c : ConnId}

/-! ## Numbers of the past -/

/-- The number has been given to a connection that is not being opened any more. -/
structure Settled (c : ConnId) (s : Limiter σ) : Prop where
  tidy : Tidy s
  numbered : c < s.nextConn
  unopened : s.allHands (Hand.opens c) = 0

/-- The same while task `t` is under way. -/
structure Settling (c : ConnId) (t : TaskId) (m : Motion σ) : Prop where
  tidy : Tidy m.state
  numbered : c < m.state.nextConn
  own : m.hand.opens c = 0
  others : m.state.elsewhere (Hand.opens c) t = 0

theorem Settling.act {m m' : Motion σ} (a : Act B t m m') (h : Settling c t m) :
    Settling c t m' := by
  have numbered : c < m'.state.nextConn := by
    rcases a.within_le with ⟨hnext, -⟩ | ⟨hnext, -⟩
    · exact Nat.lt_of_lt_of_le h.numbered (hnext ▸ Nat.le_succ _)
    · exact Nat.lt_of_lt_of_le h.numbered hnext
  have others := (a.elsewhere h.tidy (Hand.bare_opens c)).trans h.others
  refine ⟨h.tidy.act a, numbered, ?_, others⟩
  cases a with
  | @«open» s none_rests =>
    have hne : s.nextConn ≠ c := (Nat.ne_of_lt h.numbered).symm
    simp [Hand.opens, hne]
  | finish call fits => exact Nat.le_zero.mp (h.own ▸ Hand.opens_answered_le ..)
  | aside | emit => exact h.own
  | _ => rfl

theorem Settled.outside (ho : Outside W s s') (h : Settled c s) : Settled c s' := by
  have tidy := Tidy.outside ho h.tidy
  cases ho <;> exact ⟨tidy, h.numbered, h.unopened⟩

theorem Settled.invariant (W : Surroundings σ ε) (c : ConnId) :
    Invariant W (Settled c) (Settling (σ := σ) c) where
  proper h hs := h.tidy.proper _ _ hs
  takeUp {s} t h := by
    have hsum := allHands_eq (f := Hand.opens c) h.tidy rfl t
    rw [h.unopened] at hsum
    obtain ⟨hown, hothers⟩ := Nat.eq_zero_of_add_eq_zero hsum.symm
    exact ⟨h.tidy, h.numbered, hown, hothers⟩
  layDown {s t} h := by
    have hsum := allHands_eq (f := Hand.opens c) h.tidy rfl t
    rw [show (s.hand t).opens c = 0 from h.own,
      show s.elsewhere (Hand.opens c) t = 0 from h.others] at hsum
    exact ⟨h.tidy, h.numbered, hsum⟩
  act := Settling.act
  setStage {s t h stage} proper hi :=
    ⟨hi.tidy.setStage proper, hi.numbered, hi.own, (elsewhere_setStage stage).trans hi.others⟩
  settle {s t o task outcome} hget _ hi :=
    ⟨hi.tidy.settle hget outcome, hi.numbered, rfl,
      (congrArg (Table.sum _) (Table.without_put_self ..)).trans hi.others⟩
  outside := Settled.outside
  unkeep {s t name lease} _ ht hi := by
    have hsum := allHands_eq (f := Hand.opens c) hi.tidy rfl t
    rw [hi.unopened] at hsum
    exact ⟨hi.tidy.unkeep name, hi.numbered, rfl, (Nat.eq_zero_of_add_eq_zero hsum.symm).2⟩

/-- A connection that has a place is not being opened. -/
theorem Distinct.settled (d : Distinct s) (hc : c ∈ s.places) : Settled c s := by
  have hpos : 0 < s.places.count c := List.count_pos_iff.mpr hc
  refine ⟨d.tidy, Decidable.byContradiction fun hnext => ?_, Table.sum_eq_zero fun e he => ?_⟩
  · have hle := Table.sum_le_sum (fun task : Task => task.stage.hand.count_conns_le c) s.tasks
    have hpast := d.past c (Nat.le_of_not_lt hnext)
    rw [count_places] at hpos
    simp only [count, allHands] at hle hpast hpos
    omega
  · have hhand : s.hand e.1 = e.2.stage.hand :=
      hand_of_get? (Table.get?_of_mem d.tidy.distinct he)
    cases hstage : e.2.stage.hand with
    | opening conn =>
      by_cases hconn : conn = c
      · subst hconn
        have hzero := d.count_of_opening (hhand.trans hstage)
        have hopening : (Hand.opening conn).conns = [] := rfl
        rw [count_places_eq d.tidy e.1, reach, hhand, hstage, hopening, List.count_nil] at hpos
        omega
      · simp [Hand.opens, hconn]
    | _ => rfl

/-- What is about to be opened has not been opened before. -/
theorem Opens.not_settled {m : Move ε} (opens : Opens W s m c) : ¬Settled c s := by
  intro settled
  cases m with
  | step t =>
    have hhand : s.hand t = .opening c := by
      simp only [Opens, opened?] at opens
      split at opens
      · rename_i goal call hs
        split at opens
        · rw [hand_of_stage? hs]
          exact congrArg Hand.opening (Option.some.inj opens)
        · cases opens
      · cases opens
    have hsum := allHands_eq (f := Hand.opens c) settled.tidy rfl t
    rw [settled.unopened, hhand, Hand.opens, List.count_singleton_self] at hsum
    omega
  | _ => exact opens

/-! ## What is dropped had a place -/

theorem mem_places_of_hand (tidy : Tidy s) (has : (s.hand t).conns = [c]) : c ∈ s.places := by
  rw [← List.count_pos_iff, count_places_eq tidy t, reach, has, List.count_singleton_self]
  omega

theorem hand_of_returned {l : Lease} (returned : s.returned? B t = some l) :
    (s.hand t).conns = [l.conn] := by
  unfold returned? at returned
  split at returned
  · rename_i hs
    obtain ⟨ok, -, rfl⟩ := Option.map_eq_some_iff.mp returned
    rw [hand_of_stage? hs]
    rfl
  · rename_i hs
    obtain ⟨ok, -, rfl⟩ := Option.map_eq_some_iff.mp returned
    rw [hand_of_stage? hs]
    rfl
  · rename_i hs
    split at returned
    · cases returned
      rw [hand_of_stage? hs]
      rfl
    · cases returned
  · cases returned

theorem hand_of_unpinged (unpinged : s.unpinged? B t = some c) : (s.hand t).conns = [c] := by
  unfold unpinged? at unpinged
  split at unpinged
  · rename_i hs
    split at unpinged
    · cases unpinged
      rw [hand_of_stage? hs]
      rfl
    · cases unpinged
  · rename_i hs
    rw [hand_of_stage? hs]
    split at unpinged
    · split at unpinged
      · cases unpinged
      · cases unpinged
        rfl
    · cases unpinged
  · cases unpinged

theorem Releases.mem_places {m : Move ε} {l : Lease} (tidy : Tidy s)
    (releases : Releases W s m l) : l.conn ∈ s.places := by
  cases releases with
  | returned h => exact mem_places_of_hand tidy (hand_of_returned h)
  | displaced step h =>
    obtain ⟨name, had, -⟩ := h
    exact mem_places_of_kept had
  | cancelled h => exact mem_places_of_hand tidy (congrArg Hand.conns h)
  | released h => exact mem_places_of_kept h

theorem Discards.mem_places {m : Move ε} (tidy : Tidy s) (discards : Discards W s m c) :
    c ∈ s.places := by
  cases discards with
  | refused releases refuses => exact releases.mem_places tidy
  | shut rests => exact List.mem_append_left _ rests
  | unpinged h => exact mem_places_of_hand tidy (hand_of_unpinged h)
  | cancelled h => exact mem_places_of_hand tidy (congrArg Hand.conns h)

/-! ## Runs -/

/-- At some point in the run a move is made of which `P` holds. -/
def Happens (W : Surroundings σ ε) (P : Limiter σ → Move ε → Prop) :
    Limiter σ → List (Move ε) → Prop
  | _, [] => False
  | s, m :: rest => P s m ∨ Happens W P (s.move W m) rest

theorem happens_append {P : Limiter σ → Move ε → Prop} (moves more : List (Move ε)) :
    Happens W P s (moves ++ more) ↔ Happens W P s moves ∨ Happens W P (s.run W moves) more := by
  induction moves generalizing s with
  | nil => simp [Happens, run]
  | cons first rest ih =>
    have hrun : s.run W (first :: rest) = (s.move W first).run W rest := rfl
    simp only [List.cons_append, Happens, ih, hrun, or_assoc]

theorem happens_concat {P : Limiter σ → Move ε → Prop} (moves : List (Move ε)) (m : Move ε) :
    Happens W P s (moves ++ [m]) ↔ Happens W P s moves ∨ P (s.run W moves) m := by
  rw [happens_append]
  simp [Happens]

/-- The run opens the connection. -/
def Opened (W : Surroundings σ ε) (s : Limiter σ) (moves : List (Move ε)) (c : ConnId) : Prop :=
  Happens W (fun u m => Opens W u m c) s moves

/-- The run drops the connection. -/
def Dropped (W : Surroundings σ ε) (s : Limiter σ) (moves : List (Move ε)) (c : ConnId) : Prop :=
  Happens W (fun u m => Discards W u m c) s moves

/-- What has become of a number in a run. -/
structure Fated (W : Surroundings σ ε) (s : Limiter σ) (moves : List (Move ε)) (c : ConnId) :
    Prop where
  places : c ∈ (s.run W moves).places ↔ Opened W s moves c ∧ ¬Dropped W s moves c
  dropped : Dropped W s moves c → Opened W s moves c
  settled : Opened W s moves c → Settled c (s.run W moves)

theorem fated_run (W : Surroundings σ ε) (backend : σ) (settings : PoolSettings)
    (moves : List (Move ε)) (c : ConnId) : Fated W (fresh backend settings) moves c := by
  induction moves using List.reverseRecOn with
  | nil =>
    refine ⟨?_, fun h => h.elim, fun h => h.elim⟩
    simp [run, fresh, Pool.fresh, places, lent, Opened, Happens]
  | append_singleton moves m ih =>
    have d := distinct_run W backend settings moves
    have d' := distinct_run W backend settings (moves ++ [m])
    have hrun : (fresh backend settings).run W (moves ++ [m]) =
        ((fresh backend settings).run W moves).move W m := by
      rw [run_append]
      rfl
    have hlaw := mem_places_move (W := W) d m c
    rw [← hrun] at hlaw
    have hopened : Opened W (fresh backend settings) (moves ++ [m]) c ↔
        Opened W (fresh backend settings) moves c ∨ Opens W _ m c := happens_concat moves m
    have hdropped : Dropped W (fresh backend settings) (moves ++ [m]) c ↔
        Dropped W (fresh backend settings) moves c ∨ Discards W _ m c := happens_concat moves m
    -- what a move opens was never opened before, and so was never dropped
    have hnew : ∀ {s}, Opens W s m c → s = (fresh backend settings).run W moves →
        ¬Opened W (fresh backend settings) moves c := by
      rintro s opens rfl opened
      exact opens.not_settled (ih.settled opened)
    have hnowhere : ∀ {s}, Opens W s m c → s = (fresh backend settings).run W moves →
        c ∉ s.places := by
      rintro s opens rfl hc
      exact opens.not_settled (d.settled hc)
    refine ⟨?_, ?_, ?_⟩
    · rw [hlaw, hopened, hdropped, ih.places]
      constructor
      · rintro (⟨⟨opened, kept⟩, keeps⟩ | opens)
        · exact ⟨.inl opened, fun h => h.elim kept keeps⟩
        · refine ⟨.inr opens, fun h => h.elim (fun dropped => ?_) fun discards => ?_⟩
          · exact hnew opens rfl (ih.dropped dropped)
          · exact hnowhere opens rfl (discards.mem_places d.tidy)
      · rintro ⟨opened | opens, keeps⟩
        · exact .inl ⟨⟨opened, fun h => keeps (.inl h)⟩, fun h => keeps (.inr h)⟩
        · exact .inr opens
    · rw [hopened, hdropped]
      rintro (dropped | discards)
      · exact .inl (ih.dropped dropped)
      · exact .inl (ih.places.mp (discards.mem_places d.tidy)).1
    · rw [hopened]
      rintro (opened | opens)
      · rw [hrun]
        exact (Settled.invariant W c).move (ih.settled opened) m
      · exact d'.settled (hlaw.mpr (.inr opens))

/-! ## Pools that keep no connections -/

/-- Nothing rests and nothing is being pinged. -/
structure Spent (s : Limiter σ) : Prop where
  idle : s.pool.idle = []
  unprobed : s.allHands Hand.probes = 0

theorem Spent.freePermit (h : Spent s) : Spent s.freePermit :=
  ⟨(still_freePermit s).idle.trans h.idle,
    (allHands_freePermit Hand.bare_probes s).trans h.unprobed⟩

theorem Spent.giveBack (off : s.settings.keepalive = false) (h : Spent s) (l : Lease) :
    Spent (s.giveBack l) := by
  rw [giveBack_of_refused (by simp [refuses, off])]
  exact h.freePermit

theorem Spent.reclaim (off : s.settings.keepalive = false) (h : Spent s) (t : TaskId)
    (stage : Stage) : Spent (s.reclaim t stage) := by
  cases stage with
  | granted | probing | opening | sweeping => exact h.freePermit
  | evaluating | verifying | holding => exact h.giveBack off _
  | queued => exact ⟨h.idle, h.unprobed⟩
  | _ => exact h

theorem Spent.wakeAll (h : Spent s) (ts : List TaskId) : Spent (s.wakeAll ts) := by
  obtain ⟨ready, heq⟩ := s.wakeAll_eq ts
  rw [heq]
  exact ⟨h.idle, h.unprobed⟩

theorem Spent.probe?_eq_none (tidy : Tidy s) (h : Spent s) (t : TaskId) :
    (s.hand t).probe? = none := by
  have hsum := allHands_eq (f := Hand.probes) tidy rfl t
  rw [h.unprobed] at hsum
  exact Hand.probes_eq_zero.mp (Nat.eq_zero_of_add_eq_zero hsum.symm).1

theorem Spent.elsewhere (tidy : Tidy s) (h : Spent s) (t : TaskId) :
    s.elsewhere Hand.probes t = 0 := by
  have hsum := allHands_eq (f := Hand.probes) tidy rfl t
  rw [h.unprobed] at hsum
  exact (Nat.eq_zero_of_add_eq_zero hsum.symm).2

/-- Nothing is being pinged if a task pings nothing and the others did not. -/
theorem Spent.of_elsewhere (tidy : Tidy s') (idle : s'.pool.idle = [])
    (own : (s'.hand t).probe? = none) (others : s'.elsewhere Hand.probes t = 0) : Spent s' := by
  refine ⟨idle, ?_⟩
  rw [allHands_eq (f := Hand.probes) tidy rfl t, Hand.probes_eq_zero.mpr own, others]

theorem Spent.step (d : Distinct s) (off : s.settings.keepalive = false) (h : Spent s)
    (step : s.step? B t = some s') : Spent s' := by
  obtain ⟨stage, hs⟩ := exists_stage_of_step? step
  have path := leads_of_step? hs (d.tidy.proper t stage hs) step
  obtain ⟨hand, goesOn⟩ := (carries_of_step? hs step).goesOn d
  have moved := goesOn.flow (mem_keys_of_stage? hs)
    fun c => Nat.le_trans (Nat.le_add_right ..) (goesOn.once c)
  obtain ⟨idle, own⟩ := moved.calm off h.idle (goesOn.probe (h.probe?_eq_none d.tidy t))
  exact .of_elsewhere (tidy_of_step? d.tidy step) idle own
    ((path.elsewhere d.tidy Hand.bare_probes).trans (h.elsewhere d.tidy t))

theorem Spent.cancel (tidy : Tidy s) (off : s.settings.keepalive = false) (h : Spent s)
    (t : TaskId) : Spent (s.cancel t) := by
  cases hs : s.stage? t with
  | none => simpa only [Limiter.cancel, hs] using h
  | some stage =>
    simp only [Limiter.cancel, hs]
    split
    · exact h
    · refine Spent.wakeAll (Spent.reclaim
        (s := { s with ready := s.ready.erase t }.setStage t .cancelled) off ?_ t stage) _
      have tidy' : Tidy { s with ready := s.ready.erase t } := tidy.of_eq rfl rfl rfl
      refine .of_elsewhere (t := t) (tidy'.setStage trivial) h.idle ?_ ?_
      · rw [hand_setStage_self (s := { s with ready := s.ready.erase t })
          (mem_keys_of_stage? hs) .cancelled]
        rfl
      · exact (elsewhere_setStage _).trans (h.elsewhere tidy t)

/-- A pool that keeps no connections stays without any. -/
theorem Spent.move (d : Distinct s) (off : s.settings.keepalive = false) (h : Spent s)
    (m : Move ε) : Spent (s.move W m) := by
  cases m with
  | start jobs =>
    have hnew : s.hand s.nextTask = .nothing :=
      hand_of_none (stage?_eq_none_iff.mpr d.tidy.nextTask_not_mem)
    refine .of_elsewhere (t := s.nextTask) (d.tidy.start jobs)
      ((Still.start s jobs).idle.trans h.idle) ?_ ?_
    · have hhand := hand_start jobs hnew
      simp only [Limiter.move, hhand, Hand.probe?]
    · exact (elsewhere_start d.tidy rfl jobs _).trans (h.elsewhere d.tidy _)
  | step t =>
    cases step : s.step? W.backend t with
    | none => simpa only [Limiter.move, step, Option.getD_none] using h
    | some s' => simpa only [Limiter.move, step, Option.getD_some] using h.step d off step
  | cancel t => exact h.cancel d.tidy off t
  | close => exact Spent.wakeAll (s := { s with pool := s.pool.close.1 }) ⟨rfl, h.unprobed⟩ _
  | release name =>
    simp only [Limiter.move]
    split
    · exact Spent.giveBack (s := { s with held := Table.without s.held name }) off
        ⟨h.idle, h.unprobed⟩ _
    · exact h
  | _ => exact ⟨h.idle, h.unprobed⟩

theorem spent_run (W : Surroundings σ ε) (backend : σ) {settings : PoolSettings}
    (off : settings.keepalive = false) (moves : List (Move ε)) :
    Spent ((fresh backend settings).run W moves) := by
  induction moves using List.reverseRecOn with
  | nil => exact ⟨rfl, rfl⟩
  | append_singleton moves m ih =>
    have checked := (Checked.invariant W (fresh backend settings)).run
      (Checked.fresh backend settings) moves
    rw [run_append]
    exact ih.move (distinct_run W backend settings moves)
      ((congrArg PoolSettings.keepalive checked.settings).trans off) m

/-- Whatever has a place is borrowed, if nothing rests and nothing is being pinged. -/
theorem Spent.mem_borrowed (tidy : Tidy s) (h : Spent s) (hc : c ∈ s.places) : c ∈ s.borrowed := by
  have hlent : c ∈ s.lent := by simpa [places, h.idle] using hc
  rcases List.mem_append.mp hlent with hown | hheld
  · refine List.mem_append_left _ ?_
    obtain ⟨e, he, hconn⟩ := List.mem_flatMap.mp hown
    have hprobe := h.probe?_eq_none tidy e.1
    rw [hand_of_get? (Table.get?_of_mem tidy.distinct he)] at hprobe
    refine List.mem_flatMap.mpr ⟨e, he, ?_⟩
    rw [e.2.stage.conns_hand] at hconn
    cases hhand : e.2.stage.hand <;> simp_all [Hand.conns, Hand.lease?, Hand.probe?]
  · exact List.mem_append_right _ hheld

/-! ## The account of a run -/

/-- The move ends a borrowing in which the store has failed: a call that was to be counted, or a
ping that was to show that the store answers. -/
inductive Spoils (W : Surroundings σ ε) (s : Limiter σ) : Move ε → ConnId → Prop where
  | counting {t : TaskId} {e : Evaluation} {attempt : Nat} {lease : Lease} {call : Call}
    (hs : s.stage? t = some (.evaluating e attempt lease call))
    (failed : s.answered? W.backend t call = some false) : Spoils W s (.step t) lease.conn
  | verifying {t : TaskId} {lease : Lease} {call : Call}
    (hs : s.stage? t = some (.verifying lease call))
    (failed : s.answered? W.backend t call = some false) : Spoils W s (.step t) lease.conn

theorem Spoils.discards {m : Move ε} (spoils : Spoils W s m c) : Discards W s m c := by
  have broken : ∀ {t : TaskId} {lease : Lease},
      s.returned? W.backend t = some (lease.tried false) → Discards W s (.step t) lease.conn :=
    fun {t lease} returned =>
      .refused (l := lease.tried false) (.returned returned) (by simp [refuses, Lease.tried])
  cases spoils with
  | counting hs failed => exact broken (by simp [returned?, hs, failed])
  | verifying hs failed => exact broken (by simp [returned?, hs, failed])

/-- What has become of the connections after a run. -/
structure Accounted (W : Surroundings σ ε) (start : Limiter σ) (moves : List (Move ε)) : Prop where
  /-- No connection is in two places. -/
  once : (start.run W moves).places.Nodup
  /-- A connection has a place if it was opened and was not dropped. -/
  places : ∀ c, c ∈ (start.run W moves).places ↔
    Opened W start moves c ∧ ¬Dropped W start moves c
  dropped : ∀ c, Dropped W start moves c → Opened W start moves c
  /-- No number is given to a second connection. -/
  new : ∀ {m c}, Opens W (start.run W moves) m c → ¬Opened W start moves c
  /-- A move leaves a connection its place unless it drops it. -/
  leaves : ∀ {c}, c ∈ (start.run W moves).places → ∀ m,
    (c ∉ ((start.run W moves).move W m).places ↔ Discards W (start.run W moves) m c)
  /-- A connection on which the store has failed has no place any more, and nobody gets it. -/
  spoiled : ∀ {m c}, Spoils W (start.run W moves) m c → ∀ (later : List (Move ε)) (next : Move ε),
    c ∉ (((start.run W moves).move W m).run W later).places ∧
      ¬Lends W (((start.run W moves).move W m).run W later) next c
  /-- If connections are not kept, whoever gets one gets a new one. -/
  unkept : start.settings.keepalive = false → ∀ {m c}, Lends W (start.run W moves) m c →
    Opens W (start.run W moves) m c

/-- In every run every connection is accounted for. -/
theorem connections_accounted (W : Surroundings σ ε) (backend : σ) (settings : PoolSettings)
    (moves : List (Move ε)) : Accounted W (fresh backend settings) moves := by
  have d := distinct_run W backend settings moves
  have fated := fated_run W backend settings moves
  have gone : ∀ {m c}, Discards W ((fresh backend settings).run W moves) m c →
      ∀ later, c ∉ ((((fresh backend settings).run W moves).move W m).run W later).places := by
    intro m c discards later hc
    have hrun : (fresh backend settings).run W (moves ++ m :: later) =
        (((fresh backend settings).run W moves).move W m).run W later := by
      rw [run_append]
      rfl
    have dropped : Dropped W (fresh backend settings) (moves ++ m :: later) c :=
      (happens_append moves (m :: later)).mpr (.inr (.inl discards))
    exact ((fated_run W backend settings (moves ++ m :: later) c).places.mp (hrun ▸ hc)).2 dropped
  exact
    { once := List.nodup_iff_count_le_one.mpr d.count_places_le_one
      places := fun c => (fated c).places
      dropped := fun c => (fated c).dropped
      new := fun opens opened => opens.not_settled ((fated _).settled opened)
      leaves := fun {c} hc m => by
        rw [mem_places_move d m c]
        have hopens : ¬Opens W ((fresh backend settings).run W moves) m c :=
          fun opens => opens.not_settled (d.settled hc)
        simp [hc, hopens]
      spoiled := fun spoils later next => by
        refine ⟨gone spoils.discards later, fun lends => ?_⟩
        refine gone spoils.discards (later ++ [next]) ?_
        rw [run_append]
        exact borrowed_subset_places _ lends.after
      unkept := fun off {m c} lends => by
        rcases (mem_places_move d m c).mp (borrowed_subset_places _ lends.after) with
          ⟨hc, -⟩ | opens
        · exact absurd ((spent_run W backend off moves).mem_borrowed d.tidy hc) lends.before
        · exact opens }

end Limiter

end Turnstile
