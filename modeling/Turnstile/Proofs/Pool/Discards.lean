import Turnstile.Proofs.Pool.Flow

/-!
# When connections are opened and dropped

`Opens` and `Discards` say of every move which connection it opens and which it drops, from what the
tasks stand at before the move. A connection is dropped when the pool refuses it as it is given
back, when it rests while the pool is closed, when it fails a ping or the ping of a sweep is
answered in a closed pool, and when whoever pings it is cancelled. `mem_places_move` says that there
is no other way: a move opens or drops these connections, and all others keep a place.
-/

namespace Turnstile

namespace Limiter

variable {σ ε : Type} {W : Surroundings σ ε} {B : Backend σ} {s s' : Limiter σ} {t : TaskId}
  {c : ConnId}

/-- Whether the store has answered a request as it was asked to, once nobody waits any more. -/
def answered? (B : Backend σ) (s : Limiter σ) (t : TaskId) (call : Call) : Option Bool :=
  match s.progress call with
  | .pending => none
  | .late => some false
  | .ripe => some (s.finishCall B t call).2.isOk

/-- The connection that the next step of a task opens. -/
def opened? (B : Backend σ) (s : Limiter σ) (t : TaskId) : Option ConnId :=
  match s.stage? t with
  | some (.opening _ call) => if s.answered? B t call = some true then some call.conn else none
  | _ => none

/-- The lease that the next step of a task gives back. It is broken if the borrower says so or if
what was asked on it has failed. -/
def returned? (B : Backend σ) (s : Limiter σ) (t : TaskId) : Option Lease :=
  match s.stage? t with
  | some (.evaluating _ _ lease call) | some (.verifying lease call) =>
    (s.answered? B t call).map lease.tried
  | some (.holding lease broken _ timer) =>
    if s.rung timer then some { lease with broken } else none
  | _ => none

/-- The connection that the next step of a task drops after pinging it: the ping has failed, or a
sweep cannot lay the connection to rest again. -/
def unpinged? (B : Backend σ) (s : Limiter σ) (t : TaskId) : Option ConnId :=
  match s.stage? t with
  | some (.probing _ call) => if s.answered? B t call = some false then some call.conn else none
  | some (.sweeping _ call) =>
    match s.answered? B t call with
    | some ok => if ok && !s.pool.closed then none else some call.conn
    | none => none
  | _ => none

/-- The move opens the connection. -/
def Opens (W : Surroundings σ ε) (s : Limiter σ) : Move ε → ConnId → Prop
  | .step t, c => s.opened? W.backend t = some c
  | _, _ => False

/-- The move gives the lease back to the pool. -/
inductive Releases (W : Surroundings σ ε) (s : Limiter σ) : Move ε → Lease → Prop where
  | returned {t : TaskId} {l : Lease} (h : s.returned? W.backend t = some l) :
    Releases W s (.step t) l
  /-- Another connection is kept under its name. -/
  | displaced {t : TaskId} {l : Lease} {s' : Limiter σ} (step : s.step? W.backend t = some s')
    (h : Displaced s s' l) :
    Releases W s (.step t) l
  | cancelled {t : TaskId} {l : Lease} (h : s.hand t = .lease l) : Releases W s (.cancel t) l
  | released {name : String} {l : Lease} (h : Table.get? s.held name = some l) :
    Releases W s (.release name) l

/-- The move drops the connection. -/
inductive Discards (W : Surroundings σ ε) (s : Limiter σ) : Move ε → ConnId → Prop where
  /-- It is given back to a pool that does not keep it. -/
  | refused {m : Move ε} {l : Lease} (releases : s.Releases W m l) (refuses : s.refuses l = true) :
    Discards W s m l.conn
  /-- It rests while the pool is closed. -/
  | shut {c : ConnId} (rests : c ∈ s.pool.idle.map (·.conn)) : Discards W s .close c
  | unpinged {t : TaskId} {c : ConnId} (h : s.unpinged? W.backend t = some c) :
    Discards W s (.step t) c
  /-- Whoever pings it is cancelled. -/
  | cancelled {t : TaskId} {c : ConnId} (h : s.hand t = .probe c) : Discards W s (.cancel t) c

/-! ## Steps -/

/-- The connection that a task has in hand and that its next step drops. -/
def dropped? (B : Backend σ) (s : Limiter σ) (t : TaskId) : Option ConnId :=
  s.unpinged? B t <|> ((s.returned? B t).filter s.refuses).map (·.conn)

/-- What a step does with what the task has in hand. -/
inductive Carries (B : Backend σ) (t : TaskId) (s s' : Limiter σ) : Prop where
  | drops (c : ConnId) (own : (s.hand t).conns = [c]) (dropped : s.dropped? B t = some c)
    (opened : s.opened? B t = none) (flow : Flow .nothing t s s')
  | opens (c : ConnId) (own : s.hand t = .opening c) (dropped : s.dropped? B t = none)
    (opened : s.opened? B t = some c) (flow : Flow (.lease ⟨c, s.clock, false⟩) t s s')
  | keeps (dropped : s.dropped? B t = none) (opened : s.opened? B t = none)
    (flow : Flow (s.hand t) t s s')

theorem still_finishCall (s : Limiter σ) (t : TaskId) (call : Call) :
    Still s (s.finishCall B t call).1 :=
  .of_eq rfl rfl rfl rfl rfl rfl

theorem answered?_of_late {call : Call} (late : s.progress call = .late) :
    s.answered? B t call = some false := by
  simp only [answered?, late]

theorem answered?_of_ripe {call : Call} {reply : Reply} (ripe : s.progress call = .ripe)
    (hr : (s.finishCall B t call).2 = reply) : s.answered? B t call = some reply.isOk := by
  simp only [answered?, ripe, hr]

section

variable {goal : Goal} {call : Call} {lease : Lease}

/-- Whoever gives back the lease in hand drops it or leaves it to the pool. -/
theorem carries_of_returned {l : Lease} (hs : s.hand t = .lease lease)
    (unpinged : s.unpinged? B t = none) (opened : s.opened? B t = none)
    (returned : s.returned? B t = some l) (conn : l.conn = lease.conn)
    (flow : Flow (s.left l) t s s') : Carries B t s s' := by
  cases refused : s.refuses l with
  | true =>
    have dropped : s.dropped? B t = some lease.conn := by
      simp [dropped?, unpinged, returned, refused, conn]
    simp only [left, refused, if_true] at flow
    exact .drops lease.conn (by rw [hs]; rfl) dropped opened flow
  | false =>
    have dropped : s.dropped? B t = none := by simp [dropped?, unpinged, returned, refused]
    simp only [left, refused, Bool.false_eq_true, if_false] at flow
    refine .keeps dropped opened (flow.of_conns ?_ fun _ => rfl)
    rw [hs]
    exact congrArg (fun c => [c]) conn.symm

theorem carries_of_probing (hs : s.stage? t = some (.probing goal call))
    (step : s.step? B t = some s') : Carries B t s s' := by
  have own : s.hand t = .probe call.conn := hand_of_stage? hs
  have opened : s.opened? B t = none := by simp [opened?, hs]
  simp only [step?, hs] at step
  split at step
  · cases step
  · rename_i late
    cases step
    have dropped : s.dropped? B t = some call.conn := by
      simp [dropped?, unpinged?, hs, answered?_of_late late]
    exact .drops call.conn (by rw [own]; rfl) dropped opened (.evict goal)
  · rename_i ripe
    have still := s.still_finishCall (B := B) t call
    cases hr : s.finishCall B t call with
    | mk u reply =>
      have answered := answered?_of_ripe ripe (congrArg Prod.snd hr)
      simp only [hr] at step still
      cases reply with
      | ok ms =>
        cases step
        have dropped : s.dropped? B t = none := by
          simp [dropped?, unpinged?, returned?, hs, answered, Except.isOk, Except.toBool]
        refine .keeps dropped opened (.after still ((Flow.employ goal _).of_conns ?_ ?_))
        · rw [own]
          rfl
        · intro _
          rfl
      | error f =>
        cases step
        have dropped : s.dropped? B t = some call.conn := by
          simp [dropped?, unpinged?, hs, answered, Except.isOk, Except.toBool]
        exact .drops call.conn (by rw [own]; rfl) dropped opened (.after still (.evict goal))

theorem carries_of_opening (hs : s.stage? t = some (.opening goal call))
    (step : s.step? B t = some s') : Carries B t s s' := by
  have own : s.hand t = .opening call.conn := hand_of_stage? hs
  have dropped : s.dropped? B t = none := by simp [dropped?, unpinged?, returned?, hs]
  have nothing : ∀ {s'}, Flow .nothing t s s' → Flow (s.hand t) t s s' := fun flow =>
    flow.of_conns (by rw [own]; rfl) fun _ => rfl
  simp only [step?, hs] at step
  split at step
  · cases step
  · rename_i late
    cases step
    have opened : s.opened? B t = none := by simp [opened?, hs, answered?_of_late late]
    exact .keeps dropped opened (nothing (.openFailed _))
  · rename_i ripe
    have still := s.still_finishCall (B := B) t call
    cases hr : s.finishCall B t call with
    | mk u reply =>
      have answered := answered?_of_ripe ripe (congrArg Prod.snd hr)
      have clock := clock_finishCall hr
      simp only [hr] at step still
      cases reply with
      | ok ms =>
        cases step
        have opened : s.opened? B t = some call.conn := by
          simp [opened?, hs, answered, Except.isOk, Except.toBool]
        exact .opens call.conn own dropped opened (.after still (clock ▸ .openDone goal call.conn))
      | error f =>
        cases step
        have opened : s.opened? B t = none := by
          simp [opened?, hs, answered, Except.isOk, Except.toBool]
        exact .keeps dropped opened (nothing (.after still (.openFailed f)))

theorem carries_of_evaluating {e : Evaluation} {attempt : Nat}
    (hs : s.stage? t = some (.evaluating e attempt lease call)) (step : s.step? B t = some s') :
    Carries B t s s' := by
  have own : s.hand t = .lease lease := hand_of_stage? hs
  have unpinged : s.unpinged? B t = none := by simp [unpinged?, hs]
  have opened : s.opened? B t = none := by simp [opened?, hs]
  have returned : s.returned? B t =
      (s.answered? B t call).map lease.tried := by
    simp only [returned?, hs]
  simp only [step?, hs] at step
  split at step
  · cases step
  · rename_i late
    cases step
    rw [answered?_of_late late] at returned
    exact carries_of_returned own unpinged opened returned rfl
      (.counted e attempt lease (.error .commandTimeout))
  · rename_i ripe
    have still := s.still_finishCall (B := B) t call
    cases hr : s.finishCall B t call with
    | mk u reply =>
      rw [answered?_of_ripe ripe (congrArg Prod.snd hr)] at returned
      simp only [hr] at step still
      cases step
      exact carries_of_returned own unpinged opened returned rfl
        (still.left _ ▸ .after still (.counted e attempt lease reply))

theorem carries_of_verifying (hs : s.stage? t = some (.verifying lease call))
    (step : s.step? B t = some s') : Carries B t s s' := by
  have own : s.hand t = .lease lease := hand_of_stage? hs
  have unpinged : s.unpinged? B t = none := by simp [unpinged?, hs]
  have opened : s.opened? B t = none := by simp [opened?, hs]
  have returned : s.returned? B t = (s.answered? B t call).map lease.tried := by
    simp only [returned?, hs]
  simp only [step?, hs] at step
  split at step
  · cases step
  · rename_i late
    cases step
    rw [answered?_of_late late] at returned
    exact carries_of_returned own unpinged opened returned rfl
      (.verified lease (.error .connectTimeout))
  · rename_i ripe
    have still := s.still_finishCall (B := B) t call
    cases hr : s.finishCall B t call with
    | mk u reply =>
      rw [answered?_of_ripe ripe (congrArg Prod.snd hr)] at returned
      simp only [hr] at step still
      cases step
      exact carries_of_returned own unpinged opened returned rfl
        (still.left _ ▸ .after still (.verified lease reply))

theorem carries_of_holding {broken : Bool} {since : Time} {timer : Timer}
    (hs : s.stage? t = some (.holding lease broken since timer))
    (step : s.step? B t = some s') : Carries B t s s' := by
  have own : s.hand t = .lease lease := hand_of_stage? hs
  have unpinged : s.unpinged? B t = none := by simp [unpinged?, hs]
  have opened : s.opened? B t = none := by simp [opened?, hs]
  simp only [step?, hs] at step
  split at step
  · rename_i rung
    cases step
    have returned : s.returned? B t = some { lease with broken } := by
      simp [returned?, hs, rung]
    exact carries_of_returned own unpinged opened returned rfl (.giveBack _ (.settle _))
  · cases step

/-- A sweep drops the connection in hand, unless it has answered and the pool is open. -/
theorem carries_of_sweeping {sweep : Sweep} (hs : s.stage? t = some (.sweeping sweep call))
    (step : s.step? B t = some s') : Carries B t s s' := by
  have own : s.hand t = .probe call.conn := hand_of_stage? hs
  have opened : s.opened? B t = none := by simp [opened?, hs]
  have conns : (s.hand t).conns = [call.conn] := by rw [own]; rfl
  simp only [step?, hs] at step
  split at step
  · cases step
  · rename_i late
    cases step
    have dropped : s.dropped? B t = some call.conn := by
      simp [dropped?, unpinged?, hs, answered?_of_late late]
    exact .drops call.conn conns dropped opened (.swept_failed sweep call)
  · rename_i ripe
    have still := s.still_finishCall (B := B) t call
    cases hr : s.finishCall B t call with
    | mk u reply =>
      have answered := answered?_of_ripe ripe (congrArg Prod.snd hr)
      simp only [hr] at step still
      cases reply with
      | ok ms =>
        cases step
        cases closed : s.pool.closed with
        | true =>
          have dropped : s.dropped? B t = some call.conn := by
            simp [dropped?, unpinged?, hs, answered, closed, Except.isOk, Except.toBool]
          exact .drops call.conn conns dropped opened
            (.after still (.swept_closed sweep call (still.closed.trans closed)))
        | false =>
          have dropped : s.dropped? B t = none := by
            simp [dropped?, unpinged?, returned?, hs, answered, closed, Except.isOk,
              Except.toBool]
          refine .keeps dropped opened ?_
          rw [own]
          exact .after still (.swept_ok sweep call (still.closed.trans closed))
      | error f =>
        cases step
        have dropped : s.dropped? B t = some call.conn := by
          simp [dropped?, unpinged?, hs, answered, Except.isOk, Except.toBool]
        exact .drops call.conn conns dropped opened (.after still (.swept_failed sweep call))

end

/-- A task without a connection in hand has none to drop. -/
theorem Carries.bare {stage : Stage} (hs : s.stage? t = some stage)
    (none : stage.hand.connections = 0) (flow : Flow .nothing t s s') : Carries B t s s' := by
  have own : s.hand t = stage.hand := hand_of_stage? hs
  cases stage with
  | probing | opening | evaluating | verifying | holding | sweeping => cases none
  | _ =>
    refine .keeps (by simp [dropped?, unpinged?, returned?, hs]) (by simp [opened?, hs]) ?_
    exact flow.of_conns (by rw [own]; rfl) fun _ => rfl

/-- A step carries what the task has in hand. -/
theorem carries_of_step? {stage : Stage} (hs : s.stage? t = some stage)
    (step : s.step? B t = some s') : Carries B t s s' := by
  cases stage with
  | probing goal call => exact carries_of_probing hs step
  | opening goal call => exact carries_of_opening hs step
  | evaluating e attempt lease call => exact carries_of_evaluating hs step
  | verifying lease call => exact carries_of_verifying hs step
  | holding lease broken since timer => exact carries_of_holding hs step
  | sweeping sweep call => exact carries_of_sweeping hs step
  | queued goal expiry =>
    refine .bare hs rfl ?_
    simp only [step?, hs] at step
    split at step
    · cases step
      exact .fail _
    · split at step
      · cases step
        exact .after (u := { s with pool := s.pool.leave t }) (.of_eq rfl rfl rfl rfl rfl rfl)
          (.fail _)
      · cases step
  | granted goal =>
    refine .bare hs rfl ?_
    simp only [step?, hs] at step
    split at step
    · cases step
      exact .after (still_freePermit s) (.fail _)
    · cases step
      exact .choose goal
  | fresh job =>
    refine .bare hs rfl ?_
    simp only [step?, hs] at step
    cases step
    exact .begin job
  | awaiting c child =>
    refine .bare hs rfl ?_
    simp only [step?, hs] at step
    split at step
    · cases step
      exact .decide child c _
    · cases step
  | joining task =>
    refine .bare hs rfl ?_
    simp only [step?, hs] at step
    split at step
    · cases step
      exact .settle _
    · cases step
  | sleeping timer =>
    refine .bare hs rfl ?_
    simp only [step?, hs] at step
    split at step
    · cases step
      exact .settle _
    · cases step
  | calling call =>
    refine .bare hs rfl ?_
    simp only [step?, hs] at step
    split at step
    · cases step
      exact .after (s.still_finishCall t call) (.settle _)
    · cases step
  | resting deadline timer =>
    refine .bare hs rfl ?_
    simp only [step?, hs] at step
    split at step
    · cases step
      exact .beginSweep deadline
    · cases step
  | done time =>
    simp only [step?, hs] at step
    cases step
  | cancelled =>
    simp only [step?, hs] at step
    cases step

/-! ## Places after a step -/

/-- How often a connection is in somebody's hands who is not task `t`. -/
def away (s : Limiter σ) (t : TaskId) (c : ConnId) : Nat :=
  s.elsewhere (fun h => h.conns.count c) t

/-- A place is one that task `t` can reach or is in somebody else's hands. -/
theorem count_places_eq (tidy : Tidy s) (t : TaskId) (c : ConnId) :
    s.places.count c = s.reach (s.hand t) c + s.away t c := by
  rw [count_places, count_eq (g := Hand.conns) tidy rfl t, besides, reach, away]
  omega

/-- Others have after a step what they had before. -/
theorem Leads.elsewhere {m : Motion σ} (path : Leads B t m s') (tidy : Tidy m.state)
    {f : Hand → Nat} (bare : Hand.Bare f) : s'.elsewhere f t = m.state.elsewhere f t := by
  induction path with
  | act a rest ih => exact (ih (tidy.act a)).trans (a.elsewhere tidy bare)
  | park stage proper => exact elsewhere_setStage stage
  | settle outcome passed => simp [Limiter.elsewhere]

/-- What is ousted was kept. -/
theorem Ousted.kept_pos (ousted : Ousted s s' c) : 0 < s.kept c := by
  obtain ⟨l, ⟨name, had, -⟩, -, rfl⟩ := ousted
  have hle := Table.le_sum_of_get? had fun l' : Lease => [l'.conn].count l.conn
  simp only [List.count_singleton_self] at hle
  exact hle

theorem mem_places_of_kept {name : String} {l : Lease} (hget : Table.get? s.held name = some l) :
    l.conn ∈ s.places := by
  refine List.mem_append_right _ (List.mem_append_right _ ?_)
  exact List.mem_map.mpr ⟨(name, l), Table.mem_of_get? hget, rfl⟩

theorem Ousted.mem_places (ousted : Ousted s s' c) : c ∈ s.places := by
  obtain ⟨l, ⟨name, had, -⟩, -, rfl⟩ := ousted
  exact mem_places_of_kept had

theorem exists_stage_of_step? (step : s.step? B t = some s') :
    ∃ stage, s.stage? t = some stage := by
  cases hs : s.stage? t with
  | none => simp [step?, hs] at step
  | some stage => exact ⟨stage, rfl⟩

theorem tidy_of_step? (tidy : Tidy s) (step : s.step? B t = some s') : Tidy s' :=
  -- what the surroundings do to the store does not matter
  (Tidy.invariant ⟨B, fun _ b (_ : Unit) => b⟩).step? tidy step

/-- Which connections have a place after a step that goes on with `h` in hand. -/
theorem mem_places_of_flow {h : Hand} {stage : Stage} (tidy : Tidy s)
    (hs : s.stage? t = some stage) (step : s.step? B t = some s') (flow : Flow h t s s')
    (once : ∀ c, s.reach h c + s.away t c ≤ 1) (c : ConnId) :
    c ∈ s'.places ↔
      ¬Ousted s s' c ∧ 0 < s.reach h c + s.away t c := by
  have path := leads_of_step? hs (tidy.proper t stage hs) step
  have tidy' := tidy_of_step? tidy step
  have helse : s'.away t c = s.away t c := path.elsewhere tidy (Hand.bare_conns c)
  have moved := flow (mem_keys_of_stage? hs) fun c => Nat.le_trans (Nat.le_add_right ..) (once c)
  rw [← List.count_pos_iff, count_places_eq tidy' t c, helse]
  by_cases ousted : Ousted s s' c
  · have hkept := ousted.kept_pos
    have hgone := moved.goes c ousted
    have honce := once c
    simp only [reach] at honce hgone ⊢
    simp only [ousted, not_true_eq_false, false_and, iff_false]
    omega
  · rw [moved.stays c ousted]
    exact (and_iff_right ousted).symm

theorem Distinct.count_places_le_one (d : Distinct s) (c : ConnId) : s.places.count c ≤ 1 := by
  have hle := Table.sum_le_sum (fun task : Task => task.stage.hand.count_conns_le c) s.tasks
  have honce := d.once c
  rw [count_places]
  simp only [count, allHands] at hle honce ⊢
  omega

/-- A connection that is being opened has no other place. -/
theorem Distinct.count_of_opening (d : Distinct s) (hs : s.hand t = .opening c) :
    s.resting c + s.kept c + s.away t c = 0 := by
  have honce := d.once c
  have hle : s.away t c ≤ s.elsewhere (fun h => h.numbers.count c) t :=
    elsewhere_le (fun h => h.count_conns_le c) s t
  have hnumbers : (Hand.opening c).numbers = [c] := rfl
  rw [count_eq (g := Hand.numbers) d.tidy rfl t, hs, besides, hnumbers,
    List.count_singleton_self] at honce
  omega

/-! ## What a step drops -/

theorem unpinged?_of_returned {l : Lease} (returned : s.returned? B t = some l) :
    s.unpinged? B t = none := by
  unfold returned? at returned
  split at returned <;> simp_all [unpinged?]

/-- A step drops what the task has in hand, or what it puts another connection in the place of. -/
theorem dropped_of_discards (discards : Discards W s (.step t) c) :
    (∃ s', s.step? W.backend t = some s' ∧ Ousted s s' c) ∨ s.dropped? W.backend t = some c := by
  cases discards with
  | unpinged h => exact .inr (by simp [dropped?, h])
  | refused releases refuses =>
    cases releases with
    | returned h => exact .inr (by simp [dropped?, unpinged?_of_returned h, h, refuses])
    | displaced step h => exact .inl ⟨_, step, _, h, refuses, rfl⟩

theorem discards_step_iff (step : s.step? W.backend t = some s') :
    Discards W s (.step t) c ↔ Ousted s s' c ∨ s.dropped? W.backend t = some c := by
  constructor
  · intro discards
    rcases dropped_of_discards discards with ⟨s'', step', ousted⟩ | dropped
    · cases step'.symm.trans step
      exact .inl ousted
    · exact .inr dropped
  · rintro (⟨l, h, refuses, rfl⟩ | dropped)
    · exact .refused (.displaced step h) refuses
    · cases hunpinged : s.unpinged? W.backend t with
      | some conn =>
        obtain rfl : conn = c := by simpa [dropped?, hunpinged] using dropped
        exact .unpinged hunpinged
      | none =>
        obtain ⟨l, ⟨returned, refuses⟩, rfl⟩ : ∃ l, (s.returned? W.backend t = some l ∧
            s.refuses l = true) ∧ l.conn = c := by
          simpa [dropped?, hunpinged, Option.filter_eq_some_iff] using dropped
        exact .refused (.returned returned) refuses

/-- A step goes on with `h` in hand once it has dropped and opened what it drops and opens. -/
structure GoesOn (B : Backend σ) (t : TaskId) (s : Limiter σ) (h : Hand) (s' : Limiter σ) :
    Prop where
  flow : Flow h t s s'
  probe : (s.hand t).probe? = none → h.probe? = none
  once : ∀ c, s.reach h c + s.away t c ≤ 1
  new : ∀ c, s.opened? B t = some c → c ∉ s.places
  reached : ∀ c, 0 < s.reach h c + s.away t c ↔
    (c ∈ s.places ∧ s.dropped? B t ≠ some c) ∨ s.opened? B t = some c

theorem Carries.goesOn (d : Distinct s) (carries : Carries B t s s') :
    ∃ h, GoesOn B t s h s' := by
  have hplaces := fun c => count_places_eq d.tidy t c
  have honce := d.count_places_le_one
  cases carries with
  | keeps dropped opened flow =>
    refine ⟨_, flow, id, fun c => hplaces c ▸ honce c, by simp [opened], fun c => ?_⟩
    rw [← hplaces c, List.count_pos_iff]
    simp [dropped, opened]
  | drops c₀ own dropped opened flow =>
    have hreach : ∀ c, s.places.count c = s.reach .nothing c + s.away t c + [c₀].count c := by
      intro c
      have hnone : Hand.conns .nothing = [] := rfl
      simp only [hplaces c, reach, own, hnone, List.count_nil]
      omega
    refine ⟨_, flow, fun _ => rfl, fun c => ?_, by simp [opened], fun c => ?_⟩
    · exact Nat.le_trans (Nat.le.intro (hreach c).symm) (honce c)
    · have hone := honce c
      have hc := hreach c
      rw [dropped, opened, ← List.count_pos_iff]
      by_cases heq : c₀ = c
      · -- the connection in hand was the only one of its number
        rw [heq, List.count_singleton_self] at hc
        simp only [heq, ne_eq, not_true_eq_false, and_false, reduceCtorEq, or_self, iff_false]
        omega
      · rw [List.count_singleton, if_neg (by simpa using heq)] at hc
        simp [hc, heq]
  | opens c₀ own dropped opened flow =>
    have hlease : Hand.conns (.lease ⟨c₀, s.clock, false⟩) = [c₀] := rfl
    have hopening : Hand.conns (.opening c₀) = [] := rfl
    have hreach : ∀ c, s.reach (.lease ⟨c₀, s.clock, false⟩) c + s.away t c =
        s.places.count c + [c₀].count c := by
      intro c
      simp only [hplaces c, reach, own, hlease, hopening, List.count_nil]
      omega
    have hnone : s.places.count c₀ = 0 := by
      have hzero := d.count_of_opening own
      simp only [hplaces c₀, reach, own, hopening, List.count_nil]
      omega
    refine ⟨_, flow, fun _ => rfl, fun c => ?_, fun c hc => ?_, fun c => ?_⟩
    · rw [hreach c, List.count_singleton]
      split
      · rename_i hc
        obtain rfl : c₀ = c := by simpa using hc
        omega
      · exact honce c
    · obtain rfl : c₀ = c := Option.some.inj (opened.symm.trans hc)
      exact List.count_eq_zero.mp hnone
    · rw [hreach c, dropped, opened, ← List.count_pos_iff]
      by_cases hc : c₀ = c
      · simp [hc]
      · simp [hc]

theorem mem_places_step (d : Distinct s) (step : s.step? W.backend t = some s') (c : ConnId) :
    c ∈ s'.places ↔ (c ∈ s.places ∧ ¬Discards W s (.step t) c) ∨ Opens W s (.step t) c := by
  obtain ⟨stage, hs⟩ := exists_stage_of_step? step
  obtain ⟨h, goesOn⟩ := (carries_of_step? hs step).goesOn d
  rw [mem_places_of_flow d.tidy hs step goesOn.flow goesOn.once c, goesOn.reached c,
    discards_step_iff step]
  have hkept : s.opened? W.backend t = some c → ¬Ousted s s' c :=
    fun opened ousted => goesOn.new c opened ousted.mem_places
  simp only [Opens]
  constructor
  · rintro ⟨kept, ⟨hc, keeps⟩ | opened⟩
    · exact .inl ⟨hc, fun h => h.elim kept keeps⟩
    · exact .inr opened
  · rintro (⟨hc, keeps⟩ | opened)
    · exact ⟨fun h => keeps (.inl h), .inl ⟨hc, fun h => keeps (.inr h)⟩⟩
    · exact ⟨hkept opened, .inr opened⟩

/-! ## Places after other moves -/

/-- A permit that is given back is nobody's connection. -/
theorem count_places_freePermit (s : Limiter σ) (c : ConnId) :
    s.freePermit.places.count c = s.places.count c := by
  have still := still_freePermit s
  simp only [count_places, count, allHands_freePermit (Hand.bare_conns c), resting, kept,
    still.idle, still.held]

/-- A connection that is given back has a place unless the pool refuses it. -/
theorem count_places_giveBack (s : Limiter σ) (l : Lease) (c : ConnId) :
    (s.giveBack l).places.count c = s.places.count c + (s.left l).conns.count c := by
  cases refused : s.refuses l with
  | true =>
    simp [left, refused, giveBack_of_refused refused, count_places_freePermit, Hand.conns]
  | false =>
    rw [giveBack_of_kept refused, count_places_freePermit]
    simp only [left, refused, places, lent, Hand.conns, List.map_append, List.count_append,
      Bool.false_eq_true, if_false, List.map_cons, List.map_nil]
    omega

theorem places_wakeAll (s : Limiter σ) (ts : List TaskId) : (s.wakeAll ts).places = s.places := by
  simp [places, lent]

theorem count_places_start (tidy : Tidy s) (jobs : List Job) (c : ConnId) :
    (s.start jobs).1.places.count c = s.places.count c := by
  have hnew : s.hand s.nextTask = .nothing :=
    hand_of_none (stage?_eq_none_iff.mpr tidy.nextTask_not_mem)
  have haway : (s.start jobs).1.away s.nextTask c = s.away s.nextTask c :=
    elsewhere_start tidy (Hand.bare_conns c).nothing jobs s.nextTask
  rw [count_places_eq tidy s.nextTask, count_places_eq (tidy.start jobs) s.nextTask,
    (Still.start s jobs).reach, hand_start jobs hnew, hnew, haway]

/-- What is left of what a cancelled task had in hand. -/
def salvaged (s : Limiter σ) : Hand → List ConnId
  | .lease l => (s.left l).conns
  | _ => []

theorem count_places_reclaim (s : Limiter σ) (t : TaskId) (stage : Stage) (c : ConnId) :
    (s.reclaim t stage).places.count c = s.places.count c + (s.salvaged stage.hand).count c := by
  cases stage with
  | granted | probing | opening | sweeping => exact count_places_freePermit s c
  | evaluating | verifying | holding => exact count_places_giveBack s _ c
  | _ => rfl

/-- A task that stops lets go of what it had in hand. -/
theorem count_places_stop (tidy : Tidy s) {stage : Stage} (hs : s.stage? t = some stage)
    (c : ConnId) :
    (({ s with ready := s.ready.erase t } : Limiter σ).setStage t .cancelled).places.count c +
      stage.hand.conns.count c = s.places.count c := by
  have erased : Tidy { s with ready := s.ready.erase t } := tidy.of_eq rfl rfl rfl
  have tidy' := erased.setStage (t := t) (show Stage.cancelled.Proper from trivial)
  have hhand : (({ s with ready := s.ready.erase t } : Limiter σ).setStage t .cancelled).hand t =
      .nothing := hand_setStage_self (s := { s with ready := s.ready.erase t })
    (mem_keys_of_stage? hs) .cancelled
  have hbefore := count_places_eq tidy t c
  have hafter := count_places_eq tidy' t c
  rw [hhand, away, elsewhere_setStage] at hafter
  rw [hand_of_stage? hs] at hbefore
  have hnone : Hand.conns .nothing = [] := rfl
  simp only [reach, hnone, List.count_nil] at hafter hbefore
  rw [hafter, hbefore]
  simp only [away, elsewhere, resting, kept, setStage]
  omega

theorem count_places_cancel (tidy : Tidy s) (t : TaskId) (c : ConnId) :
    (s.cancel t).places.count c + (s.hand t).conns.count c =
      s.places.count c + (s.salvaged (s.hand t)).count c := by
  cases hs : s.stage? t with
  | none =>
    rw [hand_of_none hs]
    simp only [cancel, hs]
    rfl
  | some stage =>
    rw [hand_of_stage? hs]
    cases ended : stage.isOver with
    | true =>
      have hnone : stage.hand = .nothing := by
        cases stage <;> first | rfl | cases ended
      simp only [cancel, hs, ended, if_true, hnone]
      rfl
    | false =>
      have hstop := count_places_stop tidy hs c
      have hsalvaged : (({ s with ready := s.ready.erase t } : Limiter σ).setStage t
          .cancelled).salvaged stage.hand = s.salvaged stage.hand := rfl
      simp only [cancel, hs, ended, Bool.false_eq_true, if_false]
      rw [places_wakeAll, count_places_reclaim, hsalvaged]
      omega

/-- Whoever gives back what was kept under a name leaves it to the pool. -/
theorem count_places_release {name : String} {l : Lease} (tidy : Tidy s)
    (hget : Table.get? s.held name = some l) (c : ConnId) :
    (s.move W (.release name)).places.count c + [l.conn].count c =
      s.places.count c + (s.left l).conns.count c := by
  have hkept := Table.sum_eq_add_without tidy.names hget fun l' : Lease => [l'.conn].count c
  have hleft : ({ s with held := Table.without s.held name } : Limiter σ).left l = s.left l := rfl
  have hwithout : ({ s with held := Table.without s.held name } : Limiter σ).places.count c +
      [l.conn].count c = s.places.count c := by
    simp only [count_places, count, kept, resting, allHands] at hkept ⊢
    omega
  simp only [move, hget]
  rw [count_places_giveBack, hleft]
  omega

theorem count_places_close (s : Limiter σ) (c : ConnId) :
    s.close.places.count c + s.resting c = s.places.count c := by
  have hclose : s.close.places = s.lent := by
    rw [close, places_wakeAll]
    rfl
  rw [hclose, places, List.count_append, resting]
  omega

/-- Finding a connection broken moves it nowhere. -/
theorem count_places_mark (s : Limiter σ) (name : String) (c : ConnId) :
    (s.move W (.markBroken name)).places.count c = s.places.count c := by
  simp only [move, count_places, count, kept_mark]
  rfl

/-! ## Places after a move -/

/-- A task that has to wait drops nothing and opens nothing. -/
theorem idle_of_step?_eq_none (step : s.step? B t = none) :
    s.dropped? B t = none ∧ s.opened? B t = none := by
  cases hs : s.stage? t with
  | none => simp [dropped?, unpinged?, returned?, opened?, hs]
  | some stage =>
    have waits : ∀ {call}, s.progress call = .pending → s.answered? B t call = none :=
      fun h => by simp only [answered?, h]
    cases stage with
    | probing goal call | opening goal call | verifying lease call | sweeping sweep call
    | evaluating e attempt lease call =>
      simp only [step?, hs] at step
      split at step
      · rename_i pending
        simp [dropped?, unpinged?, returned?, opened?, hs, waits pending]
      · cases step
      · first
        | cases step
        | split at step <;> cases step
    | holding lease broken since timer =>
      simp only [step?, hs] at step
      split at step
      · cases step
      · rename_i early
        simp [dropped?, unpinged?, returned?, opened?, hs, early]
    | _ => simp [dropped?, unpinged?, returned?, opened?, hs]

theorem discards_cancel_iff : Discards W s (.cancel t) c ↔
    c ∈ (s.hand t).conns ∧ c ∉ s.salvaged (s.hand t) := by
  constructor
  · intro discards
    cases discards with
    | cancelled h => simp [h, Hand.conns, salvaged]
    | refused releases refuses =>
      cases releases with
      | cancelled h => simp [h, Hand.conns, salvaged, left, refuses]
  · rintro ⟨has, gone⟩
    cases hhand : s.hand t with
    | probe conn =>
      obtain rfl : c = conn := by simpa [hhand, Hand.conns] using has
      exact .cancelled hhand
    | lease l =>
      obtain rfl : c = l.conn := by simpa [hhand, Hand.conns] using has
      refine .refused (.cancelled hhand) (Decidable.byContradiction fun kept => gone ?_)
      simp [hhand, salvaged, left, kept, Hand.conns]
    | _ => simp [hhand, Hand.conns] at has

theorem discards_release_iff {name : String} {l : Lease} (hget : Table.get? s.held name = some l) :
    Discards W s (.release name) c ↔ c ∈ [l.conn] ∧ c ∉ (s.left l).conns := by
  constructor
  · intro discards
    cases discards with
    | refused releases refuses =>
      cases releases with
      | released h =>
        cases h.symm.trans hget
        simp [left, refuses, Hand.conns]
  · rintro ⟨has, gone⟩
    obtain rfl : c = l.conn := by simpa using has
    refine .refused (.released hget) (Decidable.byContradiction fun kept => gone ?_)
    simp [left, kept, Hand.conns]

/-- What had a place has one after part of it was taken away and part of that was given back. -/
theorem mem_iff_of_count {places places' had back : List ConnId}
    (count : places'.count c + had.count c = places.count c + back.count c)
    (once : places.count c ≤ 1) (single : had.count c ≤ 1) (less : back.count c ≤ had.count c) :
    c ∈ places' ↔ c ∈ places ∧ ¬(c ∈ had ∧ c ∉ back) := by
  simp only [← List.count_pos_iff]
  omega

theorem count_salvaged_le (s : Limiter σ) (h : Hand) (c : ConnId) :
    (s.salvaged h).count c ≤ h.conns.count c := by
  cases h with
  | lease l =>
    simp only [salvaged, left]
    split
    · exact Nat.zero_le _
    · exact Nat.le_refl _
  | _ => exact Nat.zero_le _

/-- A move opens the connections that it is said to open, drops those that it is said to drop, and
leaves every other one a place. -/
theorem mem_places_move (d : Distinct s) (m : Move ε) (c : ConnId) :
    c ∈ (s.move W m).places ↔ (c ∈ s.places ∧ ¬Discards W s m c) ∨ Opens W s m c := by
  have once := d.count_places_le_one c
  -- moves that neither open nor drop anything
  have stays : ∀ {m : Move ε}, (s.move W m).places.count c = s.places.count c →
      ¬Discards W s m c → ¬Opens W s m c →
      (c ∈ (s.move W m).places ↔ (c ∈ s.places ∧ ¬Discards W s m c) ∨ Opens W s m c) :=
    fun count keeps opens => by
      rw [← List.count_pos_iff, count, List.count_pos_iff]
      simp [keeps, opens]
  cases m with
  | step t =>
    cases step : s.step? W.backend t with
    | none =>
      obtain ⟨dropped, opened⟩ := idle_of_step?_eq_none step
      refine stays (by simp [move, step]) (fun discards => ?_) (by simp [Opens, opened])
      rcases dropped_of_discards discards with ⟨s', step', -⟩ | h
      · cases step.symm.trans step'
      · cases dropped.symm.trans h
    | some s' =>
      simp only [move, step, Option.getD_some]
      exact mem_places_step d step c
  | cancel t =>
    rw [discards_cancel_iff, show Opens W s (.cancel t) c ↔ False from Iff.rfl, or_false]
    exact mem_iff_of_count (count_places_cancel d.tidy t c) once ((s.hand t).count_conns_le_one c)
      (count_salvaged_le ..)
  | close =>
    have hdiscards : Discards W s .close c ↔
        c ∈ s.pool.idle.map (·.conn) ∧ c ∉ ([] : List ConnId) := by
      refine ⟨fun discards => ?_, fun h => .shut h.1⟩
      cases discards with
      | shut rests => exact ⟨rests, List.not_mem_nil⟩
      | refused releases refuses => cases releases
    have hcount := count_places_close s c
    rw [hdiscards, show Opens W s .close c ↔ False from Iff.rfl, or_false]
    refine mem_iff_of_count hcount once ?_ (Nat.zero_le _)
    simp only [resting] at hcount
    omega
  | release name =>
    cases hget : Table.get? s.held name with
    | none =>
      refine stays (by simp [move, hget]) (fun discards => ?_) id
      cases discards with
      | refused releases refuses =>
        cases releases with
        | released h => cases hget.symm.trans h
    | some l =>
      rw [discards_release_iff hget, show Opens W s (.release name) c ↔ False from Iff.rfl,
        or_false]
      exact mem_iff_of_count (count_places_release d.tidy hget c) once
        ((Hand.lease l).count_conns_le_one c) (count_salvaged_le s (.lease l) c)
  | start jobs =>
    exact stays (count_places_start d.tidy jobs c)
      (fun h => by cases h with | refused r _ => cases r) id
  | markBroken name =>
    exact stays (count_places_mark s name c)
      (fun h => by cases h with | refused r _ => cases r) id
  | _ => exact stays rfl (fun h => by cases h with | refused r _ => cases r) id

end Limiter

end Turnstile
