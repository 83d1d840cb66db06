import Turnstile.Proofs.Runs.Signals

/-!
# How an outage ends

Once a check has ended degraded, the flag is up. It stays up, since the same instant, and nothing is
reported of it until either somebody decides on a call by a verdict of the store or a connection is
opened (`Limiter.flag_of_degraded`). The second way is open while every call still fails: a store
that refuses to count takes new connections, and each failure costs the connection on which it
happened. So under failing scripts one series of failures is reported as an outage that is over and
begins again with every check (`Memory.recovered_between_failures`).
-/

namespace Turnstile

namespace Event

/-- Whether the event may put an end to an outage: a connection is opened, or a call is decided on
by a verdict of the store. -/
def endsOutage : Event → Bool
  | .opened .. => true
  | .decided _ _ _ d => d ≠ .degraded
  | _ => false

/-- Whether the event is a move of the flag. -/
def isTransition : Event → Bool
  | .degraded _ | .recovered => true
  | _ => false

theorem isTransition_of_not_isSignal {e : Event} (h : e.isSignal = false) :
    e.isTransition = false := by
  cases e <;> first | rfl | cases h

end Event

namespace Limiter

variable {σ ε : Type} {W : Surroundings σ ε} {s s' u : Limiter σ}

/-! ## The flag -/

/-- Raising a flag that is up does nothing. -/
theorem raise_of_up (hup : s.flag.up = true) (reason : String) : (s.raise reason).1 = s := by
  simp [raise, Flag.raise, hup, emitAll]

theorem flag_up_raise (s : Limiter σ) (reason : String) : (s.raise reason).1.flag.up = true :=
  Flag.raise_up ..

/-! ## One move -/

/-- What has been written down between two limiters; and as long as nothing of it may have put an
end to an outage, a flag that was up is as it was and has not moved. -/
structure Endures (s s' : Limiter σ) (recent : List Event) : Prop where
  journal : s'.journal = recent ++ s.journal
  still : s.flag.up = true → (∀ e ∈ recent, e.endsOutage = false) →
    s'.flag = s.flag ∧ ∀ e ∈ recent, e.isTransition = false

namespace Endures

theorem refl (s : Limiter σ) : Endures s s [] := ⟨rfl, fun _ _ => ⟨rfl, by simp⟩⟩

theorem trans {recent more : List Event} (h : Endures s u recent) (h' : Endures u s' more) :
    Endures s s' (more ++ recent) := by
  refine ⟨by rw [h'.journal, h.journal, List.append_assoc], fun hup hnone => ?_⟩
  obtain ⟨hmore, hrecent⟩ := List.forall_mem_append.mp hnone
  obtain ⟨hflag, hquiet⟩ := h.still hup hrecent
  -- the flag is still up when the second stretch begins
  obtain ⟨hflag', hquiet'⟩ := h'.still (hflag ▸ hup) hmore
  exact ⟨hflag'.trans hflag, List.forall_mem_append.mpr ⟨hquiet', hquiet⟩⟩

/-- Something that may put an end to an outage has been written down. -/
theorem of_ended {recent : List Event} (journal : s'.journal = recent ++ s.journal) {e : Event}
    (he : e ∈ recent) (ends : e.endsOutage = true) : Endures s s' recent := by
  refine ⟨journal, fun _ hnone => ?_⟩
  rw [hnone e he] at ends
  cases ends

end Endures

theorem Silent.endures (h : Silent s s') : ∃ recent, Endures s s' recent := by
  obtain ⟨recent, hjournal, hnone⟩ := h.journal
  exact ⟨recent, hjournal, fun _ _ =>
    ⟨h.flag, fun e he => Event.isTransition_of_not_isSignal (hnone e he)⟩⟩

/-- Raising the flag endures: a flag that is up stays as it is. -/
theorem endures_raise (s : Limiter σ) (reason : String) :
    ∃ recent, Endures s (s.raise reason).1 recent := by
  by_cases hup : s.flag.up = true
  · rw [raise_of_up hup]
    exact ⟨[], .refl s⟩
  · exact ⟨_, rfl, fun h => absurd h hup⟩

/-- A decision by a verdict of the store may put an end to an outage, and one for want of a verdict
does not. -/
theorem endures_decideOn (s : Limiter σ) (t child : TaskId) (c : Charge)
    (outcome : Except Fault Verdict) :
    ∃ recent, Endures s (s.decideOn t child c outcome).1 recent := by
  cases outcome with
  | ok v =>
    cases v with
    | admitted =>
      let decided := Event.decided t child c.service .admitted
      refine ⟨decided :: s.flag.clear.2.1.reverse, .of_ended rfl (e := decided) ?_ rfl⟩
      exact List.mem_cons_self ..
    | blocked ms =>
      let seconds := Verdict.retryAfterSeconds ms
      let decided := Event.decided t child c.service (.rejected seconds)
      refine ⟨.limitHit c.identity c.service seconds :: decided :: s.flag.clear.2.1.reverse,
        .of_ended rfl (e := decided) ?_ rfl⟩
      exact List.mem_cons_of_mem _ (List.mem_cons_self ..)
  | error f =>
    have hfailed : Endures s (s.emit (.checkFailed c.service f)) [.checkFailed c.service f] :=
      ⟨rfl, fun _ _ => ⟨rfl, by simp [Event.isTransition]⟩⟩
    obtain ⟨recent, hraise⟩ := endures_raise (s.emit (.checkFailed c.service f)) f.message
    have hrecord : Endures ((s.emit (.checkFailed c.service f)).raise f.message).1
        (s.decideOn t child c (.error f)).1 [.decided t child c.service .degraded] :=
      ⟨rfl, fun _ _ => ⟨rfl, by simp [Event.isTransition]⟩⟩
    exact ⟨_, (hfailed.trans hraise).trans hrecord⟩

theorem Signalled.endures {who : Option TaskId} (h : Signalled who s s') :
    ∃ recent, Endures s s' recent := by
  cases h with
  | silent quiet => exact quiet.endures
  | @raised u reason before after =>
    obtain ⟨_, hbefore⟩ := before.endures
    obtain ⟨_, hraise⟩ := endures_raise u reason
    obtain ⟨_, hafter⟩ := after.endures
    exact ⟨_, (hbefore.trans hraise).trans hafter⟩
  | @opened u conn before told after =>
    have hclear : u.clear.1.journal =
        (u.flag.clear.2.1.reverse ++ [.opened conn s.clock]) ++ s.journal := by
      rw [List.append_assoc, List.singleton_append, ← told]
      rfl
    obtain ⟨_, hafter⟩ := after.endures
    exact ⟨_, (Endures.of_ended hclear (by simp) (rfl : (Event.opened conn s.clock).endsOutage =
      true)).trans hafter⟩
  | decided t child c ended after =>
    obtain ⟨_, hdecide⟩ := endures_decideOn s t child c (verdictOf child (s.lastOutcome? child))
    obtain ⟨_, hafter⟩ := after.endures
    exact ⟨_, hdecide.trans hafter⟩

theorem endures_run (tidy : Tidy s) {moves : List (Move ε)}
    (byItself : ∀ m ∈ moves, m.isClear = false) :
    ∃ recent, Endures s (s.run W moves) recent := by
  induction moves generalizing s with
  | nil => exact ⟨[], .refl s⟩
  | cons m rest ih =>
    obtain ⟨hm, hrest⟩ := List.forall_mem_cons.mp byItself
    obtain ⟨_, hmove⟩ := (signalled_move W tidy hm).endures
    obtain ⟨_, hrun⟩ := ih ((Tidy.invariant W).move tidy m) hrest
    exact ⟨_, hmove.trans hrun⟩

/-! ## After a failure -/

/-- Whether the last thing that was written down is that a check has ended degraded. -/
def JustFailed (s : Limiter σ) : Prop :=
  ∃ t child service, s.journal.head? = some (.decided t child service .degraded)

/-- When a check has just ended degraded, the flag is up. -/
def FlagUpOnFailure (s : Limiter σ) : Prop := s.JustFailed → s.flag.up = true

/-- If nothing has been written down since, nothing has changed; and what is silent is no
decision. -/
theorem Silent.justFailed (h : Silent s s') (failed : s'.JustFailed) : s.JustFailed := by
  obtain ⟨t, child, service, hhead⟩ := failed
  obtain ⟨recent, hjournal, hnone⟩ := h.journal
  cases recent with
  | nil => exact ⟨t, child, service, by rwa [hjournal] at hhead⟩
  | cons e rest =>
    rw [hjournal, List.cons_append, List.head?_cons] at hhead
    cases hhead
    cases hnone _ (List.mem_cons_self ..)

theorem Silent.flagUpOnFailure (h : Silent s s') (hs : s.FlagUpOnFailure) :
    s'.FlagUpOnFailure := by
  intro failed
  rw [h.flag]
  exact hs (h.justFailed failed)

/-- Clearing the flag leaves no failure as the last thing written down, unless it does nothing. -/
theorem flagUpOnFailure_clear (hs : s.FlagUpOnFailure) : s.clear.1.FlagUpOnFailure := by
  rintro ⟨t, child, service, hhead⟩
  by_cases hup : s.flag.up = true
  · simp [clear, Flag.clear, hup, emitAll] at hhead
  · simp only [clear, Flag.clear, hup, emitAll] at hhead
    exact absurd (hs ⟨t, child, service, hhead⟩) hup

theorem flagUpOnFailure_decideOn (t child : TaskId) (c : Charge)
    (outcome : Except Fault Verdict) : (s.decideOn t child c outcome).1.FlagUpOnFailure := by
  rintro ⟨_, _, _, hhead⟩
  cases outcome with
  | ok v => cases v <;> cases hhead
  | error f => exact flag_up_raise (s.emit (.checkFailed c.service f)) f.message

theorem Signalled.flagUpOnFailure {who : Option TaskId} (h : Signalled who s s')
    (hs : s.FlagUpOnFailure) : s'.FlagUpOnFailure := by
  cases h with
  | silent quiet => exact quiet.flagUpOnFailure hs
  | @raised u reason before after => exact after.flagUpOnFailure fun _ => flag_up_raise u reason
  | @opened u conn before told after =>
    refine after.flagUpOnFailure (flagUpOnFailure_clear ?_)
    rintro ⟨_, _, _, hhead⟩
    rw [told] at hhead
    cases hhead
  | decided t child c ended after =>
    exact after.flagUpOnFailure (flagUpOnFailure_decideOn t child c _)

theorem flagUpOnFailure_run (tidy : Tidy s) (hs : s.FlagUpOnFailure) (moves : List (Move ε)) :
    (s.run W moves).FlagUpOnFailure := by
  induction moves generalizing s with
  | nil => exact hs
  | cons m rest ih =>
    refine ih ((Tidy.invariant W).move tidy m) ?_
    cases hm : m.isClear with
    | false => exact (signalled_move W tidy hm).flagUpOnFailure hs
    | true =>
      cases m with
      | clear => exact flagUpOnFailure_clear hs
      | _ => cases hm

/-- In every run, with any store: when a check has just ended degraded, the flag is up. From then
on, unless somebody clears it by hand, the flag is as it was, since the same instant, and has not
moved, as long as no call is decided on by a verdict of the store and no connection is opened. -/
theorem flag_of_degraded (W : Surroundings σ ε) (backend : σ) (settings : PoolSettings)
    (moves more : List (Move ε)) (byItself : ∀ m ∈ more, m.isClear = false)
    (failed : ((Limiter.fresh backend settings).run W moves).JustFailed) :
    let s := (Limiter.fresh backend settings).run W moves
    let s' := s.run W more
    s.flag.up = true ∧ ∃ recent, s'.journal = recent ++ s.journal ∧
      ((∀ e ∈ recent, e.endsOutage = false) →
        s'.flag = s.flag ∧ ∀ e ∈ recent, e.isTransition = false) := by
  intro s s'
  have tidy : Tidy s := (Tidy.invariant W).run (.fresh backend settings) moves
  have hup : s.flag.up = true := by
    refine flagUpOnFailure_run (.fresh backend settings) ?_ moves failed
    rintro ⟨_, _, _, hhead⟩
    cases hhead
  obtain ⟨recent, hendures⟩ := endures_run tidy byItself
  exact ⟨hup, recent, hendures.journal, hendures.still hup⟩

end Limiter

namespace Memory

/-- The limiter after a switch was turned and a check was made. -/
def afterCheck (switch : Switch) : Limiter Memory :=
  (Limiter.fresh fresh .standard).run surroundings
    [.tend (.turn switch), .start [.check "u" "svc" (some (1, 60))], .step 0, .step 1, .step 1,
      .step 1, .step 0]

/-- A second later another check is made. -/
def checkAgain : List (Move MemoryChange) :=
  [.pass 1000000, .start [.check "u" "svc" (some (1, 60))], .step 2, .step 3, .step 3, .step 3,
    .step 2]

/-- Two checks on a store that is out of reach. -/
theorem flag_of_degraded_unreachable :
    ((∀ m ∈ checkAgain, m.isClear = false) ∧ (afterCheck (.reachable false)).JustFailed) ∧
      ((afterCheck (.reachable false)).run surroundings checkAgain).JustFailed ∧
      ((afterCheck (.reachable false)).run surroundings checkAgain).flag = ⟨true, some 0⟩ := by
  have byItself : ∀ m ∈ checkAgain, m.isClear = false := by simp [checkAgain, Move.isClear]
  have failed : (afterCheck (.reachable false)).JustFailed := ⟨0, 1, "svc", rfl⟩
  obtain ⟨-, recent, happend, hstill⟩ := Limiter.flag_of_degraded surroundings fresh .standard _
    checkAgain byItself failed
  obtain rfl : recent = [.decided 2 3 "svc" .degraded, .checkFailed "svc" refused] :=
    List.append_cancel_right (happend.symm.trans rfl)
  obtain ⟨hflag, -⟩ := hstill (by simp [Event.endsOutage])
  exact ⟨⟨byItself, failed⟩, ⟨2, 3, "svc", rfl⟩, hflag⟩

/-- Two checks on a store that refuses to count, and no call is decided on by a verdict. The second
check drops the flag, since it needs a new connection, and raises it again. -/
theorem recovered_between_failures :
    (afterCheck (.failScripts true)).JustFailed ∧
      ((afterCheck (.failScripts true)).run surroundings checkAgain).JustFailed ∧
      (afterCheck (.failScripts true)).flag.since = some 0 ∧
      ((afterCheck (.failScripts true)).run surroundings checkAgain).flag.since = some 1000000 ∧
      ∃ recent, ((afterCheck (.failScripts true)).run surroundings checkAgain).journal =
          recent ++ (afterCheck (.failScripts true)).journal ∧
        .recovered ∈ recent ∧
        ∀ t child service d, .decided t child service d ∈ recent → d = .degraded := by
  refine ⟨⟨0, 1, "svc", rfl⟩, ⟨2, 3, "svc", rfl⟩, rfl, rfl, [.decided 2 3 "svc" .degraded,
    .degraded scriptFailed.message, .checkFailed "svc" scriptFailed,
    .commanded 3 1 (.error scriptFailed), .recovered, .opened 1 1000000], rfl, by simp, ?_⟩
  intro t child service d hd
  obtain ⟨-, -, -, hd⟩ : t = 2 ∧ child = 3 ∧ service = "svc" ∧ d = .degraded := by simpa using hd
  exact hd

end Memory

end Turnstile
