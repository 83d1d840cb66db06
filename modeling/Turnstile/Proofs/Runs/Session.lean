import Turnstile.Proofs.Runs.Frames
import Turnstile.Proofs.Runs.Move
import Turnstile.Session.Memory

/-!
# Sessions are runs

A scheduler decides which task steps when, and a session tells the scheduler what to do. Whatever
they decide, the limiter of a session only ever makes moves (`MemorySession.reaches_of_run?`), so
what holds after every run holds throughout every session.
-/

namespace Turnstile

namespace Limiter

variable {σ ε : Type} {W : Surroundings σ ε} {s s' s'' : Limiter σ}

/-- Some run leads from one limiter to the other. -/
def Reaches (W : Surroundings σ ε) (s s' : Limiter σ) : Prop := ∃ moves, s.run W moves = s'

namespace Reaches

theorem refl (s : Limiter σ) : Reaches W s s := ⟨[], rfl⟩

theorem move (m : Move ε) : Reaches W s (s.move W m) := ⟨[m], rfl⟩

theorem trans (h : Reaches W s s') (h' : Reaches W s' s'') : Reaches W s s'' := by
  obtain ⟨moves, rfl⟩ := h
  obtain ⟨more, rfl⟩ := h'
  exact ⟨moves ++ more, run_append ..⟩

theorem wakeAll (ts : List TaskId) : Reaches W s (s.wakeAll ts) := by
  obtain ⟨ready, heq⟩ := s.wakeAll_eq ts
  exact heq ▸ move (.arrange ready)

/-! ## Turns -/

theorem steps (t : TaskId) (n : Nat) (s : Limiter σ) : Reaches W s (steps W.backend t n s) := by
  induction n generalizing s with
  | zero =>
    obtain ⟨ready, heq⟩ := s.wake_eq t
    rw [Limiter.steps, heq]
    exact move (.arrange ready)
  | succ n ih =>
    cases hs : s.step? W.backend t with
    | none => simpa [Limiter.steps, hs] using refl s
    | some s' =>
      have hstep : s.move W (.step t) = s' := move_step_of_some hs
      simpa [Limiter.steps, hs] using (hstep ▸ move (.step t)).trans (ih s')

theorem poll (t : TaskId) : Reaches W s (s.poll W.backend t) :=
  (move (.arrange (s.ready.erase t))).trans (steps t turnLength _)

theorem drain (front : Option TaskId) (n : Nat) (s : Limiter σ) :
    Reaches W s (drain W.backend front n s) := by
  induction n generalizing s with
  | zero => exact refl s
  | succ n ih =>
    unfold Limiter.drain
    split
    · exact (poll _).trans (ih _)
    · exact refl s

theorem ring : Reaches W s s.ring := wakeAll _

theorem jumpTo (tick : Nat) : Reaches W s (s.jumpTo tick) := move (.pass _)

theorem calm : Reaches W s (s.calm W.backend) := ring.trans (drain none maxTurns _)

theorem runUntilOver (t : TaskId) (n : Nat) (s : Limiter σ) :
    Reaches W s (runUntilOver W.backend t n s) := by
  induction n generalizing s with
  | zero => exact refl s
  | succ n ih =>
    have hturn : Reaches W s (if t ∈ s.ready then s.poll W.backend t else s) := by
      split
      · exact poll t
      · exact refl s
    unfold Limiter.runUntilOver
    refine hturn.trans ?_
    generalize (if t ∈ s.ready then s.poll W.backend t else s) = u
    simp only
    split
    · exact refl u
    · refine (drain (some t) maxTurns u).trans ?_
      split
      · exact ih _
      · split
        · exact ((jumpTo _).trans ring).trans (ih _)
        · exact refl _

theorem complete (jobs : List Job) : Reaches W s (s.complete W.backend jobs).1 :=
  (move (.start jobs)).trans (runUntilOver _ maxTurns _)

end Reaches

end Limiter

/-! ## Actions -/

namespace Session

open Limiter (Reaches)

variable {σ ε : Type} {W : Surroundings σ ε} {s s' : Session σ}

theorem reaches_perform (jobs : List Job) :
    Reaches W s.limiter (s.perform W.backend jobs).1.limiter :=
  Reaches.complete jobs

/-- An action carries the limiter from one state to another by moves. -/
theorem reaches_of_act? {a : Action} {r : Result} (h : s.act? W.backend a = some (s', r)) :
    Reaches W s.limiter s'.limiter := by
  cases a with
  | sleep ms =>
    cases h
    exact Reaches.complete [.sleep ms]
  | advance us =>
    cases h
    exact Reaches.move (.pass us)
  | connect name =>
    cases h
    have hperform := reaches_perform (W := W) (s := s) [.connect]
    dsimp only
    split
    · exact hperform
    · exact hperform
  | ping name =>
    obtain ⟨conn, -, h⟩ := Option.bind_eq_some_iff.mp h
    cases h
    exact Reaches.complete [.request conn .ping]
  | count name key limit windowMs often =>
    obtain ⟨conn, -, h⟩ := Option.bind_eq_some_iff.mp h
    cases h
    exact Reaches.complete _
  | hold name =>
    cases h
    exact Reaches.complete [.keep name]
  | release name =>
    have hmove := Reaches.move (W := W) (s := s.limiter) (.release name)
    cases hheld : Table.get? s.limiter.held name with
    | none =>
      simp only [act?, hheld] at h
      cases h
      exact Reaches.refl s.limiter
    | some lease =>
      simp only [act?, hheld] at h
      cases h
      simpa only [Limiter.move, hheld] using hmove
  | markBroken name =>
    have hmove := Reaches.move (W := W) (s := s.limiter) (.markBroken name)
    cases hheld : Table.get? s.limiter.held name with
    | none =>
      simp only [act?, hheld] at h
      cases h
      exact Reaches.refl s.limiter
    | some lease =>
      simp only [act?, hheld] at h
      cases h
      simpa only [Limiter.move, Table.modify, hheld] using hmove
  | startGuard =>
    cases h
    exact Reaches.move (.start [.guard])
  | stopGuard =>
    obtain ⟨t, -, h⟩ := Option.bind_eq_some_iff.mp h
    cases h
    exact Reaches.move (.cancel t)
  | close =>
    cases h
    exact Reaches.move .close
  | raise reason =>
    cases h
    exact Reaches.move (.raise reason)
  | clear =>
    cases h
    exact Reaches.move .clear
  | status =>
    cases h
    exact Reaches.refl _
  | perform jobs shape =>
    cases h
    exact Reaches.complete jobs
  | spawn name jobs shape =>
    cases h
    exact Reaches.move (.start jobs)
  | join name =>
    obtain ⟨⟨t, shape⟩, -, h⟩ := Option.bind_eq_some_iff.mp h
    cases h
    exact Reaches.complete [.join t]
  | abort name =>
    obtain ⟨⟨t, shape⟩, -, h⟩ := Option.bind_eq_some_iff.mp h
    cases h
    exact Reaches.move (.cancel t)

end Session

namespace MemorySession

open Limiter (Reaches)

variable {s s' : Session Memory}

theorem reaches_turn (switches : List Switch) (s : Limiter Memory) :
    Reaches Memory.surroundings s { s with backend := switches.foldl Memory.turn s.backend } := by
  induction switches generalizing s with
  | nil => exact Reaches.refl s
  | cons switch rest ih => exact (Reaches.move (.tend (.turn switch))).trans (ih _)

theorem reaches_of_act? {a : MemoryAction} {r : MemoryResult} (h : act? s a = some (s', r)) :
    Reaches Memory.surroundings s.limiter s'.limiter := by
  cases a with
  | common a =>
    obtain ⟨⟨u, r'⟩, hact, heq⟩ := Option.map_eq_some_iff.mp h
    cases heq
    exact Session.reaches_of_act? hact
  | turn switches =>
    cases h
    exact reaches_turn switches s.limiter
  | counter key =>
    cases h
    exact Reaches.refl _
  | cleanup =>
    cases h
    exact Reaches.move (.tend MemoryChange.cleanup)

theorem reaches_of_step? {mark : Nat} {a : MemoryAction} {r : MemoryReport}
    (h : step? s mark a = some (s', r)) :
    Reaches Memory.surroundings s.limiter s'.limiter := by
  obtain ⟨⟨u, r'⟩, hact, heq⟩ := Option.map_eq_some_iff.mp h
  cases heq
  exact (reaches_of_act? hact).trans Reaches.calm

/-- Whatever is done in a session, some run leads the limiter there. -/
theorem reaches_of_runFrom? {mark : Nat} {actions : List MemoryAction}
    {reports : List MemoryReport} (h : runFrom? s mark actions = some (s', reports)) :
    Reaches Memory.surroundings s.limiter s'.limiter := by
  induction actions generalizing s mark reports with
  | nil =>
    cases h
    exact Reaches.refl _
  | cons a rest ih =>
    obtain ⟨⟨u, r⟩, hstep, h⟩ := Option.bind_eq_some_iff.mp h
    obtain ⟨⟨v, rs⟩, hrest, h⟩ := Option.bind_eq_some_iff.mp h
    cases h
    exact (reaches_of_step? hstep).trans (ih hrest)

/-- Every state of a limiter in a session is one that a run leads to from the very beginning. -/
theorem reaches_of_run? {settings : PoolSettings} {reason : Option String}
    {actions : List MemoryAction} {reports : List MemoryReport}
    (hbegin : begin? settings reason = some s) (h : run? s actions = some (s', reports)) :
    Reaches Memory.surroundings (Limiter.fresh Memory.fresh settings) s'.limiter := by
  refine Reaches.trans ?_ (reaches_of_runFrom? h)
  simp only [begin?] at hbegin
  split at hbegin
  · cases hbegin
  · cases hbegin
    cases reason with
    | none => exact Reaches.refl _
    | some reason => exact Reaches.move (.raise reason)

end MemorySession

end Turnstile
