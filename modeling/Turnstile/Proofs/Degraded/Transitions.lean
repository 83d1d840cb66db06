import Turnstile.Degraded.Handles
import Turnstile.Proofs.Degraded.Outage
import Turnstile.Proofs.Degraded.Turns
import Turnstile.Proofs.Runs.Announced

/-!
# Every transition is reported

A flag is written to through handles, of which there may be any number, on any number of flags; and
a limiter writes to its own flag when a connection is opened or cannot be opened, and when a check
is decided on. Either way the turns of the writers account for all that happens to a flag and for
all that is logged about it (`transitions_accounted`).
-/

namespace Turnstile

namespace Event

/-- Nothing but a move of the flag is logged as one. -/
theorem transition?_of_not_isTransition {e : Event} (h : e.isTransition = false) :
    e.transition? = none := by
  cases e with
  | degraded reason => cases h
  | recovered => cases h
  | sweepEvicted failed total =>
    refine if_neg ?_
    simp [Level.tellsTransition]
  | retrying key =>
    refine if_neg ?_
    simp [Level.tellsTransition]
  | evicted => rfl
  | checkerStopped => rfl
  | limitHit identity service seconds => rfl
  | checkFailed service fault => rfl
  | _ => rfl

theorem transition?_of_not_isSignal {e : Event} (h : e.isSignal = false) : e.transition? = none :=
  transition?_of_not_isTransition (isTransition_of_not_isSignal h)

end Event

namespace Handles

/-! ## Handles -/

inductive Act where
  | write (handle : Nat) (w : Flag.Write)
  | clone (handle : Nat)
  | add
deriving DecidableEq, Repr

/-- Does one thing, and gives what was journalled and whether a flag moved. Through a handle that
there is not, nothing is done. -/
def act (h : Handles) : Act → Handles × List Event × Bool
  | .write handle (.raise now reason) => (h.raise? handle now reason).getD (h, [], false)
  | .write handle .clear => (h.clear? handle).getD (h, [], false)
  | .clone handle => (((h.clone? handle).map Prod.fst).getD h, [], false)
  | .add => (h.add.1, [], false)

def run (h : Handles) : List Act → Handles
  | [] => h
  | a :: rest => (h.act a).1.run rest

/-- The flag of that number. One that is not there yet is down. -/
def flagAt (h : Handles) (i : Nat) : Flag := (h.flags[i]?).getD .down

/-- What is tried on the flag of that number. -/
def tried? (h : Handles) (i : Nat) : Act → Option Flag.Write
  | .write handle w => if h.handles[handle]? = some i then some w else none
  | _ => none

/-- The turn that an act is for the flag of that number. -/
def turn? (h : Handles) (i : Nat) (a : Act) : Option Flag.Turn :=
  (h.tried? i a).map fun w => ⟨w, h.flagAt i, (h.act a).1.flagAt i, (h.act a).2.2⟩

def turns (i : Nat) (h : Handles) : List Act → List Flag.Turn
  | [] => []
  | a :: rest => (h.turn? i a).toList ++ turns i (h.act a).1 rest

/-- The lines about the flag of that number. -/
def lines (i : Nat) (h : Handles) : List Act → List (Level × String)
  | [] => []
  | a :: rest =>
    (if (h.tried? i a).isSome then (h.act a).2.1.filterMap Event.transition? else []) ++
      lines i (h.act a).1 rest

/-- Every handle is on a flag, and every flag is consistent. -/
structure Sound (h : Handles) : Prop where
  numbers : ∀ i ∈ h.handles, i < h.flags.length
  consistent : ∀ f ∈ h.flags, f.Consistent

variable {h : Handles} {a : Act} {i handle : Nat} {w : Flag.Write}

theorem Sound.flagAt (sound : h.Sound) (i : Nat) : (h.flagAt i).Consistent := by
  unfold Handles.flagAt
  cases hi : h.flags[i]? with
  | none => exact Flag.consistent_down
  | some f => exact sound.consistent f (List.mem_of_getElem? hi)

theorem Sound.flags_get? (sound : h.Sound) (hi : h.handles[handle]? = some i) :
    h.flags[i]? = some (h.flagAt i) := by
  have hlt := sound.numbers i (List.mem_of_getElem? hi)
  rw [Handles.flagAt, List.getElem?_eq_getElem hlt, Option.getD_some]

theorem act_write_of_get? (sound : h.Sound) (hi : h.handles[handle]? = some i)
    (w : Flag.Write) :
    h.act (.write handle w) = (⟨h.flags.set i ((h.flagAt i).write w).1, h.handles⟩,
      ((h.flagAt i).write w).2) := by
  have hf := sound.flags_get? hi
  cases w <;> simp [act, raise?, clear?, update?, hi, hf, Flag.write]

theorem act_write_of_none (hi : h.handles[handle]? = none) (w : Flag.Write) :
    h.act (.write handle w) = (h, [], false) := by
  cases w <;> simp [act, raise?, clear?, update?, hi]

/-- Only what is tried on a flag changes it. -/
theorem flagAt_act_of_none (sound : h.Sound) (ht : h.tried? i a = none) :
    (h.act a).1.flagAt i = h.flagAt i := by
  cases a with
  | write handle w =>
    cases hnumber : h.handles[handle]? with
    | none => rw [act_write_of_none hnumber]
    | some j =>
      have hne : j ≠ i := by
        rintro rfl
        simp [tried?, hnumber] at ht
      rw [act_write_of_get? sound hnumber, flagAt, List.getElem?_set_ne hne]
      rfl
  | clone handle =>
    simp only [act, clone?]
    cases h.handles[handle]? <;> rfl
  | add =>
    simp only [act, add, flagAt]
    by_cases hi : i < h.flags.length
    · rw [List.getElem?_append_left hi]
    · rw [List.getElem?_append_right (Nat.not_lt.mp hi), List.getElem?_eq_none (Nat.not_lt.mp hi)]
      cases i - h.flags.length <;> rfl

/-- What is tried on a flag is done as on a flag of its own. -/
theorem act_of_tried (sound : h.Sound) (ht : h.tried? i a = some w) :
    (h.act a).1.flagAt i = ((h.flagAt i).write w).1 ∧ (h.act a).2 = ((h.flagAt i).write w).2 := by
  cases a with
  | write handle v =>
    simp only [tried?] at ht
    split at ht
    · rename_i hi
      cases ht
      have hlt := sound.numbers i (List.mem_of_getElem? hi)
      rw [act_write_of_get? sound hi]
      refine ⟨?_, rfl⟩
      rw [flagAt, List.getElem?_set_self hlt, Option.getD_some]
    · cases ht
  | _ => cases ht

theorem turn?_of_tried (sound : h.Sound) (ht : h.tried? i a = some w) :
    h.turn? i a = some ((h.flagAt i).turn w) := by
  obtain ⟨hflag, htold⟩ := act_of_tried sound ht
  rw [turn?, ht, Option.map_some, hflag, htold]
  rfl

theorem Sound.fresh : fresh.Sound where
  numbers := by simp [Handles.fresh]
  consistent := by simp [Handles.fresh, Flag.consistent_down]

theorem Sound.act (sound : h.Sound) (a : Act) : (h.act a).1.Sound := by
  cases a with
  | write handle w =>
    cases hnumber : h.handles[handle]? with
    | none =>
      rw [act_write_of_none hnumber]
      exact sound
    | some i =>
      rw [act_write_of_get? sound hnumber]
      refine ⟨fun j hj => ?_, fun f hf => ?_⟩
      · rw [List.length_set]
        exact sound.numbers j hj
      · rcases List.mem_or_eq_of_mem_set hf with hf | rfl
        · exact sound.consistent f hf
        · exact (sound.flagAt i).write w
  | clone handle =>
    simp only [Handles.act, clone?]
    cases hnumber : h.handles[handle]? with
    | none => exact sound
    | some i =>
      refine ⟨?_, sound.consistent⟩
      simp only [Option.map_some, Option.getD_some, List.forall_mem_append,
        List.forall_mem_singleton]
      exact ⟨sound.numbers, sound.numbers i (List.mem_of_getElem? hnumber)⟩
  | add =>
    simp only [Handles.act, add]
    refine ⟨?_, ?_⟩
    · simp only [List.forall_mem_append, List.forall_mem_singleton, List.length_append,
        List.length_singleton]
      exact ⟨fun i hi => Nat.lt_succ_of_lt (sound.numbers i hi), Nat.lt_succ_self _⟩
    · simp only [List.forall_mem_append, List.forall_mem_singleton]
      exact ⟨sound.consistent, Flag.consistent_down⟩

theorem Sound.run (sound : h.Sound) (acts : List Act) : (h.run acts).Sound := by
  induction acts generalizing h with
  | nil => exact sound
  | cons a rest ih => exact ih (sound.act a)

/-- All that happens to a flag, and all that is logged about it, is due to what is tried on it. -/
theorem account (sound : h.Sound) (i : Nat) (acts : List Act) :
    Flag.Account (h.flagAt i) (h.turns i acts) ((h.run acts).flagAt i) (h.lines i acts) := by
  induction acts generalizing h with
  | nil => exact .nil (sound.flagAt i)
  | cons a rest ih =>
    have hrest := ih (sound.act a)
    rw [turns, lines, run]
    cases ht : h.tried? i a with
    | none =>
      rw [flagAt_act_of_none sound ht] at hrest
      simpa [turn?, ht] using hrest
    | some w =>
      obtain ⟨hflag, htold⟩ := act_of_tried sound ht
      rw [hflag] at hrest
      rw [turn?_of_tried sound ht, htold, Option.isSome_some, if_pos rfl, Flag.transitions_write]
      exact hrest.cons (sound.flagAt i) w

/-- What is not tried on any flag logs nothing. -/
theorem events_act (h : Handles) (a : Act) : (h.act a).2.1 = [] ∨ ∃ i w, h.tried? i a = some w := by
  cases a with
  | write handle w =>
    cases hnumber : h.handles[handle]? with
    | none =>
      rw [act_write_of_none hnumber]
      exact .inl rfl
    | some i => exact .inr ⟨i, w, if_pos hnumber⟩
  | _ => exact .inl rfl

end Handles

namespace Limiter

variable {σ ε : Type} {W : Surroundings σ ε} {B : Backend σ} {s s' u : Limiter σ} {t : TaskId}

/-! ## A limiter -/

/-- What a move tries on the flag. A task that waits for a connection to be opened raises the flag
if that fails and clears it if not; so does one that decides on a call, by the outcome. -/
def tried? (W : Surroundings σ ε) (s : Limiter σ) : Move ε → Option Flag.Write
  | .raise reason => some (.raise s.clock reason)
  | .clear => some .clear
  | .step t =>
    match s.stage? t with
    | some (.opening _ call) =>
      match s.progress call with
      | .pending => none
      | .late => some (.raise s.clock Fault.connectTimeout.message)
      | .ripe =>
        some (.ofResult s.clock (W.backend.finish s.backend s.clock call.conn call.command).2)
    | some (.awaiting _ child) =>
      if s.isOver child then
        some (.ofResult s.clock (verdictOf child (s.lastOutcome? child)))
      else none
    | _ => none
  | _ => none

/-- The turn that a move is. -/
def turn? (W : Surroundings σ ε) (s : Limiter σ) (m : Move ε) : Option Flag.Turn :=
  (s.tried? W m).map fun w => ⟨w, s.flag, (s.move W m).flag, (s.flag.write w).2.2⟩

/-- The lines about the flag, the first one in front. -/
def transitions (s : Limiter σ) : List (Level × String) :=
  s.journal.reverse.filterMap Event.transition?

/-- Between two limiters that is all that was tried on the flag, if anything was, and all that was
logged about it. -/
structure Written (w : Option Flag.Write) (s s' : Limiter σ) : Prop where
  flag : s'.flag = (w.map fun w => (s.flag.write w).1).getD s.flag
  lines : s'.transitions = s.transitions ++ (w.bind fun w => (s.flag.turn w).line?).toList

namespace Written

variable {w : Option Flag.Write}

theorem refl (s : Limiter σ) : Written none s s := ⟨rfl, (List.append_nil _).symm⟩

theorem after (h : Written none s u) (h' : Written w u s') : Written w s s' := by
  have hflag : u.flag = s.flag := h.flag
  have hlines : u.transitions = s.transitions := h.lines.trans (List.append_nil _)
  refine ⟨?_, ?_⟩
  · rw [h'.flag, hflag]
  · rw [h'.lines, hlines, hflag]

theorem before (h : Written w s u) (h' : Written none u s') : Written w s s' := by
  have hlines : s'.transitions = u.transitions := h'.lines.trans (List.append_nil _)
  exact ⟨h'.flag.trans h.flag, hlines.trans h.lines⟩

theorem emit (s : Limiter σ) {e : Event} (he : e.transition? = none) :
    Written none s (s.emit e) := by
  refine ⟨rfl, ?_⟩
  simp [transitions, Limiter.emit, List.filterMap_append, he]

end Written

theorem Silent.written (h : Silent s s') : Written none s s' := by
  obtain ⟨recent, hjournal, hnone⟩ := h.journal
  have hrecent : recent.filterMap Event.transition? = [] := by
    rw [List.filterMap_eq_nil_iff]
    intro e he
    exact Event.transition?_of_not_isSignal (hnone e he)
  refine ⟨h.flag, ?_⟩
  simp [transitions, hjournal, List.filterMap_append, List.filterMap_reverse, hrecent]

/-- Whatever is tried, the flag is written to and what is journalled of it is logged. -/
theorem written_flag (s : Limiter σ) (w : Flag.Write) :
    Written (some w) s ({ s with flag := (s.flag.write w).1 }.emitAll (s.flag.write w).2.1) := by
  refine ⟨rfl, ?_⟩
  rw [Option.bind_some, ← Flag.transitions_write]
  simp [transitions, emitAll, List.filterMap_append]

theorem written_raise (s : Limiter σ) (reason : String) :
    Written (some (.raise s.clock reason)) s (s.raise reason).1 := written_flag s _

theorem written_clear (s : Limiter σ) : Written (some .clear) s s.clear.1 := written_flag s .clear

/-- A decision writes to the flag by the outcome that it is made from. -/
theorem written_decideOn (s : Limiter σ) (t child : TaskId) (c : Charge)
    (outcome : Except Fault Verdict) :
    Written (some (.ofResult s.clock outcome)) s (s.decideOn t child c outcome).1 := by
  have recorded : ∀ (u : Limiter σ) (d : Decision),
      Written none u (u.record t child c.service d) := by
    intro u d
    have hcounted : Written none u
        ({ u with totals := u.totals.add d }.tally (.ofDecision c.service d)) :=
      ⟨rfl, (List.append_nil _).symm⟩
    exact hcounted.after (.emit _ rfl)
  cases outcome with
  | ok v =>
    cases v with
    | admitted => exact (written_clear s).before (recorded _ _)
    | blocked ms => exact (written_clear s).before ((recorded _ _).after (.emit _ rfl))
  | error f =>
    have hfailed : Written none s (s.emit (.checkFailed c.service f)) := .emit s rfl
    exact hfailed.after
      ((written_raise (s.emit (.checkFailed c.service f)) f.message).before (recorded _ _))

/-- A connection that was to be opened is opened or cannot be opened. -/
theorem written_of_opening {goal : Goal} {call : Call}
    (hs : s.stage? t = some (.opening goal call)) (step : s.step? W.backend t = some s') :
    Written (s.tried? W (.step t)) s s' := by
  have failed : ∀ (u : Limiter σ) (f : Fault),
      Written (some (.raise u.clock f.message)) u (u.openFailed t f) :=
    fun u f => (written_raise u _).before ((Silent.freePermit _).trans (.fail ..)).written
  simp only [tried?, hs]
  simp only [step?, hs] at step
  cases hp : s.progress call with
  | pending => simp only [hp] at step; cases step
  | late =>
    simp only [hp] at step
    cases step
    exact failed s .connectTimeout
  | ripe =>
    simp only [hp] at step
    cases hr : s.finishCall W.backend t call with
    | mk u reply =>
      have hu : Written none s u := (Silent.of_finishCall hr).written
      have hreply : (W.backend.finish s.backend s.clock call.conn call.command).2 = reply :=
        congrArg Prod.snd hr
      simp only [hr] at step
      dsimp only
      rw [hreply, ← clock_finishCall hr]
      cases reply with
      | ok ms =>
        cases step
        have hemployed := (written_clear u).before
          (Silent.employ (B := W.backend) _ t goal ⟨call.conn, u.clock, false⟩).written
        exact hu.after hemployed
      | error f =>
        cases step
        exact hu.after (failed u f)

/-- Somebody decides on a call. -/
theorem written_of_awaiting {c : Charge} {child : TaskId}
    (hs : s.stage? t = some (.awaiting c child)) (step : s.step? W.backend t = some s') :
    Written (s.tried? W (.step t)) s s' := by
  simp only [tried?, hs]
  simp only [step?, hs] at step
  split at step
  · rename_i ended
    cases step
    rw [if_pos ended]
    exact (written_decideOn s t child c _).before (Silent.settle ..).written
  · cases step

theorem written_of_step? (step : s.step? W.backend t = some s') :
    Written (s.tried? W (.step t)) s s' := by
  cases hs : s.stage? t with
  | none => simp [step?, hs] at step
  | some stage =>
    cases stage with
    | opening goal call => exact written_of_opening hs step
    | awaiting c child => exact written_of_awaiting hs step
    | _ =>
      simp only [tried?, hs]
      exact (silent_of_step? hs rfl step).written

/-- A task that cannot take a step tries nothing. -/
theorem tried?_of_step?_eq_none (blocked : s.step? W.backend t = none) :
    s.tried? W (.step t) = none := by
  cases hs : s.stage? t with
  | none => simp only [tried?, hs]
  | some stage =>
    cases stage with
    | opening goal call =>
      simp only [step?, hs] at blocked
      simp only [tried?, hs]
      cases hp : s.progress call with
      | pending => rfl
      | late => simp only [hp] at blocked; cases blocked
      | ripe =>
        simp only [hp] at blocked
        split at blocked <;> cases blocked
    | awaiting c child =>
      simp only [step?, hs] at blocked
      simp only [tried?, hs]
      split
      · rename_i ended
        rw [if_pos ended] at blocked
        cases blocked
      · rfl
    | _ => simp only [tried?, hs]

/-- Every move does to the flag what is tried, and nothing else. -/
theorem written_move (W : Surroundings σ ε) (s : Limiter σ) (m : Move ε) :
    Written (s.tried? W m) s (s.move W m) := by
  cases m with
  | step t =>
    cases step : s.step? W.backend t with
    | none =>
      rw [tried?_of_step?_eq_none step, move_step_of_none step]
      exact .refl s
    | some s' =>
      rw [move_step_of_some step]
      exact written_of_step? step
  | raise reason => exact written_raise s reason
  | clear => exact written_clear s
  | _ => exact (silent_move W rfl).written

theorem turn?_of_tried {m : Move ε} {w : Flag.Write} (ht : s.tried? W m = some w) :
    s.turn? W m = some (s.flag.turn w) := by
  have hflag := (written_move W s m).flag
  rw [ht, Option.map_some, Option.getD_some] at hflag
  rw [turn?, ht, Option.map_some, hflag]
  rfl

/-- All that happens to the flag of a limiter, and all that is logged about it, is due to what is
tried on it. -/
theorem account (W : Surroundings σ ε) (consistent : s.flag.Consistent) (moves : List (Move ε)) :
    ∃ lines, (s.run W moves).transitions = s.transitions ++ lines ∧
      Flag.Account s.flag (s.seen W (turn? W) moves) (s.run W moves).flag lines := by
  induction moves generalizing s with
  | nil => exact ⟨[], (List.append_nil _).symm, .nil consistent⟩
  | cons m rest ih =>
    have hwritten := written_move W s m
    have hflag := hwritten.flag
    rw [seen, show s.run W (m :: rest) = (s.move W m).run W rest from rfl]
    cases ht : s.tried? W m with
    | none =>
      rw [ht] at hwritten hflag
      rw [Option.map_none, Option.getD_none] at hflag
      obtain ⟨lines, hlines, haccount⟩ := ih (hflag ▸ consistent)
      refine ⟨lines, ?_, ?_⟩
      · rw [hlines, hwritten.lines]
        simp
      · rw [hflag] at haccount
        simpa [turn?, ht] using haccount
    | some w =>
      rw [ht] at hwritten hflag
      rw [Option.map_some, Option.getD_some] at hflag
      obtain ⟨lines, hlines, haccount⟩ := ih (hflag ▸ consistent.write w)
      refine ⟨(s.flag.turn w).line?.toList ++ lines, ?_, ?_⟩
      · rw [hlines, hwritten.lines, List.append_assoc]
        rfl
      · rw [hflag] at haccount
        rw [turn?_of_tried ht]
        exact haccount.cons consistent w

end Limiter

/-- Whatever is done through any number of handles on any number of flags, and however a limiter
gets on with any store, all turns of the writers of a flag account for it. One flag is as it was
unless something was tried on it, through whichever of its handles; every handle is on a flag; and
what is not tried on a flag logs nothing. -/
theorem transitions_accounted :
    (∀ (acts more : List Handles.Act) (i : Nat),
      let h := Handles.fresh.run acts
      Flag.Account (h.flagAt i) (h.turns i more) ((h.run more).flagAt i) (h.lines i more)) ∧
    (∀ (acts : List Handles.Act) (a : Handles.Act),
      let h := Handles.fresh.run acts
      (∀ handle, h.flag? handle = (h.handles[handle]?).map h.flagAt) ∧
      (∀ i, (h.act a).1.flagAt i = h.flagAt i ∨ ∃ w, h.tried? i a = some w) ∧
      ((h.act a).2.1 = [] ∨ ∃ i w, h.tried? i a = some w)) ∧
    ∀ {σ ε : Type} (W : Surroundings σ ε) (backend : σ) (settings : PoolSettings)
      (moves more : List (Move ε)),
      let s := (Limiter.fresh backend settings).run W moves
      ∃ lines, (s.run W more).transitions = s.transitions ++ lines ∧
        Flag.Account s.flag (s.seen W (Limiter.turn? W) more) (s.run W more).flag lines := by
  refine ⟨fun acts more i => ?_, fun acts a => ?_, fun W backend settings moves more => ?_⟩
  · exact Handles.account (Handles.Sound.fresh.run acts) i more
  · have sound := Handles.Sound.fresh.run acts
    refine ⟨fun handle => ?_, fun i => ?_, Handles.events_act _ a⟩
    · rw [Handles.flag?]
      cases hi : (Handles.fresh.run acts).handles[handle]? with
      | none => rfl
      | some i => exact sound.flags_get? hi
    · cases ht : (Handles.fresh.run acts).tried? i a with
      | none => exact .inl (Handles.flagAt_act_of_none sound ht)
      | some w => exact .inr ⟨w, rfl⟩
  · obtain ⟨_, -, before⟩ := Limiter.account W (s := Limiter.fresh backend settings)
      Flag.consistent_down moves
    exact Limiter.account W before.consistent.2.1 more

end Turnstile
