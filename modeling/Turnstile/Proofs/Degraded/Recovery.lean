import Turnstile.Proofs.Runs.Phases
import Turnstile.Proofs.Window.Rank

/-!
# After an outage

Whatever has gone wrong before, an outage leaves nothing behind that could harm the next check: if a
permit is free, no other task is under way and the store works from then on, the check comes to its
end in a bounded number of steps, and is admitted or rejected by its rank among all the calls that
were counted in the window, those before the outage included (`Memory.recovered`).
-/

namespace Turnstile

/-- Whether the move is one of a limiter that is left to itself: tasks go on and time passes, and
the store may be changed from outside. -/
def Move.isCalm {ε : Type} : Move ε → Bool
  | .step _ | .pass _ | .tend _ | .arrange _ => true
  | _ => false

theorem Move.within_of_isCalm {ε : Type} {m : Move ε} (calm : m.isCalm = true) :
    m.Within fun _ => True := by
  cases m with
  | step | pass | tend | arrange => trivial
  | _ => cases calm

namespace Limiter

section

variable {σ : Type} {s s' : Limiter σ} {t : TaskId}

/-! ## Tasks that are over -/

theorem isOver_of_forall_mem (ended : ∀ e ∈ s.tasks, e.2.stage.isOver = true) (t : TaskId) :
    s.isOver t = true := by
  cases hget : Table.get? s.tasks t with
  | none => simp [isOver, stage?, hget]
  | some task => simpa [isOver, stage?, hget] using ended _ (Table.mem_of_get? hget)

/-- A task that is over stays so while others act. -/
theorem Spared.isOver (spared : Spared t s s') (ended : s.isOver t = true)
    (new : t ∈ Table.keys s'.tasks → t ∈ Table.keys s.tasks) : s'.isOver t = true := by
  cases hget : Table.get? s.tasks t with
  | none =>
    have hnone : s'.stage? t = none :=
      stage?_eq_none_iff.mpr fun h => Table.get?_eq_none_iff.mp hget (new h)
    rw [Limiter.isOver, hnone]
    rfl
  | some task =>
    obtain ⟨stage, hget', handed⟩ := spared.entry task hget
    have hover : task.stage.isOver = true := by
      rwa [Limiter.isOver, stage?_of_get? hget] at ended
    rw [Limiter.isOver, stage?_of_get? hget', handed.eq_of_isOver hover]
    exact hover

end

variable {s : Limiter Memory} {t : TaskId}

/-- A limiter in which nothing goes on but a check and the call that is counted for it. -/
structure Sole (t : TaskId) (s : Limiter Memory) : Prop where
  tidy : Tidy s
  isOpen : s.pool.closed = false
  others : ∀ v, v ≠ t → v ≠ t + 1 → s.isOver v = true

/-- Tasks that are over are in nobody's way. -/
theorem Sole.escort (t : TaskId) : Escort t (fun _ => True) (Sole t) where
  tidy sole := sole.tidy
  isOpen sole := sole.isOpen
  mine := by
    intro s s' v sole _ step
    refine Decidable.byContradiction fun hne => ?_
    obtain ⟨ht, hchild⟩ := not_or.mp hne
    rw [step?_of_isOver (sole.others v ht hchild)] at step
    cases step
  step := by
    intro s s' v c limit past n sole mine step forward
    refine ⟨forward.tidy, forward.isOpen, fun u ht hchild => ?_⟩
    have hne : u ≠ v := by
      rintro rfl
      exact mine.elim ht hchild
    exact (Spared.of_step? sole.tidy hne step).isOver (sole.others u ht hchild)
      fun hu => (forward.new u hu).resolve_right hchild
  outside _ _ _ sole :=
    ⟨sole.tidy.of_eq rfl rfl rfl, sole.isOpen, sole.others⟩

/-- A check that is asked for while nobody else is under way. -/
theorem Sole.of_start {job : Job} (tidy : Tidy s) (isOpen : s.pool.closed = false)
    (alone : ∀ v, s.isOver v = true) : Sole s.nextTask (s.start [job]).1 where
  tidy := tidy.start [job]
  isOpen := by simpa using isOpen
  others v hv _ := by
    rw [isOver, stage?, get?_start_ne hv]
    exact alone v

end Limiter

namespace Memory

/-- After any run, with whatever faults there were in it: if the pool is open, a permit is free, no
task is under way, and from then on the store is sound, then a check with a valid limit takes no
more steps than this bound, whatever else happens to the store and the clock; as long as it has not
ended some task can go on, if need be after some time; and when it has ended, its call has been
counted once, it has been admitted or rejected by how many calls there are with it in the window
that was open then, and the flag is down. These calls are the ones that the store kept before the
check for the key. -/
theorem recovered (settings : PoolSettings) (moves more : List (Move MemoryChange))
    (identity service : String) (numbers : Option (Int × Int)) {limit : Limit}
    (valid : (Job.check identity service numbers).charge? =
      some (⟨identity, service, none⟩, limit))
    (isOpen : ((Limiter.fresh fresh settings).run surroundings moves).pool.closed = false)
    (free : 0 < ((Limiter.fresh fresh settings).run surroundings moves).pool.free)
    (alone : ∀ e ∈ ((Limiter.fresh fresh settings).run surroundings moves).tasks,
      e.2.stage.isOver = true)
    (calm : ∀ m ∈ more, m.isCalm = true)
    (sound : ∀ before, before <+: more → Limiter.Sound
      ((((Limiter.fresh fresh settings).run surroundings moves).start
        [.check identity service numbers]).1.run surroundings before)) :
    let s := (Limiter.fresh fresh settings).run surroundings moves
    let asked := (s.start [.check identity service numbers]).1
    let s' := asked.run surroundings more
    let key := counterKey identity service
    asked.stepsIn surroundings more ≤ s.pool.idle.length + 5 ∧
      (s'.isOver s.nextTask = false →
        ∃ us t, ((s'.pass us).step? backend t).isSome = true) ∧
      (s'.isOver s.nextTask = true → ∃ count : Counted,
        count.IsFor (s.nextTask + 1) ⟨key, limit.times, limit.windowMs⟩ ∧
        s'.counts = s.counts ++ [count] ∧ s.clock ≤ count.time ∧
        (s.backend.store.counter? count.time key).getD 0 =
          (openWindow (s.countsOn key) count.time).length ∧
        s'.outcomes s.nextTask = [.ok (.decision
          (if (openWindow (s.countsOn key) count.time).length + 1 ≤ limit.times
            then .admitted else .rejected (Verdict.retryAfterSeconds count.remainingMs)))] ∧
        s'.flag.up = false) := by
  intro s asked s' key
  have tidy : Limiter.Tidy s :=
    (Limiter.Tidy.invariant surroundings).run (.fresh fresh settings) moves
  have sole : Limiter.Sole s.nextTask asked :=
    .of_start tidy isOpen (Limiter.isOver_of_forall_mem alone)
  have hphase : Limiter.Phase s.nextTask ⟨identity, service, none⟩ limit s.counts
      (s.pool.idle.length + 5) asked := .of_start free valid
  obtain ⟨-, k, hk, hphase'⟩ := hphase.run (Limiter.Sole.escort s.nextTask) sole
    (fun m hm => Move.within_of_isCalm (calm m hm)) sound
  refine ⟨Nat.le_trans (Nat.le_add_left ..) hk, fun running => ?_, fun ended => ?_⟩
  · obtain ⟨us, t, -, hstep⟩ := hphase'.exists_step running
    exact ⟨us, t, hstep⟩
  obtain ⟨count, own, hcounts, houtcomes, hflag, -⟩ := hphase'.of_isOver ended
  have hrun : s' = s.run surroundings (.start [.check identity service numbers] :: more) := rfl
  have counting : Limiter.Counting s := Limiter.Counting.invariant.run (.fresh settings) moves
  have counting' : Limiter.Counting s' := hrun ▸ Limiter.Counting.invariant.run counting _
  have hlater : s.clock ≤ count.time := by
    have later := (Limiter.Later.invariant surroundings s).run (.refl tidy)
      (.start [.check identity service numbers] :: more)
    exact later.of_append (hrun ▸ hcounts) count (List.mem_singleton_self _)
  have told := counting'.told count.key
  rw [Limiter.countsOn_concat_self hcounts, show count.key = key from own.key] at told
  have hdecision := Told.decision_concat told
  refine ⟨count, own, hcounts, hlater, counting.counter?_eq_openWindow hlater, ?_, hflag⟩
  rw [houtcomes, hdecision, show count.limit = limit.times from own.limit]
  rfl

/-- Two calls are counted at once, each on a connection of its own. When both connections have
rested for a while scripts begin to fail: a check takes the first connection and ends degraded. Then
scripts run again, but pings fail. -/
def throughOutage : List (Move MemoryChange) :=
  let check : Job := .check "u" "svc" (some (2, 60))
  [.start [check], .start [check], .step 0, .step 1, .step 2, .step 3, .step 2, .step 3, .step 2,
    .step 3, .step 0, .step 1, .pass 31000000, .tend (.turn (.failScripts true)), .start [check],
    .step 4, .step 5, .step 5, .step 5, .step 4, .tend (.turn (.failScripts false)),
    .tend (.turn (.failPings true)), .tend (.turn (.latency 5000000))]

/-- The check after the outage. -/
def checkAfterOutage : List (Move MemoryChange) :=
  [.step 6, .step 7, .step 7, .step 7, .pass 5000000, .step 7, .step 6]

/-- The first check after the outage is the third one in the window, which has room for two. -/
theorem recovered_throughOutage :
    let check : Job := .check "u" "svc" (some (2, 60))
    let s := (Limiter.fresh fresh .standard).run surroundings throughOutage
    let asked := (s.start [check]).1
    let s' := asked.run surroundings checkAfterOutage
    (s.outcomes 4 = [.ok (.decision .degraded)] ∧ s.flag.up = true) ∧
      (s.pool.closed = false ∧ 0 < s.pool.free ∧ (∀ e ∈ s.tasks, e.2.stage.isOver = true) ∧
        ∀ before, before <+: checkAfterOutage → (asked.run surroundings before).Sound) ∧
      s'.outcomes 6 = [.ok (.decision (.rejected 24))] ∧ s'.flag.up = false ∧
      asked.stepsIn surroundings checkAfterOutage ≤ 6 := by
  intro check s asked s'
  have hidle : s.pool.idle.length = 1 := by decide +kernel
  have isOpen : s.pool.closed = false := by decide +kernel
  have free : 0 < s.pool.free := by decide +kernel
  have alone : ∀ e ∈ s.tasks, e.2.stage.isOver = true := by decide +kernel
  have sound : ∀ before, before <+: checkAfterOutage → (asked.run surroundings before).Sound :=
    Limiter.sound_of_inits (by decide +kernel)
  have valid : check.charge? =
      some (⟨"u", "svc", none⟩, ⟨2, 60, by decide, by decide, by decide⟩) := rfl
  obtain ⟨hsteps, -, hover⟩ := recovered .standard throughOutage checkAfterOutage "u" "svc"
    (some (2, 60)) valid isOpen free alone (by decide) sound
  obtain ⟨count, -, hcounts, -, -, houtcomes, -⟩ := hover (by decide +kernel)
  -- the call that has been counted, and the two in the window before it
  have hcount : s'.counts = s.counts ++ [⟨7, "rl:u:svc", 2, 60000, 36000000, 24000⟩] := by
    decide +kernel
  obtain rfl := List.singleton_inj.mp (List.append_cancel_left (hcounts.symm.trans hcount))
  have hopen : (openWindow (s.countsOn "rl:u:svc") 36000000).length = 2 := by
    rw [show s.countsOn "rl:u:svc" = [⟨2, "rl:u:svc", 2, 60000, 0, 0⟩,
      ⟨3, "rl:u:svc", 2, 60000, 0, 0⟩] by decide +kernel]
    cbv
  have hkey : counterKey "u" "svc" = "rl:u:svc" := rfl
  rw [hkey] at houtcomes
  refine ⟨by decide +kernel, ⟨isOpen, free, alone, sound⟩, ?_, by decide +kernel, ?_⟩
  · exact houtcomes.trans (by rw [hopen]; rfl)
  · exact hsteps.trans (by rw [hidle])

end Memory

end Turnstile
