import Turnstile.Proofs.Runs.Tidy

/-!
# What a store keeps

A limiter does nothing to its store but make requests and take answers, and besides that the store
is tended from outside. So what the store keeps by itself it keeps through every run of a limiter
(`Keeps.run`).
-/

namespace Turnstile

namespace Limiter

variable {σ ε : Type}

/-- A condition on a store that requests, answers and tending keep. -/
structure Keeps (W : Surroundings σ ε) (P : σ → Prop) : Prop where
  start : ∀ {store} conn command, P store → P (W.backend.start store conn command).1
  finish : ∀ {store} now conn command, P store → P (W.backend.finish store now conn command).1
  tend : ∀ {store} now change, P store → P (W.tend now store change)

namespace Keeps

variable {W : Surroundings σ ε} {P : σ → Prop}

theorem act (keeps : Keeps W P) {t : TaskId} {m m' : Motion σ} (a : Act W.backend t m m')
    (h : P m.state.backend) : P m'.state.backend := by
  cases a with
  | aside a =>
    cases a with
    | ask conn command => exact keeps.start conn command h
    | _ => exact h
  | finish call fits => exact keeps.finish _ call.conn call.command h
  | start jobs => simpa using h
  | free => simpa using h
  | _ => exact h

theorem invariant (keeps : Keeps W P) :
    Invariant W (fun s => Tidy s ∧ P s.backend)
      fun (_ : TaskId) (m : Motion σ) => Tidy m.state ∧ P m.state.backend where
  proper h hs := h.1.proper _ _ hs
  takeUp _ h := h
  layDown h := h
  act a h := ⟨h.1.act a, keeps.act a h.2⟩
  setStage proper h := ⟨h.1.setStage proper, h.2⟩
  settle hget _ h := ⟨h.1.settle hget _, h.2⟩
  outside ho h := by
    refine ⟨h.1.outside ho, ?_⟩
    cases ho with
    | tend change => exact keeps.tend _ change h.2
    | _ => exact h.2
  unkeep _ _ h := ⟨h.1.unkeep _, h.2⟩

/-- Through every run of a new limiter the store keeps what it keeps by itself. -/
theorem run (keeps : Keeps W P) {store : σ} (h : P store) (settings : PoolSettings)
    (moves : List (Move ε)) : P ((Limiter.fresh store settings).run W moves).backend :=
  (keeps.invariant.run ⟨Tidy.fresh store settings, h⟩ moves).2

end Keeps

end Limiter

end Turnstile
