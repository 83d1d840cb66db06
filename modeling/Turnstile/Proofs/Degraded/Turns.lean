import Mathlib.Data.List.Chain
import Turnstile.Degraded.Flag

/-!
# The turns of a flag

Whoever writes to a flag tries to raise or to clear it. Each such turn is seen with the flag before
and after it, and with what the writer was told. `Account` says what holds of all the turns of one
flag in order, and of the lines that were logged about it; an account of some turns is one of more
by `Account.cons`.
-/

namespace Turnstile

/-- A line about a flag that went up or down. -/
def Level.tellsTransition (level : Level) (text : String) : Bool :=
  (level = .warn ∧ "Cache backend degraded".toList <+: text.toList) ∨
    (level = .info ∧ "Cache backend recovered".toList <+: text.toList)

/-- The line of an event, if it is about a flag that went up or down. -/
def Event.transition? (e : Event) : Option (Level × String) :=
  e.log?.filter fun (level, text) => level.tellsTransition text

namespace Flag

/-- Something that is tried on a flag. -/
inductive Write where
  | raise (now : Time) (reason : String)
  | clear
deriving DecidableEq, Repr

namespace Write

/-- Raises the flag for a failure, with its message as the reason, and else clears it. -/
def ofResult {α : Type} (now : Time) : Except Fault α → Write
  | .ok _ => .clear
  | .error f => .raise now f.message

/-- Whether the flag is to be up. -/
def wantsUp : Write → Bool
  | .raise .. => true
  | .clear => false

/-- What is journalled if the flag moves. -/
def event : Write → Event
  | .raise _ reason => .degraded reason
  | .clear => .recovered

/-- What is logged if the flag moves. -/
def line : Write → Level × String
  | .raise _ reason => (.warn, "Cache backend degraded, rate limiting fails open: " ++ reason)
  | .clear => (.info, "Cache backend recovered, rate limiting enforced again")

end Write

def write (f : Flag) : Write → Flag × List Event × Bool
  | .raise now reason => f.raise now reason
  | .clear => f.clear

/-- What was tried on a flag, the flag before and after, and whether the writer was told that it
moved. -/
structure Turn where
  tried : Write
  before : Flag
  after : Flag
  moved : Bool
deriving DecidableEq, Repr

def Turn.line? (t : Turn) : Option (Level × String) := if t.moved then some t.tried.line else none

/-- The turn that a write makes. -/
def turn (f : Flag) (w : Write) : Turn := ⟨w, f, (f.write w).1, (f.write w).2.2⟩

variable {f g first last : Flag} {w : Write} {t : Turn} {turns : List Turn}
  {lines : List (Level × String)}

/-! ## One turn -/

theorem Consistent.write (h : f.Consistent) (w : Write) : (f.write w).1.Consistent := by
  cases w with
  | raise now reason => exact h.raise now reason
  | clear => exact h.clear

@[simp] theorem write_up (f : Flag) (w : Write) : (f.write w).1.up = w.wantsUp := by
  cases w with
  | raise now reason => exact raise_up f now reason
  | clear => exact clear_up f

/-- A writer is told that the flag moved exactly if it was not where it was to be. -/
theorem moved_iff (f : Flag) (w : Write) : (f.turn w).moved = true ↔ f.up = !w.wantsUp := by
  cases w with
  | raise now reason =>
    simp only [turn, write, raise, Write.wantsUp]
    cases f.up <;> simp
  | clear =>
    simp only [turn, write, clear, Write.wantsUp]
    cases f.up <;> simp

/-- A flag that is where it is to be is left alone. -/
theorem write_of_up (h : f.up = w.wantsUp) : (f.write w).1 = f := by
  cases w with
  | raise now reason => exact congrArg Prod.fst (if_pos h)
  | clear => exact congrArg Prod.fst (if_neg (by rw [h]; decide))

theorem tellsTransition_line (w : Write) : w.line.1.tellsTransition w.line.2 = true := by
  cases w with
  | raise now reason =>
    have hprefix : "Cache backend degraded".toList <+:
        ("Cache backend degraded, rate limiting fails open: " ++ reason).toList := by
      rw [String.toList_append]
      exact (by decide : "Cache backend degraded".toList <+:
        "Cache backend degraded, rate limiting fails open: ".toList).trans (List.prefix_append ..)
    exact decide_eq_true (.inl ⟨rfl, hprefix⟩)
  | clear => decide

theorem transition?_event (w : Write) : w.event.transition? = some w.line := by
  have hlog : w.event.log? = some w.line := by cases w <;> rfl
  rw [Event.transition?, hlog]
  exact if_pos (tellsTransition_line w)

theorem events_write (f : Flag) (w : Write) :
    (f.write w).2.1 = if (f.turn w).moved then [w.event] else [] := by
  cases w with
  | raise now reason =>
    simp only [turn, write, raise]
    split <;> rfl
  | clear =>
    simp only [turn, write, clear]
    split <;> rfl

/-- A write logs one line if the flag moves, and nothing else. -/
theorem transitions_write (f : Flag) (w : Write) :
    (f.write w).2.1.filterMap Event.transition? = (f.turn w).line?.toList := by
  rw [events_write, Turn.line?]
  split
  · rw [List.filterMap_cons_some (transition?_event w)]
    rfl
  · rfl

theorem line?_of_moved (h : (f.turn w).moved = true) : (f.turn w).line? = some w.line := if_pos h

theorem line?_of_not_moved (h : (f.turn w).moved = false) : (f.turn w).line? = none :=
  if_neg (by rw [h]; decide)

/-- A turn either leaves the flag, and no line is about it, or moves it, and there is a line. -/
theorem turn_cases (f : Flag) (w : Write) :
    ((f.turn w).line? = none ∧ f.up = w.wantsUp) ∨
      ((f.turn w).line? = some w.line ∧ f.up = !w.wantsUp) := by
  have hmoved := moved_iff f w
  cases hm : (f.turn w).moved with
  | false => exact .inl ⟨line?_of_not_moved hm, by simpa [hm] using hmoved⟩
  | true => exact .inr ⟨line?_of_moved hm, hmoved.mp hm⟩

/-! ## All turns -/

/-- The turns follow on each other: each finds the flag as the one before has left it. -/
def Linked : Flag → List Turn → Flag → Prop
  | first, [], last => first = last
  | first, t :: rest, last => t.before = first ∧ Linked t.after rest last

/-- What holds of a flag, of all the turns of its writers and of the lines about it: nobody else
changes it; it has a start exactly while it is up, and keeps it as long as it stays up; a writer is
told that it moved if it did; and of every turn that moved it there is one line, with the reason of
that turn. So warnings and notes alternate, and there are as many more warnings as the state
says. -/
structure Account (first : Flag) (turns : List Turn) (last : Flag)
    (lines : List (Level × String)) : Prop where
  linked : Linked first turns last
  consistent : first.Consistent ∧ last.Consistent ∧
    ∀ t ∈ turns, t.before.Consistent ∧ t.after.Consistent
  moved : ∀ t ∈ turns,
    t.moved = true ↔ t.before.up = !t.tried.wantsUp ∧ t.after.up = t.tried.wantsUp
  still : ∀ t ∈ turns, t.before.up = true → t.after.up = true → t.after.since = t.before.since
  logged : lines = turns.filterMap Turn.line?
  /-- The first line is a warning if the flag was down. -/
  head : ∀ line ∈ lines.head?, line.1 = if first.up then .info else .warn
  alternate : lines.IsChain fun line next => line.1 ≠ next.1
  balance : (lines.countP (·.1 = .warn) : Int) - lines.countP (·.1 = .info) =
    (last.up.toNat : Int) - first.up.toNat

namespace Account

theorem nil (consistent : f.Consistent) : Account f [] f [] where
  linked := rfl
  consistent := ⟨consistent, consistent, by simp⟩
  moved := by simp
  still := by simp
  logged := rfl
  head := by simp
  alternate := .nil
  balance := by simp

/-- A turn in front of others is accounted for with them. -/
theorem cons (consistent : f.Consistent) (w : Write)
    (rest : Account (f.write w).1 turns last lines) :
    Account f (f.turn w :: turns) last ((f.turn w).line?.toList ++ lines) where
  linked := ⟨rfl, rest.linked⟩
  consistent := by
    refine ⟨consistent, rest.consistent.2.1, ?_⟩
    rw [List.forall_mem_cons]
    exact ⟨⟨consistent, consistent.write w⟩, rest.consistent.2.2⟩
  moved := by
    rw [List.forall_mem_cons]
    refine ⟨(moved_iff f w).trans ⟨fun h => ⟨h, write_up f w⟩, fun h => h.1⟩, rest.moved⟩
  still := by
    rw [List.forall_mem_cons]
    refine ⟨fun hbefore hafter => ?_, rest.still⟩
    have hup : f.up = w.wantsUp := by
      rw [← write_up f w]
      exact hbefore.trans hafter.symm
    exact congrArg Flag.since (write_of_up hup)
  logged := by
    rw [List.filterMap_cons, rest.logged]
    cases (f.turn w).line? <;> rfl
  head := by
    rcases turn_cases f w with ⟨hline, hup⟩ | ⟨hline, hup⟩
    · rw [hline, ← write_of_up hup]
      exact rest.head
    · rw [hline, hup]
      rintro line ⟨⟩
      cases w <;> rfl
  alternate := by
    rcases turn_cases f w with ⟨hline, -⟩ | ⟨hline, -⟩
    · rw [hline]
      exact rest.alternate
    · rw [hline]
      refine List.isChain_cons.mpr ⟨fun next hnext => ?_, rest.alternate⟩
      -- the next line tells of the way back
      rw [rest.head next hnext, write_up]
      cases w <;> simp [Write.line, Write.wantsUp]
  balance := by
    have hrest := rest.balance
    rw [write_up] at hrest
    rw [List.countP_append, List.countP_append]
    rcases turn_cases f w with ⟨hline, hup⟩ | ⟨hline, hup⟩
    · simpa [hline, hup] using hrest
    · cases w <;> simp [hline, hup, Write.wantsUp, Write.line] at hrest ⊢ <;> omega

end Account

end Flag

end Turnstile
