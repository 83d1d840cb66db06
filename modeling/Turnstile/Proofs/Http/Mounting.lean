import Turnstile.Http.Site

/-!
# Which bases take the route

A base takes the status route if it begins with a slash and is more than that, if none of its
segments is written in an older notation or would take the rest of a path, and if the pattern that
it makes with the path can be read (`Mounts`). A pattern is read one character or one capture at a
time (`Reads`). A base without marks of captures reads as it stands, so it takes the route as soon
as there is something behind its slash (`supported_of_plain`).
-/

namespace Turnstile

namespace Route

/-! ## Patterns -/

/-- What may stand in the name of a capture after the first character. -/
def IsInner (m : Mark) : Prop := m ≠ ('\x7d', false) ∧ m.1 ≠ '*' ∧ m.1 ≠ '/'

/-- The marks of a pattern are read as a route. -/
inductive Reads : List Mark → Route → Prop where
  | done : Reads [] []
  | char {c : Char} {doubled : Bool} {rest : List Mark} {route : Route}
    (plain : doubled = true ∨ c ≠ '\x7b' ∧ c ≠ '\x7d') (reads : Reads rest route) :
    Reads ((c, doubled) :: rest) (.char c :: route)
  | capture {first : Mark} {inner rest : List Mark} {route : Route}
    (named : first.1 ≠ '\x7d' ∧ first.1 ≠ '*') (isInner : ∀ m ∈ inner, IsInner m)
    (ends : endsSegment rest = true) (reads : Reads rest route) :
    Reads (('\x7b', false) :: first :: (inner ++ ('\x7d', false) :: rest)) (.capture :: route)

theorem afterName?_eq_some_iff {s rest : List Mark} : afterName? s = some rest ↔
    ∃ inner, s = inner ++ ('\x7d', false) :: rest ∧ ∀ m ∈ inner, IsInner m := by
  constructor
  · intro h
    fun_induction afterName? s with
    | case1 => cases h
    | case2 after =>
      cases h
      exact ⟨[], rfl, List.forall_mem_nil _⟩
    | case3 => cases h
    | case4 c doubled after hne allowed ih =>
      obtain ⟨inner, rfl, hinner⟩ := ih h
      refine ⟨(c, doubled) :: inner, rfl, List.forall_mem_cons.mpr ⟨⟨?_, ?_⟩, hinner⟩⟩
      · rintro ⟨⟩
        exact hne rfl rfl
      · exact not_or.mp allowed
  · rintro ⟨inner, rfl, hinner⟩
    induction inner with
    | nil => rfl
    | cons m inner ih =>
      obtain ⟨hm, hinner⟩ := List.forall_mem_cons.mp hinner
      rw [List.cons_append, afterName?.eq_3 m.1 m.2 _ fun h h' => hm.1 (Prod.ext h h'),
        if_neg (not_or.mpr hm.2)]
      exact ih hinner

theorem steps?_char {c : Char} {doubled : Bool} (rest : List Mark)
    (plain : doubled = true ∨ c ≠ '\x7b' ∧ c ≠ '\x7d') :
    steps? ((c, doubled) :: rest) = (steps? rest).map (.char c :: ·) := by
  rw [steps?.eq_def]
  rcases plain with rfl | ⟨hopen, hclose⟩
  · rfl
  · simp only [if_neg hclose, if_neg hopen, ite_self]

theorem steps?_capture {first : Mark} {name rest : List Mark}
    (named : first.1 ≠ '\x7d' ∧ first.1 ≠ '*') (closed : afterName? name = some rest)
    (ends : endsSegment rest = true) :
    steps? (('\x7b', false) :: first :: name) = (steps? rest).map (.capture :: ·) := by
  rw [steps?.eq_3, if_neg Bool.false_ne_true, if_neg (by decide), if_pos rfl,
    if_neg (not_or.mpr named)]
  split
  · rename_i hnone
    rw [closed] at hnone
    cases hnone
  · rename_i after hsome
    obtain rfl : rest = after := Option.some.inj (closed.symm.trans hsome)
    rw [if_pos ends]

theorem steps?_eq_some_iff {s : List Mark} {route : Route} :
    steps? s = some route ↔ Reads s route := by
  constructor
  · intro h
    fun_induction steps? s generalizing route with
    | case1 =>
      cases h
      exact .done
    | case2 c rest ih =>
      obtain ⟨steps, hsteps, rfl⟩ := Option.map_eq_some_iff.mp h
      exact .char (.inl rfl) (ih hsteps)
    | case7 doubled hdoubled first d name named rest closed ends _ ih =>
      obtain ⟨inner, rfl, isInner⟩ := afterName?_eq_some_iff.mp closed
      obtain ⟨steps, hsteps, rfl⟩ := Option.map_eq_some_iff.mp h
      obtain rfl : doubled = false := Bool.eq_false_iff.mpr hdoubled
      exact .capture (not_or.mp named) isInner ends (ih hsteps)
    | case9 c doubled rest _ hclose hopen ih =>
      obtain ⟨steps, hsteps, rfl⟩ := Option.map_eq_some_iff.mp h
      exact .char (.inr ⟨hopen, hclose⟩) (ih hsteps)
    | case3 | case4 | case5 | case6 | case8 => cases h
  · intro h
    induction h with
    | done => exact steps?.eq_1
    | char plain reads ih => rw [steps?_char _ plain, ih, Option.map_some]
    | capture named isInner ends reads ih =>
      rw [steps?_capture named (afterName?_eq_some_iff.mpr ⟨_, rfl, isInner⟩) ends, ih,
        Option.map_some]

/-- Characters that are no braces are marked as they are. -/
theorem marks_of_plain {cs : List Char} (plain : ∀ c ∈ cs, c ≠ '\x7b' ∧ c ≠ '\x7d') :
    marks cs = cs.map fun c => (c, false) := by
  induction cs with
  | nil => rfl
  | cons c cs ih =>
    obtain ⟨⟨hopen, hclose⟩, plain⟩ := List.forall_mem_cons.mp plain
    rw [marks.eq_3 c cs (fun _ h _ => hopen h) (fun _ h _ => hclose h), ih plain, List.map_cons]

/-- A pattern without braces stands for itself. -/
theorem reads_of_plain {cs : List Char} (plain : ∀ c ∈ cs, c ≠ '\x7b' ∧ c ≠ '\x7d') :
    Reads (marks cs) (cs.map .char) := by
  rw [marks_of_plain plain]
  induction cs with
  | nil => exact .done
  | cons c cs ih =>
    obtain ⟨hc, plain⟩ := List.forall_mem_cons.mp plain
    exact .char (.inr hc) (ih plain)

/-! ## Bases -/

/-- A segment as patterns are written now, which ends where the path's segment ends. -/
def Plain (segment : List Char) : Prop := isReserved segment = false ∧ takesRest segment = false

/-- Under the base, the path is mounted as the route. -/
structure Mounts (base path : List Char) (route : Route) : Prop where
  rooted : base.head? = some '/'
  more : base ≠ ['/']
  plain : ∀ segment ∈ segments base, Plain segment
  reads : Reads (marks (join base path)) route
  few : route.count .capture ≤ maxCaptures

theorem isBase_iff {base : List Char} : isBase base = true ↔
    base.head? = some '/' ∧ base ≠ ['/'] ∧ ∀ segment ∈ segments base, Plain segment := by
  simp [isBase, Plain, and_assoc]

theorem mount?_eq_some_iff {base path : String} {route : Route} :
    mount? base path = some route ↔ Mounts base.toList path.toList route := by
  unfold mount?
  by_cases hbase : isBase base.toList = true
  · obtain ⟨rooted, more, plain⟩ := isBase_iff.mp hbase
    rw [if_pos hbase, ofPattern?, Option.filter_eq_some_iff, steps?_eq_some_iff, decide_eq_true_iff]
    exact ⟨fun ⟨reads, few⟩ => ⟨rooted, more, plain, reads, few⟩, fun h => ⟨h.reads, h.few⟩⟩
  · rw [if_neg hbase]
    exact ⟨nofun, fun h => absurd (isBase_iff.mpr ⟨h.rooted, h.more, h.plain⟩) hbase⟩

/-- The characters of a segment are characters of the base. -/
theorem mem_of_mem_segments {base segment : List Char} {c : Char}
    (hsegment : segment ∈ segments base) (hc : c ∈ segment) : c ∈ base := by
  induction base generalizing segment with
  | nil =>
    obtain rfl := List.mem_singleton.mp hsegment
    cases hc
  | cons x rest ih =>
    rw [segments] at hsegment
    split at hsegment
    · rcases List.mem_cons.mp hsegment with rfl | hsegment
      · cases hc
      · exact List.mem_cons_of_mem x (ih hsegment hc)
    · cases hrest : segments rest with
      | nil =>
        rw [hrest] at hsegment
        obtain rfl := List.mem_singleton.mp hsegment
        exact List.mem_cons.mpr (.inl (List.mem_singleton.mp hc))
      | cons piece more =>
        simp only [hrest] at hsegment
        rcases List.mem_cons.mp hsegment with rfl | hsegment
        · rcases List.mem_cons.mp hc with rfl | hc
          · exact List.mem_cons_self ..
          · exact List.mem_cons_of_mem x (ih (hrest ▸ List.mem_cons_self ..) hc)
        · exact List.mem_cons_of_mem x (ih (hrest ▸ List.mem_cons_of_mem piece hsegment) hc)

theorem mem_join {base path : List Char} {c : Char} (h : c ∈ join base path) :
    c ∈ base ∨ c ∈ path := by
  unfold join at h
  split at h
  · exact (List.mem_append.mp h).imp_right fun h => (List.dropWhile_sublist _).subset h
  · exact List.mem_append.mp h

/-- A base without the marks of captures takes every path without braces, and the route is the path
under the base and nothing else. -/
theorem mounts_of_plain {base path : List Char} (rooted : base.head? = some '/')
    (more : base ≠ ['/']) (plain : ∀ c ∈ [':', '*', '\x7b', '\x7d'], c ∉ base)
    (hpath : ∀ c ∈ path, c ≠ '\x7b' ∧ c ≠ '\x7d') :
    Mounts base path ((join base path).map .char) where
  rooted
  more
  plain segment hsegment := by
    simp only [List.forall_mem_cons] at plain
    obtain ⟨hcolon, hstar, hopen, -⟩ := plain
    cases segment with
    | nil => exact ⟨rfl, rfl⟩
    | cons c rest =>
      have hc : c ∈ base := mem_of_mem_segments hsegment (List.mem_cons_self ..)
      have hcolon : c ≠ ':' := fun h => hcolon (h ▸ hc)
      have hstar : c ≠ '*' := fun h => hstar (h ▸ hc)
      have hopen : ¬('\x7b' = c) := fun h => hopen (h ▸ hc)
      simp [Plain, isReserved, takesRest, hcolon, hstar, hopen]
  reads := reads_of_plain fun c hc => by
    rcases mem_join hc with hc | hc
    · exact ⟨fun h => plain _ (by decide) (h ▸ hc), fun h => plain _ (by decide) (h ▸ hc)⟩
    · exact hpath c hc
  few := by
    rw [List.count_eq_zero.mpr (by simp)]
    exact Nat.zero_le _

end Route

namespace Site

/-- The status route can be put under the base. -/
def Supported (base : String) : Prop :=
  ∃ route, Route.Mounts base.toList statusPath.toList route

theorem supported_of_plain {base : String} (rooted : base.toList.head? = some '/')
    (more : base ≠ "/") (plain : ∀ c ∈ [':', '*', '\x7b', '\x7d'], c ∉ base.toList) :
    Supported base :=
  ⟨_, Route.mounts_of_plain rooted (fun h => more (String.toList_inj.mp h)) plain
    (by simp [statusPath])⟩

end Site

end Turnstile
