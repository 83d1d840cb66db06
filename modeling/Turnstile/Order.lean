/-!
# Lists in order

Sorting by insertion: short lists are put in order, and of two items that are equal in the order the
one that came first stays first.
-/

namespace Turnstile.Order

variable {α : Type}

/-- Puts an item in front of the first that it precedes. -/
def place (precedes : α → α → Bool) (a : α) : List α → List α
  | [] => [a]
  | b :: rest => if precedes a b then a :: b :: rest else b :: place precedes a rest

def sort (precedes : α → α → Bool) : List α → List α
  | [] => []
  | a :: rest => place precedes a (sort precedes rest)

/-! ## Laws -/

theorem place_perm (precedes : α → α → Bool) (a : α) (l : List α) :
    (place precedes a l).Perm (a :: l) := by
  induction l with
  | nil => exact .refl _
  | cons b rest ih =>
    unfold place
    split
    · exact .refl _
    · exact (ih.cons b).trans (.swap a b rest)

/-- Sorting loses nothing and adds nothing. -/
theorem sort_perm (precedes : α → α → Bool) (l : List α) : (sort precedes l).Perm l := by
  induction l with
  | nil => exact .refl _
  | cons a rest ih => exact (place_perm precedes a _).trans (ih.cons a)

theorem mem_sort {precedes : α → α → Bool} {a : α} {l : List α} : a ∈ sort precedes l ↔ a ∈ l :=
  (sort_perm precedes l).mem_iff

theorem pairwise_place {precedes : α → α → Bool}
    (total : ∀ a b, precedes a b = true ∨ precedes b a = true)
    (trans : ∀ a b c, precedes a b = true → precedes b c = true → precedes a c = true)
    (a : α) {l : List α} (h : l.Pairwise fun x y => precedes x y = true) :
    (place precedes a l).Pairwise fun x y => precedes x y = true := by
  induction l with
  | nil => exact List.pairwise_singleton _ a
  | cons b rest ih =>
    have hb := List.pairwise_cons.mp h
    unfold place
    split
    · rename_i hab
      refine List.pairwise_cons.mpr ⟨fun x hx => ?_, h⟩
      rcases List.mem_cons.mp hx with rfl | hx
      · exact hab
      · exact trans a b x hab (hb.1 x hx)
    · rename_i hab
      refine List.pairwise_cons.mpr ⟨fun x hx => ?_, ih hb.2⟩
      rcases List.mem_cons.mp ((place_perm precedes a rest).mem_iff.mp hx) with rfl | hx
      · exact (total x b).resolve_left hab
      · exact hb.1 x hx

theorem pairwise_sort {precedes : α → α → Bool}
    (total : ∀ a b, precedes a b = true ∨ precedes b a = true)
    (trans : ∀ a b c, precedes a b = true → precedes b c = true → precedes a c = true)
    (l : List α) : (sort precedes l).Pairwise fun x y => precedes x y = true := by
  induction l with
  | nil => exact .nil
  | cons a rest ih => exact pairwise_place total trans a ih

end Turnstile.Order
