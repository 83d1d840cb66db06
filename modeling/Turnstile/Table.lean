/-!
# Tables

A finite map kept as a list of entries. A key that is set keeps its place, a new key goes to the
end, and the first entry of a key counts. The laws say what each operation does to `get?`, so that
nothing else needs to know how the entries lie.
-/

namespace Turnstile

/-- Entries in the order in which their keys first came. -/
abbrev Table (κ α : Type) := List (κ × α)

namespace Table

variable {κ α : Type} [DecidableEq κ]

def get? : Table κ α → κ → Option α
  | [], _ => none
  | (k, a) :: rest, key => if k = key then some a else get? rest key

def put : Table κ α → κ → α → Table κ α
  | [], key, value => [(key, value)]
  | (k, a) :: rest, key, value =>
    if k = key then (key, value) :: rest else (k, a) :: put rest key value

def without : Table κ α → κ → Table κ α
  | [], _ => []
  | (k, a) :: rest, key => if k = key then without rest key else (k, a) :: without rest key

/-- The table with the key's value changed, if it has one. -/
def modify (t : Table κ α) (key : κ) (f : α → α) : Table κ α :=
  match get? t key with
  | some a => put t key (f a)
  | none => t

def keys (t : Table κ α) : List κ := t.map (·.1)

/-! ## Laws -/

@[simp, grind =] theorem get?_nil (key : κ) : get? ([] : Table κ α) key = none := rfl

@[simp, grind =] theorem get?_put_self (t : Table κ α) (key : κ) (value : α) :
    get? (put t key value) key = some value := by
  induction t with
  | nil => simp [put, get?]
  | cons entry rest ih =>
    obtain ⟨k, a⟩ := entry
    by_cases h : k = key <;> simp [put, get?, h, ih]

@[simp, grind =] theorem get?_put_ne (t : Table κ α) {key other : κ} (value : α) (h : other ≠ key) :
    get? (put t key value) other = get? t other := by
  induction t with
  | nil => simp [put, get?, Ne.symm h]
  | cons entry rest ih =>
    obtain ⟨k, a⟩ := entry
    by_cases hk : k = key
    · subst hk
      simp [put, get?, Ne.symm h]
    · simp [put, get?, hk, ih]

@[simp, grind =]
theorem get?_without_self (t : Table κ α) (key : κ) : get? (without t key) key = none := by
  induction t with
  | nil => rfl
  | cons entry rest ih =>
    obtain ⟨k, a⟩ := entry
    by_cases h : k = key <;> simp [without, h, get?, ih]

@[simp, grind =] theorem get?_without_ne (t : Table κ α) {key other : κ} (h : other ≠ key) :
    get? (without t key) other = get? t other := by
  induction t with
  | nil => rfl
  | cons entry rest ih =>
    obtain ⟨k, a⟩ := entry
    by_cases hk : k = key
    · subst hk
      simp [without, get?, Ne.symm h, ih]
    · simp [without, hk, get?, ih]

theorem mem_keys_put {t : Table κ α} {key other : κ} {value : α}
    (h : other ∈ keys (put t key value)) : other = key ∨ other ∈ keys t := by
  induction t with
  | nil => exact .inl (by simpa [put, keys] using h)
  | cons entry rest ih =>
    obtain ⟨k, a⟩ := entry
    by_cases hk : k = key
    · simp only [put, if_pos hk, keys, List.map_cons, List.mem_cons] at h ⊢
      rcases h with h | h
      · exact .inl h
      · exact .inr (.inr h)
    · simp only [put, if_neg hk, keys, List.map_cons, List.mem_cons] at h ih ⊢
      rcases h with h | h
      · exact .inr (.inl h)
      · exact (ih h).imp id .inr

theorem nodup_keys_put {t : Table κ α} {key : κ} {value : α} (h : (keys t).Nodup) :
    (keys (put t key value)).Nodup := by
  induction t with
  | nil => simp [put, keys]
  | cons entry rest ih =>
    obtain ⟨k, a⟩ := entry
    simp only [keys, List.map_cons, List.nodup_cons] at h
    by_cases hk : k = key
    · subst hk
      simpa [put, keys] using h
    · simp only [put, if_neg hk, keys, List.map_cons, List.nodup_cons]
      refine ⟨fun hm => ?_, ih h.2⟩
      rcases mem_keys_put hm with hm | hm
      · exact hk hm
      · exact h.1 hm

end Table

end Turnstile
