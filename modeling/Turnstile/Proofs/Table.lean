import Turnstile.Table

/-!
# More about tables

What `put`, `modify` and `without` do to the keys and to sums over the entries. With distinct keys
an entry is the one that counts for its key, so a filter acts on every key by itself.
-/

namespace Turnstile

namespace Table

/-- Leaving entries out leaves the keys distinct. -/
theorem nodup_keys_filter {κ α : Type} {t : Table κ α} (hn : (keys t).Nodup) (p : κ × α → Bool) :
    (keys (t.filter p)).Nodup :=
  hn.sublist (List.filter_sublist.map _)

@[simp] theorem length_keys {κ α : Type} (t : Table κ α) : (keys t).length = t.length :=
  List.length_map ..

variable {κ α : Type} [DecidableEq κ]

/-! ## Keys -/

theorem get?_eq_none_iff {t : Table κ α} {key : κ} : get? t key = none ↔ key ∉ keys t := by
  induction t with
  | nil => simp [get?, keys]
  | cons entry rest ih =>
    obtain ⟨k, a⟩ := entry
    by_cases h : k = key
    · simp [get?, keys, h]
    · simpa [get?, keys, h, Ne.symm h] using ih

theorem mem_keys_of_get? {t : Table κ α} {key : κ} {value : α} (h : get? t key = some value) :
    key ∈ keys t := by
  refine Decidable.byContradiction fun hk => ?_
  rw [get?_eq_none_iff.mpr hk] at h
  cases h

theorem mem_of_get? {t : Table κ α} {key : κ} {value : α} (h : get? t key = some value) :
    (key, value) ∈ t := by
  induction t with
  | nil => cases h
  | cons entry rest ih =>
    obtain ⟨k, a⟩ := entry
    by_cases hk : k = key
    · simp only [get?, if_pos hk, Option.some.injEq] at h
      subst hk h
      exact List.mem_cons_self
    · simp only [get?, if_neg hk] at h
      exact List.mem_cons_of_mem _ (ih h)

/-- With distinct keys every entry is the one that counts. -/
theorem get?_of_mem {t : Table κ α} (hn : (keys t).Nodup) {key : κ} {value : α}
    (h : (key, value) ∈ t) : get? t key = some value := by
  induction t with
  | nil => cases h
  | cons entry rest ih =>
    obtain ⟨k, a⟩ := entry
    simp only [keys, List.map_cons, List.nodup_cons] at hn
    rcases List.mem_cons.mp h with h | h
    · cases h
      simp [get?]
    · have hne : k ≠ key := by
        rintro rfl
        exact hn.1 (List.mem_map_of_mem h)
      rw [get?, if_neg hne]
      exact ih hn.2 h

theorem get?_isSome_iff {t : Table κ α} {key : κ} : (get? t key).isSome ↔ key ∈ keys t := by
  rw [Option.isSome_iff_ne_none, ne_eq, get?_eq_none_iff, Decidable.not_not]

theorem get?_filter {t : Table κ α} (hn : (keys t).Nodup) (p : κ × α → Bool) (key : κ) :
    get? (t.filter p) key = (get? t key).filter fun a => p (key, a) := by
  induction t with
  | nil => rfl
  | cons entry rest ih =>
    obtain ⟨k, a⟩ := entry
    simp only [keys, List.map_cons, List.nodup_cons] at hn
    by_cases hk : k = key
    · subst hk
      by_cases hp : p (k, a) = true
      · simp [get?, hp, Option.filter]
      · -- the entry goes, and with distinct keys no later one takes its place
        have hrest : get? rest k = none := get?_eq_none_iff.mpr hn.1
        simp [get?, hp, ih hn.2, hrest, Option.filter]
    · by_cases hp : p (k, a) = true <;> simp [get?, hk, hp, ih hn.2]

@[simp] theorem keys_put_of_mem {t : Table κ α} {key : κ} (value : α) (h : key ∈ keys t) :
    keys (put t key value) = keys t := by
  induction t with
  | nil => cases h
  | cons entry rest ih =>
    obtain ⟨k, a⟩ := entry
    by_cases hk : k = key
    · simp [put, keys, hk]
    · have hm : key ∈ keys rest := by simpa [keys, Ne.symm hk] using h
      simpa [put, keys, hk] using ih hm

@[simp] theorem mem_keys_put_iff {t : Table κ α} {key other : κ} {value : α} :
    other ∈ keys (put t key value) ↔ other = key ∨ other ∈ keys t := by
  refine ⟨mem_keys_put, fun h => ?_⟩
  rw [← get?_isSome_iff]
  by_cases hk : other = key
  · simp [hk]
  · simpa [hk, get?_isSome_iff] using h

theorem put_of_not_mem {t : Table κ α} {key : κ} (value : α) (h : key ∉ keys t) :
    put t key value = t ++ [(key, value)] := by
  induction t with
  | nil => rfl
  | cons entry rest ih =>
    obtain ⟨k, a⟩ := entry
    simp only [keys, List.map_cons, List.mem_cons, not_or] at h
    simp [put, Ne.symm h.1, ih h.2]

theorem mem_of_mem_put {t : Table κ α} {key : κ} {value : α} {e : κ × α}
    (h : e ∈ put t key value) : e = (key, value) ∨ e ∈ t := by
  induction t with
  | nil => exact .inl (List.mem_singleton.mp h)
  | cons entry rest ih =>
    obtain ⟨k, a⟩ := entry
    by_cases hk : k = key
    · rw [put, if_pos hk] at h
      exact (List.mem_cons.mp h).imp id (List.mem_cons_of_mem _)
    · rw [put, if_neg hk] at h
      rcases List.mem_cons.mp h with rfl | h
      · exact .inr List.mem_cons_self
      · exact (ih h).imp id (List.mem_cons_of_mem _)

theorem length_put_of_mem {t : Table κ α} {key : κ} (value : α) (h : key ∈ keys t) :
    (put t key value).length = t.length := by
  rw [← length_keys, keys_put_of_mem value h, length_keys]

theorem length_put_of_not_mem {t : Table κ α} {key : κ} (value : α) (h : key ∉ keys t) :
    (put t key value).length = t.length + 1 := by
  rw [put_of_not_mem value h, List.length_append, List.length_singleton]

/-! ## Changing a value -/

@[simp] theorem get?_modify_self (t : Table κ α) (key : κ) (f : α → α) :
    get? (modify t key f) key = (get? t key).map f := by
  unfold modify
  cases h : get? t key with
  | none => simpa using h
  | some a => exact get?_put_self ..

@[simp] theorem get?_modify_ne (t : Table κ α) {key other : κ} (f : α → α) (h : other ≠ key) :
    get? (modify t key f) other = get? t other := by
  unfold modify
  split
  · exact get?_put_ne _ _ h
  · rfl

@[simp]
theorem keys_modify (t : Table κ α) (key : κ) (f : α → α) : keys (modify t key f) = keys t := by
  unfold modify
  split
  · exact keys_put_of_mem _ (mem_keys_of_get? ‹_›)
  · rfl

@[simp]
theorem length_modify (t : Table κ α) (key : κ) (f : α → α) :
    (modify t key f).length = t.length := by
  rw [← length_keys, keys_modify, length_keys]

/-! ## Leaving a key out -/

@[simp] theorem without_put_self (t : Table κ α) (key : κ) (value : α) :
    without (put t key value) key = without t key := by
  induction t with
  | nil => simp [put, without]
  | cons entry rest ih =>
    obtain ⟨k, a⟩ := entry
    by_cases hk : k = key
    · simp [put, without, hk]
    · simp [put, without, hk, ih]

@[simp] theorem without_put_ne (t : Table κ α) {key other : κ} (value : α) (h : key ≠ other) :
    without (put t key value) other = put (without t other) key value := by
  induction t with
  | nil => simp [put, without, h]
  | cons entry rest ih =>
    obtain ⟨k, a⟩ := entry
    by_cases hk : k = key
    · subst hk
      simp [put, without, h]
    · by_cases ho : k = other
      · have hne : other ≠ key := Ne.symm h
        simp [put, without, ho, hne, ← ih]
      · simp [put, without, hk, ho, ih]

@[simp] theorem without_modify_self (t : Table κ α) (key : κ) (f : α → α) :
    without (modify t key f) key = without t key := by
  unfold modify
  split
  · exact without_put_self ..
  · rfl

@[simp]
theorem without_of_not_mem {t : Table κ α} {key : κ} (h : key ∉ keys t) : without t key = t := by
  induction t with
  | nil => rfl
  | cons entry rest ih =>
    obtain ⟨k, a⟩ := entry
    simp only [keys, List.map_cons, List.mem_cons, not_or] at h
    simp [without, Ne.symm h.1, ih h.2]

theorem nodup_keys_without {t : Table κ α} (hn : (keys t).Nodup) (key : κ) :
    (keys (without t key)).Nodup := by
  have h : without t key = t.filter fun e => e.1 ≠ key := by
    induction t with
    | nil => rfl
    | cons entry rest ih =>
      have hrest : (keys rest).Nodup := (List.nodup_cons.mp hn).2
      by_cases hk : entry.1 = key <;> simp [without, hk, ih hrest]
  exact h ▸ hn.sublist (List.filter_sublist.map _)

/-! ## Looking at some keys only -/

/-- The entries whose keys are wanted. -/
def restrict {κ α : Type} (wanted : κ → Bool) (t : Table κ α) : Table κ α :=
  t.filter fun e => wanted e.1

/-- What is put under a key that is not wanted is not seen. -/
@[simp] theorem restrict_put_of_not (wanted : κ → Bool) (t : Table κ α) {key : κ}
    (h : wanted key = false) (value : α) :
    restrict wanted (put t key value) = restrict wanted t := by
  induction t with
  | nil => simp [restrict, put, h]
  | cons entry rest ih =>
    obtain ⟨k, a⟩ := entry
    unfold restrict at ih ⊢
    by_cases hk : k = key
    · subst hk
      simp [put, h]
    · cases hw : wanted k <;> simp [put, hk, hw, ih]

/-- The table with every value changed. -/
def mapValues {κ α β : Type} (f : α → β) (t : Table κ α) : Table κ β := t.map fun e => (e.1, f e.2)

@[simp] theorem get?_mapValues {β : Type} (f : α → β) (t : Table κ α) (key : κ) :
    get? (mapValues f t) key = (get? t key).map f := by
  induction t with
  | nil => rfl
  | cons entry rest ih =>
    obtain ⟨k, a⟩ := entry
    unfold mapValues at ih ⊢
    by_cases hk : k = key <;> simp [get?, hk, ih]

@[simp] theorem mapValues_put {β : Type} (f : α → β) (t : Table κ α) (key : κ) (value : α) :
    mapValues f (put t key value) = put (mapValues f t) key (f value) := by
  induction t with
  | nil => rfl
  | cons entry rest ih =>
    obtain ⟨k, a⟩ := entry
    unfold mapValues at ih ⊢
    by_cases hk : k = key <;> simp [put, hk, ih]

theorem mapValues_modify {β : Type} (f : α → β) (t : Table κ α) (key : κ) {g : α → α}
    {k : β → β} (h : ∀ a, f (g a) = k (f a)) :
    mapValues f (modify t key g) = modify (mapValues f t) key k := by
  unfold modify
  rw [get?_mapValues]
  cases hget : get? t key with
  | none => rfl
  | some a =>
    simp only [Option.map_some]
    rw [mapValues_put, h]

/-! ## Adding up -/

/-- The sum of a number for every entry. -/
def sum {κ α : Type} (f : α → Nat) : Table κ α → Nat
  | [] => 0
  | (_, a) :: rest => f a + sum f rest

theorem sum_put {t : Table κ α} {key : κ} {old : α} (h : get? t key = some old) (value : α)
    (f : α → Nat) : sum f (put t key value) + f old = sum f t + f value := by
  induction t with
  | nil => cases h
  | cons entry rest ih =>
    obtain ⟨k, a⟩ := entry
    by_cases hk : k = key
    · simp only [get?, if_pos hk, Option.some.injEq] at h
      subst h
      simp only [put, if_pos hk, sum]
      omega
    · simp only [get?, if_neg hk] at h
      have hrest := ih h
      simp only [put, if_neg hk, sum]
      omega

theorem sum_put_of_not_mem {t : Table κ α} {key : κ} (h : key ∉ keys t) (value : α)
    (f : α → Nat) : sum f (put t key value) = sum f t + f value := by
  induction t with
  | nil => simp [put, sum]
  | cons entry rest ih =>
    obtain ⟨k, a⟩ := entry
    simp only [keys, List.map_cons, List.mem_cons, not_or] at h
    have hrest := ih h.2
    simp only [put, if_neg (Ne.symm h.1), sum]
    omega

theorem le_sum_of_get? {t : Table κ α} {key : κ} {value : α} (h : get? t key = some value)
    (f : α → Nat) : f value ≤ sum f t := by
  induction t with
  | nil => cases h
  | cons entry rest ih =>
    obtain ⟨k, a⟩ := entry
    by_cases hk : k = key
    · simp only [get?, if_pos hk, Option.some.injEq] at h
      subst h
      exact Nat.le_add_right ..
    · simp only [get?, if_neg hk] at h
      exact Nat.le_trans (ih h) (Nat.le_add_left ..)

/-- A key's number and the others' make up the sum. -/
theorem sum_eq_add_without {t : Table κ α} (hn : (keys t).Nodup) {key : κ} {value : α}
    (h : get? t key = some value) (f : α → Nat) : sum f t = f value + sum f (without t key) := by
  induction t with
  | nil => cases h
  | cons entry rest ih =>
    obtain ⟨k, a⟩ := entry
    simp only [keys, List.map_cons, List.nodup_cons] at hn
    by_cases hk : k = key
    · subst hk
      simp only [get?, if_pos, Option.some.injEq] at h
      -- the key comes only once, so leaving it out takes nothing more away
      have hrest : without rest k = rest := without_of_not_mem hn.1
      simp [sum, without, hrest, h]
    · simp only [get?, if_neg hk] at h
      have hrest := ih hn.2 h
      simp only [sum, without, if_neg hk]
      omega

theorem sum_le_sum {κ α : Type} {f g : α → Nat} (hle : ∀ a, f a ≤ g a) (t : Table κ α) :
    sum f t ≤ sum g t := by
  induction t with
  | nil => exact Nat.le_refl 0
  | cons entry rest ih => exact Nat.add_le_add (hle entry.2) ih

theorem sum_eq_zero {κ α : Type} {f : α → Nat} {t : Table κ α} (h : ∀ e ∈ t, f e.2 = 0) :
    sum f t = 0 := by
  induction t with
  | nil => rfl
  | cons entry rest ih =>
    have hrest := ih fun e he => h e (List.mem_cons_of_mem _ he)
    simp only [sum, h entry (List.mem_cons_self ..), hrest]

theorem length_without {t : Table κ α} (hn : (keys t).Nodup) {key : κ} {value : α}
    (h : get? t key = some value) : (without t key).length + 1 = t.length := by
  have hlength : ∀ t : Table κ α, sum (fun _ => 1) t = t.length := by
    intro t
    induction t with
    | nil => rfl
    | cons entry rest ih => rw [sum, ih, List.length_cons, Nat.add_comm]
  have hsum := sum_eq_add_without hn h fun _ => 1
  rw [hlength, hlength] at hsum
  omega

end Table

end Turnstile
