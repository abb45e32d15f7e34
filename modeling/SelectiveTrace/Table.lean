/-! Finite maps as lists of bindings with one binding per key, the latest binding first. An
insertion moves its key to the front, so the list also tells which keys were used last. -/
namespace SelectiveTrace

structure Table (κ α : Type) where
  entries : List (κ × α) := []

namespace Table
variable {κ α : Type} [DecidableEq κ]

instance : Inhabited (Table κ α) := ⟨{}⟩

def get? (t : Table κ α) (k : κ) : Option α :=
  (t.entries.find? fun e => e.1 = k).map (·.2)

def contains (t : Table κ α) (k : κ) : Bool :=
  (t.get? k).isSome

def erase (t : Table κ α) (k : κ) : Table κ α :=
  ⟨t.entries.filter fun e => e.1 ≠ k⟩

def insert (t : Table κ α) (k : κ) (v : α) : Table κ α :=
  ⟨(k, v) :: (t.erase k).entries⟩

def insertNew (t : Table κ α) (k : κ) (v : α) : Table κ α :=
  if t.contains k then t else t.insert k v

def keys (t : Table κ α) : List κ :=
  t.entries.map (·.1)

def size (t : Table κ α) : Nat :=
  t.entries.length

def takeRecent (t : Table κ α) (n : Nat) : Table κ α :=
  ⟨t.entries.take n⟩

@[simp] theorem get?_empty (k : κ) : (⟨[]⟩ : Table κ α).get? k = none := rfl

@[simp] theorem get?_insert_self (t : Table κ α) (k : κ) (v : α) :
    (t.insert k v).get? k = some v := by
  simp [get?, insert]

theorem find?_erase_ne (es : List (κ × α)) {k j : κ} (h : j ≠ k) :
    (es.filter fun e => e.1 ≠ k).find? (fun e => e.1 = j) = es.find? fun e => e.1 = j := by
  induction es with
  | nil => rfl
  | cons e es ih =>
    by_cases hk : e.1 = k
    · have hj : e.1 ≠ j := fun he => h (he.symm.trans hk)
      simp [hk, Ne.symm h] at ih ⊢
      exact ih
    · by_cases hj : e.1 = j <;> simp_all

@[simp] theorem get?_erase_self (t : Table κ α) (k : κ) : (t.erase k).get? k = none := by
  simp [get?, erase]

theorem get?_erase_of_ne (t : Table κ α) {k j : κ} (h : j ≠ k) :
    (t.erase k).get? j = t.get? j := by
  simp only [get?, erase]
  rw [find?_erase_ne t.entries h]

theorem get?_insert_of_ne (t : Table κ α) {k j : κ} (v : α) (h : j ≠ k) :
    (t.insert k v).get? j = t.get? j := by
  have hk : k ≠ j := fun hj => h hj.symm
  have := get?_erase_of_ne t h
  simpa [get?, insert, hk] using this

theorem get?_insert (t : Table κ α) (k j : κ) (v : α) :
    (t.insert k v).get? j = if j = k then some v else t.get? j := by
  by_cases h : j = k
  · simp [h]
  · simp [h, get?_insert_of_ne t v h]

theorem get?_erase (t : Table κ α) (k j : κ) :
    (t.erase k).get? j = if j = k then none else t.get? j := by
  by_cases h : j = k
  · simp [h]
  · simp [h, get?_erase_of_ne t h]

theorem get?_insert_eq_some_iff {t : Table κ α} {k j : κ} {v w : α} :
    (t.insert k v).get? j = some w ↔ j = k ∧ w = v ∨ j ≠ k ∧ t.get? j = some w := by
  rw [get?_insert]
  split <;> simp [*, @eq_comm _ v]

theorem get?_erase_eq_some_iff {t : Table κ α} {k j : κ} {v : α} :
    (t.erase k).get? j = some v ↔ j ≠ k ∧ t.get? j = some v := by
  rw [get?_erase]
  split <;> simp [*]

end Table
end SelectiveTrace
