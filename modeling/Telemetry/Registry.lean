/-!
# Registries

A registry holds values under keys, in the order in which the keys came. Replacing a value leaves
every other one as it is (`get?_put_of_ne`).
-/

namespace Telemetry

/-- Values under keys. -/
structure Registry (κ α : Type) where
  entries : List (κ × α)

namespace Registry

variable {κ α : Type} [DecidableEq κ]

/-- Nothing under any key. -/
def empty : Registry κ α := ⟨[]⟩

/-- The first value under a key in a list of entries. -/
def find (key : κ) : List (κ × α) → Option α
  | [] => none
  | (k, v) :: rest => if k = key then some v else find key rest

/-- Replaces the value under a key, or adds the key behind all others. -/
def replace (key : κ) (value : α) : List (κ × α) → List (κ × α)
  | [] => [(key, value)]
  | (k, v) :: rest => if k = key then (k, value) :: rest else (k, v) :: replace key value rest

/-- The value under a key. -/
def get? (r : Registry κ α) (key : κ) : Option α := find key r.entries

/-- The registry with a value under a key. -/
def put (r : Registry κ α) (key : κ) (value : α) : Registry κ α := ⟨replace key value r.entries⟩

/-- The number of keys. -/
def size (r : Registry κ α) : Nat := r.entries.length

/-- The values in the order of their keys. -/
def values (r : Registry κ α) : List α := r.entries.map Prod.snd

theorem find_replace_self (key : κ) (value : α) (l : List (κ × α)) :
    find key (replace key value l) = some value := by
  induction l with
  | nil => simp [replace, find]
  | cons e rest ih =>
    obtain ⟨k, v⟩ := e
    by_cases h : k = key
    · simp [replace, find, h]
    · simp [replace, find, h, ih]

theorem find_replace_of_ne {key other : κ} (h : other ≠ key) (value : α) (l : List (κ × α)) :
    find other (replace key value l) = find other l := by
  induction l with
  | nil => simp [replace, find, Ne.symm h]
  | cons e rest ih =>
    obtain ⟨k, v⟩ := e
    by_cases hk : k = key
    · simp [replace, find, hk, Ne.symm h]
    · by_cases ho : k = other
      · simp [replace, find, ho, h]
      · simp [replace, find, hk, ho, ih]

@[simp] theorem get?_put_self (r : Registry κ α) (key : κ) (value : α) :
    (r.put key value).get? key = some value := find_replace_self ..

theorem get?_put_of_ne (r : Registry κ α) {key other : κ} (h : other ≠ key) (value : α) :
    (r.put key value).get? other = r.get? other := find_replace_of_ne h ..

theorem get?_put (r : Registry κ α) (key other : κ) (value : α) :
    (r.put key value).get? other = if other = key then some value else r.get? other := by
  split
  · next h => rw [h, get?_put_self]
  · next h => exact get?_put_of_ne r h value

theorem get?_eq_none {r : Registry κ α} {key : κ} (h : ∀ e ∈ r.entries, e.1 ≠ key) :
    r.get? key = none := by
  obtain ⟨entries⟩ := r
  unfold get?
  dsimp only at h ⊢
  induction entries with
  | nil => rfl
  | cons e rest ih =>
    rw [find, if_neg (h e List.mem_cons_self)]
    exact ih fun e he => h e (List.mem_cons_of_mem _ he)

end Registry

end Telemetry
