/-!
# Keyed lists

An ordered collection of values under text keys, as an object of a document or a set of
named arguments. Order is by first insertion: `put` under a key that is present keeps
its place and replaces its value.
-/

namespace V2G

abbrev Keyed (α : Type) := List (String × α)

namespace Keyed

variable {α β : Type}

def keys (m : Keyed α) : List String := m.map (·.1)

/-- The value under a key. Of two entries under one key the first counts. -/
def get? : Keyed α → String → Option α
  | [], _ => none
  | (k, v) :: rest, key => if k = key then some v else get? rest key

def has (m : Keyed α) (key : String) : Bool := (get? m key).isSome

def put : Keyed α → String → α → Keyed α
  | [], key, v => [(key, v)]
  | (k, w) :: rest, key, v => if k = key then (k, v) :: rest else (k, w) :: put rest key v

def erase (m : Keyed α) (key : String) : Keyed α := m.filter (·.1 != key)

theorem get?_put_self (m : Keyed α) (k : String) (v : α) : get? (put m k v) k = some v := by
  induction m with
  | nil => simp [put, get?]
  | cons e rest ih =>
    obtain ⟨k', w⟩ := e
    by_cases h : k' = k <;> simp [put, get?, h, ih]

theorem get?_put_of_ne {m : Keyed α} {k k' : String} {v : α} (h : k ≠ k') :
    get? (put m k v) k' = get? m k' := by
  induction m with
  | nil => simp [put, get?, h]
  | cons e rest ih =>
    obtain ⟨j, w⟩ := e
    by_cases hj : j = k
    · subst hj; simp [put, get?, h]
    · by_cases hj' : j = k' <;> simp_all [put, get?]

theorem get?_erase_self (m : Keyed α) (k : String) : get? (erase m k) k = none := by
  induction m with
  | nil => rfl
  | cons e rest ih =>
    obtain ⟨j, w⟩ := e
    by_cases hj : j = k <;> simp_all [erase, get?]

theorem get?_erase_of_ne {m : Keyed α} {k k' : String} (h : k ≠ k') :
    get? (erase m k) k' = get? m k' := by
  induction m with
  | nil => rfl
  | cons e rest ih =>
    obtain ⟨j, w⟩ := e
    by_cases hj : j = k
    · subst hj; simp_all [erase, get?]
    · by_cases hj' : j = k' <;> simp_all [erase, get?]

end Keyed

end V2G
