import V2G.Keyed

/-!
# Look-ups in keyed lists

What `get?` finds after the entries of a list were mapped, joined or put together from
declared places. Where keys are distinct, being an entry and being found are the same.
-/

namespace V2G.Keyed

variable {α β ι : Type}

theorem get?_map (f : α → β) (m : Keyed α) (k : String) :
    get? (m.map fun (k, v) => (k, f v)) k = (get? m k).map f := by
  induction m with
  | nil => rfl
  | cons e rest ih =>
    obtain ⟨j, v⟩ := e
    by_cases h : j = k <;> simp_all [get?]

theorem get?_append (m n : Keyed α) (k : String) :
    get? (m ++ n) k = (get? m k).or (get? n k) := by
  induction m with
  | nil => rfl
  | cons e rest ih =>
    obtain ⟨j, v⟩ := e
    by_cases h : j = k <;> simp_all [get?]

theorem mem_of_get? {m : Keyed α} {k : String} {v : α} (h : get? m k = some v) : (k, v) ∈ m := by
  induction m with
  | nil => cases h
  | cons e rest ih =>
    obtain ⟨j, w⟩ := e
    simp only [get?] at h
    split at h
    · next hj => cases h; subst hj; exact List.mem_cons_self
    · exact List.mem_cons_of_mem _ (ih h)

theorem get?_eq_none_iff {m : Keyed α} {k : String} : get? m k = none ↔ k ∉ m.keys := by
  induction m with
  | nil => simp [get?, keys]
  | cons e rest ih =>
    obtain ⟨j, w⟩ := e
    by_cases h : j = k
    · simp [get?, keys, h]
    · simp [get?, keys, h, Ne.symm h] at ih ⊢
      exact ih

theorem get?_of_mem {m : Keyed α} {k : String} {v : α} (hn : m.keys.Nodup) (h : (k, v) ∈ m) :
    get? m k = some v := by
  induction m with
  | nil => cases h
  | cons e rest ih =>
    obtain ⟨j, w⟩ := e
    obtain ⟨hj, hrest⟩ := List.nodup_cons.mp hn
    rcases List.mem_cons.mp h with h | h
    · cases h; simp [get?]
    · have : j ≠ k := fun e => hj (List.mem_map.mpr ⟨(k, v), h, e.symm⟩)
      simp [get?, this, ih hrest h]

theorem keys_append (m n : Keyed α) : keys (m ++ n) = keys m ++ keys n := List.map_append

theorem get?_filter (q : String → Bool) (m : Keyed α) (k : String) :
    get? (m.filter fun p => q p.1) k = if q k then get? m k else none := by
  induction m with
  | nil => simp [get?]
  | cons e rest ih =>
    obtain ⟨j, v⟩ := e
    by_cases h : j = k
    · subst h
      by_cases hq : q j <;> simp_all [get?]
    · by_cases hq : q j <;> simp_all [get?]

theorem mem_keys_filter (q : String → Bool) {m : Keyed α} {k : String} :
    k ∈ keys (m.filter fun p => q p.1) ↔ k ∈ keys m ∧ q k = true := by
  simp only [keys, List.mem_map, List.mem_filter]
  constructor
  · rintro ⟨p, ⟨hp, hq⟩, rfl⟩
    exact ⟨⟨p, hp, rfl⟩, hq⟩
  · rintro ⟨⟨p, hp, rfl⟩, hq⟩
    exact ⟨p, ⟨hp, hq⟩, rfl⟩

theorem get?_filterMap_of_not_mem {key : ι → String} {g : ι → Option α} {l : List ι} {k : String}
    (hk : k ∉ l.map key) : get? (l.filterMap fun i => (g i).map (key i, ·)) k = none := by
  refine get?_eq_none_iff.mpr fun h => hk ?_
  obtain ⟨⟨j, v⟩, hv, rfl⟩ := List.mem_map.mp h
  obtain ⟨i, hi, hg⟩ := List.mem_filterMap.mp hv
  obtain ⟨w, -, hw⟩ := Option.map_eq_some_iff.mp hg
  exact List.mem_map.mpr ⟨i, hi, congrArg Prod.fst hw⟩

/-- The keys of entries are those of the places that have one. -/
theorem keys_filterMap (key : ι → String) (g : ι → Option α) (l : List ι) :
    keys (l.filterMap fun i => (g i).map (key i, ·)) =
      (l.filter fun i => (g i).isSome).map key := by
  induction l with
  | nil => rfl
  | cons i l ih =>
    cases h : g i with
    | none => simpa [h] using ih
    | some v => simpa [h, keys] using ih

/-- An entry that was put under the key of its own place is found there. -/
theorem get?_filterMap {key : ι → String} {g : ι → Option α} {l : List ι} {i : ι}
    (hn : (l.map key).Nodup) (hi : i ∈ l) :
    get? (l.filterMap fun i => (g i).map (key i, ·)) (key i) = g i := by
  induction l with
  | nil => cases hi
  | cons j l ih =>
    obtain ⟨hj, hl⟩ := List.nodup_cons.mp hn
    rcases List.mem_cons.mp hi with rfl | hi
    · cases hg : g i with
      | none => simpa [hg] using get?_filterMap_of_not_mem hj
      | some v => simp [hg, get?]
    · have hne : key j ≠ key i := fun h => hj (h ▸ List.mem_map_of_mem hi)
      cases hg : g j with
      | none => simpa [hg] using ih hl hi
      | some v => simpa [hg, get?, hne] using ih hl hi

/-- A keyed list with the values under a key changed. -/
def update (m : Keyed α) (k : String) (f : α → α) : Keyed α :=
  m.map fun (j, v) => (j, if j = k then f v else v)

theorem keys_update (m : Keyed α) (k : String) (f : α → α) : (m.update k f).keys = m.keys := by
  rw [update, keys, List.map_map]
  rfl

theorem get?_update_self (m : Keyed α) (k : String) (f : α → α) :
    get? (m.update k f) k = (get? m k).map f := by
  induction m with
  | nil => rfl
  | cons e rest ih =>
    obtain ⟨j, v⟩ := e
    by_cases h : j = k <;> simp_all [update, get?]

theorem get?_update_of_ne {m : Keyed α} {k k' : String} {f : α → α} (h : k ≠ k') :
    get? (m.update k f) k' = get? m k' := by
  induction m with
  | nil => rfl
  | cons e rest ih =>
    obtain ⟨j, v⟩ := e
    by_cases hj : j = k
    · subst hj
      simp_all [update, get?]
    · by_cases hj' : j = k' <;> simp_all [update, get?]

end V2G.Keyed
