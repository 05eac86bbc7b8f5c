import V2G.Value.Equality

/-!
# Distinct entries

`distinct` keeps the first entry of each class of equal ones: a sublist in which no entry
equals an earlier one, and all of the list if that held already. Each entry equals one that is kept.
-/

namespace V2G.Value

/-- No entry equals one before it. -/
abbrev Apart (mode : Comparison) (vs : List Value) : Prop :=
  vs.Pairwise fun w v => v.equal mode w = false

/-- One entry is kept, or passed over. -/
abbrev keep (mode : Comparison) (kept : List Value) (v : Value) : List Value :=
  if kept.any (fun w => v.equal mode w) then kept else kept ++ [v]

theorem distinct_eq_foldl (mode : Comparison) (vs : List Value) :
    distinct mode vs = vs.foldl (keep mode) [] := rfl

theorem foldl_keep_eq (mode : Comparison) (vs kept : List Value) :
    ∃ more, vs.foldl (keep mode) kept = kept ++ more ∧ more.Sublist vs := by
  induction vs generalizing kept with
  | nil => exact ⟨[], by simp⟩
  | cons v vs ih =>
    simp only [List.foldl_cons, keep]
    split
    · obtain ⟨more, h, hs⟩ := ih kept
      exact ⟨more, h, hs.trans (List.sublist_cons_self v vs)⟩
    · obtain ⟨more, h, hs⟩ := ih (kept ++ [v])
      exact ⟨v :: more, by rw [h, List.append_assoc]; rfl, hs.cons_cons v⟩

theorem distinct_sublist (mode : Comparison) (vs : List Value) :
    (distinct mode vs).Sublist vs := by
  obtain ⟨more, h, hs⟩ := foldl_keep_eq mode vs []
  rwa [distinct_eq_foldl, h, List.nil_append]

theorem apart_foldl_keep {mode : Comparison} (vs : List Value) {kept : List Value}
    (h : Apart mode kept) : Apart mode (vs.foldl (keep mode) kept) := by
  induction vs generalizing kept with
  | nil => exact h
  | cons v vs ih =>
    simp only [List.foldl_cons, keep]
    split
    · exact ih h
    · next hv =>
      refine ih (List.pairwise_append.mpr ⟨h, List.pairwise_singleton _ _, fun w hw u hu => ?_⟩)
      rw [List.mem_singleton.mp hu]
      simpa using fun he => hv (List.any_eq_true.mpr ⟨w, hw, he⟩)

theorem apart_distinct (mode : Comparison) (vs : List Value) : Apart mode (distinct mode vs) :=
  apart_foldl_keep vs .nil

theorem foldl_keep_of_apart {mode : Comparison} (vs : List Value) {kept : List Value}
    (h : Apart mode (kept ++ vs)) : vs.foldl (keep mode) kept = kept ++ vs := by
  induction vs generalizing kept with
  | nil => simp
  | cons v vs ih =>
    have hv : kept.any (fun w => v.equal mode w) = false := by
      rw [List.any_eq_false]
      intro w hw
      simpa using (List.pairwise_append.mp h).2.2 w hw v List.mem_cons_self
    simp only [List.foldl_cons, keep, hv, Bool.false_eq_true, ↓reduceIte]
    rw [ih (by simpa using h), List.append_assoc]
    rfl

/-- Entries that are apart already are all kept. -/
theorem distinct_of_apart {mode : Comparison} {vs : List Value} (h : Apart mode vs) :
    distinct mode vs = vs := foldl_keep_of_apart vs h

theorem distinct_eq_nil_iff {mode : Comparison} {vs : List Value} :
    distinct mode vs = [] ↔ vs = [] := by
  cases vs with
  | nil => simp [distinct]
  | cons v vs =>
    obtain ⟨more, h, -⟩ := foldl_keep_eq mode vs [v]
    rw [distinct_eq_foldl, List.foldl_cons, show keep mode [] v = [v] from rfl, h]
    simp

theorem mem_of_mem_distinct {mode : Comparison} {vs : List Value} {v : Value}
    (h : v ∈ distinct mode vs) : v ∈ vs := (distinct_sublist mode vs).subset h

theorem one_le_length_distinct {mode : Comparison} {vs : List Value} (h : 1 ≤ vs.length) :
    1 ≤ (distinct mode vs).length := by
  refine Nat.pos_of_ne_zero fun h0 => ?_
  rw [distinct_eq_nil_iff.mp (List.length_eq_zero_iff.mp h0)] at h
  cases h

theorem exists_of_foldl_keep {mode : Comparison} {vs kept : List Value}
    (refl : ∀ v ∈ vs, v.equal mode v = true) :
    ∀ v ∈ vs, ∃ w ∈ vs.foldl (keep mode) kept, v.equal mode w = true := by
  induction vs generalizing kept with
  | nil => simp
  | cons v vs ih =>
    obtain ⟨self, refl⟩ := List.forall_mem_cons.mp refl
    refine List.forall_mem_cons.mpr ⟨?_, ih refl⟩
    obtain ⟨more, all, -⟩ := foldl_keep_eq mode vs (keep mode kept v)
    rw [List.foldl_cons, all]
    have there : ∃ w ∈ keep mode kept v, v.equal mode w = true := by
      by_cases old : kept.any (fun w => v.equal mode w) = true
      · rw [keep, if_pos old]
        exact List.any_eq_true.mp old
      · rw [keep, if_neg old]
        exact ⟨v, List.mem_append_right _ (List.mem_singleton_self v), self⟩
    obtain ⟨w, hw, same⟩ := there
    exact ⟨w, List.mem_append_left _ hw, same⟩

/-- Each entry equals one of the distinct entries. -/
theorem exists_mem_distinct {mode : Comparison} {vs : List Value}
    (refl : ∀ v ∈ vs, v.equal mode v = true) {v : Value} (h : v ∈ vs) :
    ∃ w ∈ distinct mode vs, v.equal mode w = true :=
  exists_of_foldl_keep refl v h

end V2G.Value
