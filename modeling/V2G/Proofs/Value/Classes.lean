import Mathlib.Data.Set.Card
import V2G.Proofs.Value.Distinct
import V2G.Proofs.Value.Transitive

/-!
# Classes of equal values

Structural equality sorts the values of a list into classes. The distinct ones are the first of each
class (`distinct_eq_firsts`), so that there are as many as there are classes (`length_distinct`).
To add what has an equal one already changes nothing (`distinct_append`).
-/

namespace V2G.Value

/-- The values of a list that equal one of them. -/
def classOf (vs : List Value) (v : Value) : Set Value := {w | w ∈ vs ∧ v.same w = true}

/-- The number of classes of equal values. -/
noncomputable def classes (vs : List Value) : Nat := {c | ∃ v ∈ vs, classOf vs v = c}.ncard

/-- The values that equal none before them. -/
def firsts (vs : List Value) : List Value :=
  (vs.zipIdx.filter fun (v, i) => !(vs.take i).any v.same).map (·.1)

/-- A value that equals itself, and what equals it: no dictionary in it, no part that is not a
number. -/
structure Proper (v : Value) : Prop where
  self : v.same v = true
  no_dict : ∀ es, ¬ Part (.dict es) v

variable {u v w : Value} {vs ws : List Value}

theorem Proper.comm (h : Proper v) (same : v.same w = true) : w.same v = true :=
  same_comm v w h.no_dict ▸ same

theorem classOf_eq_iff (hv : Proper v) (hw : Proper w) (there : w ∈ vs) :
    classOf vs v = classOf vs w ↔ v.same w = true := by
  constructor
  · intro alike
    have own : w ∈ classOf vs v := alike ▸ ⟨there, hw.self⟩
    exact own.2
  · intro same
    ext u
    refine and_congr_right fun _ => ⟨fun h => ?_, fun h => ?_⟩
    · exact equal_trans hw.no_dict (hv.comm same) h
    · exact equal_trans hv.no_dict same h

/-! ### One value after another -/

theorem distinct_concat (mode : Comparison) (vs : List Value) (v : Value) :
    distinct mode (vs ++ [v]) = keep mode (distinct mode vs) v := by
  rw [distinct_eq_foldl, List.foldl_append]
  rfl

theorem firsts_concat (vs : List Value) (v : Value) :
    firsts (vs ++ [v]) = if vs.any v.same then firsts vs else firsts vs ++ [v] := by
  have before : (vs.zipIdx.filter fun (w, i) => !((vs ++ [v]).take i).any w.same) =
      vs.zipIdx.filter fun (w, i) => !(vs.take i).any w.same := by
    refine List.filter_congr fun (w, i) there => ?_
    have within : i < vs.length := by simpa using List.snd_lt_of_mem_zipIdx there
    simp only [List.take_append_of_le_length (Nat.le_of_lt within)]
  rw [firsts, List.zipIdx_append, List.filter_append, before]
  cases old : vs.any v.same <;> simp [firsts, old]

/-- A value equals one of a list if and only if it equals one of the distinct ones. -/
theorem any_distinct (proper : ∀ v ∈ vs, Proper v) (hu : Proper u) :
    (distinct .structural vs).any u.same = vs.any u.same := by
  rw [Bool.eq_iff_iff, List.any_eq_true, List.any_eq_true]
  constructor
  · rintro ⟨w, hw, same⟩
    exact ⟨w, mem_of_mem_distinct hw, same⟩
  · rintro ⟨w, hw, same⟩
    obtain ⟨x, hx, same'⟩ := exists_mem_distinct (fun v hv => (proper v hv).self) hw
    exact ⟨x, hx, equal_trans hu.no_dict same same'⟩

/-! ### The first of each class -/

theorem distinct_eq_firsts (proper : ∀ v ∈ vs, Proper v) :
    distinct .structural vs = firsts vs := by
  induction vs using List.reverseRecOn with
  | nil => rfl
  | append_singleton vs v ih =>
    obtain ⟨before, last⟩ := List.forall_mem_append.mp proper
    have old := any_distinct before (List.forall_mem_singleton.mp last)
    rw [distinct_concat, firsts_concat, ← ih before, ← old]
    rfl

theorem length_distinct (proper : ∀ v ∈ vs, Proper v) :
    (distinct .structural vs).length = classes vs := by
  classical
  have sub : ∀ {v}, v ∈ distinct .structural vs → v ∈ vs := mem_of_mem_distinct
  have nodup : ((distinct .structural vs).map (classOf vs)).Nodup := by
    refine List.pairwise_map.mpr ((apart_distinct .structural vs).imp_of_mem ?_)
    intro v w hv hw apart alike
    have same := (classOf_eq_iff (proper w (sub hw)) (proper v (sub hv)) (sub hv)).mp alike.symm
    rw [Value.same, apart] at same
    cases same
  have all : {c | ∃ v ∈ vs, classOf vs v = c} =
      ((distinct .structural vs).map (classOf vs)).toFinset := by
    ext c
    simp only [List.coe_toFinset, List.mem_map]
    constructor
    · rintro ⟨v, hv, rfl⟩
      obtain ⟨w, hw, same⟩ := exists_mem_distinct (fun v hv => (proper v hv).self) hv
      exact ⟨w, hw, ((classOf_eq_iff (proper v hv) (proper w (sub hw)) (sub hw)).mpr same).symm⟩
    · rintro ⟨v, hv, rfl⟩
      exact ⟨v, sub hv, rfl⟩
  rw [classes, all, Set.ncard_coe_finset, List.toFinset_card_of_nodup nodup, List.length_map]

/-! ### Values that are there already -/

theorem foldl_keep_of_there {mode : Comparison} {kept : List Value}
    (there : ∀ v ∈ vs, ∃ w ∈ kept, v.equal mode w = true) : vs.foldl (keep mode) kept = kept := by
  induction vs with
  | nil => rfl
  | cons v vs ih =>
    obtain ⟨first, rest⟩ := List.forall_mem_cons.mp there
    rw [List.foldl_cons, keep, if_pos (List.any_eq_true.mpr first), ih rest]

theorem distinct_append {mode : Comparison}
    (there : ∀ w ∈ ws, ∃ v ∈ distinct mode vs, w.equal mode v = true) :
    distinct mode (vs ++ ws) = distinct mode vs := by
  rw [distinct_eq_foldl, List.foldl_append]
  exact foldl_keep_of_there there

end V2G.Value
