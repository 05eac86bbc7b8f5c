import Mathlib.Data.List.Forall2
import V2G.Proofs.Value.Equality

/-!
# Equality by parts

What two equal values have in common: sequences are equal part by part or as sets of their parts,
elements field by field. So equality passes on from value to value (`equal_trans`).
-/

namespace V2G.Value

/-! ### Sequences -/

theorem pairwise_iff {mode : Comparison} {xs ys : List Value} :
    pairwise mode (xs.map equal) ys = true ↔
      List.Forall₂ (fun x y => x.equal mode y = true) xs ys := by
  induction xs generalizing ys with
  | nil => cases ys <;> simp [pairwise]
  | cons x xs ih =>
    cases ys with
    | nil => simp [pairwise]
    | cons y ys => simp [pairwise, ih]

theorem sameSet_iff {xs ys : List Value} :
    sameSet (xs.map equal) ys = true ↔ xs.length = ys.length ∧
      (∀ x ∈ xs, ∃ y ∈ ys, x.same y = true) ∧ ∀ y ∈ ys, ∃ x ∈ xs, x.same y = true := by
  simp [sameSet, same, and_assoc]

theorem pairwise_trans {mode : Comparison} {xs ys zs : List Value}
    (h : ∀ x ∈ xs, ∀ y z, x.equal mode y = true → y.equal mode z = true → x.equal mode z = true)
    (hxy : pairwise mode (xs.map equal) ys = true) (hyz : pairwise mode (ys.map equal) zs = true) :
    pairwise mode (xs.map equal) zs = true := by
  rw [pairwise_iff] at *
  induction hxy generalizing zs with
  | nil => exact hyz
  | cons same _ ih =>
    cases hyz with
    | cons same' rest =>
      refine .cons (h _ List.mem_cons_self _ _ same same') ?_
      exact ih (fun x hx => h x (List.mem_cons_of_mem _ hx)) rest

theorem sameSet_trans {xs ys zs : List Value}
    (h : ∀ x ∈ xs, ∀ y z, x.same y = true → y.same z = true → x.same z = true)
    (hxy : sameSet (xs.map equal) ys = true) (hyz : sameSet (ys.map equal) zs = true) :
    sameSet (xs.map equal) zs = true := by
  rw [sameSet_iff] at *
  obtain ⟨length, there, back⟩ := hxy
  obtain ⟨length', there', back'⟩ := hyz
  refine ⟨length.trans length', fun x hx => ?_, fun z hz => ?_⟩
  · obtain ⟨y, hy, same⟩ := there x hx
    obtain ⟨z, hz, same'⟩ := there' y hy
    exact ⟨z, hz, h x hx y z same same'⟩
  · obtain ⟨y, hy, same'⟩ := back' z hz
    obtain ⟨x, hx, same⟩ := back y hy
    exact ⟨x, hx, h x hx y z same same'⟩

theorem equal_trans_of_sequence {u v w : Value} {xs : List Value} (hu : u.sequence? = some xs)
    (h : ∀ x ∈ xs, ∀ mode y z, x.equal mode y = true → y.equal mode z = true →
      x.equal mode z = true)
    {mode : Comparison} (huv : u.equal mode v = true) (hvw : v.equal mode w = true) :
    u.equal mode w = true := by
  rw [equal_sequence hu, sameSequence] at huv ⊢
  cases hv : v.sequence? with
  | none => simp [hv] at huv
  | some ys =>
    rw [equal_sequence hv, sameSequence] at hvw
    rw [hv] at huv
    cases hw : w.sequence? with
    | none => simp [hw] at hvw
    | some zs =>
      rw [hw] at hvw
      cases mode with
      | plain =>
        simp only [Bool.and_eq_true, beq_iff_eq] at huv hvw ⊢
        exact ⟨hvw.1.trans huv.1, pairwise_trans (fun x hx => h x hx .plain) huv.2 hvw.2⟩
      | structural => exact pairwise_trans (fun x hx => h x hx .structural) huv hvw
      | unordered => exact sameSet_trans (fun x hx => h x hx .structural) huv hvw

/-! ### Values without parts -/

theorem sameNumber_trans {u v w : Value} (huv : sameNumber u v = true)
    (hvw : sameNumber v w = true) : sameNumber u w = true := by
  unfold sameNumber at *
  cases hu : u.integer? with
  | some n =>
    cases hv : v.integer? with
    | none => simp only [hu, hv, reduceCtorEq] at huv
    | some n' =>
      simp only [hu, hv, beq_iff_eq] at huv
      rw [hv, ← huv] at hvw
      cases hw : w.integer? with
      | none => simp only [hw, reduceCtorEq] at hvw
      | some _ => rwa [hw] at hvw
  | none =>
    cases hv : v.integer? with
    | some n => simp only [hu, hv, reduceCtorEq] at huv
    | none =>
      simp only [hu, hv] at huv
      split at huv
      · rename_i x y
        simp only [Bool.and_eq_true, beq_iff_eq] at huv
        rw [hv] at hvw
        rwa [huv.1]
      · cases huv

theorem isNumber_of_equal {v w : Value} {mode : Comparison} (h : v.equal mode w = true) :
    v.isNumber = w.isNumber := by
  cases hv : v.isNumber <;> cases hw : w.isNumber
  · rfl
  · rw [equal_of_not_number hv hw] at h
    cases h
  · rw [equal_number hv, sameNumber_of_not hw] at h
    cases h
  · rfl

/-- Two equal values without parts equal the same values. -/
theorem equal_of_atom {u v : Value} (number : u.isNumber = false)
    (flat : u.sequence? = Option.none) (plain : ∀ es, u ≠ .dict es)
    (single : ∀ e fs, u ≠ .element e fs) {mode : Comparison} (h : u.equal mode v = true)
    (w : Value) : u.equal mode w = v.equal mode w := by
  cases u <;> cases v <;> cases mode <;>
    simp_all [isNumber, equal, sameText, text?, isToken, isNone, sequence?]

/-! ### Elements -/

theorem field_cases (e : Element) (fs : List (String × Value)) (name : String) :
    (Value.element e fs).field name = .none ∨ (name, (Value.element e fs).field name) ∈ fs := by
  rw [field]
  cases h : Keyed.get? fs name with
  | none => exact .inl rfl
  | some x => exact .inr (Keyed.mem_of_get? h)

theorem equal_trans_of_element {e : Element} {fs : List (String × Value)}
    (h : ∀ k x, (k, x) ∈ fs → ∀ mode v w, x.equal mode v = true → v.equal mode w = true →
      x.equal mode w = true)
    {mode : Comparison} {v w : Value} (huv : equal (.element e fs) mode v = true)
    (hvw : v.equal mode w = true) : equal (.element e fs) mode w = true := by
  cases v with
  | element e' fs' =>
    cases w with
    | element e'' fs'' =>
      rw [equal_element] at *
      simp only [Bool.and_eq_true, beq_iff_eq, List.all_eq_true] at *
      obtain ⟨rfl, fields⟩ := huv
      obtain ⟨rfl, fields'⟩ := hvw
      refine ⟨rfl, fun (name, isSet) hs => ?_⟩
      have same := fields (name, isSet) hs
      rcases field_cases e fs name with none | there
      · rw [none] at same ⊢
        exact (equal_of_atom rfl rfl (by simp) (by simp) same _).trans (fields' (name, isSet) hs)
      · exact h name _ there _ _ _ same (fields' (name, isSet) hs)
    | _ => cases hvw
  | _ => cases huv

/-! ### Transitivity -/

/-- Equality passes on. Nothing equals a dictionary but a dictionary, so that it is enough that
there are none in the first value. -/
theorem equal_trans {u v w : Value} {mode : Comparison} (plain : ∀ es, ¬ Part (.dict es) u)
    (huv : u.equal mode v = true) (hvw : v.equal mode w = true) : u.equal mode w = true := by
  -- The first value leads: whatever it equals has as many parts, one for each of its own.
  induction u using Value.induction generalizing mode v w with
  | bool b | int n | float x =>
    have number := isNumber_of_equal huv
    rw [equal_number rfl] at huv ⊢
    rw [equal_number number.symm] at hvw
    exact sameNumber_trans huv hvw
  | tuple xs ih =>
    exact equal_trans_of_sequence rfl (fun x hx mode y z =>
      ih x hx (fun es he => plain es (.inside (.tuple hx) he))) huv hvw
  | list xs ih =>
    exact equal_trans_of_sequence rfl (fun x hx mode y z =>
      ih x hx (fun es he => plain es (.inside (.list hx) he))) huv hvw
  | choice m x ih =>
    have parts : (Value.choice m x).sequence? = some [.text m, x] := rfl
    refine equal_trans_of_sequence parts (fun part hp mode y z same same' => ?_) huv hvw
    simp only [List.mem_cons, List.not_mem_nil, or_false] at hp
    rcases hp with rfl | rfl
    · rwa [equal_of_atom rfl rfl (by simp) (by simp) same]
    · exact ih (fun es he => plain es (.inside .choice he)) same same'
  | element e fs ih =>
    exact equal_trans_of_element (fun k x hx mode v w =>
      ih k x hx (fun es he => plain es (.inside (.element hx) he))) huv hvw
  | dict es => exact absurd .self (plain es)
  | _ => rwa [equal_of_atom rfl rfl (by simp) (by simp) huv]

end V2G.Value
