import V2G.Proofs.Keyed
import V2G.Proofs.Value.Part
import V2G.Value.Equality

/-!
# Laws of equality

Each comparison holds between a value and itself (`equal_self`) and does not ask which side a
value stands on (`equal_comm`). Not-a-numbers differ from themselves, and dictionaries, which
no element holds, are left out.
-/

namespace V2G.Value

/-! ### One equation for each shape -/

theorem fieldMatcher_eq (e : Element) (fs : List (String × Value)) (name : String)
    (mode : Comparison) (w : Value) :
    fieldMatcher (fieldMatchers fs) name mode w =
      ((Value.element e fs).field name).equal mode w := by
  simp only [fieldMatcher, fieldMatchers_eq, Keyed.get?_map, field]
  cases Keyed.get? fs name <;> simp [equal]

theorem equal_element (e e' : Element) (fs fs' : List (String × Value)) (mode : Comparison) :
    equal (.element e fs) mode (.element e' fs') =
      (e == e' && e.slots.all fun (name, isSet) =>
        ((Value.element e fs).field name).equal (if isSet then .unordered else .structural)
          ((Value.element e' fs').field name)) := by
  simp only [equal, fieldMatcher_eq e fs]

/-- Values in sequence are compared part by part, or as sets of their parts. -/
theorem equal_sequence {v : Value} {xs : List Value} (h : v.sequence? = some xs)
    (mode : Comparison) (w : Value) :
    v.equal mode w = sameSequence v.isList (xs.map equal) mode w := by
  cases v <;> simp only [sequence?, Option.some.injEq, reduceCtorEq] at h <;> subst h <;>
    simp [equal, matchers_eq, isList]

/-- Whether a value is compared by its size. -/
def isNumber : Value → Bool
  | .bool _ | .int _ | .float _ => true
  | _ => false

theorem equal_number {v : Value} (h : v.isNumber = true) (mode : Comparison) (w : Value) :
    v.equal mode w = sameNumber v w := by
  cases v <;> first | rfl | cases h

theorem sameNumber_of_not {v w : Value} (h : w.isNumber = false) : sameNumber v w = false := by
  unfold sameNumber
  cases v.integer? <;> cases v <;> cases w <;> simp_all [isNumber, integer?]

/-- Nothing but a number equals a number. -/
theorem equal_of_not_number {v w : Value} (hv : v.isNumber = false) (hw : w.isNumber = true)
    (mode : Comparison) : v.equal mode w = false := by
  cases w with
  | bool _ | int _ | float _ =>
    cases v <;> cases mode <;>
      simp_all [isNumber, equal, sameText, sameSequence, sequence?, text?, isNone]
  | _ => cases hw

/-! ### Reflexivity -/

theorem pairwise_self {mode : Comparison} {xs : List Value}
    (h : ∀ x ∈ xs, x.equal mode x = true) : pairwise mode (xs.map equal) xs = true := by
  induction xs with
  | nil => rfl
  | cons x xs ih =>
    simp only [List.map_cons, pairwise, Bool.and_eq_true]
    exact ⟨h x List.mem_cons_self, ih fun y hy => h y (List.mem_cons_of_mem _ hy)⟩

theorem sameSet_self {xs : List Value} (h : ∀ x ∈ xs, x.equal .structural x = true) :
    sameSet (xs.map equal) xs = true := by
  simp only [sameSet, List.length_map, beq_self_eq_true, Bool.true_and, Bool.and_eq_true,
    List.all_eq_true, List.any_eq_true, List.mem_map]
  constructor
  · rintro _ ⟨x, hx, rfl⟩
    exact ⟨x, hx, h x hx⟩
  · exact fun x hx => ⟨x.equal, ⟨x, hx, rfl⟩, h x hx⟩

theorem sameSequence_self {v : Value} {xs : List Value} (hs : v.sequence? = some xs)
    (h : ∀ x ∈ xs, ∀ mode, x.equal mode x = true) (mode : Comparison) :
    v.equal mode v = true := by
  rw [equal_sequence hs, sameSequence, hs]
  cases mode with
  | plain => simp [pairwise_self fun x hx => h x hx .plain]
  | structural => exact pairwise_self fun x hx => h x hx .structural
  | unordered => exact sameSet_self fun x hx => h x hx .structural

theorem sameText_self (s : String) (mode : Comparison) : sameText s mode (.text s) = true := by
  cases mode <;> simp [sameText, text?, isToken]

theorem equal_self (v : Value) (numbers : ∀ x, Part (.float x) v → x.isNaN = false)
    (plain : ∀ es, ¬ Part (.dict es) v) (mode : Comparison) : v.equal mode v = true := by
  induction v using Value.induction generalizing mode with
  | none => rfl
  | bool b => simp [equal, sameNumber, integer?]
  | int n => simp [equal, sameNumber, integer?]
  | float x =>
    have := numbers x .self
    cases hx : x.toInt? <;> simp [equal, sameNumber, integer?, hx, this]
  | text s => cases mode <;> simp [equal, sameText, text?, isToken]
  | bytes data => simp [equal]
  | token t s => cases mode <;> simp [equal, text?]
  | identifier t s => cases mode <;> simp [equal, sameText, text?, isToken]
  | url s => simp [equal]
  | tuple xs ih =>
    refine sameSequence_self rfl (fun x hx => ih x hx (fun y hy => ?_) fun es he => ?_) mode
    · exact numbers y (.inside (.tuple hx) hy)
    · exact plain es (.inside (.tuple hx) he)
  | list xs ih =>
    refine sameSequence_self rfl (fun x hx => ih x hx (fun y hy => ?_) fun es he => ?_) mode
    · exact numbers y (.inside (.list hx) hy)
    · exact plain es (.inside (.list hx) he)
  | dict es => exact absurd .self (plain es)
  | choice m v ih =>
    have parts : (Value.choice m v).sequence? = some [.text m, v] := rfl
    refine sameSequence_self parts (fun x hx mode => ?_) mode
    simp only [List.mem_cons, List.not_mem_nil, or_false] at hx
    rcases hx with rfl | rfl
    · simpa [equal] using sameText_self m mode
    · exact ih (fun y hy => numbers y (.inside .choice hy))
        (fun es he => plain es (.inside .choice he)) mode
  | element e fs ih =>
    rw [equal_element]
    simp only [beq_self_eq_true, Bool.true_and, List.all_eq_true]
    rintro ⟨name, isSet⟩ -
    simp only [field]
    cases hf : Keyed.get? fs name with
    | none => rfl
    | some x =>
      have hx := Keyed.mem_of_get? hf
      exact ih name x hx (fun y hy => numbers y (.inside (.element hx) hy))
        (fun es he => plain es (.inside (.element hx) he)) _

/-! ### Symmetry -/

theorem pairwise_comm {mode : Comparison} {xs : List Value}
    (h : ∀ x ∈ xs, ∀ y, x.equal mode y = y.equal mode x) (ys : List Value) :
    pairwise mode (xs.map equal) ys = pairwise mode (ys.map equal) xs := by
  induction xs generalizing ys with
  | nil => cases ys <;> rfl
  | cons x xs ih =>
    cases ys with
    | nil => rfl
    | cons y ys =>
      simp only [List.map_cons, pairwise]
      rw [h x List.mem_cons_self, ih fun z hz => h z (List.mem_cons_of_mem _ hz)]

theorem sameSet_comm {xs : List Value}
    (h : ∀ x ∈ xs, ∀ y, x.equal .structural y = y.equal .structural x) (ys : List Value) :
    sameSet (xs.map equal) ys = sameSet (ys.map equal) xs := by
  have swap : (xs.all fun x => ys.any (x.equal .structural)) =
      xs.all fun x => ys.any fun y => y.equal .structural x := by
    rw [Bool.eq_iff_iff]
    simp only [List.all_eq_true, List.any_eq_true]
    exact forall₂_congr fun x hx => by simp only [h x hx]
  have swap' : (ys.all fun y => xs.any fun x => x.equal .structural y) =
      ys.all fun y => xs.any (y.equal .structural) := by
    rw [Bool.eq_iff_iff]
    simp only [List.all_eq_true, List.any_eq_true]
    refine forall₂_congr fun y _ => exists_congr fun x => ?_
    exact and_congr_right fun hx => by rw [h x hx]
  simp only [sameSet, List.length_map, List.all_map, List.any_map, Function.comp_def]
  rw [swap, swap', BEq.comm, Bool.and_assoc, Bool.and_assoc,
    Bool.and_comm (xs.all _) (ys.all _)]

theorem sameSequence_comm {v w : Value} {xs ys : List Value} (hv : v.sequence? = some xs)
    (hw : w.sequence? = some ys)
    (h : ∀ x ∈ xs, ∀ mode y, x.equal mode y = y.equal mode x) (mode : Comparison) :
    v.equal mode w = w.equal mode v := by
  rw [equal_sequence hv, equal_sequence hw, sameSequence, sameSequence, hv, hw]
  cases mode with
  | plain =>
    simp only
    rw [BEq.comm, pairwise_comm fun x hx => h x hx .plain]
  | structural => exact pairwise_comm (fun x hx => h x hx .structural) ys
  | unordered => exact sameSet_comm (fun x hx => h x hx .structural) ys

theorem sameNumber_comm (v w : Value) : sameNumber v w = sameNumber w v := by
  unfold sameNumber
  cases hv : v.integer? <;> cases hw : w.integer? <;> try rfl
  · cases v <;> cases w <;> try rfl
    rename_i x y
    by_cases h : x = y
    · rw [h]
    · simp only [beq_false_of_ne h, beq_false_of_ne (Ne.symm h), Bool.false_and]
  · exact BEq.comm

/-- A value that is neither a number nor has parts, compared with one that has no sequence. -/
theorem equal_comm_of_atom {v w : Value} (hv : v.isNumber = false) (hw : w.isNumber = false)
    (sv : v.sequence? = Option.none) (sw : w.sequence? = Option.none)
    (plain : ∀ es, v ≠ .dict es) (flat : ∀ e fs, v ≠ .element e fs) (mode : Comparison) :
    v.equal mode w = w.equal mode v := by
  cases v <;> cases w <;> cases mode <;>
    simp_all [isNumber, equal, sameText, text?, isToken, isNone, sequence?, BEq.comm, Bool.and_comm]

theorem isNumber_of_sequence {v : Value} {xs : List Value} (h : v.sequence? = some xs) :
    v.isNumber = false := by
  cases v <;> first | rfl | cases h

theorem equal_of_no_sequence {v w : Value} {ys : List Value} (sv : v.sequence? = Option.none)
    (sw : w.sequence? = some ys) (mode : Comparison) : v.equal mode w = false := by
  cases hv : v.isNumber with
  | true => rw [equal_number hv, sameNumber_of_not (isNumber_of_sequence sw)]
  | false =>
    cases w with
    | tuple _ | list _ | choice _ _ =>
      cases v <;> cases mode <;>
        simp_all [equal, sameText, isNumber, sequence?, text?, isToken, isNone]
    | _ => cases sw

theorem equal_comm_of_flat {v : Value} (sv : v.sequence? = Option.none)
    (plain : ∀ es, v ≠ .dict es) (flat : ∀ e fs, v ≠ .element e fs) (mode : Comparison)
    (w : Value) : v.equal mode w = w.equal mode v := by
  cases sw : w.sequence? with
  | some ys => rw [equal_of_no_sequence sv sw, equal_sequence sw, sameSequence, sv]
  | none =>
    cases hv : v.isNumber <;> cases hw : w.isNumber
    · exact equal_comm_of_atom hv hw sv sw plain flat mode
    · rw [equal_of_not_number hv hw, equal_number hw, sameNumber_of_not hv]
    · rw [equal_of_not_number hw hv, equal_number hv, sameNumber_of_not hw]
    · rw [equal_number hv, equal_number hw, sameNumber_comm]

theorem equal_comm_of_sequence {v : Value} {xs : List Value} (hv : v.sequence? = some xs)
    (h : ∀ x ∈ xs, ∀ mode y, x.equal mode y = y.equal mode x) (mode : Comparison) (w : Value) :
    v.equal mode w = w.equal mode v := by
  cases hw : w.sequence? with
  | some ys => exact sameSequence_comm hv hw h mode
  | none => rw [equal_of_no_sequence hw hv, equal_sequence hv, sameSequence, hw]

theorem equal_comm_of_element (e : Element) (fs : List (String × Value))
    (h : ∀ k x, (k, x) ∈ fs → ∀ mode y, x.equal mode y = y.equal mode x) (mode : Comparison)
    (w : Value) : equal (.element e fs) mode w = w.equal mode (.element e fs) := by
  cases w with
  | element e' fs' =>
    have field (name : String) : ∀ mode y, ((Value.element e fs).field name).equal mode y =
        y.equal mode ((Value.element e fs).field name) := by
      cases hf : Keyed.get? fs name with
      | none => simpa [Value.field, hf] using fun mode y =>
          equal_comm_of_flat (v := .none) rfl (by simp) (by simp) mode y
      | some x => simpa [Value.field, hf] using h name x (Keyed.mem_of_get? hf)
    rw [equal_element, equal_element]
    by_cases he : e = e'
    · subst he
      simp only [field]
    · rw [beq_false_of_ne he, beq_false_of_ne (Ne.symm he), Bool.false_and, Bool.false_and]
  | tuple _ | list _ | choice _ _ =>
    exact (equal_of_no_sequence rfl rfl mode).trans
      (by rw [equal_sequence rfl, sameSequence]; rfl)
  | dict es => rfl
  | _ => exact (equal_comm_of_flat rfl (by simp) (by simp) mode _).symm

/-- Only dictionaries know a dictionary, so one side without them is enough. -/
theorem equal_comm (v w : Value) (plain : ∀ es, ¬ Part (.dict es) v) (mode : Comparison) :
    v.equal mode w = w.equal mode v := by
  induction v using Value.induction generalizing mode w with
  | tuple xs ih =>
    exact equal_comm_of_sequence rfl (fun x hx mode y =>
      ih x hx y (fun es he => plain es (.inside (.tuple hx) he)) mode) mode w
  | list xs ih =>
    exact equal_comm_of_sequence rfl (fun x hx mode y =>
      ih x hx y (fun es he => plain es (.inside (.list hx) he)) mode) mode w
  | choice m v ih =>
    have parts : (Value.choice m v).sequence? = some [.text m, v] := rfl
    refine equal_comm_of_sequence parts (fun x hx mode y => ?_) mode w
    simp only [List.mem_cons, List.not_mem_nil, or_false] at hx
    rcases hx with rfl | rfl
    · exact equal_comm_of_flat rfl (by simp) (by simp) mode y
    · exact ih y (fun es he => plain es (.inside .choice he)) mode
  | element e fs ih =>
    exact equal_comm_of_element e fs (fun k x hx mode y =>
      ih k x hx y (fun es he => plain es (.inside (.element hx) he)) mode) mode w
  | dict es => exact absurd .self (plain es)
  | _ => exact equal_comm_of_flat rfl (by simp) (by simp) mode w

theorem same_comm (v w : Value) (plain : ∀ es, ¬ Part (.dict es) v) : v.same w = w.same v :=
  equal_comm v w plain .structural

end V2G.Value
