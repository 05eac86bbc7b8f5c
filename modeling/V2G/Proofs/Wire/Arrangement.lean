import V2G.Proofs.Value.Hashing
import V2G.Proofs.Wire.RoundTrip

/-!
# Equality on the wire

Elements are equal exactly if what they are written as becomes equal once the items of arrays that
stand for sets are put in another order, at any depth (`same_iff_rearranged`). An optional
collection that is empty is not written, though, and differs from one that is absent.
-/

namespace V2G

namespace Wire

/-- Two documents for a shape that differ in the arrays of sets only, at any depth. The items of
such an array become those of the other as `P` has it, but for differences of the same sort inside
of them. -/
inductive Rearranged (P : List Json → List Json → Prop) : Shape → Json → Json → Prop where
  | same {s : Shape} {j : Json} : Rearranged P s j j
  | list {k : Kind} {least most : Nat} {js js' : List Json} : js.length = js'.length →
      (∀ p ∈ js.zip js', Rearranged P (.one k) p.1 p.2) →
      Rearranged P (.list k least most) (.arr js) (.arr js')
  | set {k : Kind} {least most : Nat} {js js₁ js₂ js' : List Json} : P js js₁ →
      js₁.length = js₂.length → (∀ p ∈ js₁.zip js₂, Rearranged P (.one k) p.1 p.2) → P js₂ js' →
      Rearranged P (.set k least most) (.arr js) (.arr js')
  | object {e : Element} {ms ms' : Keyed Json} : ms.keys = ms'.keys →
      (∀ k, k ∉ e.keys → Keyed.get? ms k = Keyed.get? ms' k) →
      (∀ f ∈ e.fields, ∀ j j', Keyed.get? ms f.key = some j → Keyed.get? ms' f.key = some j' →
        Rearranged P f.shape j j') →
      (∀ m ∈ e.members, ∀ j j', Keyed.get? ms m.key = some j → Keyed.get? ms' m.key = some j' →
        Rearranged P (.one m.kind) j j') →
      Rearranged P (.one (.element e)) (.obj ms) (.obj ms')

namespace Rearranged

variable {P : List Json → List Json → Prop} {j j' : Json} {js js' : List Json} {k : Kind}
  {least most : Nat}

theorem zip_iff : (js.length = js'.length ∧ ∀ p ∈ js.zip js', Rearranged P (.one k) p.1 p.2) ↔
    List.Forall₂ (Rearranged P (.one k)) js js' := by
  rw [List.forall₂_iff_zip]
  exact and_congr_right fun _ => ⟨fun h a b => h (a, b), fun h p => h⟩

theorem eq_of_scalar (h : Rearranged P (.one k) j j') (scalar : ∀ e, k ≠ .element e) : j = j' := by
  cases h with
  | same => rfl
  | object => exact absurd rfl (scalar _)

theorem list_iff : Rearranged P (.list k least most) (.arr js) (.arr js') ↔
    List.Forall₂ (Rearranged P (.one k)) js js' := by
  constructor
  · intro h
    cases h with
    | same => exact List.forall₂_same.mpr fun _ _ => .same
    | list length items => exact zip_iff.mp ⟨length, items⟩
  · intro h
    obtain ⟨length, items⟩ := zip_iff.mpr h
    exact .list length items

theorem set_iff (refl : ∀ js, P js js) :
    Rearranged P (.set k least most) (.arr js) (.arr js') ↔
      ∃ js₁ js₂, P js js₁ ∧ List.Forall₂ (Rearranged P (.one k)) js₁ js₂ ∧ P js₂ js' := by
  constructor
  · intro h
    cases h with
    | same => exact ⟨js, js, refl js, List.forall₂_same.mpr fun _ _ => .same, refl js⟩
    | set before length items after => exact ⟨_, _, before, zip_iff.mp ⟨length, items⟩, after⟩
  · rintro ⟨js₁, js₂, before, h, after⟩
    obtain ⟨length, items⟩ := zip_iff.mpr h
    exact .set before length items after

theorem of_obj {e : Element} {ms ms' : Keyed Json}
    (h : Rearranged P (.one (.element e)) (.obj ms) (.obj ms')) : ms.keys = ms'.keys ∧
      (∀ f ∈ e.fields, ∀ j j', Keyed.get? ms f.key = some j → Keyed.get? ms' f.key = some j' →
        Rearranged P f.shape j j') ∧
      ∀ m ∈ e.members, ∀ j j', Keyed.get? ms m.key = some j → Keyed.get? ms' m.key = some j' →
        Rearranged P (.one m.kind) j j' := by
  cases h with
  | same =>
    refine ⟨rfl, fun f _ j j' hj hj' => ?_, fun m _ j j' hj hj' => ?_⟩
    · exact Option.some.inj (hj.symm.trans hj') ▸ .same
    · exact Option.some.inj (hj.symm.trans hj') ▸ .same
  | object keys _ fields members => exact ⟨keys, fields, members⟩

end Rearranged

/-- An object has the same keys if it has the same fields and members. -/
theorem keys_inOrder_congr {α : Type} {e : Element} {field field' : Field → Option α}
    {member member' : Member → Option α}
    (fields : ∀ f ∈ e.fields, (field f).isSome = (field' f).isSome)
    (members : ∀ m ∈ e.members, (member m).isSome = (member' m).isSome) :
    (e.inOrder field member).keys = (e.inOrder field' member').keys := by
  rw [Element.keys_inOrder, Element.keys_inOrder,
    List.filter_congr fun f hf => fields f (Element.mem_orderedFields.mp hf),
    List.filter_congr members]

/-! ### Equal elements -/

theorem writtenMember_of_choice {e : Element} {v : Value} {c : ChoiceField}
    (hc : e.choice = some c) (m : Member) :
    writtenMember v e m = (selected (v.field c.name) m).map wireForm := by
  rw [writtenMember, hc, Option.bind_some]

theorem eq_wireForm_of_written {v : Value} {f : Field} {j : Json} (h : writtenField v f = some j) :
    j = wireForm (v.field f.name) := by
  unfold writtenField at h
  split at h
  · exact (Option.some.inj h).symm
  · cases h

theorem isPresent_tuple {xs ys : List Value} (h : xs.length = ys.length) :
    isPresent (.tuple xs) = isPresent (.tuple ys) := by
  cases xs <;> cases ys <;> first | rfl | cases h

section

variable {reader : Url.Reader}

/-- What is written of two elements differs in the order of sets if it does so field by field. -/
theorem rearranged_element {e : Element} {fs fs' : List (String × Value)}
    (h : Conforms (.one (.element e)) (.element e fs))
    (h' : Conforms (.one (.element e)) (.element e fs'))
    (fields : ∀ f ∈ e.fields, (Value.element e fs).field f.name = .none ∧
        (Value.element e fs').field f.name = .none ∨
      isPresent ((Value.element e fs).field f.name) =
          isPresent ((Value.element e fs').field f.name) ∧
        Rearranged List.Perm f.shape (wireForm ((Value.element e fs).field f.name))
          (wireForm ((Value.element e fs').field f.name)))
    (choice : ∀ c, e.choice = some c → (Value.element e fs).field c.name = .none ∧
        (Value.element e fs').field c.name = .none ∨
      ∃ m w w', m ∈ c.group.members ∧ (Value.element e fs).field c.name = .choice m.name w ∧
        (Value.element e fs').field c.name = .choice m.name w' ∧
        Rearranged List.Perm (.one m.kind) (wireForm w) (wireForm w')) :
    Rearranged List.Perm (.one (.element e)) (wireForm (.element e fs))
      (wireForm (.element e fs')) := by
  have present (f : Field) (hf : f ∈ e.fields) :
      (writtenField (.element e fs) f).isSome = (writtenField (.element e fs') f).isSome := by
    unfold writtenField
    rcases fields f hf with ⟨none, none'⟩ | ⟨present, -⟩
    · rw [none, none']
    · rw [present]
      split <;> rfl
  have selection (m : Member) (hm : m ∈ e.members) :
      (writtenMember (.element e fs) e m = none ∧ writtenMember (.element e fs') e m = none) ∨
        ∃ j j', writtenMember (.element e fs) e m = some j ∧
          writtenMember (.element e fs') e m = some j' ∧
          Rearranged List.Perm (.one m.kind) j j' := by
    cases hc : e.choice with
    | none => simp [Element.members, hc] at hm
    | some c =>
      rw [writtenMember_of_choice hc, writtenMember_of_choice hc]
      rcases choice c hc with ⟨none, none'⟩ | ⟨m', w, w', hm', value, value', same⟩
      · rw [none, none']
        exact .inl ⟨rfl, rfl⟩
      · rw [value, value', selected, selected]
        split
        · next name =>
          obtain rfl := Build.member_ext hc (Element.members_eq hc ▸ hm) hm' name
          exact .inr ⟨_, _, rfl, rfl, same⟩
        · exact .inl ⟨rfl, rfl⟩
  rw [wireForm_element h, wireForm_element h']
  refine .object (keys_inOrder_congr present fun m hm => ?_) (fun k unknown => ?_)
    (fun f hf j j' hj hj' => ?_) fun m hm j j' hj hj' => ?_
  · rcases selection m hm with ⟨none, none'⟩ | ⟨j, j', hj, hj', -⟩
    · rw [none, none']
    · rw [hj, hj']
      rfl
  · rw [Keyed.get?_eq_none_iff.mpr (mt Element.mem_keys_of_inOrder unknown),
      Keyed.get?_eq_none_iff.mpr (mt Element.mem_keys_of_inOrder unknown)]
  · rw [Element.get?_inOrder_field hf] at hj hj'
    rw [eq_wireForm_of_written hj, eq_wireForm_of_written hj']
    rcases fields f hf with ⟨none, none'⟩ | ⟨-, same⟩
    · rw [none, none']
      exact .same
    · exact same
  · rw [Element.get?_inOrder_member hm] at hj hj'
    rcases selection m hm with ⟨none, -⟩ | ⟨x, x', hx, hx', same⟩
    · rw [none] at hj
      cases hj
    · cases hj.symm.trans hx
      cases hj'.symm.trans hx'
      exact same

/-- What equal values are written as differs in the order of sets. -/
theorem rearranged_of_alike {s : Shape} {v w : Value} (h : Conforms s v) (h' : Conforms s w)
    (alike : v.equal s.comparison w = true) :
    isPresent v = isPresent w ∧ Rearranged List.Perm s (wireForm v) (wireForm w) := by
  have items {k : Kind} {xs ys : List Value}
      (all : List.Forall₂ (fun x y => isPresent x = isPresent y ∧
        Rearranged List.Perm (.one k) (wireForm x) (wireForm y)) xs ys) :
      List.Forall₂ (Rearranged List.Perm (.one k)) (xs.map wireForm) (ys.map wireForm) := by
    rw [List.forall₂_map_left_iff, List.forall₂_map_right_iff]
    exact all.imp fun x y same => same.2
  refine Conforms.alike_induction (P := fun s v w => isPresent v = isPresent w ∧
    Rearranged List.Perm s (wireForm v) (wireForm w)) ?_ ?_ ?_ ?_ h h' alike
  · exact fun k v _ => ⟨rfl, .same⟩
  · intro k least most xs ys conforms conforms' all
    rw [wireForm_tuple conforms, wireForm_tuple conforms']
    exact ⟨isPresent_tuple all.length_eq, Rearranged.list_iff.mpr (items all)⟩
  · intro k least most xs ys zs conforms conforms' all perm
    rw [wireForm_tuple conforms, wireForm_tuple conforms']
    refine ⟨isPresent_tuple (all.length_eq.trans perm.length_eq), ?_⟩
    exact (Rearranged.set_iff .refl).mpr ⟨_, _, .refl _, items all, perm.map wireForm⟩
  · intro e fs fs' conforms conforms' fields choice
    refine ⟨rfl, rearranged_element conforms conforms' fields fun c hc => ?_⟩
    refine (choice c hc).imp_right ?_
    rintro ⟨m, w, w', hm, value, value', -, same⟩
    exact ⟨m, w, w', hm, value, value', same⟩

/-! ### Back from the wire -/

theorem wireForm_injective {k : Kind} {v w : Value} (h : k.Holds v) (h' : k.Holds w)
    (same : wireForm v = wireForm w) : v = w := by
  cases k <;> cases v <;> first | exact h.elim | skip
  all_goals cases w <;> first | exact h'.elim | skip
  · exact congrArg Value.int (Json.int.inj same)
  · exact congrArg Value.bool (Json.bool.inj same)
  · exact congrArg Value.text (Json.str.inj same)
  · next data data' =>
    have chars : Base64.encode data = Base64.encode data' := by
      simpa [String.ofList_inj] using Json.str.inj same
    have read := Base64.decode_encode data
    rw [chars, Base64.decode_encode] at read
    exact congrArg Value.bytes (Except.ok.inj read).symm
  · exact congrArg Value.url (Json.str.inj same)
  · obtain ⟨rfl, -⟩ := h
    obtain ⟨rfl, -⟩ := h'
    exact congrArg (Value.token _) (Json.str.inj same)
  · obtain ⟨rfl, -⟩ := h
    obtain ⟨rfl, -⟩ := h'
    exact congrArg (Value.identifier _) (Json.str.inj same)

section Element

variable {e : Element} {fs : List (String × Value)}

theorem written_cases (h : Conforms (.one (.element e)) (.element e fs))
    (dense : Dense (.element e fs)) {f : Field} (hf : f ∈ e.fields) :
    ((Value.element e fs).field f.name = .none ∧ writtenField (.element e fs) f = none) ∨
      (Value.element e fs).field f.name ≠ .none ∧
        Conforms f.shape ((Value.element e fs).field f.name) ∧
        writtenField (.element e fs) f = some (wireForm ((Value.element e fs).field f.name)) := by
  cases h with
  | scalar h => exact h.elim
  | element names required fields =>
    by_cases none : (Value.element e fs).field f.name = .none
    · have optional : f.required = false :=
        Bool.eq_false_iff.mpr fun mandatory => required f hf mandatory none
      exact .inl ⟨none, by simp [writtenField, none, optional, isPresent, Value.isNone]⟩
    · have conforms := fields f hf none
      refine .inr ⟨none, conforms, ?_⟩
      rw [writtenField, if_pos (written_of_conforms conforms (dense e fs .self f hf))]

theorem selection_cases (h : Conforms (.one (.element e)) (.element e fs)) {c : ChoiceField}
    (hc : e.choice = some c) :
    ((Value.element e fs).field c.name = .none ∧
        ∀ m ∈ c.group.members, writtenMember (.element e fs) e m = none) ∨
      ∃ m w, m ∈ c.group.members ∧ (Value.element e fs).field c.name = .choice m.name w ∧
        Conforms (.one m.kind) w ∧ ∀ m' ∈ c.group.members, ∀ j,
          writtenMember (.element e fs) e m' = some j ↔ m' = m ∧ j = wireForm w := by
  cases h with
  | scalar h => exact h.elim
  | element _ _ _ selection conforms =>
    rcases selection c hc with ⟨none, -⟩ | ⟨m, hm, w, value⟩
    · exact .inl ⟨none, fun m _ => by rw [writtenMember_of_choice hc, none]; rfl⟩
    · refine .inr ⟨m, w, hm, value, conforms c m w hc hm value, fun m' hm' j => ?_⟩
      rw [writtenMember_of_choice hc, value, selected]
      constructor
      · split
        · next name =>
          intro hj
          exact ⟨Build.member_ext hc hm' hm name, (Option.some.inj hj).symm⟩
        · rintro ⟨⟩
      · rintro ⟨rfl, rfl⟩
        rw [if_pos rfl, Option.map_some]

variable {fs' : List (String × Value)}

/-- Two elements are written under the same keys with documents that differ in the order of sets. -/
theorem written_of_rearranged {key : String} {s : Shape} {x x' : Option Json}
    (h : Conforms (.one (.element e)) (.element e fs))
    (h' : Conforms (.one (.element e)) (.element e fs'))
    (r : Rearranged List.Perm (.one (.element e)) (wireForm (.element e fs))
      (wireForm (.element e fs')))
    (slot : (∃ f ∈ e.fields, key = f.key ∧ s = f.shape) ∨
      ∃ m ∈ e.members, key = m.key ∧ s = .one m.kind)
    (get : Keyed.get? (entries e (.element e fs)) key = x)
    (get' : Keyed.get? (entries e (.element e fs')) key = x') :
    (x = none ∧ x' = none) ∨ ∃ j j', x = some j ∧ x' = some j' ∧ Rearranged List.Perm s j j' := by
  rw [wireForm_element h, wireForm_element h'] at r
  obtain ⟨keys, fields, members⟩ := r.of_obj
  have absent : x = none ↔ x' = none := by
    rw [← get, ← get', entries, entries, Keyed.get?_eq_none_iff, Keyed.get?_eq_none_iff, keys]
  cases x with
  | none => exact .inl ⟨rfl, absent.mp rfl⟩
  | some j =>
    cases x' with
    | none => cases absent.mpr rfl
    | some j' =>
      refine .inr ⟨j, j', rfl, rfl, ?_⟩
      rcases slot with ⟨f, hf, rfl, rfl⟩ | ⟨m, hm, rfl, rfl⟩
      · exact fields f hf j j' get get'
      · exact members m hm j j' get get'

theorem field_of_rearranged (h : Conforms (.one (.element e)) (.element e fs))
    (h' : Conforms (.one (.element e)) (.element e fs')) (dense : Dense (.element e fs))
    (dense' : Dense (.element e fs'))
    (r : Rearranged List.Perm (.one (.element e)) (wireForm (.element e fs))
      (wireForm (.element e fs')))
    {f : Field} (hf : f ∈ e.fields) :
    ((Value.element e fs).field f.name = .none ∧ (Value.element e fs').field f.name = .none) ∨
      (Value.element e fs).field f.name ≠ .none ∧
        Conforms f.shape ((Value.element e fs').field f.name) ∧
        Rearranged List.Perm f.shape (wireForm ((Value.element e fs).field f.name))
          (wireForm ((Value.element e fs').field f.name)) := by
  have both := written_of_rearranged h h' r (.inl ⟨f, hf, rfl, rfl⟩)
    (Element.get?_inOrder_field hf) (Element.get?_inOrder_field hf)
  rcases written_cases h dense hf with ⟨none, unwritten⟩ | ⟨given, -, written⟩
  · rcases written_cases h' dense' hf with ⟨none', -⟩ | ⟨-, -, written'⟩
    · exact .inl ⟨none, none'⟩
    · simp [unwritten, written'] at both
  · rcases written_cases h' dense' hf with ⟨-, unwritten'⟩ | ⟨-, conforms', written'⟩
    · simp [written, unwritten'] at both
    · rw [written, written'] at both
      simp only [Option.some.injEq, reduceCtorEq, false_and, false_or] at both
      obtain ⟨_, _, rfl, rfl, r⟩ := both
      exact .inr ⟨given, conforms', r⟩

theorem choice_of_rearranged (h : Conforms (.one (.element e)) (.element e fs))
    (h' : Conforms (.one (.element e)) (.element e fs'))
    (r : Rearranged List.Perm (.one (.element e)) (wireForm (.element e fs))
      (wireForm (.element e fs')))
    {c : ChoiceField} (hc : e.choice = some c) :
    ((Value.element e fs).field c.name = .none ∧ (Value.element e fs').field c.name = .none) ∨
      ∃ m w w', m ∈ c.group.members ∧ (Value.element e fs).field c.name = .choice m.name w ∧
        (Value.element e fs').field c.name = .choice m.name w' ∧ Conforms (.one m.kind) w' ∧
        Rearranged List.Perm (.one m.kind) (wireForm w) (wireForm w') := by
  have both {m : Member} (hm : m ∈ c.group.members) :=
    have hm : m ∈ e.members := Element.members_eq hc ▸ hm
    written_of_rearranged h h' r (.inr ⟨m, hm, rfl, rfl⟩)
      (Element.get?_inOrder_member hm) (Element.get?_inOrder_member hm)
  rcases selection_cases h hc with ⟨none, unwritten⟩ | ⟨m, w, hm, value, -, written⟩
  · rcases selection_cases h' hc with ⟨none', -⟩ | ⟨m', w', hm', -, -, written'⟩
    · exact .inl ⟨none, none'⟩
    · have there := (written' m' hm' _).mpr ⟨rfl, rfl⟩
      have both := both hm'
      simp [unwritten m' hm', there] at both
  · have there := (written m hm _).mpr ⟨rfl, rfl⟩
    have both := both hm
    rcases selection_cases h' hc with ⟨-, unwritten'⟩ | ⟨m', w', hm', value', conforms', written'⟩
    · simp [there, unwritten' m hm] at both
    · rw [there] at both
      simp only [Option.some.injEq, reduceCtorEq, false_and, false_or] at both
      obtain ⟨_, j', rfl, there', r⟩ := both
      obtain ⟨rfl, rfl⟩ := (written' m hm j').mp there'
      exact .inr ⟨m, w, w', hm, value, value', conforms', r⟩

end Element

/-- Values are equal if what they are written as differs in the order of sets. -/
theorem alike_of_rearranged {s : Shape} {v w : Value} (h : Conforms s v) (h' : Conforms s w)
    (dense : Dense v) (dense' : Dense w) (r : Rearranged List.Perm s (wireForm v) (wireForm w)) :
    v.equal s.comparison w = true := by
  -- Along the first value: what is written of it shows the shape of the second.
  induction h generalizing w with
  | @scalar k v h =>
    cases h' with
    | scalar h' =>
      have same := r.eq_of_scalar (by rintro _ rfl; exact h)
      exact (h.same_iff h').mpr (wireForm_injective h h' same)
    | element => exact h.elim
  | @list k least most xs items _ _ ih =>
    cases h' with
    | @list _ _ _ ys items' _ _ =>
      rw [wireForm_tuple items, wireForm_tuple items', Rearranged.list_iff,
        List.forall₂_map_left_iff, List.forall₂_map_right_iff] at r
      refine Value.equal_list_iff.mpr (forall₂_imp_of_mem r fun x hx y hy same => ?_)
      exact ih x hx (items' y hy) (dense.part (Value.Child.tuple hx).part)
        (dense'.part (Value.Child.tuple hy).part) same
  | @set k least most xs items _ _ _ ih =>
    cases h' with
    | @set _ _ _ ys items' _ _ _ =>
      rw [wireForm_tuple items, wireForm_tuple items', Rearranged.set_iff .refl] at r
      obtain ⟨js, js', before, all, after⟩ := r
      have same {x y : Value} (hx : x ∈ xs) (hy : y ∈ ys)
          (r : Rearranged List.Perm (.one k) (wireForm x) (wireForm y)) : x.same y = true :=
        ih x hx (items' y hy) (dense.part (Value.Child.tuple hx).part)
          (dense'.part (Value.Child.tuple hy).part) r
      have length := before.length_eq.trans (all.length_eq.trans after.length_eq)
      rw [List.length_map, List.length_map] at length
      refine Value.equal_set_iff.mpr ⟨length, fun x hx => ?_, fun y hy => ?_⟩
      · obtain ⟨j, hj, r⟩ := (exists_of_forall₂ all).1 _ (before.subset (List.mem_map_of_mem hx))
        obtain ⟨y, hy, rfl⟩ := List.mem_map.mp (after.subset hj)
        exact ⟨y, hy, same hx hy r⟩
      · obtain ⟨j, hj, r⟩ := (exists_of_forall₂ all).2 _
          (after.symm.subset (List.mem_map_of_mem hy))
        obtain ⟨x, hx, rfl⟩ := List.mem_map.mp (before.symm.subset hj)
        exact ⟨x, hx, same hx hy r⟩
  | @element e fs names required fields selection chosen rule ihf ihc =>
    have h : Conforms (.one (.element e)) (.element e fs) :=
      .element names required fields selection chosen rule
    obtain ⟨fs', rfl⟩ : ∃ fs', w = .element e fs' := by
      cases h' with
      | scalar h' => exact h'.elim
      | element => exact ⟨_, rfl⟩
    refine Value.equal_element_iff.mpr ⟨fun f hf => ?_, fun c hc => ?_⟩
    · rcases field_of_rearranged h h' dense dense' r hf with ⟨none, none'⟩ | ⟨given, conforms', r⟩
      · rw [none, none']
        rfl
      · exact ihf f hf given conforms' (dense.part (Value.part_of_field names hf))
          (dense'.part (Value.part_of_field h'.names hf)) r
    · rcases choice_of_rearranged h h' r hc with
        ⟨none, none'⟩ | ⟨m, w, w', hm, value, value', conforms', r⟩
      · rw [none, none']
        rfl
      · rw [value, value', Value.same_choice_iff]
        exact ⟨rfl, ihc c m w hc hm value conforms'
          (dense.part (Value.part_of_selection names hc value))
          (dense'.part (Value.part_of_selection h'.names hc value')) r⟩

/-! ### Serialized elements -/

/-- Equal elements of a class are serialized as documents that differ in the order of sets only,
and elements none of whose optional collections is empty are equal exactly if they are. -/
theorem same_iff_rearranged {e : Element} {fs fs' : List (String × Value)}
    (h : Obtainable (fun _ _ => True) (.element e fs))
    (h' : Obtainable (fun _ _ => True) (.element e fs')) (s s' : Settings) :
    ∃ j j', (Codec.plain.serialize s (.element e fs)).outcome = .ok j ∧
      (Codec.plain.serialize s' (.element e fs')).outcome = .ok j' ∧
      ((Value.element e fs).same (.element e fs') = true →
        Rearranged List.Perm (.one (.element e)) j j') ∧
      (Dense (.element e fs) → Dense (.element e fs') →
        ((Value.element e fs).same (.element e fs') = true ↔
          Rearranged List.Perm (.one (.element e)) j j')) := by
  have conforms := h.sound.element e fs .self
  have conforms' := h'.sound.element e fs' .self
  have there (same : (Value.element e fs).same (.element e fs') = true) :
      Rearranged List.Perm (.one (.element e)) (wireForm (.element e fs))
        (wireForm (.element e fs')) :=
    (rearranged_of_alike conforms conforms' same).2
  refine ⟨_, _, outcome_serialize conforms s, outcome_serialize conforms' s', there, ?_⟩
  intro dense dense'
  exact ⟨there, alike_of_rearranged conforms conforms' dense dense'⟩

end

theorem services_rearranged : ∃ j j',
    (Codec.plain.serialize {} (.element .serviceDiscoveryReq (services [1, 2]))).outcome = .ok j ∧
      (Codec.plain.serialize {} (.element .serviceDiscoveryReq (services [2, 1]))).outcome =
        .ok j' ∧
      Dense (.element .serviceDiscoveryReq (services [1, 2])) ∧
      Dense (.element .serviceDiscoveryReq (services [2, 1])) ∧
      Rearranged List.Perm (.one (.element .serviceDiscoveryReq)) j j' := by
  have parsed : (Codec.plain.parse {} .serviceDiscoveryReq (servicesDocument [1, 2])).outcome =
      .ok (.element .serviceDiscoveryReq (services [1, 2])) := rfl
  have parsed' : (Codec.plain.parse {} .serviceDiscoveryReq (servicesDocument [2, 1])).outcome =
      .ok (.element .serviceDiscoveryReq (services [2, 1])) := rfl
  have dense : Dense (.element .serviceDiscoveryReq (services [1, 2])) :=
    (parse_eq_ok.mp parsed).2 ▸ dense_denote _ _
  have dense' : Dense (.element .serviceDiscoveryReq (services [2, 1])) :=
    (parse_eq_ok.mp parsed').2 ▸ dense_denote _ _
  obtain ⟨j, j', written, written', -, same⟩ :=
    same_iff_rearranged (.parsed parsed) (.parsed parsed') {} {}
  exact ⟨j, j', written, written', dense, dense', (same dense dense').mp rfl⟩

def noServices : List (String × Value) :=
  [("header", minimalHeader), ("supported_service_ids", .none)]

/-- An empty collection is not written, but differs from one that is absent. -/
example : wireForm (.element .serviceDiscoveryReq emptyServices) =
      wireForm (.element .serviceDiscoveryReq noServices) ∧
    (Value.element .serviceDiscoveryReq emptyServices).same
      (.element .serviceDiscoveryReq noServices) = false :=
  ⟨rfl, rfl⟩

end Wire

end V2G
