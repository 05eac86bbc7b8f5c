import Mathlib.Data.List.Perm.Subperm
import V2G.Proofs.Conforms
import V2G.Proofs.Value.Transitive

/-!
# Equal values of a declaration

Values that conform to one shape are equal along the shape: scalars are the same, ordered
collections are equal entry by entry, sets once the entries of one are put in a suitable order, and
elements field by field. `Conforms.alike_induction` is induction along both values at once. What
equals a dense value is dense.
-/

namespace V2G

/-- How values of a shape are compared. -/
def Shape.comparison (s : Shape) : Comparison := if s.isUnordered then .unordered else .structural

section Lists

variable {α β : Type} {R S : α → β → Prop} {xs : List α} {ys : List β}

theorem forall₂_imp_of_mem (h : List.Forall₂ R xs ys)
    (imp : ∀ x ∈ xs, ∀ y ∈ ys, R x y → S x y) : List.Forall₂ S xs ys := by
  induction h with
  | nil => exact .nil
  | cons first _ ih =>
    refine .cons (imp _ List.mem_cons_self _ List.mem_cons_self first) (ih fun x hx y hy => ?_)
    exact imp x (List.mem_cons_of_mem _ hx) y (List.mem_cons_of_mem _ hy)

theorem exists_of_forall₂ (h : List.Forall₂ R xs ys) :
    (∀ x ∈ xs, ∃ y ∈ ys, R x y) ∧ ∀ y ∈ ys, ∃ x ∈ xs, R x y := by
  induction h with
  | nil => simp
  | cons first _ ih =>
    simp only [List.mem_cons, forall_eq_or_imp, exists_eq_or_imp]
    exact ⟨⟨.inl first, fun x hx => .inr (ih.1 x hx)⟩, .inl first, fun y hy => .inr (ih.2 y hy)⟩

/-- Entries of which no two have a partner in common have partners of their own. -/
theorem exists_matching (apart : xs.Pairwise fun x x' => ∀ y, R x y → ¬ R x' y)
    (there : ∀ x ∈ xs, ∃ y ∈ ys, R x y) : ∃ zs, zs.Subperm ys ∧ List.Forall₂ R xs zs := by
  induction xs generalizing ys with
  | nil => exact ⟨[], List.nil_subperm, .nil⟩
  | cons x xs ih =>
    obtain ⟨others, apart⟩ := List.pairwise_cons.mp apart
    obtain ⟨⟨y, hy, partner⟩, there⟩ := List.forall_mem_cons.mp there
    obtain ⟨before, after, rfl⟩ := List.append_of_mem hy
    -- The partner of the first entry is set aside. The others keep theirs, as none shares it.
    have rest : ∀ x' ∈ xs, ∃ y' ∈ before ++ after, R x' y' := by
      intro x' hx'
      obtain ⟨y', hy', partner'⟩ := there x' hx'
      refine ⟨y', ?_, partner'⟩
      simp only [List.mem_append, List.mem_cons] at hy' ⊢
      rcases hy' with hb | rfl | ha
      · exact .inl hb
      · exact absurd partner' (others x' hx' y' partner)
      · exact .inr ha
    obtain ⟨zs, sub, all⟩ := ih apart rest
    refine ⟨y :: zs, ?_, .cons partner all⟩
    exact (List.subperm_cons y |>.mpr sub).trans List.perm_middle.symm.subperm

end Lists

namespace Value

variable {m m' : String} {u v w : Value} {xs ys : List Value} {mode : Comparison}

theorem equal_list_iff : (Value.tuple xs).equal .structural (.tuple ys) = true ↔
    List.Forall₂ (fun x y => x.same y = true) xs ys := by
  rw [equal_sequence rfl]
  exact pairwise_iff

theorem equal_set_iff : (Value.tuple xs).equal .unordered (.tuple ys) = true ↔
    xs.length = ys.length ∧ (∀ x ∈ xs, ∃ y ∈ ys, x.same y = true) ∧
      ∀ y ∈ ys, ∃ x ∈ xs, x.same y = true := by
  rw [equal_sequence rfl]
  exact sameSet_iff

theorem same_choice_iff :
    (Value.choice m v).same (.choice m' w) = true ↔ m = m' ∧ v.same w = true := by
  simp [same, equal, sameSequence, sequence?, pairwise, sameText, text?, isToken, @eq_comm _ m m']

theorem eq_none_iff_of_equal (h : v.equal mode w = true) : v = .none ↔ w = .none := by
  have number := isNumber_of_equal h
  constructor
  · rintro rfl
    cases w <;> first | rfl | cases h
  · rintro rfl
    cases v <;> cases mode <;>
      simp_all [equal, isNumber, isNone, sameText, text?, sameSequence, sequence?]

theorem equal_element_iff {e : Element} {fs fs' : List (String × Value)} :
    (Value.element e fs).equal mode (.element e fs') = true ↔
      (∀ f ∈ e.fields, ((Value.element e fs).field f.name).equal f.shape.comparison
        ((Value.element e fs').field f.name) = true) ∧
      ∀ c, e.choice = some c →
        ((Value.element e fs).field c.name).same ((Value.element e fs').field c.name) = true := by
  rw [equal_element]
  simp only [beq_self_eq_true, Bool.true_and, Element.slots, List.all_append, List.all_map,
    Bool.and_eq_true, List.all_eq_true]
  refine and_congr Iff.rfl ?_
  cases e.choice <;> simp [same]

end Value

/-! ### Along a shape -/

variable {reader : Url.Reader}

namespace Kind

variable {k : Kind} {v w : Value}

theorem Holds.same_iff (h : k.Holds v) (h' : k.Holds w) : v.same w = true ↔ v = w := by
  cases k <;> cases v <;> first | exact h.elim | skip
  all_goals cases w <;> first | exact h'.elim | skip
  · simp [Value.same, Value.equal, Value.sameNumber, Value.integer?]
  · next b b' =>
    cases b <;> cases b' <;> simp [Value.same, Value.equal, Value.sameNumber, Value.integer?]
  · next s s' =>
    simp [Value.same, Value.equal, Value.sameText, Value.text?, Value.isToken, @eq_comm _ s s']
  · simp [Value.same, Value.equal]
  · simp [Value.same, Value.equal]
  · simp [Value.same, Value.equal]
  · next t s t' s' =>
    obtain ⟨rfl, -⟩ := h
    obtain ⟨rfl, -⟩ := h'
    simp [Value.same, Value.equal, Value.sameText, Value.text?, Value.isToken, @eq_comm _ s s']

end Kind

namespace Conforms

variable {s : Shape} {v w : Value}

/-- Entries that are unlike each other equal none in common. -/
theorem apart_of_unlike {k : Kind} {xs : List Value} (items : ∀ x ∈ xs, Conforms (.one k) x)
    (unlike : Value.Unlike xs) :
    xs.Pairwise fun x x' => ∀ y, x.same y = true → ¬ x'.same y = true := by
  refine unlike.imp_of_mem fun {x x'} hx hx' different y same same' => ?_
  rw [Value.same_comm _ _ (items x' hx').no_dict] at same'
  have := Value.equal_trans (items x hx).no_dict same same'
  rw [show x.equal .structural x' = false from different.1] at this
  cases this

/-- Induction along two values of a shape that are equal. -/
theorem alike_induction {P : Shape → Value → Value → Prop}
    (scalar : ∀ k v, k.Holds v → P (.one k) v v)
    (list : ∀ k least most xs ys, (∀ x ∈ xs, Conforms (.one k) x) →
      (∀ y ∈ ys, Conforms (.one k) y) → List.Forall₂ (P (.one k)) xs ys →
      P (.list k least most) (.tuple xs) (.tuple ys))
    (set : ∀ k least most xs ys zs, (∀ x ∈ xs, Conforms (.one k) x) →
      (∀ y ∈ ys, Conforms (.one k) y) → List.Forall₂ (P (.one k)) xs zs → zs.Perm ys →
      P (.set k least most) (.tuple xs) (.tuple ys))
    (element : ∀ e fs fs', Conforms (.one (.element e)) (.element e fs) →
      Conforms (.one (.element e)) (.element e fs') →
      (∀ f ∈ e.fields, (Value.element e fs).field f.name = .none ∧
          (Value.element e fs').field f.name = .none ∨
        P f.shape ((Value.element e fs).field f.name) ((Value.element e fs').field f.name)) →
      (∀ c, e.choice = some c → (Value.element e fs).field c.name = .none ∧
          (Value.element e fs').field c.name = .none ∨
        ∃ m w w', m ∈ c.group.members ∧ (Value.element e fs).field c.name = .choice m.name w ∧
          (Value.element e fs').field c.name = .choice m.name w' ∧ P (.one m.kind) w w') →
      P (.one (.element e)) (.element e fs) (.element e fs'))
    (h : Conforms s v) (h' : Conforms s w) (alike : v.equal s.comparison w = true) : P s v w := by
  induction h generalizing w with
  | @scalar k v h =>
    cases h' with
    | scalar h' => exact (h.same_iff h').mp alike ▸ scalar k v h
    | element => exact h.elim
  | @list k least most xs items _ _ ih =>
    cases h' with
    | @list _ _ _ ys items' _ _ =>
      have all := Value.equal_list_iff.mp alike
      exact list k least most xs ys items items' (forall₂_imp_of_mem all fun x hx y hy same =>
        ih x hx (items' y hy) same)
  | @set k least most xs items _ _ unlike ih =>
    cases h' with
    | @set _ _ _ ys items' _ _ _ =>
      obtain ⟨length, there, -⟩ := Value.equal_set_iff.mp alike
      obtain ⟨zs, sub, all⟩ := exists_matching (apart_of_unlike items unlike) there
      -- As many entries as there are partners: the partners are all entries of the other side.
      refine set k least most xs ys zs items items'
        (forall₂_imp_of_mem all fun x hx z hz same => ?_)
        (sub.perm_of_length_le (Nat.le_of_eq (length.symm.trans all.length_eq)))
      exact ih x hx (items' z (sub.subset hz)) same
  | @element e fs names required fields selection chosen rule ihf ihc =>
    cases h' with
    | scalar h' => exact h'.elim
    | @element _ fs' names' required' fields' selection' chosen' rule' =>
      obtain ⟨fieldsAlike, choiceAlike⟩ := Value.equal_element_iff.mp alike
      refine element e fs fs' (.element names required fields selection chosen rule)
        (.element names' required' fields' selection' chosen' rule') (fun f hf => ?_) fun c hc => ?_
      · by_cases none : (Value.element e fs).field f.name = .none
        · exact .inl ⟨none, (Value.eq_none_iff_of_equal (fieldsAlike f hf)).mp none⟩
        · have given := mt (Value.eq_none_iff_of_equal (fieldsAlike f hf)).mpr none
          exact .inr (ihf f hf none (fields' f hf given) (fieldsAlike f hf))
      · have same := choiceAlike c hc
        rcases selection c hc with ⟨none, -⟩ | ⟨m, hm, w, value⟩
        · exact .inl ⟨none, (Value.eq_none_iff_of_equal same).mp none⟩
        · rcases selection' c hc with ⟨none', -⟩ | ⟨m', hm', w', value'⟩
          · rw [(Value.eq_none_iff_of_equal same).mpr none'] at value
            cases value
          · rw [value, value', Value.same_choice_iff] at same
            refine .inr ⟨m, w, w', hm, value, same.1 ▸ value', ?_⟩
            exact ihc c m w hc hm value (chosen' c m w' hc hm (same.1 ▸ value')) same.2

/-! ### Density -/

/-- A value is as dense as another one, and no collection if that is no empty one. -/
def AsDense (v w : Value) : Prop := (Dense v → Dense w) ∧ (w = .tuple [] → v = .tuple [])

theorem AsDense.tuple {xs ys zs : List Value} (all : List.Forall₂ AsDense xs zs)
    (perm : zs.Perm ys) : AsDense (.tuple xs) (.tuple ys) := by
  constructor
  · intro dense
    refine .tuple fun y hy => ?_
    obtain ⟨x, hx, both⟩ := (exists_of_forall₂ all).2 y (perm.symm.subset hy)
    exact both.1 (dense.part (Value.Child.tuple hx).part)
  · rintro ⟨⟩
    rw [List.perm_nil] at perm
    subst perm
    cases all
    rfl

theorem AsDense.element {e : Element} {fs fs' : List (String × Value)}
    (h : Conforms (.one (.element e)) (.element e fs))
    (h' : Conforms (.one (.element e)) (.element e fs'))
    (fields : ∀ f ∈ e.fields, (Value.element e fs).field f.name = .none ∧
        (Value.element e fs').field f.name = .none ∨
      AsDense ((Value.element e fs).field f.name) ((Value.element e fs').field f.name))
    (choice : ∀ c, e.choice = some c → (Value.element e fs).field c.name = .none ∧
        (Value.element e fs').field c.name = .none ∨
      ∃ m w w', m ∈ c.group.members ∧ (Value.element e fs).field c.name = .choice m.name w ∧
        (Value.element e fs').field c.name = .choice m.name w' ∧ AsDense w w') :
    AsDense (.element e fs) (.element e fs') := by
  refine ⟨fun dense => .of_children (fun x c => ?_) ?_, nofun⟩
  · cases c with
    | element hx =>
      rcases Value.slot_of_mem h'.names hx with ⟨f, hf, rfl⟩ | ⟨c, hc, rfl⟩
      · rcases fields f hf with ⟨-, none⟩ | both
        · exact none ▸ .none
        · exact both.1 (dense.part (Value.part_of_field h.names hf))
      · rcases choice c hc with ⟨-, none⟩ | ⟨m, w, w', -, value, value', both⟩
        · exact none ▸ .none
        · rw [value']
          exact .choice (both.1 (dense.part (Value.part_of_selection h.names hc value)))
  · rintro _ _ ⟨⟩ f hf optional collection empty
    rcases fields f hf with ⟨-, none⟩ | both
    · cases none.symm.trans empty
    · exact dense e fs .self f hf optional collection (both.2 empty)

/-- What equals a dense value is dense. -/
theorem dense_alike {s : Shape} {v w : Value} (h : Conforms s v) (h' : Conforms s w)
    (alike : v.equal s.comparison w = true) (dense : Dense v) : Dense w :=
  (alike_induction (P := fun _ => AsDense) (fun _ _ _ => ⟨id, id⟩)
    (fun _ _ _ _ _ _ _ all => .tuple all (.refl _)) (fun _ _ _ _ _ _ _ _ => .tuple)
    (fun _ _ _ => .element) h h' alike).1 dense

end Conforms

end V2G
