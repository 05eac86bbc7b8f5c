import Mathlib.Logic.Relation
import V2G.Proofs.Build.Restored
import V2G.Proofs.Obtainable

/-!
# Forms of arguments

The same element can be asked for in many ways: an argument stands under the key of its field or
under its name, a selection is given by itself or together with the name of its member, an element
is given as it is or as its own fields. `Rewrites` is one such change, at any depth. Whatever
arguments make is made by their rewritings too (`read_rewritten`).
-/

namespace V2G

/-- One list is the other one with an entry in the place of another. -/
inductive Replaced {α : Type} (a b : α) : List α → List α → Prop where
  | mk (before after : List α) : Replaced a b (before ++ a :: after) (before ++ b :: after)

namespace Replaced

variable {α β : Type} {a b : α} {l l' : List α}

theorem symm (h : Replaced a b l l') : Replaced b a l' l := by
  cases h with
  | mk before after => exact .mk before after

theorem mem (h : Replaced a b l l') : a ∈ l ∧ b ∈ l' := by
  cases h with
  | mk before after => simp

theorem mem_of_mem {x : α} (h : Replaced a b l l') (hx : x ∈ l') : x = b ∨ x ∈ l := by
  cases h with
  | mk before after =>
    simp only [List.mem_append, List.mem_cons] at hx ⊢
    tauto

theorem get?_of_ne {k k' : String} {x x' : β} {es es' : Keyed β}
    (h : Replaced (k, x) (k', x') es es') {j : String} (hk : j ≠ k) (hk' : j ≠ k') :
    Keyed.get? es' j = Keyed.get? es j := by
  cases h with
  | mk before after =>
    rw [Keyed.get?_append, Keyed.get?_append]
    simp only [Keyed.get?, if_neg (Ne.symm hk), if_neg (Ne.symm hk')]

end Replaced

/-- An argument for a field stands under its key or under its name. -/
def Field.IsWord (f : Field) (k : String) : Prop := k = f.key ∨ k = f.name

namespace Build

variable {e : Element} {es es' : Keyed Value} {f : Field} {c : ChoiceField} {m : Member}
  {s : Shape} {v v' w x x' : Value} {p p' : String × Value} {k k' : String}

/-- No argument is given twice: none under the same word, none for a field under both of its words,
and no selection beside another one. -/
structure Unrepeated (e : Element) (es : Keyed Value) : Prop where
  words : es.keys.Nodup
  fields : ∀ f ∈ e.fields, f.key ∈ es.keys → f.name ∈ es.keys → f.key = f.name
  selection : ∀ p ∈ es, ∀ q ∈ es, p.1 ∈ e.selectors → q.1 ∈ e.selectors →
    p.2.isNone = false → q.2.isNone = false → p.1 = q.1

/-- The arguments that select a member with a value. -/
inductive Form (c : ChoiceField) (m : Member) (v : Value) : String × Value → Prop where
  | name : Form c m v (m.name, v)
  | key : Form c m v (m.key, v)
  | choice : Form c m v (c.name, .choice m.name v)
  | tuple : Form c m v (c.name, .tuple [.text m.name, v])
  | list : Form c m v (c.name, .list [.text m.name, v])

section

variable [reader : Url.Reader]

/-- One rewriting of an argument that is read for a shape, there or anywhere deeper in it. Elements
are taken apart only if `apart` says so. -/
inductive Rewrites (apart : Bool) : Shape → Value → Value → Prop where
  | renamed {e : Element} {es es' : Keyed Value} {f : Field} {k k' : String} {x : Value} :
      f ∈ e.fields → f.IsWord k → f.IsWord k' → Replaced (k, x) (k', x) es es' →
      Unrepeated e es → Unrepeated e es' →
      Rewrites apart (.one (.element e)) (.dict es) (.dict es')
  | reselected {e : Element} {es es' : Keyed Value} {c : ChoiceField} {m : Member} {x : Value}
      {p p' : String × Value} : e.choice = some c → m ∈ c.group.members → x.isNone = false →
      Form c m x p → Form c m x p' → Replaced p p' es es' → Unrepeated e es → Unrepeated e es' →
      Rewrites apart (.one (.element e)) (.dict es) (.dict es')
  | taken {e : Element} {fs : List (String × Value)} : apart = true →
      Obtainable (fun _ _ => True) (.element e fs) → Full e fs →
      Rewrites apart (.one (.element e)) (.element e fs) (.dict fs)
  | field {e : Element} {es es' : Keyed Value} {f : Field} {k : String} {x x' : Value} :
      f ∈ e.fields → f.IsWord k → Replaced (k, x) (k, x') es es' →
      Unrepeated e es → Unrepeated e es' → Rewrites apart f.shape x x' →
      Rewrites apart (.one (.element e)) (.dict es) (.dict es')
  | selection {e : Element} {es es' : Keyed Value} {c : ChoiceField} {m : Member}
      {x x' : Value} {p p' : String × Value} : e.choice = some c → m ∈ c.group.members →
      Form c m x p → Form c m x' p' → Replaced p p' es es' → Unrepeated e es → Unrepeated e es' →
      Rewrites apart (.one m.kind) x x' →
      Rewrites apart (.one (.element e)) (.dict es) (.dict es')
  | tuple {s : Shape} {xs xs' : List Value} {x x' : Value} : s.isCollection = true →
      Replaced x x' xs xs' → Rewrites apart (.one s.kind) x x' →
      Rewrites apart s (.tuple xs) (.tuple xs')
  | list {s : Shape} {xs xs' : List Value} {x x' : Value} : s.isCollection = true →
      Replaced x x' xs xs' → Rewrites apart (.one s.kind) x x' →
      Rewrites apart s (.list xs) (.list xs')

variable {reader}

theorem Rewrites.symm (h : Rewrites false s v v') : Rewrites false s v' v := by
  induction h with
  | renamed hf hk hk' h one one' => exact .renamed hf hk' hk h.symm one' one
  | reselected hc hm given form form' h one one' =>
    exact .reselected hc hm given form' form h.symm one' one
  | taken apart => cases apart
  | field hf hk h one one' _ ih => exact .field hf hk h.symm one' one ih
  | selection hc hm form form' h one one' _ ih =>
    exact .selection hc hm form' form h.symm one' one ih
  | tuple collection h _ ih => exact .tuple collection h.symm ih
  | list collection h _ ih => exact .list collection h.symm ih

/-- What is rewritten is something, no empty collection, and no element any more. -/
theorem Rewrites.given {apart : Bool} (h : Rewrites apart s v v') :
    (v.isNone = false ∧ v.isEmptyCollection = false) ∧
      v'.isNone = false ∧ v'.isEmptyCollection = false ∧ ∀ k, Group.misfit? k v' = none := by
  cases h with
  | taken => exact ⟨⟨rfl, rfl⟩, rfl, rfl, fun _ => rfl⟩
  | tuple _ h _ =>
    cases h with
    | mk before after =>
      refine ⟨⟨rfl, ?_⟩, rfl, ?_, fun _ => rfl⟩ <;> cases before <;> rfl
  | list _ h _ =>
    cases h with
    | mk before after =>
      refine ⟨⟨rfl, ?_⟩, rfl, ?_, fun _ => rfl⟩ <;> cases before <;> rfl
  | _ => exact ⟨⟨rfl, rfl⟩, rfl, rfl, fun _ => rfl⟩

/-! ### Arguments that are given once -/

namespace Unrepeated

theorem fieldArg?_eq (one : Unrepeated e es) (hf : f ∈ e.fields) (hk : f.IsWord k)
    (h : (k, x) ∈ es) : fieldArg? es f = some (k, x) := by
  have own : Keyed.get? es k = some x := Keyed.get?_of_mem one.words h
  unfold fieldArg?
  rcases hk with rfl | rfl
  · rw [own]
  · cases byKey : Keyed.get? es f.key with
    | none =>
      rw [own]
      rfl
    | some y =>
      have same : f.key = f.name := one.fields f hf
        (List.mem_map_of_mem (Keyed.mem_of_get? byKey)) (List.mem_map_of_mem h)
      rw [same] at byKey ⊢
      cases byKey.symm.trans own
      rfl

theorem present?_eq (one : Unrepeated e es) (hp : p ∈ es) (given : p.2.isNone = false) :
    present? es p.1 = some p.2 := by
  rw [present?, Keyed.get?_of_mem one.words hp]
  simp [Option.filter, given]

/-- No other word speaks of the selection than the one that does. -/
theorem present?_other (one : Unrepeated e es) (hp : p ∈ es) (word : p.1 ∈ e.selectors)
    (given : p.2.isNone = false) (hk : k ∈ e.selectors) (other : k ≠ p.1) :
    present? es k = none := by
  cases there : present? es k with
  | none => rfl
  | some y =>
    obtain ⟨mem, some⟩ := mem_of_present? there
    exact absurd (one.selection (k, y) mem p hp hk word some given) other

theorem once (one : Unrepeated e es) : ∀ m ∈ e.members, GivenOnce es m := by
  intro m hm
  have name : m.name ∈ e.selectors := Element.mem_selectors.mpr (.inl ⟨m, hm, .inl rfl⟩)
  have key : m.key ∈ e.selectors := Element.mem_selectors.mpr (.inl ⟨m, hm, .inr rfl⟩)
  have other : m.key ≠ m.name := fun same =>
    Element.memberName_not_mem_keys hm (same ▸ Element.memberKey_mem_keys hm)
  cases there : present? es m.name with
  | none => exact .inl there
  | some y =>
    obtain ⟨mem, some⟩ := mem_of_present? there
    exact .inr (one.present?_other mem name some key other)

/-- Where no argument is given twice, arguments are told by what fields and selection have of
them, and by the words that they stand under. -/
theorem build_eq_ok (one : Unrepeated e es) : e.build es = .ok v ↔ ∃ fs, v = .element e fs ∧
    Keyed.keys fs = e.slots.map (·.1) ∧
    (∀ f ∈ e.fields,
      Takes f ((fieldArg? es f).map (argOf ·.2)) ((Value.element e fs).field f.name)) ∧
    (∀ c, e.choice = some c → Resolves c es ((Value.element e fs).field c.name)) ∧
    (∀ k ∈ es.keys, k ∈ e.selectors ∨ ∃ f ∈ e.fields, f.IsWord k) ∧
    Rule.broken? e (.element e fs) = none := by
  have taken : (∀ k ∈ es.keys, k ∈ e.selectors ∨
      ∃ f ∈ e.fields, (fieldArg? es f).map (·.1) = some k) ↔
      ∀ k ∈ es.keys, k ∈ e.selectors ∨ ∃ f ∈ e.fields, f.IsWord k := by
    refine forall₂_congr fun k hk => or_congr_right (exists_congr fun f => ?_)
    refine and_congr_right fun hf => ⟨fun found => ?_, fun word => ?_⟩
    · obtain ⟨p, hp, rfl⟩ := Option.map_eq_some_iff.mp found
      exact (mem_of_fieldArg? hp).2
    · obtain ⟨⟨_, x⟩, hx, rfl⟩ := List.mem_map.mp hk
      rw [one.fieldArg?_eq hf word hx]
      rfl
  rw [Build.build_eq_ok, taken]
  refine exists_congr fun fs => and_congr_right fun _ => and_congr_right fun _ => ?_
  exact and_congr_right fun _ => and_iff_right one.once

end Unrepeated

/-! ### Selections -/

variable [reader]

/-- What the selection of a member with a value makes. -/
def Selected (m : Member) (x w : Value) : Prop :=
  Group.misfit? m.kind x = none ∧ ∃ u, read x (.one m.kind) = .ok u ∧ w = .choice m.name u

variable {reader}

theorem chosen_single {g : Group} {given : Member → Option Value}
    (names : (g.members.map (·.name)).Nodup) (hm : m ∈ g.members) (hx : given m = some x)
    (other : ∀ m' ∈ g.members, m' ≠ m → given m' = none) :
    Chosen g given w ↔ Selected m x w := by
  obtain ⟨before, after, split⟩ := List.append_of_mem hm
  have single : (g.members.filter fun m => (given m).isSome) = [m] := by
    rw [split] at names other ⊢
    simp only [List.map_append, List.map_cons, List.nodup_append, List.nodup_cons] at names
    have none (ms : List Member) (sub : ms ⊆ before ++ m :: after) (apart : m ∉ ms) :
        (ms.filter fun m => (given m).isSome) = [] := by
      refine List.filter_eq_nil_iff.mpr fun m' hm' => ?_
      rw [other m' (sub hm') fun same => apart (same ▸ hm')]
      simp
    rw [List.filter_append, List.filter_cons_of_pos (by rw [hx]; rfl), none before, none after]
    · rfl
    · exact fun m' hm' => List.mem_append_right _ (List.mem_cons_of_mem _ hm')
    · exact fun mem => names.2.1.1 (List.mem_map_of_mem mem)
    · exact fun m' hm' => List.mem_append_left _ hm'
    · exact fun mem => names.2.2 _ (List.mem_map_of_mem mem) _ List.mem_cons_self rfl
  unfold Chosen
  rw [single]
  constructor
  · rintro ⟨-, ⟨empty, -⟩ | ⟨m', rest, y, u, one, hy, fit, read, rfl⟩⟩
    · cases empty
    · cases one
      cases hx.symm.trans hy
      exact ⟨fit, u, read, rfl⟩
  · rintro ⟨fit, u, read, rfl⟩
    exact ⟨by simp, .inr ⟨m, [], x, u, rfl, hx, fit, read, rfl⟩⟩

theorem Form.word (hc : e.choice = some c) (hm : m ∈ e.members) (form : Form c m x p) :
    p.1 ∈ e.selectors := by
  refine Element.mem_selectors.mpr ?_
  cases form with
  | name => exact .inl ⟨m, hm, .inl rfl⟩
  | key => exact .inl ⟨m, hm, .inr rfl⟩
  | _ => exact .inr ⟨c, hc, rfl⟩

theorem Form.given (form : Form c m x p) (given : x.isNone = false) : p.2.isNone = false := by
  cases form <;> first | exact given | rfl

/-- A member that is given by itself is selected. -/
theorem resolves_of_member (one : Unrepeated e es) (hc : e.choice = some c) (hm : m ∈ e.members)
    (hk : k = m.name ∨ k = m.key) (h : (k, x) ∈ es) (given : x.isNone = false) :
    Resolves c es w ↔ Selected m x w := by
  have word {m' : Member} {k' : String} (hm' : m' ∈ e.members) (h : k' = m'.name ∨ k' = m'.key) :
      k' ∈ e.selectors := Element.mem_selectors.mpr (.inl ⟨m', hm', h⟩)
  have other {k' : String} (hk' : k' ∈ e.selectors) (ne : k' ≠ k) : present? es k' = none :=
    one.present?_other h (word hm hk) given hk' ne
  have unnamed : present? es c.name = none := by
    refine other (Element.mem_selectors.mpr (.inr ⟨c, hc, rfl⟩)) ?_
    rintro rfl
    rcases hk with same | same
    · exact (Element.memberWord_ne_choiceName hm hc).1 same.symm
    · exact (Element.memberWord_ne_choiceName hm hc).2 same.symm
  have own : memberArg? es m = some x := by
    have there : present? es k = some x := one.present?_eq h given
    have apart : m.name ≠ m.key := fun same =>
      Element.memberName_not_mem_keys hm (same ▸ Element.memberKey_mem_keys hm)
    unfold memberArg?
    rcases hk with rfl | rfl
    · rw [there]
      rfl
    · rw [other (word hm (.inl rfl)) apart, there]
      rfl
  have apart (m' : Member) (hm' : m' ∈ c.group.members) (ne : m' ≠ m) :
      memberArg? es m' = none := by
    have hm' : m' ∈ e.members := Element.members_eq hc ▸ hm'
    have absent {k' : String} (hk' : k' = m'.name ∨ k' = m'.key) : present? es k' = none := by
      refine other (word hm' hk') ?_
      rintro rfl
      exact ne (Element.eq_of_memberWord hm' hm hk' hk)
    rw [memberArg?, absent (.inl rfl), absent (.inr rfl)]
    rfl
  rw [Resolves, unnamed]
  have members := Element.members_eq hc
  exact chosen_single (members ▸ e.memberNames_nodup) (members ▸ hm) own apart

/-- A member that is given together with its name is selected. -/
theorem resolves_of_tagged (one : Unrepeated e es) (hc : e.choice = some c) (hm : m ∈ e.members)
    {a : Value} (h : (c.name, a) ∈ es) (given : a.isNone = false)
    (ha : tagged? a = some ⟨.text m.name, x, fun k => read x (.one k)⟩) :
    Resolves c es w ↔ Selected m x w := by
  have members := Element.members_eq hc
  have apart (m' : Member) (hm' : m' ∈ c.group.members) : memberArg? es m' = none := by
    have hm' : m' ∈ e.members := members ▸ hm'
    have absent {k' : String} (h' : k' = m'.name ∨ k' = m'.key) : present? es k' = none := by
      refine one.present?_other h (Element.mem_selectors.mpr (.inr ⟨c, hc, rfl⟩)) given
        (Element.mem_selectors.mpr (.inl ⟨m', hm', h'⟩)) ?_
      rcases h' with rfl | rfl
      · exact (Element.memberWord_ne_choiceName hm' hc).1
      · exact (Element.memberWord_ne_choiceName hm' hc).2
    rw [memberArg?, absent (.inl rfl), absent (.inr rfl)]
    rfl
  have found : c.group.find (.text m.name) = .ok m := find_member hc (members ▸ hm)
  rw [Resolves, one.present?_eq h given]
  constructor
  · rintro ⟨-, t, m', u, ht, hm', fit, read, rfl⟩
    cases ha.symm.trans ht
    cases found.symm.trans hm'
    exact ⟨fit, u, read, rfl⟩
  · rintro ⟨fit, u, read, rfl⟩
    exact ⟨apart, _, m, u, ha, found, fit, read, rfl⟩

/-- Whatever form a selection is given in, it is made from the value that is selected. -/
theorem resolves_of_form (one : Unrepeated e es) (hc : e.choice = some c)
    (hm : m ∈ c.group.members) (given : x.isNone = false) (form : Form c m x p) (hp : p ∈ es) :
    Resolves c es w ↔ Selected m x w := by
  have hm : m ∈ e.members := Element.members_eq hc ▸ hm
  cases form with
  | name => exact resolves_of_member one hc hm (.inl rfl) hp given
  | key => exact resolves_of_member one hc hm (.inr rfl) hp given
  | _ => exact resolves_of_tagged one hc hm hp rfl rfl

theorem resolves_congr (hc : e.choice = some c)
    (same : ∀ k ∈ e.selectors, Keyed.get? es' k = Keyed.get? es k) :
    Resolves c es' w ↔ Resolves c es w := by
  have present (k : String) (hk : k ∈ e.selectors) : present? es' k = present? es k := by
    rw [present?, present?, same k hk]
  have given (m : Member) (hm : m ∈ c.group.members) : memberArg? es' m = memberArg? es m := by
    have hm : m ∈ e.members := Element.members_eq hc ▸ hm
    rw [memberArg?, memberArg?, present _ (Element.mem_selectors.mpr (.inl ⟨m, hm, .inl rfl⟩)),
      present _ (Element.mem_selectors.mpr (.inl ⟨m, hm, .inr rfl⟩))]
  unfold Resolves
  rw [present _ (Element.mem_selectors.mpr (.inr ⟨c, hc, rfl⟩))]
  cases present? es c.name with
  | none => exact chosen_congr given
  | some a => exact and_congr_left fun _ => forall₂_congr fun m hm => by rw [given m hm]

/-! ### Rewriting keeps what is made -/

/-- An argument of a field may be replaced by one that the field takes the same from. -/
theorem build_of_field (hf : f ∈ e.fields) (hk : f.IsWord k) (hk' : f.IsWord k')
    (h : Replaced (k, x) (k', x') es es') (one : Unrepeated e es) (one' : Unrepeated e es')
    (takes : ∀ u, Takes f (some (argOf x)) u → Takes f (some (argOf x')) u)
    (build : e.build es = .ok v) : e.build es' = .ok v := by
  obtain ⟨fs, rfl, names, fields, choice, words, rule⟩ := one.build_eq_ok.mp build
  have apart {j : String} (hj : ¬ f.IsWord j) : Keyed.get? es' j = Keyed.get? es j :=
    h.get?_of_ne (fun same => hj (same ▸ hk)) fun same => hj (same ▸ hk')
  refine one'.build_eq_ok.mpr ⟨fs, rfl, names, fun g hg => ?_, fun c hc => ?_, fun j hj => ?_, rule⟩
  · have value := fields g hg
    by_cases same : g = f
    · subst same
      rw [one.fieldArg?_eq hf hk h.mem.1] at value
      rw [one'.fieldArg?_eq hf hk' h.mem.2]
      exact takes _ value
    · have key : ¬ f.IsWord g.key := fun word =>
        same (Element.eq_of_fieldWord hg hf (.inl rfl) word)
      have name : ¬ f.IsWord g.name := fun word =>
        same (Element.eq_of_fieldWord hg hf (.inr rfl) word)
      rw [fieldArg?, apart key, apart name]
      exact value
  · refine (resolves_congr hc fun j hj => apart ?_).mpr (choice c hc)
    obtain ⟨key, name⟩ := Element.field_not_selector hf
    rintro (rfl | rfl)
    · exact key hj
    · exact name hj
  · obtain ⟨q, hq, rfl⟩ := List.mem_map.mp hj
    rcases h.mem_of_mem hq with rfl | hq
    · exact .inr ⟨f, hf, hk'⟩
    · exact words _ (List.mem_map_of_mem hq)

/-- A selection may be replaced by another form of it, of a value that makes the same. -/
theorem build_of_selection (hc : e.choice = some c) (hm : m ∈ c.group.members)
    (form : Form c m x p) (form' : Form c m x' p') (h : Replaced p p' es es')
    (one : Unrepeated e es) (one' : Unrepeated e es') (given : x.isNone = false)
    (given' : x'.isNone = false) (selected : ∀ u, Selected m x u → Selected m x' u)
    (build : e.build es = .ok v) : e.build es' = .ok v := by
  have member : m ∈ e.members := Element.members_eq hc ▸ hm
  obtain ⟨fs, rfl, names, fields, choice, words, rule⟩ := one.build_eq_ok.mp build
  refine one'.build_eq_ok.mpr
    ⟨fs, rfl, names, fun g hg => ?_, fun c' hc' => ?_, fun j hj => ?_, rule⟩
  · have apart {j : String} (hj : j ∉ e.selectors) : Keyed.get? es' j = Keyed.get? es j :=
      h.get?_of_ne (fun same => hj (same ▸ form.word hc member))
        fun same => hj (same ▸ form'.word hc member)
    obtain ⟨key, name⟩ := Element.field_not_selector hg
    rw [fieldArg?, apart key, apart name]
    exact fields g hg
  · cases hc.symm.trans hc'
    refine (resolves_of_form one' hc hm given' form' h.mem.2).mpr (selected _ ?_)
    exact (resolves_of_form one hc hm given form h.mem.1).mp (choice c hc)
  · obtain ⟨q, hq, rfl⟩ := List.mem_map.mp hj
    rcases h.mem_of_mem hq with rfl | hq
    · exact .inl (form'.word hc member)
    · exact words _ (List.mem_map_of_mem hq)

theorem map_read_of_replaced {k : Kind} {xs xs' vs : List Value} (h : Replaced x x' xs xs')
    (keeps : ∀ w, read x (.one k) = .ok w → read x' (.one k) = .ok w)
    (all : (xs.map fun x => read x (.one k)) = vs.map .ok) :
    (xs'.map fun x => read x (.one k)) = vs.map .ok := by
  cases h with
  | mk before after =>
    have there : read x (.one k) ∈ vs.map Except.ok := by
      rw [← all]
      simp
    obtain ⟨w, -, hw⟩ := List.mem_map.mp there
    have same : read x' (.one k) = read x (.one k) := by rw [keeps w hw.symm, hw]
    rw [← all]
    simp [same]

/-- An item of a collection may be replaced by one that becomes the same. -/
theorem read_of_item {v v' : Value} {xs xs' : List Value} (hv : v.items? = some xs)
    (hv' : v'.items? = some xs') (collection : s.isCollection = true) (h : Replaced x x' xs xs')
    (keeps : ∀ w, read x (.one s.kind) = .ok w → read x' (.one s.kind) = .ok w)
    (made : read v s = .ok w) : read v' s = .ok w := by
  cases s with
  | one k => cases collection
  | list k least most =>
    obtain ⟨vs, all, fits⟩ := (read_items_list hv).mp made
    exact (read_items_list hv').mpr ⟨vs, map_read_of_replaced h keeps all, fits⟩
  | set k least most =>
    obtain ⟨vs, all, fits⟩ := (read_items_set hv).mp made
    exact (read_items_set hv').mpr ⟨vs, map_read_of_replaced h keeps all, fits⟩

/-- A field takes from a rewritten argument what it takes from the argument. -/
theorem takes_rewritten {apart : Bool} (h : Rewrites apart f.shape x x')
    (keeps : ∀ w, read x f.shape = .ok w → read x' f.shape = .ok w) (u : Value)
    (takes : Takes f (some (argOf x)) u) : Takes f (some (argOf x')) u := by
  obtain ⟨⟨given, full⟩, given', full', -⟩ := h.given
  simp only [Takes, leavesAbsent, given, full, given', full', Bool.and_false, Bool.or_false,
    Bool.false_eq_true, ↓reduceIte] at takes ⊢
  exact keeps u takes

/-- What an argument becomes its rewriting becomes too. -/
theorem read_rewritten {apart : Bool} (h : Rewrites apart s v v') (made : read v s = .ok w) :
    read v' s = .ok w := by
  induction h generalizing w with
  | renamed hf hk hk' h one one' =>
    exact build_of_field hf hk hk' h one one' (fun _ => id) made
  | reselected hc hm given form form' h one one' =>
    exact build_of_selection hc hm form form' h one one' given given (fun _ => id) made
  | @taken e fs _ obtainable full =>
    have conforms := obtainable.sound.element e fs .self
    cases (read_of_conforms conforms).symm.trans made
    rw [← restored_of_full conforms full]
    exact build_restored conforms
  | field hf hk h one one' rewrites ih =>
    exact build_of_field hf hk hk h one one' (takes_rewritten rewrites fun _ => ih) made
  | selection hc hm form form' h one one' rewrites ih =>
    obtain ⟨⟨given, -⟩, given', -, fit⟩ := rewrites.given
    refine build_of_selection hc hm form form' h one one' given given' ?_ made
    rintro _ ⟨-, u, read, rfl⟩
    exact ⟨fit _, u, ih read, rfl⟩
  | tuple collection h _ ih => exact read_of_item rfl rfl collection h (fun _ => ih) made
  | list collection h _ ih => exact read_of_item rfl rfl collection h (fun _ => ih) made

/-! ### Elements -/

theorem readScalar_tuple (k : Kind) (xs : List Value) (w : Value) :
    readScalar k (.tuple xs) ≠ .ok w := by
  intro h
  cases k <;> cases h

/-- The fields of an element are no items of a collection. -/
theorem fields_eq_nil {fs : List (String × Value)} {k : Kind} {vs : List Value}
    (all : ((fieldReadings fs).map fun read => read k) = vs.map .ok) : fs = [] ∧ vs = [] := by
  cases fs with
  | nil => exact ⟨rfl, List.map_eq_nil_iff.mp all.symm⟩
  | cons entry fs =>
    cases vs with
    | nil => cases all
    | cons v vs =>
      have first := (List.cons.inj all).1
      exact absurd (Except.mapError_eq_ok.mp first) (readScalar_tuple k _ v)

/-- An element is an argument where an element is wanted. Without any fields it is one for a
collection too, that is then empty, and as its own fields it is none. -/
theorem read_element_cases {fs : List (String × Value)}
    (h : read (.element e fs) s = .ok w) :
    (∃ e', s = .one (.element e') ∧ e.isA e' = true ∧ w = .element e fs) ∨
      s.isCollection = true ∧ fs = [] ∧ w = .tuple [] ∧ ∀ w', read (.dict fs) s ≠ .ok w' := by
  have grounded (k : Kind) : ∀ read ∈ fieldReadings fs, Refusal.Grounded (read k) := by
    intro read hr
    obtain ⟨_, -, rfl⟩ := List.mem_map.mp hr
    exact Refusal.grounded_mapError_fault _
  cases s with
  | one k =>
    have made := Except.mapError_eq_ok.mp h
    cases k with
    | element e' =>
      refine .inl ⟨e', rfl, ?_⟩
      simp only [readScalar, readElement] at made
      split at made
      · next isA =>
        cases made
        exact ⟨isA, rfl⟩
      · cases made
    | _ => cases made
  | list k least most =>
    obtain ⟨vs, all, -, -, rfl⟩ := (readList_eq_ok (grounded k)).mp h
    obtain ⟨rfl, rfl⟩ := fields_eq_nil all
    exact .inr ⟨rfl, rfl, rfl, fun _ made => by cases made⟩
  | set k least most =>
    obtain ⟨vs, all, -, -, rfl⟩ := (readSet_eq_ok (grounded k)).mp h
    obtain ⟨rfl, rfl⟩ := fields_eq_nil all
    exact .inr ⟨rfl, rfl, rfl, fun _ made => by cases made⟩

/-- Rewritings of its arguments, one after the other, make the element that the arguments make. As
long as no elements are taken apart, they make nothing where the arguments make nothing. The fields
of an element make it again exactly if no optional collection of it is empty. Only where an element
is wanted can an element be taken apart: without any fields it is an argument for a collection as
well, and as its own fields it is not. -/
theorem build_rewritten (e : Element) (es es' : Keyed Value) :
    (∀ m, Relation.ReflTransGen (Rewrites true (.one (.element e))) (.dict es) (.dict es') →
        e.build es = .ok m → e.build es' = .ok m) ∧
      (∀ m, Relation.ReflTransGen (Rewrites false (.one (.element e))) (.dict es) (.dict es') →
        e.build es' = .ok m → e.build es = .ok m) ∧
      (∀ fs, Obtainable (fun _ _ => True) (.element e fs) → ∃ m, e.build fs = .ok m ∧
        (m.same (.element e fs) = true ↔ Full e fs) ∧ (Full e fs → m = .element e fs)) ∧
      ∀ fs s w, read (.element e fs) s = .ok w →
        (∃ e', s = .one (.element e') ∧ e.isA e' = true ∧ w = .element e fs) ∨
          s.isCollection = true ∧ fs = [] ∧ w = .tuple [] ∧ ∀ w', read (.dict fs) s ≠ .ok w' := by
  refine ⟨fun m steps made => ?_, fun m steps made => ?_, fun fs obtainable => ?_,
    fun fs s w => read_element_cases⟩
  · have keeps : ∀ v, Relation.ReflTransGen (Rewrites true (.one (.element e))) (.dict es) v →
        read v (.one (.element e)) = .ok m := by
      intro v steps
      induction steps with
      | refl => exact made
      | tail _ step ih => exact read_rewritten step ih
    exact keeps _ steps
  · have keeps : ∀ v, Relation.ReflTransGen (Rewrites false (.one (.element e))) v (.dict es') →
        read v (.one (.element e)) = .ok m := by
      intro v steps
      induction steps using Relation.ReflTransGen.head_induction_on with
      | refl => exact made
      | head step _ ih => exact read_rewritten step.symm ih
    exact keeps _ steps
  · have conforms := obtainable.sound.element e fs .self
    have same := restored_same_iff conforms
    exact ⟨_, build_restored conforms, same.1, same.2⟩

/-- A parameter set in which one parameter is switched on. -/
def switchedOn (id : String) (selection : String × Value) : Keyed Value :=
  [(id, .int 1), ("parameters", .list [.dict [("name", .text "p"), selection]])]

def switchedOnFields : List (String × Value) :=
  [("id", .int 1), ("parameters", .tuple
    [.element .parameter [("name", .text "p"), ("value", .choice "bool_value" (.bool true))]])]

theorem switchedOn_rewrites (apart : Bool) :
    Relation.ReflTransGen (Rewrites apart (.one (.element .parameterSet)))
      (.dict (switchedOn "id" ("boolValue", .bool true)))
      (.dict (switchedOn "parameterSetId" ("value", .tuple [.text "bool_value", .bool true]))) := by
  have asked : Unrepeated .parameterSet (switchedOn "id" ("boolValue", .bool true)) :=
    ⟨by decide, by decide, by decide⟩
  have renamed : Unrepeated .parameterSet (switchedOn "parameterSetId" ("boolValue", .bool true)) :=
    ⟨by decide, by decide, by decide⟩
  have reselected : Unrepeated .parameterSet
      (switchedOn "parameterSetId" ("value", .tuple [.text "bool_value", .bool true])) :=
    ⟨by decide, by decide, by decide⟩
  have byKey : Unrepeated .parameter [("name", .text "p"), ("boolValue", .bool true)] :=
    ⟨by decide, by decide, by decide⟩
  have tagged : Unrepeated .parameter
      [("name", .text "p"), ("value", .tuple [.text "bool_value", .bool true])] :=
    ⟨by decide, by decide, by decide⟩
  have set : Element.fields .parameterSet = [⟨"id", "parameterSetId", true, .one .uint16⟩,
      ⟨"parameters", "parameters", true, .set (.element .parameter) 1 32⟩] := rfl
  have member : (⟨"bool_value", "boolValue", .bool⟩ : Member) ∈ Group.parameterValue.members :=
    List.mem_cons_self
  have rename : Rewrites apart (.one (.element .parameterSet))
      (.dict (switchedOn "id" ("boolValue", .bool true)))
      (.dict (switchedOn "parameterSetId" ("boolValue", .bool true))) :=
    .renamed (set ▸ List.mem_cons_self) (.inr rfl) (.inl rfl) (.mk [] _) asked renamed
  have reselect : Rewrites apart (.one (.element .parameterSet))
      (.dict (switchedOn "parameterSetId" ("boolValue", .bool true)))
      (.dict (switchedOn "parameterSetId" ("value", .tuple [.text "bool_value", .bool true]))) := by
    refine .field (set ▸ List.mem_cons_of_mem _ List.mem_cons_self) (.inl rfl) (.mk [_] [])
      renamed reselected (.list rfl (.mk [] []) ?_)
    exact .reselected rfl member rfl .key .tuple (.mk [_] []) byKey tagged
  exact .tail (.single rename) reselect

end

theorem switchedOn_built :
    Element.build .parameterSet
        (switchedOn "parameterSetId" ("value", .tuple [.text "bool_value", .bool true])) =
        .ok (.element .parameterSet switchedOnFields) ∧
      Element.build .parameterSet (switchedOn "id" ("boolValue", .bool true)) =
        .ok (.element .parameterSet switchedOnFields) ∧
      Element.build .parameterSet switchedOnFields =
        .ok (.element .parameterSet switchedOnFields) := by
  have made : Element.build .parameterSet (switchedOn "id" ("boolValue", .bool true)) =
      .ok (.element .parameterSet switchedOnFields) := rfl
  have forms := @build_rewritten Url.ascii .parameterSet (switchedOn "id" ("boolValue", .bool true))
    (switchedOn "parameterSetId" ("value", .tuple [.text "bool_value", .bool true]))
  have rewritten := forms.1 _ (switchedOn_rewrites true) made
  refine ⟨rewritten, forms.2.1 _ (switchedOn_rewrites false) rewritten, ?_⟩
  have arguments : ∀ k x, (k, x) ∈ switchedOn "id" ("boolValue", .bool true) →
      Obtainable (fun _ _ => True) x := by
    intro k x hx
    simp only [switchedOn, List.mem_cons, Prod.mk.injEq, List.not_mem_nil, or_false] at hx
    rcases hx with ⟨-, rfl⟩ | ⟨-, rfl⟩
    · exact .int 1
    · refine .list fun y hy => ?_
      obtain rfl := List.mem_singleton.mp hy
      refine .dict fun k z hz => ?_
      simp only [List.mem_cons, Prod.mk.injEq, List.not_mem_nil, or_false] at hz
      rcases hz with ⟨-, rfl⟩ | ⟨-, rfl⟩
      · exact .text "p"
      · exact .bool true
  have full : Full .parameterSet switchedOnFields := by
    have mandatory : ∀ f ∈ Element.fields .parameterSet, f.required = true := by decide
    intro f hf optional
    rw [mandatory f hf] at optional
    cases optional
  obtain ⟨m, again, -, same⟩ := forms.2.2.1 switchedOnFields (.built trivial arguments made)
  rw [again, same full]

end Build

end V2G
