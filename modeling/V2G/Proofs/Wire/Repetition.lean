import V2G.Proofs.Wire.Arrangement

/-!
# Sets in documents

In an array that stands for a set neither the order of the items matters nor how often each of them
is given: documents that differ in nothing else are accepted alike, and stand for equal messages
(`parse_rearranged`). The rules of elements do not tell equal elements apart (`broken?_congr`).
-/

namespace V2G

/-! ### Distinct entries of alike lists -/

section

variable {reader : Url.Reader}

namespace Conforms

variable {k : Kind} {xs ys : List Value}

theorem exists_distinct (items : ∀ x ∈ xs, Conforms (.one k) x)
    (items' : ∀ y ∈ ys, Conforms (.one k) y) (there : ∀ x ∈ xs, ∃ y ∈ ys, x.same y = true) :
    ∀ x ∈ Value.distinct .structural xs, ∃ y ∈ Value.distinct .structural ys, x.same y = true := by
  intro x hx
  have hx := Value.mem_of_mem_distinct hx
  obtain ⟨y, hy, same⟩ := there x hx
  obtain ⟨z, hz, same'⟩ := Value.exists_mem_distinct (fun y hy => (items' y hy).same_self) hy
  exact ⟨z, hz, Value.equal_trans (items x hx).no_dict same same'⟩

theorem length_distinct_le (items : ∀ x ∈ xs, Conforms (.one k) x)
    (items' : ∀ y ∈ ys, Conforms (.one k) y) (there : ∀ x ∈ xs, ∃ y ∈ ys, x.same y = true) :
    (Value.distinct .structural xs).length ≤ (Value.distinct .structural ys).length := by
  have unlike := Build.unlike_distinct fun x hx => (items x hx).no_dict
  have apart := apart_of_unlike (fun x hx => items x (Value.mem_of_mem_distinct hx)) unlike
  obtain ⟨zs, sub, all⟩ := exists_matching apart (exists_distinct items items' there)
  rw [all.length_eq]
  exact sub.length_le

/-- Lists with equal entries have equal sets of distinct entries. -/
theorem alike_distinct (items : ∀ x ∈ xs, Conforms (.one k) x)
    (items' : ∀ y ∈ ys, Conforms (.one k) y) (there : ∀ x ∈ xs, ∃ y ∈ ys, x.same y = true)
    (back : ∀ y ∈ ys, ∃ x ∈ xs, x.same y = true) :
    (Value.tuple (Value.distinct .structural xs)).equal .unordered
      (.tuple (Value.distinct .structural ys)) = true := by
  have comm {x y : Value} (hy : y ∈ ys) (same : x.same y = true) : y.same x = true :=
    (Value.same_comm y x (items' y hy).no_dict).trans same
  have back : ∀ y ∈ ys, ∃ x ∈ xs, y.same x = true := by
    intro y hy
    obtain ⟨x, hx, same⟩ := back y hy
    exact ⟨x, hx, comm hy same⟩
  refine Value.equal_set_iff.mpr ⟨?_, exists_distinct items items' there, fun y hy => ?_⟩
  · exact Nat.le_antisymm (length_distinct_le items items' there)
      (length_distinct_le items' items back)
  · obtain ⟨x, hx, same⟩ := exists_distinct items' items back y hy
    exact ⟨x, hx,
      (Value.same_comm x y (items x (Value.mem_of_mem_distinct hx)).no_dict).trans same⟩

end Conforms

/-! ### Rules -/

/-- The texts in a collection. -/
def Value.texts (v : Value) : List String := (v.items?.getD []).filterMap Value.text?

/-- Two values between which no rule makes a difference. -/
structure Rule.Agree (v w : Value) : Prop where
  isNone : v.isNone = w.isNone
  text : v.text? = w.text?
  member : v.member? = w.member?
  int : v.intValue? = w.intValue?
  texts : ∀ t, t ∈ v.texts ↔ t ∈ w.texts

namespace Rule

theorem Agree.refl (v : Value) : Agree v v := ⟨rfl, rfl, rfl, rfl, fun _ => Iff.rfl⟩

theorem Agree.choice (m : String) (v w : Value) : Agree (.choice m v) (.choice m w) :=
  ⟨rfl, rfl, rfl, rfl, fun _ => Iff.rfl⟩

theorem Agree.tuple {xs ys zs : List Value} (h : List.Forall₂ Agree xs zs) (perm : zs.Perm ys) :
    Agree (.tuple xs) (.tuple ys) := by
  refine ⟨rfl, rfl, rfl, rfl, fun t => ?_⟩
  have same : xs.filterMap Value.text? = zs.filterMap Value.text? := by
    induction h generalizing ys with
    | nil => rfl
    | cons first _ ih => rw [List.filterMap_cons, List.filterMap_cons, first.text, ih (.refl _)]
  exact (same ▸ perm.filterMap Value.text?).mem_iff

theorem agree_of_alike {s : Shape} {v w : Value} (h : Conforms s v) (h' : Conforms s w)
    (alike : v.equal s.comparison w = true) : Agree v w :=
  Conforms.alike_induction (P := fun _ => Agree) (fun _ v _ => .refl v)
    (fun _ _ _ _ _ _ _ all => .tuple all (.refl _)) (fun _ _ _ _ _ _ _ _ => .tuple)
    (fun _ _ _ _ _ _ _ => ⟨rfl, rfl, rfl, rfl, fun _ => Iff.rfl⟩) h h' alike

/-- A rule is broken by both of two elements or by none, if it makes no difference between their
fields. -/
theorem broken?_congr {e : Element} {v w : Value}
    (h : ∀ name, Agree (v.field name) (w.field name)) :
    broken? e v = none ↔ broken? e w = none := by
  unfold broken?
  split
  · have offered (t : String) : (v.field "auth_services").texts.contains t =
        (w.field "auth_services").texts.contains t := by
      rw [Bool.eq_iff_iff, List.contains_iff_mem, List.contains_iff_mem]
      exact (h _).texts t
    unfold offeredService
    simp only [(h _).member]
    rw [← Value.texts, ← Value.texts, offered]
    split <;> simp
  · unfold selectedService
    simp only [(h _).member, (h _).text]
  · unfold pairedV2xLimits
    simp only [(h _).isNone]
  · unfold orderedSoc
    simp only [(h _).int]
  · unfold finishedMode Value.isThe
    simp only [(h _).isNone, (h _).text]
  · unfold startProfile Value.isThe
    simp only [(h _).isNone, (h _).text]
  · unfold fittingKey
    simp only [(h _).member, (h _).text]
  · exact Iff.rfl

end Rule

end

namespace Wire

/-- The same items, in whatever order and however often. -/
def SameItems (js js' : List Json) : Prop := ∀ j, j ∈ js ↔ j ∈ js'

theorem SameItems.refl (js : List Json) : SameItems js js := fun _ => Iff.rfl

theorem SameItems.symm {js js' : List Json} (h : SameItems js js') : SameItems js' js :=
  fun j => (h j).symm

theorem SameItems.eq_nil_iff {js js' : List Json} (h : SameItems js js') : js = [] ↔ js' = [] := by
  rw [List.eq_nil_iff_forall_not_mem, List.eq_nil_iff_forall_not_mem]
  exact forall_congr' fun j => not_congr (h j)

/-! ### Documents that differ in sets only -/

namespace Rearranged

variable {P : List Json → List Json → Prop} {s : Shape} {j j' : Json}

theorem symm (sym : ∀ {js js'}, P js js' → P js' js) (h : Rearranged P s j j') :
    Rearranged P s j' j := by
  have swap {k : Kind} {js js' : List Json} (length : js.length = js'.length)
      (ih : ∀ p ∈ js.zip js', Rearranged P (.one k) p.2 p.1) :
      js'.length = js.length ∧ ∀ p ∈ js'.zip js, Rearranged P (.one k) p.1 p.2 := by
    have all : List.Forall₂ (flip (Rearranged P (.one k))) js js' :=
      List.forall₂_iff_zip.mpr ⟨length, fun h => ih _ h⟩
    exact zip_iff.mpr all.flip
  induction h with
  | same => exact .same
  | list length _ ih => exact .list (swap length ih).1 (swap length ih).2
  | set before length _ after ih =>
    exact .set (sym after) (swap length ih).1 (swap length ih).2 (sym before)
  | object keys unknown _ _ ihf ihm =>
    exact .object keys.symm (fun k hk => (unknown k hk).symm)
      (fun f hf j j' hj hj' => ihf f hf j' j hj' hj) fun m hm j j' hj hj' => ihm m hm j' j hj' hj

theorem isNull_eq (h : Rearranged P s j j') : j.isNull = j'.isNull := by
  cases h <;> rfl

theorem isDropped_eq {f : Field} (h : Rearranged SameItems f.shape j j') :
    isDropped f j = isDropped f j' := by
  unfold isDropped
  congr 1
  generalize f.shape = s at h
  cases h with
  | same => rfl
  | @list k least most js js' length => cases js <;> cases js' <;> first | rfl | cases length
  | @set k least most js js₁ js₂ js' before length _ after =>
    have empty : js = [] ↔ js' = [] := by
      rw [before.eq_nil_iff, ← after.eq_nil_iff, ← List.length_eq_zero_iff, length,
        List.length_eq_zero_iff]
    cases js <;> cases js' <;> simp_all
  | object => rfl

/-- The same keys are given in two objects, with documents that differ in sets only. -/
theorem member?_cases {ms ms' : Keyed Json} {key : String} (keys : ms.keys = ms'.keys)
    (entry : ∀ j j', Keyed.get? ms key = some j → Keyed.get? ms' key = some j' →
      Rearranged P s j j') :
    (member? ms key = none ∧ member? ms' key = none) ∨ ∃ j j', Keyed.get? ms key = some j ∧
      Keyed.get? ms' key = some j' ∧ member? ms key = some j ∧ member? ms' key = some j' := by
  have absent : Keyed.get? ms key = none ↔ Keyed.get? ms' key = none := by
    rw [Keyed.get?_eq_none_iff, Keyed.get?_eq_none_iff, keys]
  unfold member?
  cases hj : Keyed.get? ms key with
  | none => rw [absent.mp hj]; exact .inl ⟨rfl, rfl⟩
  | some j =>
    cases hj' : Keyed.get? ms' key with
    | none => rw [absent.mpr hj'] at hj; cases hj
    | some j' =>
      have null := (entry j j' hj hj').isNull_eq
      cases h : j'.isNull with
      | true => exact .inl ⟨by simp [Option.filter, null, h], by simp [Option.filter, h]⟩
      | false =>
        exact .inr ⟨j, j', rfl, rfl, by simp [Option.filter, null, h], by simp [Option.filter, h]⟩

end Rearranged

/-! ### What they are read as -/

variable {strict : Bool}

section

variable [reader : Url.Reader]

/-- A valid document may be replaced by another one, which stands for an equal value. -/
def Replaces (strict : Bool) (s : Shape) (j j' : Json) : Prop :=
  Valid strict s j → Valid strict s j' ∧ (denote j s).equal s.comparison (denote j' s) = true

variable {reader}

theorem items_replaced {k : Kind} {js js' : List Json}
    (h : List.Forall₂ (Replaces strict (.one k)) js js')
    (valid : ∀ j ∈ js, Valid strict (.one k) j) :
    (∀ j ∈ js', Valid strict (.one k) j) ∧
      List.Forall₂ (fun j j' => (denote j (.one k)).same (denote j' (.one k)) = true) js js' := by
  have all := forall₂_imp_of_mem h fun j hj j' _ replaces => replaces (valid j hj)
  refine ⟨fun j' hj' => ?_, all.imp fun j j' both => both.2⟩
  obtain ⟨j, -, both⟩ := (exists_of_forall₂ all).2 j' hj'
  exact both.1

theorem list_replaced {k : Kind} {least most : Nat} {js js' : List Json}
    (h : List.Forall₂ (Replaces strict (.one k)) js js') :
    Replaces strict (.list k least most) (.arr js) (.arr js') := by
  intro valid
  cases valid with
  | list valid enough few =>
    obtain ⟨valid', same⟩ := items_replaced h valid
    refine ⟨.list valid' (h.length_eq ▸ enough) (h.length_eq ▸ few), ?_⟩
    rw [denote_list, denote_list]
    refine Value.equal_list_iff.mpr ?_
    rwa [List.forall₂_map_left_iff, List.forall₂_map_right_iff]

theorem set_replaced {k : Kind} {least most : Nat} {js js₁ js₂ js' : List Json}
    (before : SameItems js js₁) (h : List.Forall₂ (Replaces strict (.one k)) js₁ js₂)
    (after : SameItems js₂ js') (small : least ≤ 1) :
    Replaces strict (.set k least most) (.arr js) (.arr js') := by
  intro valid
  cases valid with
  | set valid enough few =>
    obtain ⟨valid₂, same⟩ := items_replaced h fun j hj => valid j ((before j).mpr hj)
    have valid' : ∀ j ∈ js', Valid strict (.one k) j := fun j hj => valid₂ j ((after j).mpr hj)
    have conforms {js : List Json} (valid : ∀ j ∈ js, Valid strict (.one k) j) :
        ∀ x ∈ js.map (denote · (.one k)), Conforms (.one k) x :=
      List.forall_mem_map.mpr fun j hj => conforms_denote (valid j hj) nofun
    have alike : (denote (.arr js) (.set k least most)).equal .unordered
        (denote (.arr js') (.set k least most)) = true := by
      rw [denote_set, denote_set]
      refine Conforms.alike_distinct (conforms valid) (conforms valid')
        (List.forall_mem_map.mpr fun j hj => ?_) (List.forall_mem_map.mpr fun j' hj' => ?_)
      · obtain ⟨j', hj', same⟩ := (exists_of_forall₂ same).1 j ((before j).mp hj)
        exact ⟨_, List.mem_map_of_mem ((after j').mp hj'), same⟩
      · obtain ⟨j, hj, same⟩ := (exists_of_forall₂ same).2 j' ((after j').mpr hj')
        exact ⟨_, List.mem_map_of_mem ((before j).mpr hj), same⟩
    -- The least number counts all items, so that it is only as small as it is that repetition
    -- makes no difference to it. The greatest counts distinct values.
    refine ⟨.set valid' ?_ ?_, alike⟩
    · have given : js = [] ↔ js' = [] := by
        rw [before.eq_nil_iff, ← after.eq_nil_iff, ← List.length_eq_zero_iff, h.length_eq,
          List.length_eq_zero_iff]
      cases js with
      | nil => exact given.mp rfl ▸ enough
      | cons j js =>
        cases js' with
        | nil => cases given.mpr rfl
        | cons j' js' =>
          rw [List.length_cons]
          omega
    · rw [denote_set, denote_set, Value.equal_set_iff] at alike
      exact alike.1 ▸ few

section Objects

variable {e : Element} {ms ms' : Keyed Json}

theorem chosen_congr {g : Group} (h : ∀ m ∈ g.members,
    (member? ms m.key).isSome = (member? ms' m.key).isSome) : chosen g ms = chosen g ms' :=
  List.filter_congr h

theorem fieldOf_of_there {f : Field} {j : Json} (h : member? ms f.key = some j) :
    fieldOf ms f = if isDropped f j then .none else denote j f.shape := by
  rw [fieldOf, h]

theorem field_replaced {f : Field} (hf : f ∈ e.fields) (keys : ms.keys = ms'.keys)
    (entry : ∀ j j', Keyed.get? ms f.key = some j → Keyed.get? ms' f.key = some j' →
      Rearranged SameItems f.shape j j' ∧ Replaces strict f.shape j j')
    (valid : ∀ j, member? ms f.key = some j → Valid strict f.shape j) :
    (member? ms f.key = none ↔ member? ms' f.key = none) ∧
      (∀ j, member? ms' f.key = some j → Valid strict f.shape j) ∧
      (fieldOf ms f).equal f.shape.comparison (fieldOf ms' f) = true ∧
      Rule.Agree (fieldOf ms f) (fieldOf ms' f) := by
  rcases Rearranged.member?_cases keys fun j j' hj hj' => (entry j j' hj hj').1 with
    ⟨none, none'⟩ | ⟨j, j', hj, hj', there, there'⟩
  · rw [fieldOf, fieldOf, none, none']
    exact ⟨Iff.rfl, by rintro _ ⟨⟩, rfl, .refl _⟩
  · obtain ⟨rearranged, replaces⟩ := entry j j' hj hj'
    obtain ⟨valid', alike⟩ := replaces (valid j there)
    refine ⟨by simp [there, there'], fun x hx => ?_, ?_⟩
    · rw [there', Option.some.injEq] at hx
      exact hx ▸ valid'
    · rw [fieldOf_of_there there, fieldOf_of_there there', rearranged.isDropped_eq]
      cases isDropped f j' with
      | true => exact ⟨rfl, .refl _⟩
      | false =>
        have conforms := conforms_denote (valid j there) (Element.least_of_set hf)
        have conforms' := conforms_denote valid' (Element.least_of_set hf)
        exact ⟨alike, Rule.agree_of_alike conforms conforms' alike⟩

theorem choice_replaced {g : Group} (keys : ms.keys = ms'.keys)
    (entry : ∀ m ∈ g.members, ∀ j j', Keyed.get? ms m.key = some j →
      Keyed.get? ms' m.key = some j' →
      Rearranged SameItems (.one m.kind) j j' ∧ Replaces strict (.one m.kind) j j')
    (valid : ∀ m ∈ g.members, ∀ j, member? ms m.key = some j → Valid strict (.one m.kind) j) :
    chosen g ms = chosen g ms' ∧
      (∀ m ∈ g.members, ∀ j, member? ms' m.key = some j → Valid strict (.one m.kind) j) ∧
      (choiceOf g ms).same (choiceOf g ms') = true ∧
      Rule.Agree (choiceOf g ms) (choiceOf g ms') := by
  have cases (m : Member) (hm : m ∈ g.members) :=
    Rearranged.member?_cases keys fun j j' hj hj' => (entry m hm j j' hj hj').1
  have replaced (m : Member) (hm : m ∈ g.members) (j' : Json) (hj' : member? ms' m.key = some j') :
      ∃ j, member? ms m.key = some j ∧ Valid strict (.one m.kind) j' ∧
        (denote j (.one m.kind)).same (denote j' (.one m.kind)) = true := by
    rcases cases m hm with ⟨-, none'⟩ | ⟨j, x, hj, hx, there, there'⟩
    · rw [none'] at hj'
      cases hj'
    · cases there'.symm.trans hj'
      exact ⟨j, there, (entry m hm j j' hj hx).2 (valid m hm j there)⟩
  have same : chosen g ms = chosen g ms' := by
    refine chosen_congr fun m hm => ?_
    rcases cases m hm with ⟨none, none'⟩ | ⟨_, _, -, -, there, there'⟩
    · rw [none, none']
    · rw [there, there']
      rfl
  refine ⟨same, fun m hm j' hj' => ?_, ?_⟩
  · obtain ⟨_, -, valid', -⟩ := replaced m hm j' hj'
    exact valid'
  · rcases choiceOf_cases g ms with ⟨none, value⟩ | ⟨m, rest, j, one, there, value⟩
    · rcases choiceOf_cases g ms' with ⟨-, value'⟩ | ⟨m', rest', j', one', -, -⟩
      · rw [value, value']
        exact ⟨rfl, .refl _⟩
      · rw [← same, none] at one'
        cases one'
    · rcases choiceOf_cases g ms' with ⟨none', -⟩ | ⟨m', rest', j', one', there', value'⟩
      · rw [← same, one] at none'
        cases none'
      · rw [← same, one] at one'
        cases one'
        obtain ⟨x, hx, -, alike⟩ := replaced m (mem_of_chosen one) j' there'
        cases there.symm.trans hx
        rw [value, value', Value.same_choice_iff]
        exact ⟨⟨rfl, alike⟩, .choice _ _ _⟩

/-- An object may be replaced by one with the same keys, if what stands under each key may be. -/
theorem object_replaced (keys : ms.keys = ms'.keys)
    (fields : ∀ f ∈ e.fields, ∀ j j', Keyed.get? ms f.key = some j →
      Keyed.get? ms' f.key = some j' →
      Rearranged SameItems f.shape j j' ∧ Replaces strict f.shape j j')
    (members : ∀ m ∈ e.members, ∀ j j', Keyed.get? ms m.key = some j →
      Keyed.get? ms' m.key = some j' →
      Rearranged SameItems (.one m.kind) j j' ∧ Replaces strict (.one m.kind) j j') :
    Replaces strict (.one (.element e)) (.obj ms) (.obj ms') := by
  intro valid
  cases valid with
  | scalar accepts => exact accepts.elim
  | object mandatory validFields count validMembers known rule =>
    have field := fun f hf => field_replaced hf keys (fields f hf) (validFields f hf)
    have choice := fun c hc => choice_replaced (g := c.group) keys
      (fun m hm => members m (Element.members_eq hc ▸ hm)) fun m hm j => validMembers c m j hc hm
    -- That the second object is valid takes its rule, which is known of the first one only.
    have alike : (denote (.obj ms) (.one (.element e))).same
        (denote (.obj ms') (.one (.element e))) = true := by
      rw [denote_obj, denote_obj]
      refine Value.equal_element_iff.mpr ⟨fun f hf => ?_, fun c hc => ?_⟩
      · rw [field_entriesOf hf, field_entriesOf hf]
        exact (field f hf).2.2.1
      · rw [choice_entriesOf hc, choice_entriesOf hc]
        exact (choice c hc).2.2.1
    refine ⟨.object (fun f hf required => ?_) (fun f hf => (field f hf).2.1) (fun c hc => ?_)
      (fun c m j hc hm => (choice c hc).2.1 m hm j) (keys ▸ known) ?_, alike⟩
    · exact mt (field f hf).1.mpr (mandatory f hf required)
    · exact (choice c hc).1 ▸ count c hc
    · rw [denote_obj] at rule ⊢
      refine (Rule.broken?_congr fun name => ?_).mp rule
      by_cases slot : name ∈ e.slots.map (·.1)
      · rcases Element.mem_slotNames.mp slot with ⟨f, hf, rfl⟩ | ⟨c, hc, rfl⟩
        · rw [field_entriesOf hf, field_entriesOf hf]
          exact (field f hf).2.2.2
        · rw [choice_entriesOf hc, choice_entriesOf hc]
          exact (choice c hc).2.2.2
      · rw [Value.field_of_not_mem (keys_entriesOf e) slot,
          Value.field_of_not_mem (keys_entriesOf e) slot]
        exact .refl _

end Objects

theorem replaces_of_rearranged {s : Shape} {j j' : Json} (h : Rearranged SameItems s j j')
    (small : s.isUnordered = true → s.least ≤ 1) : Replaces strict s j j' := by
  induction h with
  | same => exact fun valid => ⟨valid, (conforms_denote valid small).equal_self _⟩
  | list length _ ih =>
    exact list_replaced (List.forall₂_iff_zip.mpr ⟨length, fun h => ih _ h nofun⟩)
  | set before length _ after ih =>
    exact set_replaced before (List.forall₂_iff_zip.mpr ⟨length, fun h => ih _ h nofun⟩) after
      (small rfl)
  | object keys _ fields members ihf ihm =>
    refine object_replaced keys (fun f hf j j' hj hj' => ?_) fun m hm j j' hj hj' => ?_
    · exact ⟨fields f hf j j' hj hj', ihf f hf j j' hj hj' (Element.least_of_set hf)⟩
    · exact ⟨members m hm j j' hj hj', ihm m hm j j' hj hj' nofun⟩

/-! ### Parsing -/

/-- Of two documents that differ in the order of sets and in how often their entries are given,
both are parsed or none is, and the messages are equal and have the same hash. -/
theorem parse_rearranged {e : Element} {j j' : Json}
    (h : Rearranged SameItems (.one (.element e)) j j') (s : Settings) {H : Type} {d : Digest H}
    (lawful : d.Lawful) :
    ((∃ m, (Codec.plain.parse s e j).outcome = .ok m) ↔
        ∃ m, (Codec.plain.parse s e j').outcome = .ok m) ∧
      ∀ m m', (Codec.plain.parse s e j).outcome = .ok m →
        (Codec.plain.parse s e j').outcome = .ok m' →
        m.same m' = true ∧ ∃ h, m.hash d false = .ok h ∧ m'.hash d false = .ok h := by
  have there : Replaces s.rejectUnknown (.one (.element e)) j j' := replaces_of_rearranged h nofun
  have back : Replaces s.rejectUnknown (.one (.element e)) j' j :=
    replaces_of_rearranged (h.symm SameItems.symm) nofun
  refine ⟨?_, fun m m' parsed parsed' => ?_⟩
  · simp only [parse_eq_ok, exists_and_left, exists_eq, and_true]
    exact ⟨fun valid => (there valid).1, fun valid => (back valid).1⟩
  · obtain ⟨valid, rfl⟩ := parse_eq_ok.mp parsed
    obtain ⟨valid', rfl⟩ := parse_eq_ok.mp parsed'
    have same := (there valid).2
    have conforms := conforms_denote valid nofun
    exact ⟨same, conforms.hash_alike lawful (conforms_denote valid' nofun) same⟩

end

theorem rearranged_services {ids ids' : List Int} (same : ∀ n, n ∈ ids ↔ n ∈ ids') :
    Rearranged SameItems (.one (.element .serviceDiscoveryReq)) (servicesDocument ids)
      (servicesDocument ids') := by
  have fields : ∀ f ∈ Element.fields .serviceDiscoveryReq,
      f = ⟨"header", "messageHeader", true, .one (.element .messageHeader)⟩ ∨
        f = ⟨"supported_service_ids", "supportedServiceIds", false, .set .uint16 0 16⟩ := by
    decide
  have known : "supportedServiceIds" ∈ Element.keys .serviceDiscoveryReq := by decide
  have set : Rearranged SameItems (.set .uint16 0 16) (.arr (ids.map .int))
      (.arr (ids'.map .int)) := by
    refine (Rearranged.set_iff .refl).mpr
      ⟨_, _, .refl _, List.forall₂_same.mpr fun _ _ => .same, fun j => ?_⟩
    simp only [List.mem_map, same]
  let header : Json := .obj [("sessionId", .str "AB"), ("timestamp", .int 1)]
  have first (ids : Json) :
      Keyed.get? [("messageHeader", header), ("supportedServiceIds", ids)] "messageHeader" =
        some header := if_pos rfl
  have second (ids : Json) :
      Keyed.get? [("messageHeader", header), ("supportedServiceIds", ids)] "supportedServiceIds" =
        some ids := rfl
  have other (ids : Json) {k : String} (h : k ≠ "supportedServiceIds") :
      Keyed.get? [("messageHeader", header), ("supportedServiceIds", ids)] k =
        if "messageHeader" = k then some header else none := by
    rw [Keyed.get?, Keyed.get?, if_neg h.symm, Keyed.get?]
  unfold servicesDocument
  refine .object rfl (fun k unknown => ?_) (fun f hf j j' hj hj' => ?_) fun m hm => ?_
  · have apart : k ≠ "supportedServiceIds" := fun same => unknown (same ▸ known)
    rw [other _ apart, other _ apart]
  · rcases fields f hf with rfl | rfl
    · rw [first, Option.some.injEq] at hj hj'
      subst hj hj'
      exact .same
    · rw [second, Option.some.injEq] at hj hj'
      subst hj hj'
      exact set
  · cases hm

theorem repeated_services_parsed : ∃ m m',
    (Codec.plain.parse {} .serviceDiscoveryReq (servicesDocument [1, 2])).outcome = .ok m ∧
      (Codec.plain.parse {} .serviceDiscoveryReq
        (servicesDocument (List.replicate 20 [2, 1]).flatten)).outcome = .ok m' ∧
      m.same m' = true ∧
      ∃ h, m.hash Digest.bits64 false = .ok h ∧ m'.hash Digest.bits64 false = .ok h := by
  have items : ∀ n : Int, n ∈ [1, 2] ↔ n ∈ (List.replicate 20 [2, 1]).flatten := by
    intro n
    simp only [List.mem_flatten, List.mem_replicate, List.mem_cons, List.not_mem_nil, or_false]
    constructor
    · intro h
      refine ⟨_, ⟨by decide, rfl⟩, ?_⟩
      simp only [List.mem_cons, List.not_mem_nil, or_false]
      omega
    · rintro ⟨_, ⟨-, rfl⟩, h⟩
      simp only [List.mem_cons, List.not_mem_nil, or_false] at h
      omega
  have parsed : (Codec.plain.parse {} .serviceDiscoveryReq (servicesDocument [1, 2])).outcome =
      .ok (.element .serviceDiscoveryReq (services [1, 2])) := rfl
  obtain ⟨both, same⟩ := parse_rearranged (rearranged_services items) {} Digest.lawful_bits64
  obtain ⟨m', parsed'⟩ := both.mp ⟨_, parsed⟩
  exact ⟨_, m', parsed, parsed', same _ _ parsed parsed'⟩

end Wire

end V2G
