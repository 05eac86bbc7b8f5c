import V2G.Proofs.Build.Lookup

/-!
# Arguments by key

Elements from arguments that stand under the keys of the declaration, as the members of a document
do. Each field finds its own argument and no other, and the selection is the one member whose key
is given (`build_of_known`); in particular where the arguments are given in the order of the wire
form, as those that are read from a document are (`build_inOrder`).
-/

namespace V2G

namespace Element

section InOrder

variable {α : Type} {e : Element} {field : Field → Option α} {member : Member → Option α}

/-- What is there for the fields and members of an element, each under its key, in the order of
the wire form. -/
def inOrder (e : Element) (field : Field → Option α) (member : Member → Option α) : Keyed α :=
  (e.mandatoryFields ++ e.optionalFields).filterMap (fun f => (field f).map (f.key, ·)) ++
    e.members.filterMap fun m => (member m).map (m.key, ·)

theorem mem_orderedFields {f : Field} :
    f ∈ e.mandatoryFields ++ e.optionalFields ↔ f ∈ e.fields := by
  cases h : f.required <;> simp [mandatoryFields, optionalFields, h]

theorem orderedKeys_perm (e : Element) :
    ((e.mandatoryFields ++ e.optionalFields).map (·.key)).Perm (e.fields.map (·.key)) :=
  (List.filter_append_perm _ _).map _

theorem get?_inOrder_field {f : Field} (hf : f ∈ e.fields) :
    Keyed.get? (e.inOrder field member) f.key = field f := by
  have nodup : ((e.mandatoryFields ++ e.optionalFields).map (·.key)).Nodup :=
    e.orderedKeys_perm.nodup_iff.mpr (List.nodup_append.mp e.keys_nodup).1
  have apart : f.key ∉ e.members.map (·.key) := by
    rintro h
    obtain ⟨m, hm, key⟩ := List.mem_map.mp h
    exact key_ne_memberKey hf hm key.symm
  rw [inOrder, Keyed.get?_append, Keyed.get?_filterMap nodup (mem_orderedFields.mpr hf),
    Keyed.get?_filterMap_of_not_mem apart, Option.or_none]

theorem get?_inOrder_member {m : Member} (hm : m ∈ e.members) :
    Keyed.get? (e.inOrder field member) m.key = member m := by
  have apart : m.key ∉ (e.mandatoryFields ++ e.optionalFields).map (·.key) := by
    rintro h
    obtain ⟨f, hf, key⟩ := List.mem_map.mp h
    exact key_ne_memberKey (mem_orderedFields.mp hf) hm key
  rw [inOrder, Keyed.get?_append, Keyed.get?_filterMap_of_not_mem apart, Option.none_or,
    Keyed.get?_filterMap (List.nodup_append.mp e.keys_nodup).2.1 hm]

theorem mem_inOrder {k : String} {x : α} (h : (k, x) ∈ e.inOrder field member) :
    (∃ f ∈ e.fields, k = f.key ∧ field f = some x) ∨
      ∃ m ∈ e.members, k = m.key ∧ member m = some x := by
  rcases List.mem_append.mp h with h | h
  · obtain ⟨f, hf, hx⟩ := List.mem_filterMap.mp h
    obtain ⟨_, hx, e⟩ := Option.map_eq_some_iff.mp hx
    cases e
    exact .inl ⟨f, mem_orderedFields.mp hf, rfl, hx⟩
  · obtain ⟨m, hm, hx⟩ := List.mem_filterMap.mp h
    obtain ⟨_, hx, e⟩ := Option.map_eq_some_iff.mp hx
    cases e
    exact .inr ⟨m, hm, rfl, hx⟩

theorem mem_keys_of_inOrder {k : String} (h : k ∈ (e.inOrder field member).keys) : k ∈ e.keys := by
  obtain ⟨⟨_, x⟩, hx, rfl⟩ := List.mem_map.mp h
  rcases mem_inOrder hx with ⟨f, hf, key, -⟩ | ⟨m, hm, key, -⟩
  · exact List.mem_append_left _ (List.mem_map.mpr ⟨f, hf, key.symm⟩)
  · exact List.mem_append_right _ (List.mem_map.mpr ⟨m, hm, key.symm⟩)

theorem keys_inOrder (e : Element) (field : Field → Option α) (member : Member → Option α) :
    (e.inOrder field member).keys =
      ((e.mandatoryFields ++ e.optionalFields).filter fun f => (field f).isSome).map (·.key) ++
        (e.members.filter fun m => (member m).isSome).map (·.key) := by
  rw [inOrder, Keyed.keys_append, Keyed.keys_filterMap, Keyed.keys_filterMap]

theorem keys_inOrder_nodup (e : Element) (field : Field → Option α) (member : Member → Option α) :
    (e.inOrder field member).keys.Nodup := by
  have keys : ((e.mandatoryFields ++ e.optionalFields).map (·.key) ++
      e.members.map (·.key)).Nodup :=
    (e.orderedKeys_perm.append_right _).nodup_iff.mpr e.keys_nodup
  rw [keys_inOrder]
  exact keys.sublist ((List.filter_sublist.map _).append (List.filter_sublist.map _))

theorem inOrder_congr {field' : Field → Option α} {member' : Member → Option α}
    (hf : ∀ f ∈ e.fields, field f = field' f) (hm : ∀ m ∈ e.members, member m = member' m) :
    e.inOrder field member = e.inOrder field' member' := by
  unfold inOrder
  congr 1
  · exact List.filterMap_congr fun f h => by rw [hf f (mem_orderedFields.mp h)]
  · exact List.filterMap_congr fun m h => by rw [hm m h]

end InOrder

end Element

variable {reader : Url.Reader}

namespace Build

/-! ### Arguments that all stand under keys -/

section Known

variable {e : Element} {es : Keyed Value} (known : ∀ k ∈ es.keys, k ∈ e.keys)
include known

theorem present?_of_unknown {k : String} (h : k ∉ e.keys) : present? es k = none := by
  rw [present?, Keyed.get?_eq_none_iff.mpr fun there => h (known k there), Option.filter_none]

theorem once_of_known : ∀ m ∈ e.members, GivenOnce es m :=
  fun _ hm => .inl (present?_of_unknown known (Element.memberName_not_mem_keys hm))

theorem memberArg?_of_known {m : Member} (hm : m ∈ e.members) :
    memberArg? es m = present? es m.key := by
  rw [memberArg?, present?_of_unknown known (Element.memberName_not_mem_keys hm), Option.none_or]

theorem fieldArg?_of_known {f : Field} (hf : f ∈ e.fields) :
    fieldArg? es f = (Keyed.get? es f.key).map (f.key, ·) := by
  unfold fieldArg?
  cases own : Keyed.get? es f.key with
  | some v => rfl
  | none =>
    have absent : Keyed.get? es f.name = none := by
      by_cases key : f.name ∈ e.keys
      · rw [Element.name_eq_key hf key, own]
      · exact Keyed.get?_eq_none_iff.mpr fun there => key (known _ there)
    rw [absent]
    rfl

/-- The selection is made among the members whose keys are given. -/
theorem resolves_of_known {c : ChoiceField} (hc : e.choice = some c) {v : Value} :
    Resolves c es v ↔ Chosen c.group (fun m => present? es m.key) v := by
  rw [Resolves, present?_of_unknown known (Element.choiceName_not_mem_keys hc)]
  exact chosen_congr fun m hm => memberArg?_of_known known (Element.members_eq hc ▸ hm)

/-- Every argument is taken by a field, or speaks of the selection. -/
theorem taken_of_known : ∀ k ∈ es.keys, k ∈ e.selectors ∨
    ∃ f ∈ e.fields, (fieldArg? es f).map (·.1) = some k := by
  intro k hk
  rcases List.mem_append.mp (known k hk) with key | key
  · obtain ⟨f, hf, rfl⟩ := List.mem_map.mp key
    obtain ⟨v, hv⟩ := Option.ne_none_iff_exists'.mp (mt Keyed.get?_eq_none_iff.mp (not_not.mpr hk))
    exact .inr ⟨f, hf, by rw [fieldArg?_of_known known hf, hv]; rfl⟩
  · obtain ⟨m, hm, rfl⟩ := List.mem_map.mp key
    exact .inl (Element.mem_selectors.mpr (.inl ⟨m, hm, .inr rfl⟩))

/-- What arguments by key make: the values of the fields come from the arguments under their
keys, the selection from the member whose key is given. -/
theorem build_of_known {v : Value} : e.build es = .ok v ↔ ∃ fs, v = .element e fs ∧
    Keyed.keys fs = e.slots.map (·.1) ∧
    (∀ f ∈ e.fields,
      Takes f ((Keyed.get? es f.key).map argOf) ((Value.element e fs).field f.name)) ∧
    (∀ c, e.choice = some c →
      Chosen c.group (fun m => present? es m.key) ((Value.element e fs).field c.name)) ∧
    Rule.broken? e (.element e fs) = none := by
  rw [build_eq_ok]
  refine exists_congr fun fs => and_congr_right fun _ => and_congr_right fun _ => ?_
  have fields : (∀ f ∈ e.fields, Takes f ((fieldArg? es f).map (argOf ·.2))
      ((Value.element e fs).field f.name)) ↔ ∀ f ∈ e.fields,
        Takes f ((Keyed.get? es f.key).map argOf) ((Value.element e fs).field f.name) := by
    refine forall₂_congr fun f hf => ?_
    rw [fieldArg?_of_known known hf, Option.map_map]
    rfl
  have choice : (∀ c, e.choice = some c →
      Resolves c es ((Value.element e fs).field c.name)) ↔ ∀ c, e.choice = some c →
        Chosen c.group (fun m => present? es m.key) ((Value.element e fs).field c.name) :=
    forall₂_congr fun c hc => resolves_of_known known hc
  rw [fields, choice]
  exact ⟨fun h => ⟨h.1, h.2.2.1, h.2.2.2.2⟩,
    fun h => ⟨h.1, once_of_known known, h.2.1, taken_of_known known, h.2.2⟩⟩

end Known

/-! ### Arguments in the order of the wire form -/

section InOrder

variable {e : Element} {field : Field → Option Value} {member : Member → Option Value}

/-- Everything that is given is something. -/
def There (field : Field → Option Value) (member : Member → Option Value) : Prop :=
  (∀ f v, field f = some v → v.isNone = false) ∧ ∀ m v, member m = some v → v.isNone = false

theorem known_inOrder : ∀ k ∈ (e.inOrder field member).keys, k ∈ e.keys :=
  fun _ => Element.mem_keys_of_inOrder

theorem present?_inOrder (there : There field member) {m : Member} (hm : m ∈ e.members) :
    present? (e.inOrder field member) m.key = member m := by
  rw [present?, Element.get?_inOrder_member hm]
  cases given : member m with
  | none => rfl
  | some v => simp [Option.filter, there.2 m v given]

theorem argument?_inOrder {f : Field} (hf : f ∈ e.fields) :
    argument? (readChoice e (arguments (e.inOrder field member))).2 f =
      (field f).map fun v => (f.key, argOf v) := by
  rw [argument?_arguments (once_of_known known_inOrder) hf, fieldArg?_of_known known_inOrder hf,
    Element.get?_inOrder_field hf, Option.map_map]
  rfl

theorem resolve_inOrder {c : ChoiceField} (hc : e.choice = some c) :
    (c.group.resolve c.name (arguments (e.inOrder field member))).1 =
      c.group.resolveFound (found c.group (e.inOrder field member)) := by
  rw [resolve_arguments hc (once_of_known known_inOrder),
    present?_of_unknown known_inOrder (Element.choiceName_not_mem_keys hc)]

theorem resolves_inOrder (there : There field member) {c : ChoiceField} (hc : e.choice = some c)
    {v : Value} : Resolves c (e.inOrder field member) v ↔ Chosen c.group member v :=
  (resolves_of_known known_inOrder hc).trans
    (chosen_congr fun _ hm => present?_inOrder there (Element.members_eq hc ▸ hm))

/-- The members that are given are found, each with what its value becomes. -/
theorem found_inOrder (there : There field member) {c : ChoiceField} (hc : e.choice = some c) :
    (found c.group (e.inOrder field member)).map (·.1) =
        (c.group.members.filter fun m => (member m).isSome) ∧
      c.group.chosenKeys (found c.group (e.inOrder field member)) =
        (c.group.members.filter fun m => (member m).isSome).map (·.key) ∧
      ∀ p ∈ found c.group (e.inOrder field member), p.1 ∈ c.group.members ∧
        ∃ x, member p.1 = some x ∧ p.2 = (argOf x).given := by
  have given (m : Member) (hm : m ∈ c.group.members) :
      memberArg? (e.inOrder field member) m = member m := by
    have hm : m ∈ e.members := Element.members_eq hc ▸ hm
    rw [memberArg?_of_known known_inOrder hm, present?_inOrder there hm]
  have same : (c.group.members.filter fun m => (memberArg? (e.inOrder field member) m).isSome) =
      c.group.members.filter fun m => (member m).isSome :=
    List.filter_congr fun m hm => by rw [given m hm]
  refine ⟨(map_fst_found _ _).trans same, ?_, fun p hp => ?_⟩
  · rw [chosenKeys_found hc, same]
  · obtain ⟨hm, x, hx, read⟩ := mem_found hp
    exact ⟨hm, x, given p.1 hm ▸ hx, read⟩

theorem taken_inOrder :
    ∀ k ∈ (readChoice e (arguments (e.inOrder field member))).2.keys, ∃ f ∈ e.fields,
      (argument? (readChoice e (arguments (e.inOrder field member))).2 f).map (·.1) = some k := by
  have once := @once_of_known e _ (@known_inOrder e field member)
  intro k hk
  obtain ⟨given, apart⟩ := (mem_left once).mp hk
  obtain ⟨f, hf, word⟩ := (taken_of_known known_inOrder k given).resolve_left apart
  refine ⟨f, hf, ?_⟩
  rw [argument?_arguments once hf, Option.map_map]
  exact word

/-- What arguments in the order of the wire form make. -/
theorem build_inOrder (there : There field member) {v : Value} :
    e.build (e.inOrder field member) = .ok v ↔ ∃ fs, v = .element e fs ∧
      Keyed.keys fs = e.slots.map (·.1) ∧
      (∀ f ∈ e.fields, Takes f ((field f).map argOf) ((Value.element e fs).field f.name)) ∧
      (∀ c, e.choice = some c → Chosen c.group member ((Value.element e fs).field c.name)) ∧
      Rule.broken? e (.element e fs) = none := by
  have fields (fs : List (String × Value)) (f : Field) (hf : f ∈ e.fields) :
      Takes f ((Keyed.get? (e.inOrder field member) f.key).map argOf)
          ((Value.element e fs).field f.name) ↔
        Takes f ((field f).map argOf) ((Value.element e fs).field f.name) := by
    rw [Element.get?_inOrder_field hf]
  have choice (fs : List (String × Value)) (c : ChoiceField) (hc : e.choice = some c) :
      Chosen c.group (fun m => present? (e.inOrder field member) m.key)
          ((Value.element e fs).field c.name) ↔
        Chosen c.group member ((Value.element e fs).field c.name) :=
    chosen_congr fun m hm => present?_inOrder there (Element.members_eq hc ▸ hm)
  rw [build_of_known known_inOrder]
  refine exists_congr fun fs => and_congr_right fun _ => and_congr_right fun _ => ?_
  rw [forall₂_congr (fields fs), forall₂_congr (choice fs)]

end InOrder

end Build

end V2G
