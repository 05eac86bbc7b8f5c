import V2G.Proofs.Alike
import V2G.Proofs.Build.Conform
import V2G.Proofs.Build.Lookup

/-!
# Elements from their own fields

A conforming value is an argument for itself (`read_of_conforms`). So the values of the fields of an
element, each under its name, make the element again, but for its optional collections that are
empty: those become absent (`build_restored`).
-/

namespace V2G

namespace Rule

/-- The elements that have a rule. -/
def ruled : List Element :=
  [.authorizationSetupRes, .authorizationReq, .dynamicScheduleExchangeReqParams,
    .dynamicScheduleExchangeResParams, .scheduleExchangeRes, .powerDeliveryReq,
    .signedInstallationData]

theorem broken?_of_not_ruled {e : Element} (h : e ∉ ruled) (v : Value) : broken? e v = none := by
  unfold broken?
  split <;> first | rfl | exact absurd (by decide) h

/-- No element with a rule has an optional collection. -/
theorem full_of_ruled : ∀ e ∈ ruled, ∀ f ∈ e.fields,
    f.required = false → f.shape.isCollection = false := by
  decide +kernel

end Rule

variable {reader : Url.Reader}

namespace Build

variable {k : Kind} {s : Shape} {v : Value}

/-! ### Values -/

theorem readScalar_of_holds (h : k.Holds v) : readScalar k v = .ok v := by
  cases k <;> cases v <;> first | exact h.elim | skip
  · next low high n =>
    have within : inRange low high n = .ok n := inRange_eq_ok.mpr ⟨rfl, h⟩
    show (inRange low high n >>= fun n => pure (Value.int n)) = _
    rw [within]
    rfl
  · rfl
  · exact boundedText_eq_ok.mpr ⟨rfl, h⟩
  · exact boundedBytes_eq_ok.mpr ⟨rfl, h⟩
  · rfl
  · obtain ⟨rfl, token⟩ := h
    exact if_pos (List.contains_iff_mem.mpr token)
  · obtain ⟨rfl, within, allowed⟩ := h
    exact Except.mapError_eq_ok.mpr (IdentifierType.read_eq_ok.mpr ⟨_, rfl, within, allowed, rfl⟩)

/-- A conforming value is an argument for itself. -/
theorem read_of_conforms (h : Conforms s v) : read v s = .ok v := by
  induction h with
  | @scalar k v h =>
    have reading : read v (.one k) = (readScalar k v).mapError Refusal.fault := by
      cases v <;> first | rfl | (cases k <;> exact h.elim)
    rw [reading, readScalar_of_holds h]
    rfl
  | @list k least most xs _ hl hm ih =>
    exact (read_items_list rfl).mpr ⟨xs, List.map_congr_left ih, hl, hm, rfl⟩
  | @set k least most xs _ hl hm unlike ih =>
    have apart : Value.distinct .structural xs = xs :=
      Value.distinct_of_apart (unlike.imp And.right)
    exact (read_items_set rfl).mpr
      ⟨xs, List.map_congr_left ih, hl, by rwa [apart], by rw [apart]⟩
  | @element e fs =>
    show (readElement e (.element e fs)).mapError Refusal.fault = _
    rw [readElement, if_pos e.isA_self]
    rfl

/-! ### Fields -/

/-- What becomes of the value of a field that is given again: an optional collection that is empty
becomes absent. -/
def settled (e : Element) (name : String) (v : Value) : Value :=
  if e.fields.any fun f => f.name == name && leavesAbsent f v then .none else v

/-- The entries of an element, once more. -/
def restored (e : Element) (fs : List (String × Value)) : List (String × Value) :=
  fs.map fun entry => (entry.1, settled e entry.1 entry.2)

variable {e : Element} {fs : List (String × Value)} {f : Field}

theorem keys_restored (e : Element) (fs : List (String × Value)) :
    Keyed.keys (restored e fs) = Keyed.keys fs := by
  rw [restored, Keyed.keys, List.map_map]
  rfl

theorem settled_none (e : Element) (name : String) : settled e name .none = .none := by
  unfold settled
  split <;> rfl

theorem field_restored (e : Element) (fs : List (String × Value)) (name : String) :
    (Value.element e (restored e fs)).field name =
      settled e name ((Value.element e fs).field name) := by
  unfold restored
  simp only [Value.field]
  induction fs with
  | nil => exact (settled_none e name).symm
  | cons entry fs ih =>
    obtain ⟨name', v⟩ := entry
    by_cases same : name' = name
    · subst same
      simp [Keyed.get?]
    · simpa [Keyed.get?, same] using ih

theorem settled_field (hf : f ∈ e.fields) (v : Value) :
    settled e f.name v = if leavesAbsent f v then .none else v := by
  have only : (e.fields.any fun g => g.name == f.name && leavesAbsent g v) = leavesAbsent f v := by
    rw [Bool.eq_iff_iff, List.any_eq_true]
    constructor
    · rintro ⟨g, hg, both⟩
      obtain ⟨name, absent⟩ := Bool.and_eq_true_iff.mp both
      have nodup : (e.fields.map (·.name)).Nodup :=
        (List.nodup_append.mp (slotNames_eq e ▸ e.slotNames_nodup)).1
      exact List.inj_on_of_nodup_map nodup hg hf (eq_of_beq name) ▸ absent
    · exact fun absent => ⟨f, hf, by simp [absent]⟩
  rw [settled, only]

/-- Only optional collections are ever settled in another way than they are. -/
theorem settled_of_full {name : String} (full : ∀ f ∈ e.fields, f.name = name →
      f.required = false → f.shape.isCollection = true → v ≠ .tuple [])
    (no_list : v ≠ .list []) : settled e name v = v := by
  unfold settled
  split
  · next some =>
    obtain ⟨f, hf, both⟩ := List.any_eq_true.mp some
    obtain ⟨same, absent⟩ := Bool.and_eq_true_iff.mp both
    simp only [leavesAbsent, Bool.and_eq_true, Bool.or_eq_true, Bool.not_eq_true'] at absent
    rcases absent with ⟨optional, none | ⟨collection, empty⟩⟩
    · cases v <;> first | rfl | cases none
    · have given := full f hf (eq_of_beq same) optional collection
      unfold Value.isEmptyCollection at empty
      split at empty
      · exact absurd rfl given
      · exact absurd rfl no_list
      · cases empty
  · rfl

/-! ### Elements -/

/-- No field holds a list: lists become tuples. -/
theorem field_ne_list (h : Conforms (.one (.element e)) (.element e fs)) (name : String)
    (xs : List Value) : (Value.element e fs).field name ≠ .list xs := by
  cases h with
  | scalar h => exact h.elim
  | element names _ conforms selection _ _ =>
    intro list
    by_cases slot : name ∈ e.slots.map (·.1)
    · rcases Element.mem_slotNames.mp slot with ⟨f, hf, rfl⟩ | ⟨c, hc, rfl⟩
      · have fits := conforms f hf (by simp [list])
        rw [list] at fits
        generalize f.shape = s at fits
        cases fits with
        | @scalar k _ h => cases k <;> exact h
      · rcases selection c hc with ⟨none, -⟩ | ⟨m, -, w, value⟩
        · cases list.symm.trans none
        · cases list.symm.trans value
    · cases list.symm.trans (Value.field_of_not_mem names slot)

/-- No member is given by itself. -/
theorem memberArg?_own (names : Keyed.keys fs = e.slots.map (·.1)) {m : Member}
    (hm : m ∈ e.members) : GivenOnce fs m ∧ memberArg? fs m = none := by
  have absent {k : String} (apart : k ∉ e.slots.map (·.1)) : present? fs k = none := by
    rw [present?, Keyed.get?_eq_none_iff.mpr (names ▸ apart), Option.filter_none]
  have name : present? fs m.name = none := absent (Element.membersApart e e.mem_all m hm)
  have key : present? fs m.key = none := by
    refine absent fun key => ?_
    have declared : m.key ∈ e.keys := Element.memberKey_mem_keys hm
    rcases Element.mem_slotNames.mp key with ⟨f, hf, same⟩ | ⟨c, hc, same⟩
    · exact Element.key_ne_memberKey hf hm
        ((Element.name_eq_key hf (same ▸ declared)).symm.trans same)
    · exact Element.choiceName_not_mem_keys hc (same ▸ declared)
  exact ⟨.inl name, by rw [memberArg?, name, key]; rfl⟩

/-- Each field finds its own value, under its name. -/
theorem fieldArg?_own (names : Keyed.keys fs = e.slots.map (·.1)) (hf : f ∈ e.fields) :
    fieldArg? fs f = some (f.name, (Value.element e fs).field f.name) := by
  have slot : f.name ∈ e.slots.map (·.1) := Element.mem_slotNames.mpr (.inl ⟨f, hf, rfl⟩)
  have own : Keyed.get? fs f.name = some ((Value.element e fs).field f.name) :=
    Keyed.get?_of_mem (names ▸ e.slotNames_nodup) (Value.mem_of_field names slot)
  unfold fieldArg?
  by_cases key : f.key ∈ e.slots.map (·.1)
  · have same : f.name = f.key := by
      rcases Element.mem_slotNames.mp key with ⟨g, hg, name⟩ | ⟨c, hc, name⟩
      · have declared : g.name ∈ e.keys := name ▸ Element.key_mem_keys hf
        have shared : g.key = f.key := (Element.name_eq_key hg declared).symm.trans name
        have nodup : (e.fields.map (·.key)).Nodup := (List.nodup_append.mp e.keys_nodup).1
        exact List.inj_on_of_nodup_map nodup hg hf shared ▸ name
      · exact absurd (name ▸ Element.key_mem_keys hf) (Element.choiceName_not_mem_keys hc)
    rw [← same, own]
  · rw [Keyed.get?_eq_none_iff.mpr (names ▸ key), own]
    rfl

theorem find_member {c : ChoiceField} (hc : e.choice = some c) {m : Member}
    (hm : m ∈ c.group.members) : c.group.find (.text m.name) = .ok m := by
  have names : c.group.names.Nodup := by
    rw [Group.names, ← Element.members_eq hc]
    exact e.memberNames_nodup
  exact Group.find_of_named names hm rfl

theorem misfit?_of_conforms {w : Value} (h : Conforms (.one k) w) : Group.misfit? k w = none := by
  cases h with
  | scalar h => cases k <;> cases w <;> first | exact h.elim | rfl
  | element => simp [Group.misfit?]

/-- Where no member is given, nothing is selected, if that is allowed. -/
theorem chosen_none {g : Group} {given : Member → Option Value}
    (apart : ∀ m ∈ g.members, given m = none) (optional : g.required = false) :
    Chosen g given .none := by
  have empty : (g.members.filter fun m => (given m).isSome) = [] :=
    List.filter_eq_nil_iff.mpr fun m hm => by simp [apart m hm]
  refine ⟨⟨by simp [empty], fun required => ?_⟩, .inl ⟨empty, rfl⟩⟩
  rw [optional] at required
  cases required

/-- A selection of a member with a value that conforms is taken as it is. -/
theorem named_self {es : Keyed Value} {c : ChoiceField} (hc : e.choice = some c)
    (apart : ∀ m ∈ c.group.members, memberArg? es m = none) {m : Member}
    (hm : m ∈ c.group.members) {w : Value} (fits : Conforms (.one m.kind) w) :
    Named c.group es (.choice m.name w) (.choice m.name w) :=
  ⟨apart, ⟨.text m.name, w, fun k => read w (.one k)⟩, m, w, rfl, find_member hc hm,
    misfit?_of_conforms fits, read_of_conforms fits, rfl⟩

/-- The selection is made again. -/
theorem resolves_own (h : Conforms (.one (.element e)) (.element e fs)) {c : ChoiceField}
    (hc : e.choice = some c) : Resolves c fs ((Value.element e fs).field c.name) := by
  cases h with
  | scalar h => exact h.elim
  | element names _ _ selection chosen _ =>
    have slot : c.name ∈ e.slots.map (·.1) := Element.mem_slotNames.mpr (.inr ⟨c, hc, rfl⟩)
    have own : Keyed.get? fs c.name = some ((Value.element e fs).field c.name) :=
      Keyed.get?_of_mem (names ▸ e.slotNames_nodup) (Value.mem_of_field names slot)
    have apart : ∀ m ∈ c.group.members, memberArg? fs m = none :=
      fun m hm => (memberArg?_own names (Element.members_eq hc ▸ hm)).2
    rw [Resolves, present?, own]
    rcases selection c hc with ⟨none, optional⟩ | ⟨m, hm, w, value⟩
    · rw [none]
      exact chosen_none apart optional
    · rw [value]
      exact named_self hc apart hm (chosen c m w hc hm value)

theorem takes_own (h : Conforms (.one (.element e)) (.element e fs)) (hf : f ∈ e.fields) :
    Takes f (some (argOf ((Value.element e fs).field f.name)))
      (settled e f.name ((Value.element e fs).field f.name)) := by
  rw [settled_field hf]
  cases h with
  | scalar h => exact h.elim
  | element _ required conforms _ _ _ =>
    unfold Takes
    by_cases absent : leavesAbsent f ((Value.element e fs).field f.name) = true
    · simp [absent]
    · have given : (Value.element e fs).field f.name ≠ .none := by
        intro none
        cases optional : f.required with
        | true => exact required f hf optional none
        | false => exact absent (by simp [leavesAbsent, none, optional, Value.isNone])
      simp only [absent, Bool.false_eq_true, ↓reduceIte]
      exact read_of_conforms (conforms f hf given)

theorem taken_own (names : Keyed.keys fs = e.slots.map (·.1)) :
    ∀ k ∈ Keyed.keys fs, k ∈ e.selectors ∨
      ∃ f ∈ e.fields, (fieldArg? fs f).map (·.1) = some k := by
  intro k hk
  rcases Element.mem_slotNames.mp (names ▸ hk) with ⟨f, hf, rfl⟩ | ⟨c, hc, rfl⟩
  · exact .inr ⟨f, hf, by rw [fieldArg?_own names hf]; rfl⟩
  · exact .inl (Element.mem_selectors.mpr (.inr ⟨c, hc, rfl⟩))

/-- No optional collection of an element is empty, whatever stands deeper in it. -/
def Full (e : Element) (fs : List (String × Value)) : Prop :=
  ∀ f ∈ e.fields, f.required = false → f.shape.isCollection = true →
    (Value.element e fs).field f.name ≠ .tuple []

/-- Where no optional collection of it is empty, an element keeps all its entries. -/
theorem restored_of_full (h : Conforms (.one (.element e)) (.element e fs)) (full : Full e fs) :
    Value.element e (restored e fs) = .element e fs := by
  have names : Keyed.keys fs = e.slots.map (·.1) := by
    cases h with
    | scalar h => exact h.elim
    | element names => exact names
  refine Value.element_ext ((keys_restored e fs).trans names) names fun name _ => ?_
  rw [field_restored]
  refine settled_of_full (fun f hf same => ?_) (field_ne_list h name [])
  exact same ▸ full f hf

/-- The values of its fields make an element again, but for its optional collections that are
empty. -/
theorem build_restored (h : Conforms (.one (.element e)) (.element e fs)) :
    e.build fs = .ok (.element e (restored e fs)) := by
  have conforms := h
  cases h with
  | scalar h => exact h.elim
  | element names _ _ _ _ rule =>
    refine build_eq_ok.mpr ⟨_, rfl, (keys_restored e fs).trans names, fun f hf => ?_,
      fun m hm => (memberArg?_own names hm).1, fun c hc => ?_, taken_own names, ?_⟩
    · rw [fieldArg?_own names hf, field_restored]
      exact takes_own conforms hf
    · rw [field_restored, settled_of_full _ (field_ne_list conforms c.name [])]
      · exact resolves_own conforms hc
      · exact fun f hf same => absurd same (Element.name_ne_choiceName hf hc)
    · by_cases ruled : e ∈ Rule.ruled
      · rw [restored_of_full conforms fun f hf optional collection => ?_]
        · exact rule
        · rw [Rule.full_of_ruled e ruled f hf optional] at collection
          cases collection
      · exact Rule.broken?_of_not_ruled ruled _

/-- What the values of its fields make equals an element exactly if none of its own optional
collections is empty. -/
theorem restored_same_iff (h : Conforms (.one (.element e)) (.element e fs)) :
    ((Value.element e (restored e fs)).same (.element e fs) = true ↔ Full e fs) ∧
      (Full e fs → Value.element e (restored e fs) = .element e fs) := by
  refine ⟨⟨fun same f hf optional collection empty => ?_, fun full => ?_⟩,
    restored_of_full h⟩
  · have alike := (Value.equal_element_iff.mp same).1 f hf
    rw [field_restored, settled_field hf, empty,
      if_pos (by simp [leavesAbsent, optional, collection, Value.isEmptyCollection])] at alike
    cases (Value.eq_none_iff_of_equal alike).mp rfl
  · rw [restored_of_full h full]
    exact h.same_self

end Build

end V2G
