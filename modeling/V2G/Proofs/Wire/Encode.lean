import V2G.Build.Mapping
import V2G.Proofs.Build.ByKey
import V2G.Proofs.Build.Conform
import V2G.Proofs.Codec

/-!
# What is written

Writing fails for one reason: an element in the value holds, in place of a selection, what is no
selection of a member of the group (`stray_of_encode`). Nothing that conforms holds such a thing, so
that all of it is written (`encode_of_conforms`). What is written of an element is told along its
declaration (`wireForm_element`). So serializing fails for a stray selection or for the record of
the document, and for nothing else (`serialize_eq_error`).
-/

namespace V2G.Wire

/-- What is written of a value, null where nothing is. -/
def wireForm (v : Value) : Json := (encode v).toOption.getD .null

theorem wireForm_bytes (data : List UInt8) :
    wireForm (.bytes data) = .str (String.ofList (Base64.encode data)) := rfl

theorem wireForm_url (s : String) : wireForm (.url s) = .str s := rfl

/-- Somewhere in the value stands an element that holds, in place of a selection, what is no
selection of a member. -/
def Stray (v : Value) : Prop :=
  ∃ e fs c x, Value.Part (.element e fs) v ∧ e.choice = some c ∧ (c.name, x) ∈ fs ∧ x ≠ .none ∧
    ∀ m ∈ c.group.members, ∀ w, x ≠ .choice m.name w

theorem Stray.of_child {v x : Value} (h : Stray x) (child : x.Child v) : Stray v := by
  obtain ⟨e, fs, c, y, part, rest⟩ := h
  exact ⟨e, fs, c, y, part.trans child.part, rest⟩

/-! ### Where writing fails -/

/-- What is at hand of the fields is what is written of their values. -/
theorem of_get?_writtenFields {fs : List (String × Value)} {name : String} {p : Written}
    (h : Keyed.get? (writtenFields fs) name = some p) :
    ∃ v, (name, v) ∈ fs ∧ p = ⟨v, encode v, selected? v⟩ := by
  rw [writtenFields_eq, Keyed.get?_map fun v => (⟨v, encode v, selected? v⟩ : Written)] at h
  obtain ⟨v, found, rfl⟩ := Option.map_eq_some_iff.mp h
  exact ⟨v, Keyed.mem_of_get? found, rfl⟩

theorem stray_of_field {fs : List (String × Value)} {f : Field} {fault : Misuse}
    (h : encodeField (writtenFields fs) f = .error fault) :
    ∃ v, (f.name, v) ∈ fs ∧ encode v = .error fault := by
  unfold encodeField at h
  cases found : Keyed.get? (writtenFields fs) f.name with
  | none =>
    rw [found] at h
    cases h
  | some p =>
    obtain ⟨v, there, rfl⟩ := of_get?_writtenFields found
    rw [found] at h
    dsimp only at h
    split at h
    · rcases Except.bind_eq_error.mp h with fails | ⟨j, -, h⟩
      · exact ⟨v, there, fails⟩
      · cases h
    · cases h

/-- A selection is written if it is one of a member whose value is written. -/
theorem stray_of_choice {fs : List (String × Value)} {c : ChoiceField} {fault : Misuse}
    (h : encodeChoice (writtenFields fs) c = .error fault) :
    ∃ v, (c.name, v) ∈ fs ∧ ((∃ fault, encode v = .error fault) ∨
      v ≠ .none ∧ ∀ m ∈ c.group.members, ∀ w, v ≠ .choice m.name w) := by
  unfold encodeChoice at h
  cases found : Keyed.get? (writtenFields fs) c.name with
  | none =>
    rw [found] at h
    cases h
  | some p =>
    obtain ⟨v, there, rfl⟩ := of_get?_writtenFields found
    refine ⟨v, there, ?_⟩
    rw [found] at h
    cases v with
    | none => cases h
    | choice name w =>
      simp only [selected?] at h
      cases member : c.group.member? name with
      | none =>
        refine .inr ⟨nofun, ?_⟩
        rintro m hm w ⟨⟩
        simpa using List.find?_eq_none.mp member m hm
      | some m =>
        rw [member] at h
        rcases Except.bind_eq_error.mp h with fails | ⟨j, -, h⟩
        · exact .inl ⟨fault, by rw [encode, fails]; rfl⟩
        · cases h
    | _ => exact .inr ⟨by rintro ⟨⟩, by rintro _ _ _ ⟨⟩⟩

theorem stray_of_items {xs : List Value} {fault : Misuse}
    (ih : ∀ x ∈ xs, ∀ fault, encode x = .error fault → Stray x)
    (h : encodeItems xs = .error fault) : ∃ x ∈ xs, Stray x := by
  rw [encodeItems_eq] at h
  obtain ⟨before, x, after, rfl, -, fails⟩ := Except.mapM_eq_error.mp h
  have hx : x ∈ before ++ x :: after := List.mem_append_right _ List.mem_cons_self
  exact ⟨x, hx, ih x hx fault fails⟩

theorem stray_of_element {e : Element} {fs : List (String × Value)} {fault : Misuse}
    (ih : ∀ k x, (k, x) ∈ fs → ∀ fault, encode x = .error fault → Stray x)
    (h : encodeElement e (writtenFields fs) = .error fault) : Stray (.element e fs) := by
  have fields {l : List Field} (h : l.mapM (encodeField (writtenFields fs)) = .error fault) :
      Stray (.element e fs) := by
    obtain ⟨-, f, -, -, -, fails⟩ := Except.mapM_eq_error.mp h
    obtain ⟨v, there, fails⟩ := stray_of_field fails
    exact (ih _ v there fault fails).of_child (.element there)
  rcases Except.bind_eq_error.mp h with fails | ⟨mandatory, -, h⟩
  · exact fields fails
  rcases Except.bind_eq_error.mp h with fails | ⟨optional, -, h⟩
  · exact fields fails
  rcases Except.bind_eq_error.mp h with fails | ⟨chosen, -, h⟩
  · obtain ⟨before, c, after, split, -, fails⟩ := Except.mapM_eq_error.mp fails
    have hc : e.choice = some c := by
      have mem : c ∈ e.choice.toList := split ▸ List.mem_append_right _ List.mem_cons_self
      exact Option.mem_toList.mp mem
    obtain ⟨v, there, ⟨fault, fails⟩ | ⟨given, other⟩⟩ := stray_of_choice fails
    · exact (ih _ v there fault fails).of_child (.element there)
    · exact ⟨e, fs, c, v, .self, hc, there, given, other⟩
  · cases h

/-- Writing fails only for a stray selection. -/
theorem stray_of_encode (v : Value) (fault : Misuse) (h : encode v = .error fault) : Stray v := by
  induction v using Value.induction generalizing fault with
  | tuple xs ih =>
    rcases Except.bind_eq_error.mp h with fails | ⟨js, -, h⟩
    · obtain ⟨x, hx, stray⟩ := stray_of_items ih fails
      exact stray.of_child (.tuple hx)
    · cases h
  | list xs ih =>
    rcases Except.bind_eq_error.mp h with fails | ⟨js, -, h⟩
    · obtain ⟨x, hx, stray⟩ := stray_of_items ih fails
      exact stray.of_child (.list hx)
    · cases h
  | choice m v ih =>
    rcases Except.bind_eq_error.mp h with fails | ⟨j, -, h⟩
    · exact (ih fault fails).of_child .choice
    · cases h
  | element e fs ih =>
    rcases Except.bind_eq_error.mp h with fails | ⟨ms, -, h⟩
    · exact stray_of_element ih fails
    · cases h
  | _ => cases h

/-- A mapping that is no dictionary can hold such a selection, and the element that it makes is not
written. -/
example : ∃ m, Element.ofMapping .parameter
    [("name", .text "p"), ("value", .tuple [.text "bogus", .int 5])] = .ok m ∧
      encode m = .error (.notAMember "bogus" .parameterValue) :=
  ⟨_, rfl, rfl⟩

variable {reader : Url.Reader}

theorem not_stray_of_conforms {s : Shape} {v : Value} (h : Conforms s v) : ¬ Stray v := by
  rintro ⟨e, fs, c, x, part, hc, there, given, other⟩
  cases h.of_part part with
  | scalar h => exact h.elim
  | element names _ _ selection =>
    have value := Value.field_of_mem names there
    rcases value ▸ selection c hc with ⟨none, -⟩ | ⟨m, hm, w, chosen⟩
    · exact given none
    · exact other m hm w chosen

/-- Whatever conforms is written. -/
theorem encode_of_conforms {s : Shape} {v : Value} (h : Conforms s v) :
    encode v = .ok (wireForm v) := by
  cases written : encode v with
  | error fault => exact absurd (stray_of_encode v fault written) (not_stray_of_conforms h)
  | ok j => rw [wireForm, written]; rfl

theorem wireForm_tuple {s : Shape} {xs : List Value} (h : ∀ x ∈ xs, Conforms s x) :
    wireForm (.tuple xs) = .arr (xs.map wireForm) := by
  have items : xs.mapM encode = .ok (xs.map wireForm) := by
    rw [Except.mapM_eq_ok, List.map_map]
    exact List.map_congr_left fun x hx => encode_of_conforms (h x hx)
  rw [wireForm, encode_tuple, items]
  rfl

/-! ### What is written of an element -/

/-- The value that a selection has for a member. -/
def selected (v : Value) (m : Member) : Option Value :=
  match v with
  | .choice name w => if m.name = name then some w else none
  | _ => none

/-- What is written for a field. -/
def writtenField (v : Value) (f : Field) : Option Json :=
  if f.required || isPresent (v.field f.name) then some (wireForm (v.field f.name)) else none

/-- What is written for a member. -/
def writtenMember (v : Value) (e : Element) (m : Member) : Option Json :=
  (e.choice.bind fun c => selected (v.field c.name) m).map wireForm

theorem filterMap_eq_find? {β : Type} {l : List Member} (nodup : (l.map (·.name)).Nodup)
    (name : String) (g : Member → β) :
    (l.filterMap fun m => if m.name = name then some (g m) else none) =
      ((l.find? (·.name == name)).map g).toList := by
  induction l with
  | nil => rfl
  | cons m l ih =>
    obtain ⟨hm, hl⟩ := List.nodup_cons.mp nodup
    by_cases h : m.name = name
    · have rest : (l.filterMap fun m => if m.name = name then some (g m) else none) = [] := by
        refine List.filterMap_eq_nil_iff.mpr fun m' hm' => if_neg fun h' => hm ?_
        exact List.mem_map.mpr ⟨m', hm', h'.trans h.symm⟩
      simp [h, rest]
    · simp [h, ih hl]

variable {e : Element} {fs : List (String × Value)}

theorem get?_writtenFields (names : Keyed.keys fs = e.slots.map (·.1)) {name : String}
    (h : name ∈ e.slots.map (·.1)) : Keyed.get? (writtenFields fs) name =
      some ⟨(Value.element e fs).field name, encode ((Value.element e fs).field name),
        selected? ((Value.element e fs).field name)⟩ := by
  rw [writtenFields_eq, Keyed.get?_map fun v => (⟨v, encode v, selected? v⟩ : Written),
    Keyed.get?_of_mem (names ▸ e.slotNames_nodup) (Value.mem_of_field names h)]
  rfl

theorem encodeField_eq {parts : Keyed Written} {v : Value} {f : Field}
    (h : Keyed.get? parts f.name = some ⟨v.field f.name, encode (v.field f.name),
      selected? (v.field f.name)⟩)
    (written : encode (v.field f.name) = .ok (wireForm (v.field f.name))) :
    encodeField parts f = .ok ((writtenField v f).map (f.key, ·)).toList := by
  simp only [encodeField, h, written, writtenField]
  split <;> rfl

theorem encodeChoice_eq {c : ChoiceField} (hc : e.choice = some c) {parts : Keyed Written}
    {v : Value} (h : Keyed.get? parts c.name = some ⟨v, encode v, selected? v⟩)
    (selects : v.Selects c.group)
    (written : ∀ m ∈ c.group.members, ∀ w, v = .choice m.name w → encode w = .ok (wireForm w)) :
    encodeChoice parts c =
      .ok (c.group.members.filterMap fun m => ((selected v m).map wireForm).map (m.key, ·)) := by
  have nodup : (c.group.members.map (·.name)).Nodup :=
    Element.members_eq hc ▸ e.memberNames_nodup
  rcases selects with ⟨rfl, -⟩ | ⟨m, hm, w, rfl⟩
  · simp [encodeChoice, h, selected?, selected, Value.isNone, pure, Except.pure]
  · have member : c.group.members.find? (·.name == m.name) = some m := by
      obtain ⟨m', found⟩ : ∃ m', c.group.members.find? (·.name == m.name) = some m' :=
        Option.isSome_iff_exists.mp (List.find?_isSome.mpr ⟨m, hm, beq_self_eq_true _⟩)
      have name : m'.name = m.name := by simpa using List.find?_some found
      rw [found, Build.member_ext hc (List.mem_of_find?_eq_some found) hm name]
    have pairs : (fun m' => ((selected (.choice m.name w) m').map wireForm).map (m'.key, ·)) =
        fun m' : Member => if m'.name = m.name then some (m'.key, wireForm w) else none := by
      funext m'
      simp only [selected]
      split <;> rfl
    rw [pairs, filterMap_eq_find? nodup m.name fun m => (m.key, wireForm w), member]
    simp only [encodeChoice, h, selected?, Group.member?, member, written m hm w rfl]
    rfl

/-- The fields and the selection, written one after the other, stand in the order of the wire
form. -/
theorem flatten_eq_inOrder (field : Field → Option Json) (member : Member → Option Json) :
    ((e.mandatoryFields.map fun f => ((field f).map (f.key, ·)).toList) ++
      (e.optionalFields.map fun f => ((field f).map (f.key, ·)).toList) ++
      e.choice.toList.map fun _ => e.members.filterMap fun m =>
        (member m).map (m.key, ·)).flatten = e.inOrder field member := by
  have members : (e.choice.toList.map fun _ => e.members.filterMap fun m =>
      (member m).map (m.key, ·)).flatten = e.members.filterMap fun m =>
        (member m).map (m.key, ·) := by
    cases hc : e.choice <;> simp [Element.members, hc]
  rw [List.flatten_append, members, ← List.map_append, ← List.flatMap_def,
    ← List.filterMap_eq_flatMap_toList, Element.inOrder]

theorem encode_element (h : Conforms (.one (.element e)) (.element e fs)) :
    encode (.element e fs) = .ok (.obj (e.inOrder (writtenField (.element e fs))
      (writtenMember (.element e fs) e))) := by
  cases h with
  | scalar h => exact h.elim
  | element names _ conforms selection chosen _ =>
    have fields {l : List Field} (declared : ∀ f ∈ l, f ∈ e.fields) :
        l.mapM (encodeField (writtenFields fs)) =
          .ok (l.map fun f => ((writtenField (.element e fs) f).map (f.key, ·)).toList) := by
      rw [Except.mapM_eq_ok, List.map_map]
      refine List.map_congr_left fun f hf => ?_
      refine encodeField_eq (get?_writtenFields names
        (Element.mem_slotNames.mpr (.inl ⟨f, declared f hf, rfl⟩))) ?_
      by_cases none : (Value.element e fs).field f.name = .none
      · rw [none]
        rfl
      · exact encode_of_conforms (conforms f (declared f hf) none)
    have mandatory := fields (l := e.mandatoryFields) fun f hf => (List.mem_filter.mp hf).1
    have optional := fields (l := e.optionalFields) fun f hf => (List.mem_filter.mp hf).1
    have members : e.choice.toList.mapM (encodeChoice (writtenFields fs)) =
        .ok (e.choice.toList.map fun _ => e.members.filterMap fun m =>
          (writtenMember (.element e fs) e m).map (m.key, ·)) := by
      rw [Except.mapM_eq_ok, List.map_map]
      refine List.map_congr_left fun c there => ?_
      have hc : e.choice = some c := Option.mem_toList.mp there
      have slot := get?_writtenFields names (Element.mem_slotNames.mpr (.inr ⟨c, hc, rfl⟩))
      rw [encodeChoice_eq hc slot (selection c hc) fun m hm w value =>
        encode_of_conforms (chosen c m w hc hm value)]
      simp only [Function.comp_apply, Element.members, hc, writtenMember, Option.bind_some,
        Option.map_some, Option.getD_some]
    simp only [encode, encodeElement, mandatory, optional, members]
    show Except.ok (Json.obj (List.flatten _)) = _
    rw [flatten_eq_inOrder]

/-- An element is written in the order of the wire form. -/
theorem wireForm_element (h : Conforms (.one (.element e)) (.element e fs)) :
    wireForm (.element e fs) = .obj (e.inOrder (writtenField (.element e fs))
      (writtenMember (.element e fs) e)) := by
  rw [wireForm, encode_element h]
  rfl

/-- An element that conforms is serialized, if its document is recorded at all. -/
theorem serialize_recorded (h : Conforms (.one (.element e)) (.element e fs)) {s : Settings}
    {limit : Option Nat} (recordable : Recordable s limit (wireForm (.element e fs))) :
    (Codec.plain.serialize s (.element e fs) limit).outcome = .ok (wireForm (.element e fs)) :=
  Codec.outcome_serialize (encode_of_conforms h) recordable

theorem outcome_serialize (h : Conforms (.one (.element e)) (.element e fs)) (s : Settings) :
    (Codec.plain.serialize s (.element e fs)).outcome = .ok (wireForm (.element e fs)) :=
  serialize_recorded h (.unlimited s _)

/-- Whatever an element holds, serializing it fails only for a stray selection or for the record of
its document. -/
theorem serialize_eq_error {s : Settings} {limit : Option Nat} {failure : Failure}
    (h : (Codec.plain.serialize s (.element e fs) limit).outcome = .error failure) :
    (∃ fault, failure = .misuse fault ∧ Stray (.element e fs)) ∨ failure.IsUnrecorded limit := by
  rw [Codec.outcome_serialize_record] at h
  rcases Except.bind_eq_error.mp h with fails | ⟨document, -, fails⟩
  · obtain ⟨fault, written, rfl⟩ := Except.mapError_eq_error.mp fails
    exact .inl ⟨fault, rfl, stray_of_encode _ fault written⟩
  · by_cases recordable : Recordable s limit document
    · rw [Codec.outcome_record recordable] at fails
      cases fails
    · obtain ⟨_, unrecorded, fails'⟩ :=
        Codec.record_eq_error recordable (.serialized e.name document)
      rw [fails'] at fails
      cases fails
      exact .inr unrecorded

end V2G.Wire
