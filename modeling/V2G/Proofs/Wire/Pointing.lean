import V2G.Proofs.Wire.Refusal

/-!
# Diagnostics point into the document

What a diagnostic says about a document is there to be seen (`points_of_parse`): the path of a
missing key leads to an object of an element for which the key is mandatory and which does not have
it, the path of a malformed value leads to a value, and the choice group or the rule named is that
of an element that is somewhere in the document, whose members or fields are as the diagnostic says.
The one path that leads nowhere is the name of the class itself, for a fault of the document as a
whole.
-/

namespace V2G.Wire

variable {strict : Bool} {e : Element} {s t : Shape} {j w : Json} {p path : Path}
  {error : MessageError}

section

variable [reader : Url.Reader]

/-- A fault of a document as a whole: it is no object, or the only member it selects has a value
that is not valid. -/
def RootFault (strict : Bool) (e : Element) (j : Json) : Prop :=
  (∀ ms, j ≠ .obj ms) ∨ ∃ ms c m x, j = .obj ms ∧ e.choice = some c ∧
    chosen c.group ms = [m] ∧ member? ms m.key = some x ∧ ¬ Valid strict (.one m.kind) x

/-- What a diagnostic says about a document read for an element. The field that a diagnostic names
is its path, written out (`MessageError.field`). -/
def Points (strict : Bool) (e : Element) (j : Json) : MessageError → Prop
  | .missingMandatory path => ∃ p e' ms f, path = p ++ [.key f.key] ∧
      At (.one (.element e)) j p (.one (.element e')) (.obj ms) ∧ f ∈ e'.mandatoryFields ∧
      (Keyed.get? ms f.key = none ∨ Keyed.get? ms f.key = some .null)
  | .malformed path _ => (∃ x, j.at? path = some x) ∨ path = [.key e.name] ∧ RootFault strict e j
  | .missingChoice group members => ∃ p e' ms c,
      At (.one (.element e)) j p (.one (.element e')) (.obj ms) ∧ e'.choice = some c ∧
      group = c.group.name ∧ members = c.group.keys ∧ chosen c.group ms = []
  | .conflictingChoice group members => ∃ p e' ms c,
      At (.one (.element e)) j p (.one (.element e')) (.obj ms) ∧ e'.choice = some c ∧
      group = c.group.name ∧ members = (chosen c.group ms).map (·.key) ∧ 2 ≤ members.length
  | .violated violation => ∃ p e' ms,
      At (.one (.element e)) j p (.one (.element e')) (.obj ms) ∧
      Rule.broken? e' (denote (.obj ms) (.one (.element e'))) = some (.violated violation)
  | .choice _ _ _ | .other _ _ => False

/-! ### Paths -/

variable {reader}

theorem absent_or_null {ms : Keyed Json} {key : String} (h : member? ms key = none) :
    Keyed.get? ms key = none ∨ Keyed.get? ms key = some .null := by
  cases hj : Keyed.get? ms key with
  | none => exact .inl rfl
  | some j =>
    cases j with
    | null => exact .inr rfl
    | _ => simp [member?, hj, Option.filter, Json.isNull] at h

theorem mandatory_of_inspected {f : Field} (hf : f ∈ e.inspected) (required : f.required = true) :
    f ∈ e.mandatoryFields := by
  rcases Element.mem_inspected.mp hf with hf | ⟨m, -, rfl⟩
  · exact List.mem_filter.mpr ⟨hf, required⟩
  · cases required

theorem at?_append {q : Path} {x : Json} (h : j.at? p = some x) : j.at? (p ++ q) = x.at? q := by
  induction p generalizing j with
  | nil =>
    cases h
    rfl
  | cons step p ih =>
    cases step <;> cases j <;> simp only [Json.at?, reduceCtorEq, Option.bind_eq_some_iff] at h
    all_goals
      obtain ⟨y, hy, h⟩ := h
      rw [List.cons_append, Json.at?, hy, Option.bind_some, ih h]

theorem at?_key {ms : Keyed Json} {key : String} {x : Json} (h : member? ms key = some x)
    (q : Path) : (Json.obj ms).at? (.key key :: q) = x.at? q := by
  rw [Json.at?, (get?_of_member? h).1, Option.bind_some]

/-- The place of a fault is there. -/
theorem FaultAt.exists_at? (h : FaultAt strict s j p) : ∃ x, j.at? p = some x := by
  cases h with
  | whole => exact ⟨j, by rw [Json.at?]⟩
  | item => simp [Json.at?]

/-! ### Rules -/

/-- A rule that is broken is reported as such, but for the control mode that is missing. -/
theorem broken?_cases {v : Value} (h : Rule.broken? e v = some error) :
    (∃ violation, error = .violated violation) ∨ e = .scheduleExchangeRes ∧
      (v.field "control_mode").isNone = true ∧
      error = .missingChoice Group.seResControlMode.name Group.seResControlMode.keys := by
  unfold Rule.broken? at h
  split at h
  · exact .inl ⟨_, (Build.eq_of_ite h).symm⟩
  · exact .inl ⟨_, (Build.eq_of_ite h).symm⟩
  · exact .inl ⟨_, (Build.eq_of_ite h).symm⟩
  · obtain ⟨violation, -, rfl⟩ := Option.map_eq_some_iff.mp h
    exact .inl ⟨violation, rfl⟩
  · unfold Rule.finishedMode at h
    split at h
    · next finished =>
      cases h
      exact .inr ⟨rfl, (Bool.and_eq_true_iff.mp finished).2, rfl⟩
    · cases h
  · exact .inl ⟨_, (Build.eq_of_ite_some h).symm⟩
  · obtain ⟨member, -, h⟩ := Option.bind_eq_some_iff.mp h
    obtain ⟨expected, -, h⟩ := Option.bind_eq_some_iff.mp h
    obtain ⟨curve, -, h⟩ := Option.bind_eq_some_iff.mp h
    exact .inl ⟨_, (Build.eq_of_ite h).symm⟩
  · cases h

/-! ### What ends the reading is pointed out -/

section Objects

variable {e' : Element} {ms : Keyed Json}

theorem points_of_broken (h : At (.one (.element e)) j p (.one (.element e')) (.obj ms))
    (broken : Rule.broken? e' (denote (.obj ms) (.one (.element e'))) = some error) :
    Points strict e j error := by
  rcases broken?_cases broken with ⟨violation, rfl⟩ | ⟨rfl, none, rfl⟩
  · exact ⟨p, e', ms, h, broken⟩
  · refine ⟨p, _, ms, ⟨"control_mode", .seResControlMode⟩, h, rfl, rfl, rfl, ?_⟩
    rw [denote_obj, choice_entriesOf (e := .scheduleExchangeRes)
      (c := ⟨"control_mode", .seResControlMode⟩) rfl] at none
    rcases choiceOf_cases Group.seResControlMode ms with ⟨empty, -⟩ | ⟨m, rest, x, -, -, value⟩
    · exact empty
    · rw [value] at none
      cases none

theorem points_of_refused (h : At (.one (.element e)) j p (.one (.element e')) (.obj ms))
    {r : Refusal} (refused : Refused strict e' ms r)
    (told : ofRefusal e' p r = .error error) : Points strict e j error := by
  cases refused with
  | conflict hc many =>
    cases told
    exact ⟨p, e', ms, _, h, hc, rfl, rfl, by rwa [List.length_map]⟩
  | unchosen hc none =>
    cases told
    exact ⟨p, e', ms, _, h, hc, rfl, rfl, none⟩
  | @member c m x faults hc one there invalid =>
    rw [ofRefusal_member] at told
    cases told
    by_cases root : p = []
    · subst root
      cases h
      exact .inr ⟨rfl, .inr ⟨ms, c, m, x, rfl, hc, one, there, invalid⟩⟩
    · rw [h.orClass_eq root]
      exact .inl ⟨.obj ms, h.at?_eq⟩
  | @field before after f x i is _ split _ there _ fault =>
    have hf : f ∈ e'.fields := split ▸ List.mem_append_right _ List.mem_cons_self
    rw [ofRefusal_field hf] at told
    cases told
    obtain ⟨y, hy⟩ := fault.exists_at?
    exact .inl ⟨y, by rw [at?_append h.at?_eq, at?_key there, hy]⟩
  | rule _ _ broken =>
    cases told
    exact points_of_broken h broken

end Objects

theorem points_of_ends (h : At (.one (.element e)) j p t w)
    (ends : Ends strict p t w (.error error)) : Points strict e j error := by
  cases ends with
  | unread array object fails =>
    obtain ⟨detail, rfl | ⟨e', rfl, rfl⟩⟩ := malformed_of_decodeShape fails
    · exact .inl ⟨w, h.at?_eq⟩
    · by_cases root : p = []
      · subst root
        cases h
        exact .inr ⟨rfl, .inl fun ms => object e ms rfl⟩
      · rw [h.orClass_eq root]
        exact .inl ⟨w, h.at?_eq⟩
  | @missing e' ms before after f split _ required none =>
    have inspected : f ∈ e'.inspected := split ▸ List.mem_append_right _ List.mem_cons_self
    exact ⟨p, e', ms, f, rfl, h, mandatory_of_inspected inspected required, absent_or_null none⟩
  | @unknown e' ms k _ _ known =>
    obtain ⟨x, hx⟩ := Option.ne_none_iff_exists'.mp
      (mt Keyed.get?_eq_none_iff.mp (not_not_intro known))
    exact .inl ⟨x, by rw [at?_append h.at?_eq, Json.at?, hx, Option.bind_some, Json.at?]⟩
  | refused _ _ refused told => exact points_of_refused h refused told

/-- Whenever parsing gives a diagnostic, what it says is there to be seen in the document. -/
theorem points_of_parse (s : Settings) (e : Element) (j : Json) {error : MessageError}
    (h : (Codec.plain.parse s e j).outcome = .error (.error error)) :
    Points s.rejectUnknown e j error := by
  rw [Codec.outcome_parse] at h
  obtain ⟨p, t, w, reached, ends⟩ := ends_of_decode h
  exact points_of_ends reached.at ends

end

/-- A message with a header that has no timestamp. -/
def unstamped : Json :=
  .obj [("messageHeader", .obj [("sessionId", .str "AB")]), ("evccId", .str "EV1")]

/-- The timestamp that a message lacks is pointed out. -/
theorem unstamped_pointed :
    (Codec.plain.parse {} .sessionSetupReq unstamped).outcome =
      .error (.error (.missingMandatory [.key "messageHeader", .key "timestamp"])) ∧
    Points ({} : Settings).rejectUnknown .sessionSetupReq unstamped
      (.missingMandatory [.key "messageHeader", .key "timestamp"]) := by
  have fails : (Codec.plain.parse {} .sessionSetupReq unstamped).outcome =
      .error (.error (.missingMandatory [.key "messageHeader", .key "timestamp"])) := rfl
  exact ⟨fails, points_of_parse {} .sessionSetupReq unstamped fails⟩

end V2G.Wire
