import V2G.Proofs.Wire.Pointing

/-!
# Which fault is reported

An object with several faults is reported for one of them (`fault_reported`). First come the keys
that cannot be read, in the order of inspection: a mandatory key that is missing, a value of another
type, or a fault inside an element. The limits of scalars and the sizes of collections are looked at
only after all keys are read, and after unknown keys and the choice group. They come in the order of
declaration, in which mandatory and optional fields are mixed.
-/

namespace V2G

/-- The place in the document that an error is about, if it is about one. -/
def MessageError.path? : MessageError → Option Path
  | .missingMandatory path | .malformed path _ => some path
  | _ => none

namespace Wire

variable {strict : Bool} {e : Element} {s : Shape} {j : Json} {p q path : Path}
  {ms : Keyed Json} {f g : Field} {error : MessageError}

/-- An entry is the first one of a list without a property. -/
def FirstWithout {α : Type} (P : α → Prop) (l : List α) (a : α) : Prop :=
  ∃ before after, l = before ++ a :: after ∧ (∀ b ∈ before, P b) ∧ ¬ P a

/-- Of the keys of the element at a place, a path leads to one, or to something below it, and to no
other one. -/
def Concerns (e : Element) (p : Path) (f : Field) (q : Path) : Prop :=
  ∀ g ∈ e.inspected, p ++ [.key g.key] <+: q ↔ g = f

section

variable [reader : Url.Reader]

/-- There is nothing wrong with a key of an object. -/
def Sound (strict : Bool) (ms : Keyed Json) (f : Field) : Prop :=
  (f.required = true → member? ms f.key ≠ none) ∧ FieldValid strict ms f

/-- Two keys of an object are at fault, one before the other in the order of inspection, and none
before them. -/
def TwoFaults (strict : Bool) (e : Element) (ms : Keyed Json) (f g : Field) : Prop :=
  ∃ before between after, e.inspected = before ++ f :: between ++ g :: after ∧
    (∀ h ∈ before, Sound strict ms h) ∧ ¬ Sound strict ms f ∧ ¬ Sound strict ms g

/-- What a key is reported for that cannot be read: it is missing, or it is what its value is
reported for on its own. -/
inductive ReportedFor (strict : Bool) (ms : Keyed Json) (p : Path) (f : Field)
    (error : MessageError) : Prop where
  | missing : member? ms f.key = none → error = .missingMandatory (p ++ [.key f.key]) →
      ReportedFor strict ms p f error
  | unread {x : Json} : member? ms f.key = some x →
      (decode strict x f.shape (p ++ [.key f.key])).outcome = .error (.error error) →
      ReportedFor strict ms p f error

/-- All keys of an object can be read, and none is unknown that would have to be known. -/
def Legible (strict : Bool) (e : Element) (ms : Keyed Json) : Prop :=
  (∀ f ∈ e.inspected, Passes strict ms f) ∧ (strict = true → ∀ k ∈ ms.keys, k ∈ e.keys)

variable {reader}

theorem FirstWithout.mem {α : Type} {P : α → Prop} {l : List α} {a : α}
    (h : FirstWithout P l a) : a ∈ l := by
  obtain ⟨before, after, rfl, -⟩ := h
  exact List.mem_append_right _ List.mem_cons_self

/-! ### Paths below a key -/

/-- A path below a key of an element is below no other key of it. -/
theorem concerns_of_isPrefix (hf : f ∈ e.inspected) (h : p ++ [.key f.key] <+: q) :
    Concerns e p f q := by
  intro g hg
  constructor
  · intro h'
    have same : p ++ [Step.key g.key] = p ++ [.key f.key] :=
      (List.prefix_of_prefix_length_le h' h (by simp)).eq_of_length (by simp)
    have key : g.key = f.key := by simpa using same
    exact Element.eq_of_inspectedKey hg hf key
  · rintro rfl
    exact h

theorem isPrefix_of_refused {r : Refusal} (deep : path.render ≠ "")
    (refused : Refused strict e ms r) (told : ofRefusal e path r = .error error)
    (h : error.path? = some q) : path <+: q := by
  cases refused with
  | conflict | unchosen =>
    cases told
    cases h
  | member =>
    rw [ofRefusal_member, orClass, if_neg deep] at told
    cases told
    cases h
    exact List.prefix_refl _
  | field _ split =>
    have hf : _ ∈ e.fields := split ▸ List.mem_append_right _ List.mem_cons_self
    rw [ofRefusal_field hf] at told
    cases told
    cases h
    exact List.prefix_append _ _
  | rule _ _ broken =>
    cases told
    rcases broken?_cases broken with ⟨violation, rfl⟩ | ⟨-, -, rfl⟩ <;> cases h

theorem isPrefix_of_ends {w : Json} (deep : path.render ≠ "")
    (ends : Ends strict path s w (.error error)) (h : error.path? = some q) : path <+: q := by
  cases ends with
  | unread _ _ fails =>
    obtain ⟨detail, rfl | ⟨e', -, told⟩⟩ := malformed_of_decodeShape fails
    · cases h
      exact List.prefix_refl _
    · rw [orClass, if_neg deep] at told
      cases told
      cases h
      exact List.prefix_refl _
  | missing | unknown =>
    cases h
    exact List.prefix_append _ _
  | refused _ _ refused told => exact isPrefix_of_refused deep refused told h

/-- What is wrong with a value is reported at its path or below it. -/
theorem isPrefix_of_decode (deep : path.render ≠ "")
    (fails : (decode strict j s path).outcome = .error (.error error))
    (h : error.path? = some q) : path <+: q := by
  obtain ⟨p, t, w, -, ends⟩ := ends_of_decode fails
  exact (List.prefix_append path p).trans
    (isPrefix_of_ends (Path.render_append_ne_empty deep p) ends h)

/-! ### Keys that cannot be read -/

/-- An object is reported for the first key that cannot be read. -/
theorem decode_of_unread (first : FirstWithout (Passes strict ms) e.inspected f)
    (plain : ∀ x, member? ms f.key = some x → ¬ Foreign strict f.shape x) (path : Path) :
    ∃ error, (decode strict (.obj ms) (.one (.element e)) path).outcome = .error (.error error) ∧
      ReportedFor strict ms path f error := by
  obtain ⟨before, after, split, passes, faulty⟩ := first
  have whole {failure : Failure}
      (fails : (decodeField (object strict ms) path f).outcome = .error failure) :
      (decode strict (.obj ms) (.one (.element e)) path).outcome = .error failure :=
    decodeObject_eq_error.mpr (.inl ⟨before, f, after, split, passes, fails⟩)
  cases there : member? ms f.key with
  | none =>
    have required : f.required = true := by
      by_contra optional
      exact faulty ⟨fun required => absurd required optional, by simp [there]⟩
    exact ⟨_, whole (decodeField_eq_error.mpr (.inl ⟨there, required, rfl⟩)), .missing there rfl⟩
  | some x =>
    have unread : ¬ Readable strict f.shape x := by
      intro readable
      refine faulty ⟨fun _ => by simp [there], fun y hy => ?_⟩
      cases there.symm.trans hy
      exact readable
    cases h : (decode strict x f.shape (path ++ [.key f.key])).outcome with
    | ok v => exact absurd ((decode_ok_iff x f.shape _).mp ⟨v, h⟩) unread
    | error failure =>
      rcases diagnostic_or_foreign h with ⟨error, rfl, -⟩ | ⟨-, foreign⟩
      · exact ⟨error, whole (decodeField_eq_error.mpr (.inr ⟨x, there, h⟩)), .unread there h⟩
      · exact absurd foreign (plain x there)

/-- What a key is reported for is about no other key. -/
theorem ReportedFor.concerns (reported : ReportedFor strict ms p f error) (hf : f ∈ e.inspected)
    (h : error.path? = some q) : Concerns e p f q := by
  refine concerns_of_isPrefix hf ?_
  cases reported with
  | missing _ missing =>
    cases missing
    cases h
    exact List.prefix_refl _
  | unread _ fails =>
    have named : f.key ≠ "" := Element.ne_empty_of_key (Element.key_of_inspected hf)
    exact isPrefix_of_decode (Path.render_ne_empty named p []) fails h

/-! ### Objects that are read -/

/-- If all keys are read and unknown ones are refused, one of them is reported. -/
theorem decode_of_unknown (passes : ∀ f ∈ e.inspected, Passes strict ms f)
    (refuses : strict = true) {k : String} (hk : k ∈ ms.keys) (unknown : k ∉ e.keys)
    (path : Path) :
    ∃ k ∈ ms.keys, k ∉ e.keys ∧ (decode strict (.obj ms) (.one (.element e)) path).outcome =
      .error (.error (.malformed (path ++ [.key k]) (.unknownKey e))) := by
  cases h : (decode strict (.obj ms) (.one (.element e)) path).outcome with
  | ok v => exact absurd ((decode_eq_ok.mp h).1.known refuses k hk) unknown
  | error failure =>
    rcases refused_of_passes passes h with ⟨-, k, mem, unknown, rfl⟩ | ⟨known, -⟩
    · exact ⟨k, mem, unknown, rfl⟩
    · exact absurd (known refuses k hk) unknown

/-- A choice group that selects too many members, or none where it has to, is reported. -/
theorem decode_of_unselected (legible : Legible strict e ms) {c : ChoiceField}
    (hc : e.choice = some c)
    (unselected : 1 < (chosen c.group ms).length ∨
      c.group.required = true ∧ chosen c.group ms = []) (path : Path) :
    (decode strict (.obj ms) (.one (.element e)) path).outcome = .error (.error
      (if chosen c.group ms = [] then .missingChoice c.group.name c.group.keys
        else .conflictingChoice c.group.name ((chosen c.group ms).map (·.key)))) := by
  have faulty : ¬ SelectionValid strict e ms := by
    intro valid
    obtain ⟨count, some⟩ := (valid c hc).1
    rcases unselected with many | ⟨required, none⟩
    · exact absurd count (Nat.not_le.mpr many)
    · exact some required none
  have whole : ¬ Valid strict (.one (.element e)) (.obj ms) := fun valid => faulty valid.selection
  obtain ⟨r, refused, outcome⟩ := refused_of_known legible.1 legible.2 whole path
  cases refused with
  | conflict hc' many =>
    cases hc.symm.trans hc'
    rw [if_neg (List.ne_nil_of_length_pos (Nat.zero_lt_of_lt many))]
    exact outcome
  | unchosen hc' none =>
    cases hc.symm.trans hc'
    rw [if_pos none]
    exact outcome
  | member hc' one =>
    cases hc.symm.trans hc'
    rw [one] at unselected
    rcases unselected with many | ⟨-, none⟩
    · exact absurd many (Nat.lt_irrefl 1)
    · cases none
  | field selection => exact absurd selection faulty
  | rule selection => exact absurd selection faulty

/-- The first field in declaration order with a value that is not valid is reported. -/
theorem decode_of_first_invalid (legible : Legible strict e ms)
    (selection : SelectionValid strict e ms)
    (first : FirstWithout (FieldValid strict ms) e.fields f) (path : Path) :
    ∃ q fault, (decode strict (.obj ms) (.one (.element e)) path).outcome =
      .error (.error (.malformed q (.refused fault))) ∧ Concerns e path f q := by
  obtain ⟨before, after, split, valid, faulty⟩ := first
  have hf : f ∈ e.fields := split ▸ List.mem_append_right _ List.mem_cons_self
  obtain ⟨x, faulty⟩ := not_forall.mp faulty
  obtain ⟨there, invalid⟩ := Classical.not_imp.mp faulty
  obtain ⟨place, fault, -, outcome⟩ :=
    decode_of_invalid_field legible.1 legible.2 selection split valid there invalid path
  refine ⟨_, fault, outcome, concerns_of_isPrefix (Element.mem_inspected.mpr (.inl hf)) ?_⟩
  exact ⟨place, by simp⟩

/-! ### Documents -/

/-- Which fault of an object is reported, if the reading of the document gets to it. First comes
the first key in the order of inspection that cannot be read, whatever limits are exceeded before
it. If all keys are read, an unknown key comes next, then the choice group, then the first field in
the order of declaration whose value is not valid. -/
theorem fault_reported (s : Settings) {e e' : Element} {j : Json} {p : Path} {ms : Keyed Json}
    (reached : Reached s.rejectUnknown (.one (.element e)) j p (.one (.element e')) (.obj ms)) :
    (∀ f, FirstWithout (Passes s.rejectUnknown ms) e'.inspected f →
      (∀ x, member? ms f.key = some x → ¬ Foreign s.rejectUnknown f.shape x) →
      ∃ error, (Codec.plain.parse s e j).outcome = .error (.error error) ∧
        ReportedFor s.rejectUnknown ms p f error ∧
        ∀ q, error.path? = some q → Concerns e' p f q) ∧
    ((∀ f ∈ e'.inspected, Passes s.rejectUnknown ms f) → s.rejectUnknown = true →
      (∃ k ∈ ms.keys, k ∉ e'.keys) →
      ∃ k ∈ ms.keys, k ∉ e'.keys ∧ (Codec.plain.parse s e j).outcome =
        .error (.error (.malformed (p ++ [.key k]) (.unknownKey e')))) ∧
    (Legible s.rejectUnknown e' ms → ∀ c, e'.choice = some c →
      (1 < (chosen c.group ms).length ∨ c.group.required = true ∧ chosen c.group ms = []) →
      (Codec.plain.parse s e j).outcome = .error (.error
        (if chosen c.group ms = [] then .missingChoice c.group.name c.group.keys
          else .conflictingChoice c.group.name ((chosen c.group ms).map (·.key))))) ∧
    (Legible s.rejectUnknown e' ms → SelectionValid s.rejectUnknown e' ms →
      ∀ f, FirstWithout (FieldValid s.rejectUnknown ms) e'.fields f →
      ∃ q fault, (Codec.plain.parse s e j).outcome =
        .error (.error (.malformed q (.refused fault))) ∧ Concerns e' p f q) := by
  have whole {failure : Failure}
      (fails : (decode s.rejectUnknown (.obj ms) (.one (.element e')) p).outcome =
        .error failure) : (Codec.plain.parse s e j).outcome = .error failure := by
    rw [Codec.outcome_parse]
    exact decode_of_reached reached fails
  refine ⟨fun f first plain => ?_, ?_, fun legible c hc unselected => ?_,
    fun legible selection f first => ?_⟩
  · obtain ⟨error, outcome, reported⟩ := decode_of_unread first plain p
    exact ⟨error, whole outcome, reported, fun q => reported.concerns first.mem⟩
  · rintro passes refuses ⟨k, hk, unknown⟩
    obtain ⟨k, hk, unknown, outcome⟩ := decode_of_unknown passes refuses hk unknown p
    exact ⟨k, hk, unknown, whole outcome⟩
  · exact whole (decode_of_unselected legible hc unselected p)
  · obtain ⟨q, fault, outcome, concerns⟩ := decode_of_first_invalid legible selection first p
    exact ⟨q, fault, whole outcome, concerns⟩

/-! ### Headers with a bad session -/

def sessionField : Field := .mandatory "session_id" "sessionId" (.identifier .sessionId)

def timestampField : Field := .mandatory "timestamp" "timestamp" .uint64

theorem inspected_messageHeader : Element.inspected .messageHeader =
    [sessionField, timestampField, .optional "signature" "signature" (.element .signature)] :=
  rfl

/-- A header with a session that is no hexadecimal number. -/
def badSession (rest : Keyed Json) : Keyed Json := ("sessionId", .str "XYZ") :: rest

theorem session_not_valid : ¬ Valid strict sessionField.shape (.str "XYZ") := by
  rintro (⟨-, digits⟩ | _)
  exact absurd (digits 'X' (by decide)) (by decide)

theorem session_passes (rest : Keyed Json) : Passes strict (badSession rest) sessionField := by
  refine ⟨fun _ => nofun, ?_⟩
  rintro _ ⟨⟩
  exact .scalar trivial

end

/-- What is reported of such a header: the missing timestamp first, the session if there is one. -/
theorem session_after_timestamp :
    (Codec.plain.parse {} .messageHeader (.obj (badSession []))).outcome =
        .error (.error (.missingMandatory [.key "timestamp"])) ∧
      ∃ q fault, (Codec.plain.parse {} .messageHeader
          (.obj (badSession [("timestamp", .int (-1))]))).outcome =
        .error (.error (.malformed q (.refused fault))) ∧
          Concerns .messageHeader [] sessionField q := by
  constructor
  · have first : FirstWithout (Passes true (badSession [])) (Element.inspected .messageHeader)
        timestampField :=
      ⟨[_], _, inspected_messageHeader, List.forall_mem_singleton.mpr (session_passes []),
        fun passes => passes.1 rfl rfl⟩
    obtain ⟨error, outcome, reported, -⟩ :=
      (fault_reported {} (j := .obj (badSession [])) (e := .messageHeader) .here).1 _ first nofun
    cases reported with
    | missing _ missing => exact missing ▸ outcome
    | unread there => cases there
  · have passes : ∀ f ∈ Element.inspected .messageHeader,
        Passes true (badSession [("timestamp", .int (-1))]) f := by
      rw [inspected_messageHeader]
      simp only [List.forall_mem_cons, List.not_mem_nil, false_imp_iff, implies_true, and_true]
      refine ⟨session_passes _, ⟨fun _ => nofun, ?_⟩, ⟨nofun, nofun⟩⟩
      rintro _ ⟨⟩
      exact .scalar trivial
    have first : FirstWithout (FieldValid true (badSession [("timestamp", .int (-1))]))
        (Element.fields .messageHeader) sessionField :=
      ⟨[], _, rfl, List.forall_mem_nil _, fun valid => session_not_valid (valid _ rfl)⟩
    obtain ⟨-, -, -, limits⟩ := fault_reported {}
      (j := .obj (badSession [("timestamp", .int (-1))])) (e := .messageHeader) .here
    exact limits ⟨passes, fun _ => by decide⟩ nofun _ first

/-! ### The order of inspection is overruled -/

section

variable [reader : Url.Reader]

/-- Two keys of a document are at fault, but what is reported is not about the first one. -/
def Overruled (s : Settings) (e : Element) (ms : Keyed Json) (f g : Field) : Prop :=
  TwoFaults s.rejectUnknown e ms f g ∧
    ∃ error, (Codec.plain.parse s e (.obj ms)).outcome = .error (.error error) ∧
      ∀ q, error.path? = some q → ¬ Concerns e [] f q

variable {reader}

theorem not_sound {x : Json} (there : member? ms f.key = some x)
    (invalid : ¬ Valid strict f.shape x) : ¬ Sound strict ms f :=
  fun sound => invalid (sound.2 x there)

theorem int_not_valid {low high n : Int} (outside : n < low ∨ high < n) :
    ¬ Valid strict (.one (.int (some low) (some high))) (.int n) := by
  rintro (⟨least, most⟩ | _)
  have least := least low rfl
  have most := most high rfl
  omega

theorem empty_not_valid {k : Kind} {most : Nat} : ¬ Valid strict (.set k 1 most) (.arr []) := by
  rintro (_ | _ | ⟨-, least, -⟩)
  exact absurd least (by decide)

end

theorem not_concerns (hf : f ∈ e.inspected) (h : ¬ [.key f.key] <+: q) : ¬ Concerns e [] f q :=
  fun concerns => h ((concerns f hf).mpr rfl)

/-- The order of inspection does not decide alone: a limit that is exceeded comes after a key that
is missing, after an optional field that is declared before it, after an unknown key, and after
the choice group. -/
theorem first_overruled :
    Overruled {} .messageHeader (badSession []) sessionField timestampField ∧
      Overruled {} .overstayRules
        [("overstayTimeThreshold", .int (-1)), ("overstayRules", .arr [])]
        (.mandatoryMany "rules" "overstayRules" (.set (.element .overstayRule) 1 5))
        (.optional "time_threshold" "overstayTimeThreshold" .uint32) ∧
      Overruled {} .messageHeader (badSession [("timestamp", .int (-1)), ("x", .int 1)])
        sessionField timestampField ∧
      Overruled {} .parameter
        [("name", .str "x"), ("byteValue", .int 1000), ("shortValue", .int 99999)]
        (.optional "byte_value" "byteValue" .int8)
        (.optional "short_value" "shortValue" .int16) := by
  refine ⟨⟨⟨[], [], _, rfl, List.forall_mem_nil _, ?_, ?_⟩, _, rfl, ?_⟩,
    ⟨⟨[], [], _, rfl, List.forall_mem_nil _, ?_, ?_⟩, _, rfl, ?_⟩,
    ⟨⟨[], [], _, rfl, List.forall_mem_nil _, ?_, ?_⟩, _, rfl, ?_⟩,
    ⟨⟨[_, _], [], _, rfl, ?_, ?_, ?_⟩, _, rfl, nofun⟩⟩
  -- The header without a timestamp.
  · exact not_sound rfl session_not_valid
  · exact fun sound => sound.1 rfl rfl
  · rintro _ ⟨⟩
    exact not_concerns (by decide) (by decide)
  -- The rules that are empty, and the threshold that is declared before them.
  · exact not_sound rfl empty_not_valid
  · exact not_sound rfl (int_not_valid (by decide))
  · rintro _ ⟨⟩
    exact not_concerns (by decide) (by decide)
  -- The header with an unknown key.
  · exact not_sound rfl session_not_valid
  · exact not_sound rfl (int_not_valid (by decide))
  · rintro _ ⟨⟩
    exact not_concerns (by decide) (by decide)
  -- The parameter with two values.
  · simp only [List.forall_mem_cons, List.not_mem_nil, false_imp_iff, implies_true, and_true]
    refine ⟨⟨fun _ => nofun, ?_⟩, nofun, nofun⟩
    rintro _ ⟨⟩
    exact .scalar ⟨by decide, by decide⟩
  · exact not_sound rfl (int_not_valid (by decide))
  · exact not_sound rfl (int_not_valid (by decide))

end Wire

end V2G
