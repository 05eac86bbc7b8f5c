import V2G.Exchange.Correlation
import V2G.Proofs.Wire.Written

/-!
# When a response fits

What a response must say for a request to be answered by it, class by class (`Fits`): nothing
contradicts exactly then (`fits_iff`). Only three fields are looked at, none of which is a
collection, so that a response fits as soon as another one with the same values there does.
-/

namespace V2G

variable {reader : Url.Reader}

namespace Conforms

variable {e : Element} {fs : List (String × Value)}

theorem mandatory_int (h : Conforms (.one (.element e)) (.element e fs)) {f : Field}
    (hf : f ∈ e.fields) (required : f.required = true) {low high : Option Int}
    (shape : f.shape = .one (.int low high)) :
    ∃ n, (Value.element e fs).field f.name = .int n := by
  cases h with
  | scalar h => exact h.elim
  | element _ mandatory fields _ _ _ =>
    have conforms := fields f hf (mandatory f hf required)
    generalize (Value.element e fs).field f.name = v at conforms
    rw [shape] at conforms
    cases conforms with
    | scalar h =>
      cases v with
      | int n => exact ⟨n, rfl⟩
      | _ => exact h.elim

theorem selection (h : Conforms (.one (.element e)) (.element e fs)) {c : ChoiceField}
    (hc : e.choice = some c) :
    ((Value.element e fs).field c.name = .none ∧ c.group.required = false) ∨
      ∃ m ∈ c.group.members, ∃ w, (Value.element e fs).field c.name = .choice m.name w ∧
        Conforms (.one m.kind) w := by
  cases h with
  | scalar h => exact h.elim
  | element _ _ _ selection chosen _ =>
    rcases selection c hc with none | ⟨m, hm, w, value⟩
    · exact .inl none
    · exact .inr ⟨m, hm, w, value, chosen c m w hc hm value⟩

theorem selected (h : Conforms (.one (.element e)) (.element e fs)) {c : ChoiceField}
    (hc : e.choice = some c) (required : c.group.required = true) :
    ∃ m ∈ c.group.members, ∃ w, (Value.element e fs).field c.name = .choice m.name w ∧
      Conforms (.one m.kind) w := by
  rcases h.selection hc with ⟨-, optional⟩ | selected
  · rw [required] at optional
    cases optional
  · exact selected

end Conforms

namespace Exchange

variable {e e' : Element} {r r' q : Value} {fs gs : List (String × Value)}

/-! ### What is looked at -/

/-- The fields that decide whether a response fits a request. -/
def deciding : List String := ["service_id", "control_mode", "energy_transfer_mode"]

theorem single_of_deciding : ∀ e ∈ Element.all, ∀ f ∈ e.fields, f.name ∈ deciding →
    f.shape.isCollection = false := by
  decide +kernel

theorem contradiction?_congr (h : ∀ name ∈ deciding, Rule.Agree (r.field name) (r'.field name)) :
    contradiction? e r q = contradiction? e r' q := by
  have service := (h "service_id" (by decide)).int
  have mode := (h "control_mode" (by decide)).member
  have direction := (h "energy_transfer_mode" (by decide)).member
  unfold contradiction? sameService sameMode sameDirection isBidirectional
  rw [service, mode, direction]

/-! ### What has to be the same -/

/-- Both have selected the same member of their groups. -/
def SameMember (name : String) (r q : Value) : Prop :=
  ∃ m v w, r.field name = .choice m v ∧ q.field name = .choice m w

/-- The parameters of a bidirectional energy transfer. -/
def bidirectional : List Element :=
  [.bptAcChargeParameterDiscoveryReqParams, .bptAcChargeParameterDiscoveryResParams,
    .bptDcChargeParameterDiscoveryReqParams, .bptDcChargeParameterDiscoveryResParams]

/-- The parameters of a bidirectional energy transfer are selected. -/
def Bidirectional (v : Value) : Prop :=
  ∃ m e fs, v.field "energy_transfer_mode" = .choice m (.element e fs) ∧ e ∈ bidirectional

/-- What a response of a class says fits what the request says. -/
def Fits (e : Element) (r q : Value) : Prop :=
  match e with
  | .serviceDetailRes => r.field "service_id" = q.field "service_id"
  | .scheduleExchangeRes => r.field "control_mode" = .none ∨ SameMember "control_mode" r q
  | .acChargeLoopRes | .dcChargeLoopRes => SameMember "control_mode" r q
  | .acChargeParameterDiscoveryRes | .dcChargeParameterDiscoveryRes =>
    Bidirectional r ↔ Bidirectional q
  | _ => True

theorem sameMode_of_members {group m m' : String} {v w : Value}
    (hr : r.field "control_mode" = .choice m v) (hq : q.field "control_mode" = .choice m' w) :
    sameMode group r q = none ↔ SameMember "control_mode" r q := by
  have offered : sameMode group r q =
      if m = m' then none else some (.otherControlMode group m m') := by
    unfold sameMode
    rw [hr, hq]
    rfl
  rw [offered]
  by_cases same : m = m'
  · subst same
    exact iff_of_true (if_pos rfl) ⟨m, v, w, hr, hq⟩
  · rw [if_neg same]
    refine iff_of_false nofun ?_
    rintro ⟨m₁, v₁, w₁, hr₁, hq₁⟩
    cases hr.symm.trans hr₁
    cases hq.symm.trans hq₁
    exact same rfl

theorem sameMode_iff {group : String} (hr : Conforms (.one (.element e')) (.element e' fs))
    (hq : Conforms (.one (.element e)) (.element e gs)) {g g' : Group}
    (offers : e'.choice = some ⟨"control_mode", g⟩) (required : g.required = true)
    (asks : e.choice = some ⟨"control_mode", g'⟩) (required' : g'.required = true) :
    sameMode group (.element e' fs) (.element e gs) = none ↔
      SameMember "control_mode" (.element e' fs) (.element e gs) := by
  obtain ⟨m, -, w, offered, -⟩ := hr.selected offers required
  obtain ⟨m', -, w', requested, -⟩ := hq.selected asks required'
  exact sameMode_of_members offered requested

theorem sameService_of_ints {n m : Int} (hr : r.field "service_id" = .int n)
    (hq : q.field "service_id" = .int m) :
    sameService r q = none ↔ r.field "service_id" = q.field "service_id" := by
  have described : sameService r q = if n = m then none else some (.otherService n m) := by
    unfold sameService
    rw [hr, hq]
    rfl
  rw [described, hr, hq]
  by_cases same : n = m
  · simp [same]
  · simp [same]

theorem directions : ∀ g ∈ [Group.acCpdReqMode, .acCpdResMode, .dcCpdReqMode, .dcCpdResMode],
    ∀ m ∈ g.members, ∃ e ∈ Element.all, m.kind = .element e ∧
      (m.name.startsWith "bpt" = true ↔ e ∈ bidirectional) := by
  decide +kernel

theorem isBidirectional_iff (h : Conforms (.one (.element e)) (.element e fs)) {g : Group}
    (hc : e.choice = some ⟨"energy_transfer_mode", g⟩) (required : g.required = true)
    (directed : g ∈ [Group.acCpdReqMode, .acCpdResMode, .dcCpdReqMode, .dcCpdResMode]) :
    isBidirectional (.element e fs) = true ↔ Bidirectional (.element e fs) := by
  obtain ⟨m, hm, w, value, conforms⟩ := h.selected hc required
  obtain ⟨e', -, kind, named⟩ := directions g directed m hm
  rw [kind] at conforms
  obtain ⟨gs, rfl⟩ : ∃ gs, w = .element e' gs := by
    cases conforms with
    | scalar h => exact h.elim
    | element => exact ⟨_, rfl⟩
  have name : isBidirectional (.element e fs) = m.name.startsWith "bpt" := by
    unfold isBidirectional
    rw [value]
    rfl
  rw [name, named]
  constructor
  · exact fun listed => ⟨m.name, e', gs, value, listed⟩
  · rintro ⟨m', e₁, gs₁, value', listed⟩
    cases value.symm.trans value'
    exact listed

theorem sameDirection_iff (hr : isBidirectional r = true ↔ Bidirectional r)
    (hq : isBidirectional q = true ↔ Bidirectional q) :
    sameDirection e r q = none ↔ (Bidirectional r ↔ Bidirectional q) := by
  rw [← hr, ← hq, ← Bool.eq_iff_iff]
  unfold sameDirection
  by_cases same : isBidirectional r = isBidirectional q
  · simp [same]
  · simp [same]

/-! ### The classes -/

/-- The responses that fit whatever they say. -/
def indifferent : List Element :=
  [.sessionSetupRes, .authorizationSetupRes, .authorizationRes, .serviceDiscoveryRes,
    .serviceSelectionRes, .powerDeliveryRes, .meteringConfirmationRes, .sessionStopRes,
    .certificateInstallationRes, .vehicleCheckInRes, .vehicleCheckOutRes, .dcCableCheckRes,
    .dcPreChargeRes, .dcWeldingDetectionRes]

theorem contradiction?_of_indifferent (h : e ∈ indifferent) (r q : Value) :
    contradiction? e r q = none := by
  have apart : ∀ e ∈ indifferent, e.isA .serviceDetailRes = false ∧
      e.isA .scheduleExchangeRes = false ∧ e.isA .chargeLoopRes = false ∧
      e.isA .chargeParameterDiscoveryRes = false := by decide
  obtain ⟨service, schedule, loop, discovery⟩ := apart e h
  simp [contradiction?, service, schedule, loop, discovery]

theorem fits_of_indifferent (h : e ∈ indifferent) (r q : Value) : Fits e r q := by
  unfold Fits
  split <;> first | exact absurd h (by decide) | trivial

/-- The pairs in which the response has to fit what the request says. -/
def demanding : List (Element × Element) :=
  [(.serviceDetailReq, .serviceDetailRes), (.scheduleExchangeReq, .scheduleExchangeRes),
    (.acChargeParameterDiscoveryReq, .acChargeParameterDiscoveryRes),
    (.acChargeLoopReq, .acChargeLoopRes),
    (.dcChargeParameterDiscoveryReq, .dcChargeParameterDiscoveryRes),
    (.dcChargeLoopReq, .dcChargeLoopRes)]

theorem paired_cases (paired : e.response? = some e') :
    e' ∈ indifferent ∨ (e, e') ∈ demanding := by
  have all : ∀ e ∈ Element.all, ∀ e' ∈ e.response?, e' ∈ indifferent ∨ (e, e') ∈ demanding := by
    decide +kernel
  exact all e e.mem_all e' paired

/-- Nothing in a response contradicts a request exactly if it fits. -/
theorem fits_iff (paired : e.response? = some e')
    (hr : Conforms (.one (.element e')) (.element e' fs))
    (hq : Conforms (.one (.element e)) (.element e gs)) :
    Fits e' (.element e' fs) (.element e gs) ↔
      contradiction? e' (.element e' fs) (.element e gs) = none := by
  rcases paired_cases paired with any | listed
  · exact iff_of_true (fits_of_indifferent any _ _) (contradiction?_of_indifferent any _ _)
  · simp only [demanding, List.mem_cons, Prod.mk.injEq, List.not_mem_nil, or_false] at listed
    rcases listed with ⟨rfl, rfl⟩ | ⟨rfl, rfl⟩ | ⟨rfl, rfl⟩ | ⟨rfl, rfl⟩ | ⟨rfl, rfl⟩ | ⟨rfl, rfl⟩
    -- The service that is described.
    · obtain ⟨n, described⟩ := hr.mandatory_int
        (f := .mandatory "service_id" "serviceId" .uint16) (by decide) rfl rfl
      obtain ⟨m, requested⟩ := hq.mandatory_int
        (f := .mandatory "service_id" "serviceId" .uint16) (by decide) rfl rfl
      exact (sameService_of_ints described requested).symm
    -- The control mode of a schedule exchange, which a response need not have.
    · obtain ⟨m', -, w', requested, -⟩ := hq.selected (c := ⟨_, .seReqControlMode⟩) rfl rfl
      show (_ = Value.none ∨ SameMember "control_mode" _ _) ↔ sameMode _ _ _ = none
      rcases hr.selection (c := ⟨_, .seResControlMode⟩) rfl with
        ⟨none, -⟩ | ⟨m, -, w, offered, -⟩
      · refine iff_of_true (.inl none) ?_
        unfold sameMode
        rw [none]
        rfl
      · rw [sameMode_of_members offered requested]
        refine or_iff_right fun none => ?_
        cases offered.symm.trans none
    · exact (sameDirection_iff (isBidirectional_iff hr rfl rfl (by decide))
        (isBidirectional_iff hq rfl rfl (by decide))).symm
    · exact (sameMode_iff hr hq rfl rfl rfl rfl).symm
    · exact (sameDirection_iff (isBidirectional_iff hr rfl rfl (by decide))
        (isBidirectional_iff hq rfl rfl (by decide))).symm
    · exact (sameMode_iff hr hq rfl rfl rfl rfl).symm

end Exchange

end V2G
