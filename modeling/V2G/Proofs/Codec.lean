import V2G.Codec.Basic
import V2G.Proofs.Outcome

/-!
# What the codec gives

Records apart, a document is parsed as it is decoded and an element is serialized as it is encoded
(`outcome_parse`, `outcome_serialize`). A record is in the way of that only where documents are
recorded and an integer in the document has more digits than the limit allows: parsing and
serializing then end in an error of the call, for whatever they would have given.
-/

namespace V2G

/-- Whether the record of a document can be written, if there is one. -/
def Recordable (s : Settings) (limit : Option Nat) (document : Json) : Prop :=
  s.recordDocuments = true → ∀ most ∈ limit, document.isWithin most = true

theorem Recordable.unlimited (s : Settings) (document : Json) : Recordable s none document :=
  fun _ => nofun

/-- The error of a record that cannot be written. -/
def Failure.IsUnrecorded (limit : Option Nat) (failure : Failure) : Prop :=
  ∃ most ∈ limit, failure = .misuse (.longInteger most)

theorem Failure.IsUnrecorded.eq {limit : Option Nat} {failure failure' : Failure}
    (h : failure.IsUnrecorded limit) (h' : failure'.IsUnrecorded limit) : failure = failure' := by
  obtain ⟨most, given, rfl⟩ := h
  obtain ⟨most', given', rfl⟩ := h'
  rw [Option.mem_unique given given']

namespace Json

variable {most : Nat}

theorem itemsWithin_iff {js : List Json} :
    itemsWithin most js = true ↔ ∀ j ∈ js, j.isWithin most = true := by
  induction js with
  | nil => simp [itemsWithin]
  | cons j js ih => simp [itemsWithin, ih]

theorem membersWithin_iff {ms : List (String × Json)} :
    membersWithin most ms = true ↔ ∀ k j, (k, j) ∈ ms → j.isWithin most = true := by
  induction ms with
  | nil => simp [membersWithin]
  | cons m ms ih =>
    rw [membersWithin, Bool.and_eq_true, ih]
    constructor
    · rintro ⟨first, rest⟩ k j hj
      rcases List.mem_cons.mp hj with rfl | hj
      · exact first
      · exact rest k j hj
    · exact fun all => ⟨all m.1 m.2 List.mem_cons_self, fun k j hj =>
        all k j (List.mem_cons_of_mem m hj)⟩

theorem not_isWithin_tenTo (most : Nat) (pos : 0 < most) :
    (Json.int (tenTo most)).isWithin most = false := by
  rw [isWithin, decide_eq_false_iff_not, Int.natAbs_natCast,
    Nat.length_toDigits_le_iff (by decide) pos]
  exact Nat.lt_irrefl _

/-- What has a text within the limit. -/
theorem dump_of_isWithin {limit : Option Nat} {j : Json}
    (h : ∀ most ∈ limit, j.isWithin most = true) : j.dump limit = .ok j.text := by
  have none : limit.filter (!j.isWithin ·) = .none :=
    Option.filter_eq_none_iff.mpr fun most given => by simp [h most given]
  rw [dump, none]

theorem dump_eq_error {limit : Option Nat} {j : Json}
    (h : ¬ ∀ most ∈ limit, j.isWithin most = true) :
    ∃ most ∈ limit, j.dump limit = .error most := by
  cases limit with
  | none => exact absurd nofun h
  | some most =>
    refine ⟨most, rfl, ?_⟩
    have exceeded : j.isWithin most = false := by simpa using h
    simp [dump, Option.filter, exceeded]

end Json

variable {reader : Url.Reader}

namespace Codec

variable {s : Settings} {e : Element} {document : Json} {limit : Option Nat}

/-! ### Records -/

theorem outcome_record (h : Recordable s limit document) (event : Event) :
    (record s event document limit).outcome = .ok () := by
  unfold record
  split
  · next recorded =>
    rw [textOf, Json.dump_of_isWithin (h recorded)]
    rfl
  · rfl

theorem record_eq_error (h : ¬ Recordable s limit document) (event : Event) :
    ∃ failure, failure.IsUnrecorded limit ∧
      (record s event document limit).outcome = .error failure := by
  obtain ⟨recorded, exceeded⟩ := Classical.not_imp.mp h
  obtain ⟨most, given, fails⟩ := Json.dump_eq_error exceeded
  refine ⟨_, ⟨most, given, rfl⟩, ?_⟩
  rw [record, if_pos recorded, textOf, fails]
  rfl

/-- What was decoded is parsed if its record is written. -/
theorem outcome_parse_record (s : Settings) (e : Element) (document : Json)
    (limit : Option Nat) :
    (plain.parse s e document limit).outcome =
      (Wire.decode s.rejectUnknown document (.one (.element e)) []).outcome >>= fun message =>
        (record s (.parsed e document) document limit).outcome.map fun _ => message := by
  simp only [parse, plain, runHook, Option.map_none]
  generalize Wire.decode s.rejectUnknown document (.one (.element e)) [] = read
  obtain ⟨events, outcome⟩ := read
  cases outcome with
  | error failure => cases failure <;> rfl
  | ok message =>
    show (record s _ document limit >>= fun _ => pure message).outcome = _
    rw [Traced.outcome_bind]
    cases (record s (.parsed e document) document limit).outcome <;> rfl

theorem outcome_parse_of_recordable (h : Recordable s limit document) (e : Element) :
    (plain.parse s e document limit).outcome =
      (Wire.decode s.rejectUnknown document (.one (.element e)) []).outcome := by
  rw [outcome_parse_record, outcome_record h]
  cases (Wire.decode s.rejectUnknown document (.one (.element e)) []).outcome <;> rfl

theorem outcome_parse (s : Settings) (e : Element) (document : Json) :
    (plain.parse s e document).outcome =
      (Wire.decode s.rejectUnknown document (.one (.element e)) []).outcome :=
  outcome_parse_of_recordable (.unlimited s document) e

theorem parse_eq_ok_iff {message : Value} :
    (plain.parse s e document limit).outcome = .ok message ↔
      (plain.parse s e document).outcome = .ok message ∧ Recordable s limit document := by
  by_cases h : Recordable s limit document
  · rw [outcome_parse_of_recordable h, outcome_parse]
    exact (and_iff_left h).symm
  · obtain ⟨failure, -, fails⟩ := record_eq_error h (.parsed e document)
    rw [outcome_parse_record, fails, Except.bind_eq_ok]
    constructor
    · rintro ⟨_, -, ⟨⟩⟩
    · exact fun parsed => absurd parsed.2 h

/-- What was encoded is serialized if its record is written. -/
theorem outcome_serialize_record (s : Settings) (e : Element) (fs : List (String × Value))
    (limit : Option Nat) :
    (plain.serialize s (.element e fs) limit).outcome =
      (Wire.encode (.element e fs)).mapError Failure.misuse >>= fun document =>
        (record s (.serialized e.name document) document limit).outcome.map fun _ => document := by
  simp only [serialize, plain, runHook, Option.map_none]
  cases Wire.encode (.element e fs) with
  | error fault => rfl
  | ok document =>
    show (record s (.serialized e.name document) document limit >>= fun _ =>
      pure document).outcome = _
    rw [Traced.outcome_bind]
    show _ = (record s (.serialized e.name document) document limit).outcome.map _
    cases (record s (.serialized e.name document) document limit).outcome <;> rfl

theorem outcome_serialize {fs : List (String × Value)}
    (written : Wire.encode (.element e fs) = .ok document) (h : Recordable s limit document) :
    (plain.serialize s (.element e fs) limit).outcome = .ok document := by
  rw [outcome_serialize_record, written]
  show (record s _ document limit).outcome.map _ = _
  rw [outcome_record h]
  rfl

end Codec

end V2G
