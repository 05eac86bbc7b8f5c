import V2G.Proofs.Wire.Legible
import V2G.Proofs.Wire.Written

/-!
# Texts of messages

The JSON text of a message and the document under its name are read as the message that the
document stands for, from characters and from bytes: nothing stands in such a document that its
text would not tell (`legible_wireForm`).
-/

namespace V2G

namespace Wire

variable {limit : Option Nat}

/-! ### Messages in texts -/

theorem registered_messages : ∀ e ∈ Element.registered, e.isMessage = true ∧
    Element.ofMessageName? e.messageName = some e := by
  decide +kernel

section

variable {reader : Url.Reader}

theorem outcome_parse_of_legible {j : Json} (legible : Json.Legible limit j) (s : Settings)
    (e : Element) :
    (Codec.plain.parse s e j limit).outcome = (Codec.plain.parse s e j).outcome := by
  rw [Codec.outcome_parse_of_recordable (fun _ => legible.isWithin), Codec.outcome_parse]

theorem outcome_fromText {j : Json} (legible : Json.Legible limit j) (s : Settings) (e : Element) :
    (Codec.plain.fromText s e j.text.toList limit).outcome = (Codec.plain.parse s e j).outcome := by
  unfold Codec.fromText
  rw [Json.text, String.toList_ofList, Json.read_write legible]
  exact outcome_parse_of_legible legible s e

theorem outcome_fromBytes {j : Json} (legible : Json.Legible limit j) (s : Settings) (e : Element) :
    (Codec.plain.fromBytes s e (Text.utf8Bytes j.text) limit).outcome =
      (Codec.plain.parse s e j).outcome := by
  unfold Codec.fromBytes
  rw [Json.decode_write legible]
  dsimp only
  rw [Json.readBody_write legible]
  exact outcome_parse_of_legible legible s e

theorem outcome_parseNamed {e : Element} (registered : e ∈ Element.registered) (s : Settings)
    (document : Json) :
    (Codec.plain.parseNamed s (.obj [(e.messageName, document)])).outcome =
      (Codec.plain.parse s e document).outcome := by
  simp only [Codec.parseNamed, (registered_messages e registered).2]

theorem outcome_toText {e : Element} {fs : List (String × Value)}
    (h : Conforms (.one (.element e)) (.element e fs)) (s : Settings) :
    (Codec.plain.toText s (.element e fs)).outcome = .ok (wireForm (.element e fs)).text := by
  rw [Codec.toText, Traced.outcome_bind, outcome_serialize h]
  rfl

theorem outcome_serializeNamed {e : Element} {fs : List (String × Value)}
    (registered : e ∈ Element.registered) (h : Conforms (.one (.element e)) (.element e fs))
    (s : Settings) :
    (Codec.plain.serializeNamed s (.element e fs)).outcome =
      .ok (.obj [(e.messageName, wireForm (.element e fs))]) := by
  have name : Exchange.nameOf (.element e fs) = .ok e.messageName := by
    simp only [Exchange.nameOf, (registered_messages e registered).1, ↓reduceIte]
  rw [Codec.serializeNamed, name]
  show (Codec.plain.serialize s (.element e fs) >>= fun document =>
    pure (Json.obj [(e.messageName, document)])).outcome = _
  rw [Traced.outcome_bind, outcome_serialize h]
  rfl

end

section

variable {reader : Url.LawfulReader}

/-- The text of a message, its bytes and the text of the document under its name are all read, and
as one and the same message. That is the message itself, exactly if no optional collection in it is
empty. -/
theorem text_round_trip {e : Element} {fs : List (String × Value)}
    (registered : e ∈ Element.registered) (h : Obtainable (fun _ _ => True) (.element e fs))
    (short : Short (.element e fs)) (digits : WithinDigits limit (.element e fs))
    (s s' : Settings) :
    ∃ text envelope fs',
      (Codec.plain.toText s (.element e fs)).outcome = .ok text ∧
      (∀ c ∈ text.toList, c.toNat < 0x80) ∧
      (Codec.plain.serializeNamed s (.element e fs)).outcome = .ok envelope ∧
      (Codec.plain.fromText s' e text.toList limit).outcome = .ok (.element e fs') ∧
      (Codec.plain.fromBytes s' e (Text.utf8Bytes text) limit).outcome = .ok (.element e fs') ∧
      Json.read envelope.text.toList limit = .ok envelope ∧
      (Codec.plain.parseNamed s' envelope).outcome = .ok (.element e fs') ∧
      ((Value.element e fs').same (.element e fs) = true ↔ Dense (.element e fs)) ∧
      (Dense (.element e fs) → fs' = fs) := by
  have conforms := h.sound.element e fs .self
  have legible := legible_wireForm conforms digits
  have back := parsed_same_iff conforms short
  obtain ⟨fs', value⟩ : ∃ fs', denote (wireForm (.element e fs)) (.one (.element e)) =
      .element e fs' := by
    rw [wireForm_element conforms, denote_obj]
    exact ⟨_, rfl⟩
  have parsed : (Codec.plain.parse s' e (wireForm (.element e fs))).outcome =
      .ok (.element e fs') :=
    parse_eq_ok.mpr ⟨valid_wireForm conforms short, value.symm⟩
  have whole : Json.Legible limit (.obj [(e.messageName, wireForm (.element e fs))]) :=
    .obj (List.nodup_singleton _) fun k j hj => by
      cases List.mem_singleton.mp hj
      exact legible
  rw [value] at back
  refine ⟨_, _, fs', outcome_toText conforms s, fun c hc => ?_,
    outcome_serializeNamed registered conforms s,
    (outcome_fromText legible s' e).trans parsed, (outcome_fromBytes legible s' e).trans parsed,
    ?_, (outcome_parseNamed registered s' _).trans parsed, back.1, fun dense => ?_⟩
  · rw [Json.text, String.toList_ofList] at hc
    exact Nat.lt_succ_of_lt (Json.visible_write legible c hc).2
  · rw [Json.text, String.toList_ofList]
    exact Json.read_write whole
  · cases back.2 dense
    rfl

end

/-- A text with a quotation mark, a line feed and a character beyond the sixteenth bit. -/
def farewellDocument : Json := .obj
  [("messageHeader", .obj [("sessionId", .str "AB"), ("timestamp", .int 1)]),
    ("chargingSession", .str "Terminate"), ("evTerminationExplanation", .str "\"Tschüß\"\n😀")]

def farewell : List (String × Value) :=
  [("header", minimalHeader), ("charging_session", .token .chargingSession "Terminate"),
    ("ev_termination_code", .none), ("ev_termination_explanation", .text "\"Tschüß\"\n😀")]

theorem farewell_read : ∃ text envelope,
    (Codec.plain.toText {} (.element .sessionStopReq farewell)).outcome = .ok text ∧
      (Codec.plain.serializeNamed {} (.element .sessionStopReq farewell)).outcome =
        .ok envelope ∧
      (Codec.plain.fromText {} .sessionStopReq text.toList none).outcome =
        .ok (.element .sessionStopReq farewell) ∧
      (Codec.plain.fromBytes {} .sessionStopReq (Text.utf8Bytes text) none).outcome =
        .ok (.element .sessionStopReq farewell) ∧
      Json.read envelope.text.toList none = .ok envelope ∧
      (Codec.plain.parseNamed {} envelope).outcome = .ok (.element .sessionStopReq farewell) := by
  have parsed : (Codec.plain.parse {} .sessionStopReq farewellDocument).outcome =
      .ok (.element .sessionStopReq farewell) := rfl
  obtain ⟨valid, value⟩ := parse_eq_ok.mp parsed
  have conforms : Conforms (.one (.element .sessionStopReq)) (.element .sessionStopReq farewell) :=
    value ▸ conforms_denote valid nofun
  have dense : Dense (.element .sessionStopReq farewell) := value ▸ dense_denote _ _
  have short := short_of_valid conforms dense valid
  have digits : WithinDigits none (.element .sessionStopReq farewell) := fun _ _ => nofun
  have obtained : @Obtainable Url.lawfulAscii.toReader (fun _ _ => True)
      (.element .sessionStopReq farewell) := .parsed parsed
  obtain ⟨text, envelope, fs', written, -, named, chars, bytes, read, again, -, same⟩ :=
    text_round_trip (by decide) obtained short digits {} {}
  cases same dense
  exact ⟨text, envelope, written, named, chars, bytes, read, again⟩

end Wire

end V2G
