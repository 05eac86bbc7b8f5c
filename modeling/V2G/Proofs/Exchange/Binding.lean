import V2G.Exchange.Binding
import V2G.Proofs.Build.Restored
import V2G.Proofs.Exchange.Fitting
import V2G.Proofs.Exchange.Hooks

/-!
# Three ways to bind a response

A response can be correlated with a request, received as its own document, or made again from the
values of its fields. All three ways ask the same of it, since they differ in optional collections
that are empty only, and what decides stands in no collection (`bindings_agree`). Each way adds one
message to what is held, bound to the request, and changes nothing else (`Bound`).
-/

namespace V2G

namespace Exchange

variable {st st' : Store} {i j : Nat} {e e' : Element} {m r q : Value} {fs gs ps : List (String × Value)}

/-- One message more is held, bound to a request. Everything else is held as before. -/
structure Bound (st st' : Store) (message : Value) (request : Nat) : Prop where
  copy : st'[st.length]? = some ⟨message, some request⟩
  rest : ∀ place < st.length, st'[place]? = st[place]?

theorem bound_hold (st : Store) (message : Value) (request : Nat) :
    Bound st (st.hold message (some request)) message request where
  copy := by simp [Store.hold]
  rest place before := by rw [Store.hold, List.getElem?_append_left before]

theorem message_eq {b : Option Nat} (h : st[i]? = some ⟨m, b⟩) : st.message i = m := by
  simp [Store.message, h]

/-! ### Responses of the class that is asked for -/

theorem paired_of_response? (gs : List (String × Value)) (paired : e.response? = some e') :
    e'.isResponse = true ∧ answers e' (.element e gs) = true ∧
      responseOf (.element e gs) = .ok e' := by
  have all : ∀ e ∈ Element.all, ∀ e' ∈ e.response?, e'.isResponse = true ∧
      e'.request? = some e := by
    decide +kernel
  obtain ⟨response, request⟩ := all e e.mem_all e' paired
  refine ⟨response, ?_, ?_⟩
  · unfold answers
    rw [request]
    exact e.isA_self
  · simp only [responseOf, elementOf?, Option.bind_some, paired]

/-- Responses that no rule tells apart in what decides are bound alike. -/
theorem correlate_of_agree (gs : List (String × Value)) (paired : e.response? = some e')
    (agree : ∀ name ∈ deciding,
      Rule.Agree ((Value.element e' fs).field name) ((Value.element e' ps).field name)) :
    correlate (.element e' ps) (.element e gs) =
      match contradiction? e' (.element e' fs) (.element e gs) with
      | some v => .error (.error (.violated v))
      | none => .ok (.element e' ps) := by
  obtain ⟨response, answered, -⟩ := paired_of_response? gs paired
  rw [correlate_of_responds ⟨e', ps, rfl, response, answered⟩, contradiction?_congr agree]
  rfl

theorem no_collection {name : String} (h : name ∈ deciding) : ∀ f ∈ e.fields, f.name = name →
    f.required = false → f.shape.isCollection = false :=
  fun f hf same _ => single_of_deciding e e.mem_all f hf (same ▸ h)

/-- The names of fields are not reserved. -/
theorem names_not_reserved : ∀ e ∈ Element.all,
    (e.slots.map (·.1)).find? reservedNames.contains = none := by
  decide +kernel

section

variable {reader : Url.Reader}

theorem answering_own (paired : e.response? = some e')
    (h : Conforms (.one (.element e')) (.element e' fs)) :
    answering e' (.element e gs) fs =
      (correlate (.element e' (Build.restored e' fs)) (.element e gs)).mapError .failed := by
  obtain ⟨response, answered, -⟩ := paired_of_response? gs paired
  have free : (Keyed.keys fs).find? reservedNames.contains = none :=
    h.names ▸ names_not_reserved e' e'.mem_all
  unfold answering
  rw [if_neg (by simp [response]), free]
  dsimp only
  rw [if_neg (by simp [answered]), Build.build_restored h]

end

section

variable {reader : Url.LawfulReader}

theorem parseResponse_own (paired : e.response? = some e')
    (h : Conforms (.one (.element e')) (.element e' fs)) (short : Short (.element e' fs))
    (s : Settings) :
    (Codec.plain.parseResponse s (.element e gs) (Wire.wireForm (.element e' fs))).outcome =
      correlate (Wire.denote (Wire.wireForm (.element e' fs)) (.one (.element e')))
        (.element e gs) := by
  obtain ⟨-, -, asked⟩ := paired_of_response? gs paired
  have parsed := (Wire.parse_eq_ok (s := s)).mpr ⟨Wire.valid_wireForm h short, rfl⟩
  rw [Codec.outcome_parseResponse, asked]
  show ((Codec.plain.parse s e' (Wire.wireForm (.element e' fs))).outcome >>=
    fun m => correlate m (.element e gs)) = _
  rw [parsed]
  rfl

/-! ### What comes of the three ways -/

/-- All three ways to bind a response to a request that is held succeed if it fits the request, or
they all fail with the same violation. Each binds a message to the request at a place of its own, so
that the response keeps the binding it had. Correlating gives the response itself. Receiving gives a
response that equals it, namely itself, exactly if no optional collection in it is empty, and making
it again exactly if none of its own is. -/
theorem bindings_agree {b b' : Option Nat} (request : st[i]? = some ⟨.element e gs, b⟩)
    (response : st[j]? = some ⟨.element e' fs, b'⟩) (paired : e.response? = some e')
    (hq : Obtainable (fun _ _ => True) (.element e gs))
    (hr : Obtainable (fun _ _ => True) (.element e' fs)) (short : Short (.element e' fs))
    (s s' : Settings) :
    ∃ document, (Codec.plain.serialize s (.element e' fs)).outcome = .ok document ∧
      ((Fits e' (.element e' fs) (.element e gs) ∧
        ∃ correlated received answered parsed built,
          st.correlate j i = .ok correlated ∧ Bound st correlated (.element e' fs) i ∧
          (st.receive .plain s' i document).outcome = .ok received ∧ Bound st received parsed i ∧
          (parsed.same (.element e' fs) = true ↔ Dense (.element e' fs)) ∧
          (Dense (.element e' fs) → parsed = .element e' fs) ∧
          st.answering e' i fs = .ok answered ∧ Bound st answered built i ∧
          (built.same (.element e' fs) = true ↔ Build.Full e' fs) ∧
          (Build.Full e' fs → built = .element e' fs)) ∨
      (¬ Fits e' (.element e' fs) (.element e gs) ∧ ∃ v,
          st.correlate j i = .error (.error (.violated v)) ∧
          (st.receive .plain s' i document).outcome = .error (.error (.violated v)) ∧
          st.answering e' i fs = .error (.failed (.error (.violated v))))) := by
  have conforms := hr.sound.element e' fs .self
  obtain ⟨ps, parsed⟩ : ∃ ps, Wire.denote (Wire.wireForm (.element e' fs)) (.one (.element e')) =
      .element e' ps := by
    rw [Wire.wireForm_element conforms, Wire.denote_obj]
    exact ⟨_, rfl⟩
  -- What decides is the same in the response, in what is parsed and in what is built.
  have read : ∀ name ∈ deciding,
      Rule.Agree ((Value.element e' fs).field name) ((Value.element e' ps).field name) :=
    fun name decides => parsed ▸ Wire.agree_written conforms short (no_collection decides)
  have made : ∀ name ∈ deciding, Rule.Agree ((Value.element e' fs).field name)
      ((Value.element e' (Build.restored e' fs)).field name) := by
    intro name decides
    rw [Build.field_restored, Build.settled_of_full _ (Build.field_ne_list conforms name [])]
    · exact .refl _
    · intro f hf same optional collection
      rw [no_collection decides f hf same optional] at collection
      cases collection
  have own := correlate_of_agree gs paired fun name _ => .refl ((Value.element e' fs).field name)
  refine ⟨_, Wire.outcome_serialize conforms s, ?_⟩
  unfold Store.correlate Store.receive Store.answering
  rw [Traced.outcome_bind, message_eq request, message_eq response,
    parseResponse_own paired conforms short, answering_own paired conforms, parsed, own,
    correlate_of_agree gs paired read, correlate_of_agree gs paired made,
    fits_iff paired conforms (hq.sound.element e gs .self)]
  cases contradiction? e' (.element e' fs) (.element e gs) with
  | none =>
    have back := Wire.parsed_same_iff conforms short
    have again := Build.restored_same_iff conforms
    rw [parsed] at back
    exact .inl ⟨rfl, _, _, _, _, _, rfl, bound_hold st _ i, rfl, bound_hold st _ i, back.1, back.2,
      rfl, bound_hold st _ i, again.1, again.2⟩
  | some v => exact .inr ⟨nofun, v, rfl, rfl, rfl⟩

end

def stopRequestDocument : Json := .obj
  [("messageHeader", .obj [("sessionId", .str "AB"), ("timestamp", .int 1)]),
    ("chargingSession", .str "Terminate")]

open Codec in
def stopStore : Store := [⟨stopRequest, none⟩, ⟨stopResponse, none⟩]

open Codec in
theorem stop_bound : ∃ correlated received answered,
    stopStore.correlate 1 0 = .ok correlated ∧ Bound stopStore correlated stopResponse 0 ∧
      (stopStore.receive .plain {} 0 stopDocument).outcome = .ok received ∧
      Bound stopStore received stopResponse 0 ∧
      stopStore.answering .sessionStopRes 0 stopEntries = .ok answered ∧
      Bound stopStore answered stopResponse 0 := by
  have asked : (plain.parse {} .sessionStopReq stopRequestDocument).outcome = .ok stopRequest := rfl
  have parsed : (plain.parse {} .sessionStopRes stopDocument).outcome = .ok stopResponse := rfl
  obtain ⟨valid, value⟩ := Wire.parse_eq_ok.mp parsed
  have conforms : Conforms (.one (.element .sessionStopRes)) stopResponse :=
    value ▸ Wire.conforms_denote valid nofun
  have dense : Dense stopResponse := value ▸ Wire.dense_denote _ _
  have full : Build.Full .sessionStopRes stopEntries :=
    fun f hf => dense .sessionStopRes stopEntries .self f hf
  have short : Short stopResponse := Wire.short_of_valid conforms dense valid
  have request : stopStore[0]? = some ⟨stopRequest, none⟩ := rfl
  have response : stopStore[1]? = some ⟨stopResponse, none⟩ := rfl
  have obtained : @Obtainable Url.lawfulAscii.toReader (fun _ _ => True) stopResponse :=
    .parsed parsed
  obtain ⟨document, written, outcome⟩ :=
    bindings_agree request response rfl (.parsed asked) obtained short {} {}
  obtain rfl : stopDocument = document := Except.ok.inj written
  rcases outcome with ⟨-, ways⟩ | ⟨unfit, -⟩
  · obtain ⟨correlated, received, answered, _, _, h₁, bound₁, h₂, bound₂, -, same₂, h₃, bound₃, -,
      same₃⟩ := ways
    obtain rfl := same₂ dense
    obtain rfl := same₃ full
    exact ⟨correlated, received, answered, h₁, bound₁, h₂, bound₂, h₃, bound₃⟩
  · exact absurd trivial unfit

end Exchange

end V2G
