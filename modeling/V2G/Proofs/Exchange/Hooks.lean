import V2G.Proofs.Exchange.Correlation
import V2G.Proofs.Wire.RoundTrip

/-!
# Hooks

A hook has no say in whether a document is read: after a successful reading it gives the message,
or it fails and the message stands (`outcome_parse_afterHook`). What it gives in place of a response
is bound to the request all the same, so that anything that is no response to the request ends the
parsing of a response with an error about the call.
-/

namespace V2G.Codec

open Exchange

variable {s : Settings} {e : Element} {j : Json} {limit : Option Nat} {m q r : Value}

/-- The message that a caller gets for one that was read: what the hook makes of it, or the message
itself where the hook fails. -/
def afterHook (c : Codec) (document : Json) (message : Value) : Value :=
  (c.afterParse.bind fun hook => hook document message).getD message

theorem outcome_runHook {α : Type} (point : HookPoint) (title type : String) (given : α)
    (hook : Option (Unit → Option α)) :
    (runHook point title type given hook).outcome =
      .ok ((hook.bind fun run => run ()).getD given) := by
  cases hook with
  | none => rfl
  | some run =>
    unfold runHook
    rw [Option.bind_some, Traced.outcome_bind, Traced.outcome_emit]
    dsimp only [bind, Except.bind]
    cases run () <;> rfl

section

variable {reader : Url.Reader}

theorem outcome_parse_afterHook (c : Codec) (s : Settings) (e : Element) (j : Json)
    (limit : Option Nat) :
    (c.parse s e j limit).outcome = (plain.parse s e j limit).outcome.map (c.afterHook j) := by
  have bound (m : Value) : (c.afterParse.map fun hook _ => hook j m).bind (fun run => run ()) =
      c.afterParse.bind fun hook => hook j m := by
    cases c.afterParse <;> rfl
  rw [outcome_parse_record]
  unfold parse
  generalize Wire.decode s.rejectUnknown j (.one (.element e)) [] = read
  obtain ⟨events, outcome⟩ := read
  cases outcome with
  | error failure => cases failure <;> rfl
  | ok m =>
    dsimp only
    rw [Traced.outcome_bind]
    show (record s (.parsed e j) j limit >>= fun _ => runHook .afterParse m.shown m.typeName m
      (c.afterParse.map fun hook _ => hook j m)).outcome =
        ((record s (.parsed e j) j limit).outcome.map fun _ => m).map (c.afterHook j)
    rw [Traced.outcome_bind]
    cases (record s (.parsed e j) j limit).outcome with
    | error failure => rfl
    | ok =>
      show (runHook .afterParse m.shown m.typeName m
        (c.afterParse.map fun hook _ => hook j m)).outcome = .ok (c.afterHook j m)
      rw [outcome_runHook, bound]
      rfl

theorem parse_afterHook (c : Codec) (h : (plain.parse s e j limit).outcome = .ok m) :
    (c.parse s e j limit).outcome = .ok (c.afterHook j m) := by
  rw [outcome_parse_afterHook, h]
  rfl

theorem parseReading_afterHook (c : Codec) {read : Except String Json}
    (h : (plain.parseReading s e read limit).outcome = .ok m) :
    ∃ j, read = .ok j ∧ (c.parseReading s e read limit).outcome = .ok (c.afterHook j m) := by
  cases read with
  | ok j => exact ⟨j, rfl, c.parse_afterHook h⟩
  | error reason => cases h

theorem parseNamed_afterHook (c : Codec) (h : (plain.parseNamed s j).outcome = .ok m) :
    ∃ name body, j = .obj [(name, body)] ∧
      (c.parseNamed s j).outcome = .ok (c.afterHook body m) := by
  unfold parseNamed at h ⊢
  split at h
  · next name body =>
    split at h
    · next e named =>
      refine ⟨name, body, rfl, ?_⟩
      exact c.parse_afterHook h
    · cases h
  · cases h

/-- In place of a response that fits the request, what the hook gives is correlated with it. -/
theorem parseResponse_afterHook (c : Codec) (h : (plain.parseResponse s q j).outcome = .ok r) :
    correlate r q = .ok r ∧ (c.parseResponse s q j).outcome = correlate (c.afterHook j r) q := by
  rw [outcome_parseResponse] at h
  obtain ⟨e, paired, h⟩ := Except.bind_eq_ok.mp h
  obtain ⟨m, parsed, bound⟩ := Except.bind_eq_ok.mp h
  obtain rfl : r = m := correlate_eq_ok bound
  refine ⟨bound, ?_⟩
  rw [outcome_parseResponse, paired]
  show ((c.parse s e j).outcome >>= fun m => correlate m q) = _
  rw [c.parse_afterHook parsed]
  rfl

/-- Whatever hook there is, a document that is parsed without it is parsed with it. So is a
response, unless the hook gives in its place what contradicts the request, or what does not respond
to the request at all: then parsing ends with an error about the call. -/
theorem hooks_keep_success (c : Codec) (s : Settings) :
    (∀ e j m, (plain.parse s e j).outcome = .ok m →
      (c.parse s e j).outcome = .ok (c.afterHook j m)) ∧
    (∀ e text m, (plain.fromText s e text).outcome = .ok m →
      ∃ j, (c.fromText s e text).outcome = .ok (c.afterHook j m)) ∧
    (∀ e bytes m, (plain.fromBytes s e bytes).outcome = .ok m →
      ∃ j, (c.fromBytes s e bytes).outcome = .ok (c.afterHook j m)) ∧
    (∀ j m, (plain.parseNamed s j).outcome = .ok m →
      ∃ body, (c.parseNamed s j).outcome = .ok (c.afterHook body m)) ∧
    ∀ q j r, (plain.parseResponse s q j).outcome = .ok r →
      (c.afterHook j r = r → (c.parseResponse s q j).outcome = .ok r) ∧
      (Responds (c.afterHook j r) q → (c.parseResponse s q j).outcome =
        match objection? (c.afterHook j r) q with
        | some v => .error (.error (.violated v))
        | none => .ok (c.afterHook j r)) ∧
      (¬ Responds (c.afterHook j r) q →
        ∃ misuse, (c.parseResponse s q j).outcome = .error (.misuse misuse)) := by
  refine ⟨fun e j m => c.parse_afterHook, fun e text m h => ?_, fun e bytes m h => ?_,
    fun j m h => ?_, fun q j r h => ?_⟩
  · obtain ⟨j, -, parsed⟩ := c.parseReading_afterHook h
    exact ⟨j, parsed⟩
  · obtain ⟨j, -, parsed⟩ := c.parseReading_afterHook h
    exact ⟨j, parsed⟩
  · obtain ⟨-, body, -, parsed⟩ := c.parseNamed_afterHook h
    exact ⟨body, parsed⟩
  · obtain ⟨bound, outcome⟩ := c.parseResponse_afterHook h
    rw [outcome]
    refine ⟨fun stands => ?_, correlate_of_responds, correlate_of_not_responds⟩
    rw [stands, bound]

end

def stopRequest : Value := .element .sessionStopReq
  [("header", Wire.minimalHeader), ("charging_session", .token .chargingSession "Terminate"),
    ("ev_termination_code", .none), ("ev_termination_explanation", .none)]

def stopEntries : List (String × Value) :=
  [("header", Wire.minimalHeader), ("response_code", .token .responseCode "OK")]

def stopResponse : Value := .element .sessionStopRes stopEntries

def stopDocument : Json := .obj
  [("messageHeader", .obj [("sessionId", .str "AB"), ("timestamp", .int 1)]),
    ("responseCode", .str "OK")]

/-- A hook that gives a number in place of each message. -/
def numbering : Codec := ⟨some fun _ _ => some (.element .rationalNumber Obtainable.five), none⟩

/-- A hook that fails. -/
def failing : Codec := ⟨some fun _ _ => none, none⟩

theorem number_for_response :
    (plain.parseResponse {} stopRequest stopDocument).outcome = .ok stopResponse ∧
      (∃ misuse, (numbering.parseResponse {} stopRequest stopDocument).outcome =
        .error (.misuse misuse)) ∧
      (numbering.parse {} .sessionStopRes stopDocument).outcome =
        .ok (.element .rationalNumber Obtainable.five) ∧
      (failing.parseResponse {} stopRequest stopDocument).outcome = .ok stopResponse := by
  have parsed : (plain.parseResponse {} stopRequest stopDocument).outcome = .ok stopResponse := rfl
  have unrelated : ¬ Responds (numbering.afterHook stopDocument stopResponse) stopRequest := by
    rintro ⟨e, fs, ⟨⟩, response, -⟩
    exact absurd response (by decide)
  exact ⟨parsed, ((hooks_keep_success numbering {}).2.2.2.2 _ _ _ parsed).2.2 unrelated,
    (hooks_keep_success numbering {}).1 _ _ _ rfl,
    ((hooks_keep_success failing {}).2.2.2.2 _ _ _ parsed).1 rfl⟩

end V2G.Codec
