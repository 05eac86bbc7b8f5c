import V2G.Codec.Basic
import V2G.Proofs.Outcome

/-!
# What becomes of a correlation

A value that responds to a request is bound to it, or contradicts it. Any other value has no place
in a correlation, whatever it says.
-/

namespace V2G

namespace Exchange

variable {m q : Value}

/-- A response of a class that answers the request, whatever it says. -/
def Responds (m q : Value) : Prop :=
  ∃ e fs, m = .element e fs ∧ e.isResponse = true ∧ answers e q = true

/-- What in a value contradicts a request. -/
def objection? (m q : Value) : Option Violation :=
  (elementOf? m).bind fun e => contradiction? e m q

theorem correlate_of_responds (h : Responds m q) : correlate m q =
    match objection? m q with
    | some v => .error (.error (.violated v))
    | none => .ok m := by
  obtain ⟨e, fs, rfl, response, answered⟩ := h
  simp only [correlate, response, answered, Bool.not_true, Bool.false_eq_true, ↓reduceIte]
  rfl

theorem misuse_of_unanswered {α : Type} (e : Element) (q : Value) :
    ∃ misuse, (unanswered e q : Except Failure α) = .error (.misuse misuse) := by
  unfold unanswered
  cases named : nameOf q with
  | ok name => exact ⟨_, rfl⟩
  | error failure =>
    unfold nameOf at named
    split at named
    · split at named <;> cases named
      exact ⟨_, rfl⟩
    · cases named
      exact ⟨_, rfl⟩

theorem correlate_of_not_responds (h : ¬ Responds m q) :
    ∃ misuse, correlate m q = .error (.misuse misuse) := by
  unfold correlate
  split
  · next e fs =>
    by_cases response : e.isResponse = true
    · by_cases answered : answers e q = true
      · exact absurd ⟨e, fs, rfl, response, answered⟩ h
      · rw [if_neg (by simp [response]), if_pos (by simp [answered])]
        exact misuse_of_unanswered e q
    · rw [if_pos (by simp [response])]
      exact ⟨_, rfl⟩
  · exact ⟨_, rfl⟩

end Exchange

variable {reader : Url.Reader}

open Exchange in
theorem Codec.outcome_parseResponse (c : Codec) (s : Settings) (q : Value) (j : Json) :
    (c.parseResponse s q j).outcome =
      responseOf q >>= fun e => (c.parse s e j).outcome >>= fun m => correlate m q := by
  unfold parseResponse
  rw [Traced.outcome_bind, Traced.outcome_ofExcept]
  refine congrArg (Except.bind (responseOf q)) (funext fun e => ?_)
  rw [Traced.outcome_bind]
  refine congrArg (Except.bind (c.parse s e j).outcome) (funext fun m => ?_)
  split
  · next error refused =>
    rw [refused]
    rfl
  · rfl

end V2G
