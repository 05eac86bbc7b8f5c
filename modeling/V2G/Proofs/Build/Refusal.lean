import V2G.Proofs.Build.ByKey
import V2G.Proofs.Build.Ending

/-!
# How arguments are refused

Values are refused by their faults alone as long as no dictionary is among them, from which an
element would have to be made first (`faulty_read`). An element is refused by faults, or by one
of the errors that a message is reported with: its choice group has no or several members, or its
rule is broken (`refusal_of_build`).
-/

namespace V2G

/-- The errors that a message is reported with. The others are those of callers. -/
def MessageError.IsDiagnostic : MessageError → Prop
  | .missingMandatory _ | .malformed _ _ | .missingChoice _ _ | .conflictingChoice _ _
  | .violated _ => True
  | .choice _ _ _ | .other _ _ => False

theorem MessageError.IsConstraint.isDiagnostic {m : MessageError} (h : m.IsConstraint) :
    m.IsDiagnostic := by
  cases m <;> first | exact h.elim | trivial

namespace Refusal

variable {α β : Type}

/-- If there is a refusal, it tells faults. -/
def Faulty (o : Except Refusal α) : Prop := ∀ r, o = .error r → ∃ is, r = .issues is

theorem faulty_of {o : Except Refusal α} (h : ∀ r, o = .error r → ¬ r.IsEnd) : Faulty o := by
  intro r refused
  simpa [IsEnd] using h r refused

theorem Faulty.not_isEnd {o : Except Refusal α} (h : Faulty o) {r : Refusal}
    (refused : o = .error r) : ¬ r.IsEnd := by
  obtain ⟨is, rfl⟩ := h r refused
  exact not_isEnd_issues is

end Refusal

variable {reader : Url.Reader}

namespace Build

open Refusal

theorem faulty_readItems {k : Kind} {items : List Reading} (h : ∀ read ∈ items, Faulty (read k)) :
    ∀ o ∈ readItems k items, Faulty o := by
  refine fun o ho => faulty_of fun r refused ends => ?_
  subst refused
  obtain ⟨read, hr, refused⟩ := source_of_readItems ho ends
  exact (h read hr).not_isEnd refused ends

/-- A value without dictionaries is refused by its faults. -/
theorem faulty_read (v : Value) (plain : ∀ es, ¬ Value.Part (.dict es) v) (s : Shape) :
    Faulty (read v s) := by
  refine faulty_of fun r refused ends => ?_
  induction v using Value.child_induction generalizing s with
  | step v ih =>
    rcases source_of_read refused ends with
      ⟨es, e, rfl, -, -⟩ | ⟨xs, x, -, -, child, -, refused⟩
    · exact plain es .self
    · exact ih x child (fun es p => plain es (p.trans child.part)) _ refused

theorem faulty_readField {args : Keyed Arg} (h : ∀ p ∈ args, ∀ s, Faulty (p.2.read s))
    (f : Field) : Faulty (readField args f) := by
  refine faulty_of fun r refused ends => ?_
  obtain ⟨p, found, refused⟩ := source_of_readField refused ends
  exact (h p (mem_of_argument found).1 _).not_isEnd refused ends

theorem faulty_readFields {args : Keyed Arg} (h : ∀ p ∈ args, ∀ s, Faulty (p.2.read s))
    (e : Element) : Faulty (readFields e args) := by
  refine faulty_of fun r refused ends => ?_
  obtain ⟨f, -, p, found, refused⟩ := source_of_readFields refused ends
  exact (h p (mem_of_argument found).1 _).not_isEnd refused ends

variable {e : Element} {field : Field → Option Value} {member : Member → Option Value}

theorem faulty_arguments (fields : ∀ f v, field f = some v → ∀ es, ¬ Value.Part (.dict es) v)
    (members : ∀ m v, member m = some v → ∀ es, ¬ Value.Part (.dict es) v) :
    ∀ p ∈ arguments (e.inOrder field member), ∀ s, Faulty (p.2.read s) := by
  rintro ⟨k, a⟩ hp s
  obtain ⟨v, hv, rfl⟩ := mem_arguments hp
  rcases Element.mem_inOrder hv with ⟨f, -, -, hf⟩ | ⟨m, -, -, hm⟩
  · exact faulty_read v (fields f v hf) s
  · exact faulty_read v (members m v hm) s

/-- Arguments by key, without dictionaries, are refused by their faults or by a diagnostic. -/
theorem refusal_of_build (there : There field member)
    (fields : ∀ f v, field f = some v → ∀ es, ¬ Value.Part (.dict es) v)
    (members : ∀ m v, member m = some v → ∀ es, ¬ Value.Part (.dict es) v) {r : Refusal}
    (h : e.build (e.inOrder field member) = .error r) :
    (∃ is, r = .issues is) ∨ ∃ m, r = .message m ∧ m.IsDiagnostic := by
  by_cases ends : r.IsEnd
  · have unnamed {c : ChoiceField} (hc : e.choice = some c) :
        present? (e.inOrder field member) c.name = none :=
      present?_of_unknown known_inOrder (Element.choiceName_not_mem_keys hc)
    rcases source_of_build h ends with objected | ⟨f, hf, p, found, refused⟩
    · cases objected with
      | constraint fits => exact .inr ⟨_, rfl, fits.isDiagnostic⟩
      | unhashable hc ha => cases (unnamed hc).symm.trans ha
      | selected hc ha => cases (unnamed hc).symm.trans ha
      | member hm hx refused =>
        rw [memberArg?_of_known known_inOrder hm, present?_inOrder there hm] at hx
        exact absurd ends ((faulty_read _ (members _ _ hx) _).not_isEnd refused)
    · rw [fieldArg?_of_known known_inOrder hf, Element.get?_inOrder_field hf] at found
      obtain ⟨v, hv, rfl⟩ := Option.map_eq_some_iff.mp found
      exact absurd ends ((faulty_read v (fields f v hv) _).not_isEnd refused)
  · exact .inl (by simpa [IsEnd] using ends)

end Build

end V2G
