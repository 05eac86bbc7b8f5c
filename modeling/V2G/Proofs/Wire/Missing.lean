import V2G.Proofs.Wire.Place
import V2G.Proofs.Wire.Written

/-!
# Missing keys

A mandatory key that is taken out of a valid document, or set to null, is what parsing complains
about, wherever in the document it stands (`missing_at`). All that is read before it is as it was,
and everything else comes after it: the keys after it, the rest of the elements that it stands in,
and what building them would refuse. For the documents that messages are written as this is
`missing_named`.
-/

namespace V2G.Wire

variable {strict : Bool} {e : Element} {s : Shape} {j : Json} {p : Path} {ms ms' : Keyed Json}
  {f : Field} {key : String}

theorem member?_erase_self : member? (Keyed.erase ms key) key = none := by
  rw [member?, Keyed.get?_erase_self]
  rfl

theorem member?_erase_of_ne {k : String} (h : key ≠ k) :
    member? (Keyed.erase ms key) k = member? ms k := by
  rw [member?, Keyed.get?_erase_of_ne h, member?]

theorem member?_update_null : member? (Keyed.update ms key fun _ => .null) key = none := by
  rw [member?, Keyed.get?_update_self]
  cases Keyed.get? ms key <;> rfl

section

variable {reader : Url.Reader}

/-- An object that lacks a mandatory key is refused for it, if all other keys are as in a valid
object. -/
theorem decode_of_missing (valid : Valid strict (.one (.element e)) (.obj ms))
    (hf : f ∈ e.mandatoryFields) (gone : member? ms' f.key = none)
    (others : ∀ k, f.key ≠ k → member? ms' k = member? ms k) (path : Path) :
    (decode strict (.obj ms') (.one (.element e)) path).outcome =
      .error (.error (.missingMandatory (path ++ [.key f.key]))) := by
  obtain ⟨hf, required⟩ := List.mem_filter.mp hf
  obtain ⟨before, after, split⟩ := List.append_of_mem (Element.mem_inspected.mpr (.inl hf))
  have passes : ∀ g ∈ before, Passes strict ms' g := by
    intro g hg
    have inspected : g ∈ e.inspected := split ▸ List.mem_append_left _ hg
    have same := others g.key (Element.key_ne_of_before split hg)
    exact passes_congr same (valid.passes inspected)
  refine decodeObject_eq_error.mpr (.inl ⟨before, f, after, split, passes, ?_⟩)
  exact decodeField_eq_error.mpr (.inl ⟨gone, required, rfl⟩)

/-- Wherever an object in a valid document is changed into one that lacks a mandatory key, the key
is named. -/
theorem missing_at (valid : Valid strict s j) (h : At s j p (.one (.element e)) (.obj ms))
    (hf : f ∈ e.mandatoryFields) {g : Json → Json} (changed : g (.obj ms) = .obj ms')
    (gone : member? ms' f.key = none)
    (others : ∀ k, f.key ≠ k → member? ms' k = member? ms k) :
    (decode strict (j.edit g p) s []).outcome =
      .error (.error (.missingMandatory (p ++ [.key f.key]))) := by
  have reached := reached_edit h valid (f := g) (by rw [changed]; rfl)
  refine decode_of_reached reached ?_
  rw [changed]
  exact decode_of_missing (h.valid valid) hf gone others p

theorem missing_of_without (valid : Valid strict s j)
    (h : At s j p (.one (.element e)) (.obj ms)) (hf : f ∈ e.mandatoryFields) :
    (decode strict (j.edit (·.without f.key) p) s []).outcome =
      .error (.error (.missingMandatory (p ++ [.key f.key]))) :=
  missing_at valid h hf rfl member?_erase_self fun _ other => member?_erase_of_ne other

theorem missing_of_null (valid : Valid strict s j)
    (h : At s j p (.one (.element e)) (.obj ms)) (hf : f ∈ e.mandatoryFields) :
    (decode strict (j.edit (fun _ => .null) (p ++ [.key f.key])) s []).outcome =
      .error (.error (.missingMandatory (p ++ [.key f.key]))) := by
  rw [Json.edit_append]
  exact missing_at valid h hf rfl member?_update_null fun _ other => member?_update_of_ne other

end

section

variable {reader : Url.LawfulReader}

/-- Whatever element a program has, as long as the URLs in it are short enough to be read again:
if any mandatory key is taken out of the document that it is written as, or is set to null there,
parsing fails and names the path of the key. -/
theorem missing_named {e : Element} {fs : List (String × Value)}
    (h : Obtainable (fun _ _ => True) (.element e fs)) (short : Short (.element e fs))
    (s s' : Settings) :
    ∃ document, (Codec.plain.serialize s (.element e fs)).outcome = .ok document ∧
      ∀ p e' ms f, At (.one (.element e)) document p (.one (.element e')) (.obj ms) →
        f ∈ e'.mandatoryFields →
        (Codec.plain.parse s' e (document.edit (·.without f.key) p)).outcome =
            .error (.error (.missingMandatory (p ++ [.key f.key]))) ∧
          (Codec.plain.parse s' e
              (document.edit (fun _ => .null) (p ++ [.key f.key]))).outcome =
            .error (.error (.missingMandatory (p ++ [.key f.key]))) := by
  have conforms := h.sound.element e fs .self
  have valid : Valid s'.rejectUnknown (.one (.element e)) (wireForm (.element e fs)) :=
    valid_wireForm conforms short
  refine ⟨_, outcome_serialize conforms s, fun p e' ms f place hf => ?_⟩
  rw [Codec.outcome_parse, Codec.outcome_parse]
  exact ⟨missing_of_without valid place hf, missing_of_null valid place hf⟩

end

theorem short_minimalHeader : Short minimalHeader := by
  intro t p
  cases p with
  | inside c p =>
    cases c with
    | element hx =>
      simp only [List.mem_cons, Prod.mk.injEq, List.not_mem_nil, or_false] at hx
      rcases hx with ⟨-, rfl⟩ | ⟨-, rfl⟩ | ⟨-, rfl⟩
      all_goals
        cases p with
        | inside c _ => cases c

theorem short_emptyServices : Short (.element .serviceDiscoveryReq emptyServices) := by
  intro t p
  cases p with
  | inside c p =>
    cases c with
    | element hx =>
      simp only [emptyServices, List.mem_cons, Prod.mk.injEq, List.not_mem_nil, or_false] at hx
      rcases hx with ⟨-, rfl⟩ | ⟨-, rfl⟩
      · exact short_minimalHeader t p
      · cases p with
        | inside c _ =>
          cases c with
          | tuple none => exact absurd none List.not_mem_nil

/-- The timestamp of a header that is taken out, or set to null. -/
theorem timestamp_named : ∃ document,
    (Codec.plain.serialize {} (.element .serviceDiscoveryReq emptyServices)).outcome =
        .ok document ∧
      (Codec.plain.parse {} .serviceDiscoveryReq
          (document.edit (·.without "timestamp") [.key "messageHeader"])).outcome =
        .error (.error (.missingMandatory [.key "messageHeader", .key "timestamp"])) ∧
      (Codec.plain.parse {} .serviceDiscoveryReq
          (document.edit (fun _ => .null) [.key "messageHeader", .key "timestamp"])).outcome =
        .error (.error (.missingMandatory [.key "messageHeader", .key "timestamp"])) := by
  have header : ⟨"header", "messageHeader", true, .one (.element .messageHeader)⟩ ∈
      Element.inspected .serviceDiscoveryReq := by decide
  have timestamp : ⟨"timestamp", "timestamp", true, .one .uint64⟩ ∈
      Element.mandatoryFields .messageHeader := by decide
  have obtained : @Obtainable Url.lawfulAscii.toReader (fun _ _ => True)
      (.element .serviceDiscoveryReq emptyServices) := emptyServices_kept.1
  obtain ⟨document, serialized, named⟩ := missing_named obtained short_emptyServices {} {}
  refine ⟨document, serialized, ?_⟩
  cases serialized
  exact named [.key "messageHeader"] _ _ _ (.entry header rfl .here) timestamp

end V2G.Wire
