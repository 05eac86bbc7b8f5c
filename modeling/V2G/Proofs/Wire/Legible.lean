import V2G.Proofs.Json.RoundTrip
import V2G.Proofs.Wire.Encode

/-!
# What a text tells of what is written

Whatever conforms is written as a document that can be read back from its text (`legible_wireForm`)
and recorded (`recordable_wireForm`), if no integer in it has too many digits.
-/

namespace V2G

/-- No integer in the value has more digits than the limit allows. -/
def WithinDigits (limit : Option Nat) (v : Value) : Prop :=
  ∀ n, Value.Part (.int n) v → ∀ most ∈ limit, (Nat.toDigits 10 n.natAbs).length ≤ most

namespace WithinDigits

variable {limit : Option Nat} {v w : Value}

theorem part (h : WithinDigits limit v) (hw : w.Part v) : WithinDigits limit w :=
  fun n p => h n (p.trans hw)

theorem of_children
    (here : ∀ n, v = .int n → ∀ most ∈ limit, (Nat.toDigits 10 n.natAbs).length ≤ most)
    (children : ∀ x, x.Child v → WithinDigits limit x) : WithinDigits limit v := by
  intro n p
  cases p with
  | self => exact here n rfl
  | inside c p => exact children _ c n p

theorem element {e : Element} {fs : List (String × Value)}
    (h : ∀ k x, (k, x) ∈ fs → WithinDigits limit x) : WithinDigits limit (.element e fs) :=
  of_children nofun fun x c => by cases c with | element hx => exact h _ x hx

end WithinDigits

/-- What can be read back can be recorded. -/
theorem Json.Legible.isWithin {limit : Option Nat} {j : Json} (h : Legible limit j) :
    ∀ most ∈ limit, j.isWithin most = true := by
  intro most given
  induction h with
  | int within => simpa [Json.isWithin] using within most given
  | arr _ ih => exact itemsWithin_iff.mpr ih
  | obj _ _ ih => exact membersWithin_iff.mpr ih
  | _ => rfl

variable {reader : Url.Reader}

namespace Wire

variable {limit : Option Nat}

theorem legible_scalar {k : Kind} {v : Value} (h : k.Holds v) (digits : WithinDigits limit v) :
    Json.Legible limit (wireForm v) := by
  cases k <;> cases v <;> first | exact h.elim | skip
  · exact .int (digits _ .self)
  · exact .bool _
  · exact .str _
  · exact .str _
  · exact .str _
  · exact .str _
  · exact .str _

theorem legible_tuple {s : Shape} {xs : List Value} (conforms : ∀ x ∈ xs, Conforms s x)
    (h : ∀ x ∈ xs, Json.Legible limit (wireForm x)) :
    Json.Legible limit (wireForm (.tuple xs)) := by
  rw [wireForm_tuple conforms]
  exact .arr (List.forall_mem_map.mpr h)

/-- What is written of a conforming value is legible. -/
theorem legible_wireForm {s : Shape} {v : Value} (h : Conforms s v)
    (digits : WithinDigits limit v) : Json.Legible limit (wireForm v) := by
  induction h with
  | scalar h => exact legible_scalar h digits
  | list items _ _ ih | set items _ _ _ ih =>
    exact legible_tuple items fun x hx => ih x hx (digits.part (Value.Child.tuple hx).part)
  | @element e fs names required fields selection chosen rule ihf ihc =>
    rw [wireForm_element (.element names required fields selection chosen rule)]
    refine .obj (Element.keys_inOrder_nodup ..) fun k j hj => ?_
    rcases Element.mem_inOrder hj with ⟨f, hf, rfl, written⟩ | ⟨m, hm, rfl, written⟩
    · rw [writtenField] at written
      split at written
      · cases written
        by_cases none : (Value.element e fs).field f.name = .none
        · rw [none]
          exact .null
        · exact ihf f hf none (digits.part (Value.part_of_field names hf))
      · cases written
    · obtain ⟨w, one, rfl⟩ := Option.map_eq_some_iff.mp written
      obtain ⟨c, hc, one⟩ := Option.bind_eq_some_iff.mp one
      obtain ⟨hm, value⟩ : m ∈ c.group.members ∧
          (Value.element e fs).field c.name = .choice m.name w := by
        refine ⟨Element.members_eq hc ▸ hm, ?_⟩
        unfold selected at one
        split at one
        · next name x value =>
          split at one
          · next same =>
            cases one
            rw [value, same]
          · cases one
        · cases one
      exact ihc c m w hc hm value (digits.part (Value.part_of_selection names hc value))

end Wire

end V2G
