import V2G.Value.Equality

/-!
# Properties of the declarations

What all declarations have in common, checked over the list of elements: within an element no
key and no name stands for two things, no key is empty, an optional collection may be empty and a
mandatory one may not, a set needs one entry at most, and no field asks for a class that others
extend.
-/

namespace V2G

/-- The fewest entries of a collection. -/
def Shape.least : Shape → Nat
  | .one _ => 1
  | .list _ least _ | .set _ least _ => least

namespace Element

theorem mem_all (e : Element) : e ∈ all := by cases e <;> decide

/-- Names and keys are apart. They are checked together, so that each declaration is put
together once. -/
theorem namesApart : ∀ e ∈ all, e.keys.Nodup ∧ (e.slots.map (·.1)).Nodup ∧
    (e.members.map (·.name)).Nodup ∧ (∀ f ∈ e.fields, f.name = f.key ∨ f.name ∉ e.keys) ∧
    (∀ m ∈ e.members, m.name ∉ e.keys) ∧ ∀ c ∈ e.choice, c.name ∉ e.keys := by
  decide +kernel

theorem keys_nodup (e : Element) : e.keys.Nodup := (namesApart e e.mem_all).1

theorem slotNames_nodup (e : Element) : (e.slots.map (·.1)).Nodup := (namesApart e e.mem_all).2.1

theorem memberNames_nodup (e : Element) : (e.members.map (·.name)).Nodup :=
  (namesApart e e.mem_all).2.2.1

theorem keysNamed : ∀ e ∈ all, "" ∉ e.keys := by
  decide +kernel

theorem ne_empty_of_key {e : Element} {k : String} (h : k ∈ e.keys) : k ≠ "" :=
  fun empty => keysNamed e e.mem_all (empty ▸ h)

variable {e : Element} {f : Field}

theorem members_eq {c : ChoiceField} (hc : e.choice = some c) : e.members = c.group.members := by
  simp [members, hc]

/-- The name of a field is the key of no other. -/
theorem name_eq_key (hf : f ∈ e.fields) (h : f.name ∈ e.keys) : f.name = f.key :=
  ((namesApart e e.mem_all).2.2.2.1 f hf).resolve_right fun apart => apart h

theorem memberName_not_mem_keys {m : Member} (hm : m ∈ e.members) : m.name ∉ e.keys :=
  (namesApart e e.mem_all).2.2.2.2.1 m hm

theorem choiceName_not_mem_keys {c : ChoiceField} (hc : e.choice = some c) : c.name ∉ e.keys :=
  (namesApart e e.mem_all).2.2.2.2.2 c hc

/-- The classes that others extend. -/
def bases : List Element := all.filterMap parent

/-- Whether a kind is a class that others extend. -/
def isBaseKind : Kind → Bool
  | .element e => bases.contains e
  | _ => false

/-- Lineages and the shapes of fields, checked together. -/
theorem shapesSane : ∀ e ∈ all, e.isA e = true ∧ (∀ e₁ ∈ e.lineage, e = e₁ ∨ e₁ ∈ bases) ∧
    ∀ f ∈ e.fields, isBaseKind f.shape.kind = false ∧
      (f.shape.isUnordered = true → f.shape.least ≤ 1) ∧
      (f.required = false → f.shape.isCollection = true → f.shape.least = 0) ∧
      (f.required = true → f.shape.least ≠ 0) := by
  decide +kernel

theorem least_of_optional (hf : f ∈ e.fields) (h : f.required = false)
    (hc : f.shape.isCollection = true) : f.shape.least = 0 :=
  ((shapesSane e e.mem_all).2.2 f hf).2.2.1 h hc

theorem least_of_set (hf : f ∈ e.fields) (h : f.shape.isUnordered = true) : f.shape.least ≤ 1 :=
  ((shapesSane e e.mem_all).2.2 f hf).2.1 h

theorem isA_self (e : Element) : e.isA e = true := (shapesSane e e.mem_all).1

theorem eq_or_mem_bases {e₁ e₂ : Element} (h : e₂.isA e₁ = true) : e₂ = e₁ ∨ e₁ ∈ bases :=
  (shapesSane e₂ e₂.mem_all).2.1 e₁ (List.contains_iff_mem.mp h)

theorem isBaseKind_field (hf : f ∈ e.fields) : isBaseKind f.shape.kind = false :=
  ((shapesSane e e.mem_all).2.2 f hf).1

end Element

end V2G
