import V2G.Proofs.Wire.Legible
import V2G.Proofs.Wire.Place

/-!
# The canonical object

What an element looks like on the wire, told along the declarations: in its object stand the keys
of the mandatory fields, then those of the optional fields that are present, then the key of the
selected member, and so in every element within it. Nothing is null and no array is empty. That
no member is looked up in vain and nothing required is empty comes from conformance and not from
writing (`canonical_of_conforms`). It holds of whatever a program can obtain
(`serialize_canonical`), be it from mappings (`Obtainable.mapped`); only a mapping whose selection
is none that the choice group takes makes an element that may be written in another shape, or not
at all.
-/

namespace V2G.Wire

/-- The texts that scalars go by on the wire. -/
def Spelled : Value → String → Prop
  | .text s, t | .token _ s, t | .identifier _ s, t | .url s, t => t = s
  | .bytes data, t => Base64.decode t.toList = .ok data
  | _, _ => False

/-- The keys of the members that a selection names. -/
def selectedKeys (c : ChoiceField) (v : Value) : List String :=
  (c.group.members.filter fun m => (selected v m).isSome).map (·.key)

/-- The keys of an element on the wire. -/
def canonicalKeys (e : Element) (v : Value) : List String :=
  e.mandatoryFields.map (·.key) ++
    (e.optionalFields.filter fun f => isPresent (v.field f.name)).map (·.key) ++
      e.choice.toList.flatMap fun c => selectedKeys c (v.field c.name)

/-- What a selection adds to the keys of an object: the key of one member of the group, or none
where none is required. -/
inductive Contributes (c : ChoiceField) (v : Value) : List String → Prop where
  | absent : v = .none → c.group.required = false → Contributes c v []
  | member {m : Member} {w : Value} :
      m ∈ c.group.members → v = .choice m.name w → Contributes c v [m.key]

/-- The document has the shape that the value should have on the wire, at every depth. -/
inductive Canonical : Value → Json → Prop where
  | bool (b : Bool) : Canonical (.bool b) (.bool b)
  | int (n : Int) : Canonical (.int n) (.int n)
  | text {v : Value} {t : String} : Spelled v t → Canonical v (.str t)
  | array {xs : List Value} {js : List Json} : js ≠ [] → xs.length = js.length →
      (∀ (i : Nat) x j, xs[i]? = some x → js[i]? = some j → Canonical x j) →
      Canonical (.tuple xs) (.arr js)
  | object {e : Element} {fs : List (String × Value)} {ms : Keyed Json} :
      ms.keys = canonicalKeys e (.element e fs) → ms.keys.Nodup →
      (∀ f ∈ e.fields, ∀ j, (f.key, j) ∈ ms → Canonical ((Value.element e fs).field f.name) j) →
      (∀ c, e.choice = some c → c.name ∉ ms.keys ∧
        Contributes c ((Value.element e fs).field c.name)
          (selectedKeys c ((Value.element e fs).field c.name))) →
      (∀ c m w j, e.choice = some c → m ∈ c.group.members →
        (Value.element e fs).field c.name = .choice m.name w → (m.key, j) ∈ ms → Canonical w j) →
      Canonical (.element e fs) (.obj ms)

variable {e : Element} {fs : List (String × Value)}

/-! ### The keys that are written -/

variable {reader : Url.Reader}

theorem mem_canonicalKeys {k : String} {v : Value} (h : k ∈ canonicalKeys e v) :
    (∃ f ∈ e.fields, k = f.key) ∨
      ∃ c, e.choice = some c ∧ k ∈ selectedKeys c (v.field c.name) := by
  simp only [canonicalKeys, List.mem_append, List.mem_flatMap, Option.mem_toList] at h
  rcases h with (h | h) | h
  · obtain ⟨f, hf, rfl⟩ := List.mem_map.mp h
    exact .inl ⟨f, (List.mem_filter.mp hf).1, rfl⟩
  · obtain ⟨f, hf, rfl⟩ := List.mem_map.mp h
    exact .inl ⟨f, (List.mem_filter.mp (List.mem_filter.mp hf).1).1, rfl⟩
  · exact .inr h

/-- What stands in an object of canonical shape is of canonical shape. -/
theorem Canonical.entry {ms : Keyed Json} (h : Canonical (.element e fs) (.obj ms)) {k : String}
    {j : Json} (there : (k, j) ∈ ms) : ∃ x, Canonical x j := by
  cases h with
  | object keys _ fields choice chosen =>
    have known : k ∈ canonicalKeys e (.element e fs) := keys ▸ List.mem_map_of_mem there
    rcases mem_canonicalKeys known with ⟨f, hf, rfl⟩ | ⟨c, hc, selected⟩
    · exact ⟨_, fields f hf j there⟩
    · generalize value : (Value.element e fs).field c.name = v at selected
      have contributes := value ▸ (choice c hc).2
      generalize selectedKeys c v = ks at selected contributes
      cases contributes with
      | absent => cases selected
      | @member m w hm chosenValue =>
        obtain rfl := List.mem_singleton.mp selected
        exact ⟨w, chosen c m w j hc hm (value.trans chosenValue) there⟩

end V2G.Wire
