import V2G.Build.Element
import V2G.Proofs.Schema
import V2G.Proofs.Value.Equality

/-!
# Conformance

What a value of a declared shape is: a scalar within the limits of its kind, a tuple of as many
items as its bounds allow, or an element of exactly the class declared, each of whose fields
conforms in turn and whose rule holds. A conforming value is equal to itself and holds nothing
that only arguments hold. `Dense` says that no optional collection is empty.
-/

namespace V2G

/-- Within the bounds on a size. -/
def Within (least : Nat) (most : Option Nat) (n : Nat) : Prop :=
  least ≤ n ∧ ∀ m ∈ most, n ≤ m

variable [reader : Url.Reader]

/-- The normal text of a URL of the web. The limit is one on the text it was read from. -/
def IsWebUrl (s : String) : Prop :=
  ∃ t u, t.utf8ByteSize ≤ Build.maxUrlBytes ∧ Url.read t = .ok (some u) ∧ u.isWeb = true ∧
    s = u.text

/-- The limits of a scalar kind. -/
def Kind.Holds : Kind → Value → Prop
  | .int low high, .int n => (∀ l ∈ low, l ≤ n) ∧ ∀ h ∈ high, n ≤ h
  | .bool, .bool _ => True
  | .text least most, .text s => Within least most s.length
  | .bytes least most, .bytes data => Within least most data.length
  | .url, .url s => IsWebUrl s
  | .token t, .token t' s => t' = t ∧ s ∈ t.tokens
  | .identifier t, .identifier t' s =>
    t' = t ∧ Within t.least (some t.most) s.length ∧ ∀ c ∈ s.toList, t.allows c = true
  | _, _ => False

namespace Value

/-- No two entries are equal, in whatever order they are compared. -/
def Unlike (vs : List Value) : Prop :=
  vs.Pairwise fun v w => v.same w = false ∧ w.same v = false

/-- A selection of a member of a group, or none where none is required. -/
def Selects (g : Group) (v : Value) : Prop :=
  (v = .none ∧ g.required = false) ∨ ∃ m ∈ g.members, ∃ w, v = .choice m.name w

end Value

inductive Conforms : Shape → Value → Prop where
  | scalar {k : Kind} {v : Value} : k.Holds v → Conforms (.one k) v
  | list {k : Kind} {least most : Nat} {xs : List Value} :
      (∀ x ∈ xs, Conforms (.one k) x) → least ≤ xs.length → xs.length ≤ most →
      Conforms (.list k least most) (.tuple xs)
  | set {k : Kind} {least most : Nat} {xs : List Value} :
      (∀ x ∈ xs, Conforms (.one k) x) → least ≤ xs.length → xs.length ≤ most → Value.Unlike xs →
      Conforms (.set k least most) (.tuple xs)
  | element {e : Element} {fs : List (String × Value)} :
      Keyed.keys fs = e.slots.map (·.1) →
      (∀ f ∈ e.fields, f.required = true → (Value.element e fs).field f.name ≠ .none) →
      (∀ f ∈ e.fields, (Value.element e fs).field f.name ≠ .none →
        Conforms f.shape ((Value.element e fs).field f.name)) →
      (∀ c, e.choice = some c → ((Value.element e fs).field c.name).Selects c.group) →
      (∀ c m w, e.choice = some c → m ∈ c.group.members →
        (Value.element e fs).field c.name = .choice m.name w → Conforms (.one m.kind) w) →
      Rule.broken? e (.element e fs) = none →
      Conforms (.one (.element e)) (.element e fs)

/-- No optional collection is empty, at any depth. -/
def Dense (v : Value) : Prop :=
  ∀ e fs, Value.Part (.element e fs) v → ∀ f ∈ e.fields, f.required = false →
    f.shape.isCollection = true → (Value.element e fs).field f.name ≠ .tuple []

variable {reader}

theorem Dense.part {v w : Value} (h : Dense v) (hw : w.Part v) : Dense w :=
  fun e fs p => h e fs (p.trans hw)

theorem Dense.of_children {v : Value} (h : ∀ x, x.Child v → Dense x)
    (element : ∀ e fs, v = .element e fs → ∀ f ∈ e.fields, f.required = false →
      f.shape.isCollection = true → v.field f.name ≠ .tuple []) : Dense v := by
  intro e fs p
  cases p with
  | self => exact element e fs rfl
  | inside c p => exact h _ c e fs p

theorem Dense.none : Dense .none := .of_children nofun nofun

theorem Dense.choice {m : String} {v : Value} (h : Dense v) : Dense (.choice m v) :=
  .of_children (fun x c => by cases c; exact h) nofun

theorem Dense.tuple {xs : List Value} (h : ∀ x ∈ xs, Dense x) : Dense (.tuple xs) :=
  .of_children (fun x c => by cases c with | tuple hx => exact h x hx) nofun

/-! ### The fields of an element -/

theorem Element.mem_slotNames {e : Element} {name : String} :
    name ∈ e.slots.map (·.1) ↔
      (∃ f ∈ e.fields, f.name = name) ∨ ∃ c, e.choice = some c ∧ c.name = name := by
  cases h : e.choice <;> simp [Element.slots, h, eq_comm]

namespace Value

variable {e : Element} {fs : List (String × Value)} {name : String} {x : Value}

theorem field_of_mem (names : Keyed.keys fs = e.slots.map (·.1)) (h : (name, x) ∈ fs) :
    (Value.element e fs).field name = x := by
  rw [field, Keyed.get?_of_mem (names ▸ e.slotNames_nodup) h, Option.getD_some]

theorem field_of_not_mem (names : Keyed.keys fs = e.slots.map (·.1))
    (h : name ∉ e.slots.map (·.1)) : (Value.element e fs).field name = .none := by
  rw [field, Keyed.get?_eq_none_iff.mpr (names ▸ h)]
  rfl

theorem mem_of_field (names : Keyed.keys fs = e.slots.map (·.1))
    (h : name ∈ e.slots.map (·.1)) : (name, (Value.element e fs).field name) ∈ fs := by
  obtain ⟨⟨_, x⟩, hx, rfl⟩ := List.mem_map.mp (names ▸ h : name ∈ Keyed.keys fs)
  rwa [field_of_mem names hx]

theorem part_of_field (names : Keyed.keys fs = e.slots.map (·.1)) {f : Field} (hf : f ∈ e.fields) :
    ((Value.element e fs).field f.name).Part (.element e fs) :=
  (Child.element (mem_of_field names (Element.mem_slotNames.mpr (.inl ⟨f, hf, rfl⟩)))).part

theorem part_of_selection (names : Keyed.keys fs = e.slots.map (·.1)) {c : ChoiceField}
    (hc : e.choice = some c) {member : String}
    (value : (Value.element e fs).field c.name = .choice member x) : x.Part (.element e fs) := by
  have slot := mem_of_field names (Element.mem_slotNames.mpr (.inr ⟨c, hc, rfl⟩))
  rw [value] at slot
  exact Child.choice.part.trans (Child.element slot).part

/-- What stands in an element is the value of a field or the selection. -/
theorem slot_of_mem (names : Keyed.keys fs = e.slots.map (·.1)) (h : (name, x) ∈ fs) :
    (∃ f ∈ e.fields, x = (Value.element e fs).field f.name) ∨
      ∃ c, e.choice = some c ∧ x = (Value.element e fs).field c.name := by
  have key := field_of_mem names h
  have slot : name ∈ e.slots.map (·.1) := names ▸ List.mem_map_of_mem h
  rcases Element.mem_slotNames.mp slot with ⟨f, hf, rfl⟩ | ⟨c, hc, rfl⟩
  · exact .inl ⟨f, hf, key.symm⟩
  · exact .inr ⟨c, hc, key.symm⟩

end Value

namespace Kind

variable {k : Kind} {v : Value}

/-- A scalar has no parts. -/
theorem Holds.no_child (h : k.Holds v) (x : Value) : ¬ x.Child v := by
  intro c
  cases c <;> cases k <;> exact h

end Kind

namespace Conforms

variable {s : Shape} {v : Value}

theorem names {e : Element} {fs : List (String × Value)}
    (h : Conforms (.one (.element e)) (.element e fs)) : Keyed.keys fs = e.slots.map (·.1) := by
  cases h with
  | scalar h => exact h.elim
  | element names => exact names

variable [reader]

/-- The parts of a conforming value are scalars, tuples, selections and conforming elements. -/
inductive Piece : Value → Prop where
  | scalar {k : Kind} {v : Value} : k.Holds v → Piece v
  | tuple {xs : List Value} : Piece (.tuple xs)
  | none : Piece .none
  | choice {m : String} {v : Value} : Piece (.choice m v)
  | element {e : Element} {fs : List (String × Value)} :
      Conforms (.one (.element e)) (.element e fs) → Piece (.element e fs)

variable {reader}

theorem Piece.of_none {w : Value} (h : w.Part .none) : Piece w := by
  cases h with
  | self => exact .none
  | inside c _ => cases c

theorem piece_of_part (h : Conforms s v) {w : Value} (hw : w.Part v) : Piece w := by
  induction h with
  | scalar h =>
    cases hw with
    | self => exact .scalar h
    | inside c _ => exact absurd c (h.no_child _)
  | list h _ _ ih | set h _ _ _ ih =>
    cases hw with
    | self => exact .tuple
    | inside c p => cases c with | tuple hx => exact ih _ hx p
  | @element e fs names required fields selection chosen rule ihf ihc =>
    cases hw with
    | self => exact .element (.element names required fields selection chosen rule)
    | inside c p =>
      cases c with
      | element hx =>
        rcases Value.slot_of_mem names hx with ⟨f, hf, rfl⟩ | ⟨c, hc, rfl⟩
        · by_cases none : (Value.element e fs).field f.name = .none
          · exact .of_none (none ▸ p)
          · exact ihf f hf none p
        · rcases selection c hc with ⟨none, -⟩ | ⟨m, hm, v, hv⟩
          · exact .of_none (none ▸ p)
          · rw [hv] at p
            cases p with
            | self => exact .choice
            | inside c p => cases c with | choice => exact ihc c m _ hc hm hv p

theorem of_part (h : Conforms s v) {e : Element} {fs : List (String × Value)}
    (hp : Value.Part (.element e fs) v) : Conforms (.one (.element e)) (.element e fs) := by
  cases h.piece_of_part hp with
  | scalar h => cases ‹Kind› <;> exact h.elim
  | element h => exact h

theorem no_dict (h : Conforms s v) (es : List (String × Value)) : ¬ Value.Part (.dict es) v := by
  intro hp
  cases h.piece_of_part hp with
  | scalar h => cases ‹Kind› <;> exact h

theorem no_float (h : Conforms s v) (x : Double) : ¬ Value.Part (.float x) v := by
  intro hp
  cases h.piece_of_part hp with
  | scalar h => cases ‹Kind› <;> exact h

theorem ne_none (h : Conforms s v) : v ≠ .none := by
  rintro rfl
  cases h with
  | scalar h => cases ‹Kind› <;> exact h

theorem ne_empty (h : Conforms s v) (one : s.isCollection = false) : v ≠ .tuple [] := by
  rintro rfl
  cases h with
  | scalar h => cases ‹Kind› <;> exact h
  | list | set => cases one

theorem equal_self (h : Conforms s v) (mode : Comparison) : v.equal mode v = true :=
  Value.equal_self v (fun x hx => absurd hx (h.no_float x)) h.no_dict mode

/-- A conforming value is structurally equal to itself. -/
theorem same_self (h : Conforms s v) : v.same v = true := h.equal_self .structural

end Conforms

end V2G
