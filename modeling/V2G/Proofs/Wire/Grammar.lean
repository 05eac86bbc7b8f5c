import V2G.Proofs.Base64
import V2G.Proofs.Build.Conform
import V2G.Wire.Decode

/-!
# The grammar of the wire form

Which documents are valid for a shape, and what value each of them stands for. Neither looks at
how a document is read: `Valid` is defined by recursion over the declarations, and `denote` gives
the value of a document that is valid. Null stands for nothing, and so does an empty array where
a collection is optional. What a valid document stands for conforms and is dense.
-/

namespace V2G.Wire

/-- The value under a key that is not null. -/
def member? (ms : Keyed Json) (key : String) : Option Json :=
  (Keyed.get? ms key).filter (!·.isNull)

/-- Whether a document leaves an optional collection absent. -/
def isDropped (f : Field) (j : Json) : Bool :=
  !f.required && f.shape.isCollection && (match j with | .arr [] => true | _ => false)

/-! ### Values of documents -/

variable [reader : Url.Reader]

def denoteScalar (k : Kind) (j : Json) : Value :=
  match k, j with
  | .int _ _, .int n => .int n
  | .bool, .bool b => .bool b
  | .text _ _, .str s => .text s
  | .bytes _ _, .str s => ((Base64.decode s.toList).toOption.map .bytes).getD .none
  | .url, .str s => (Build.urlOfText s).toOption.getD .none
  | .token t, .str s => .token t s
  | .identifier t, .str s => .identifier t s
  | _, _ => .none

def denoteShape (s : Shape) (j : Json) : Value :=
  match s with
  | .one k => denoteScalar k j
  | _ => .none

/-- A document with what it is for each shape. -/
structure Meaning (α : Type) where
  json : Json
  value : Shape → α

def Meaning.member? {α : Type} (ms : Keyed (Meaning α)) (key : String) : Option (Meaning α) :=
  (Keyed.get? ms key).filter (!·.json.isNull)

def fieldMeaning (ms : Keyed (Meaning Value)) (f : Field) : Value :=
  match Meaning.member? ms f.key with
  | some m => if isDropped f m.json then .none else m.value f.shape
  | none => .none

def choiceMeaning (ms : Keyed (Meaning Value)) (g : Group) : Value :=
  ((g.members.filterMap fun m => (Meaning.member? ms m.key).map fun x =>
    Value.choice m.name (x.value (.one m.kind))).head?).getD .none

def denoteElement (e : Element) (ms : Keyed (Meaning Value)) : Value :=
  .element e (e.fields.map (fun f => (f.name, fieldMeaning ms f)) ++
    (e.choice.map fun c => (c.name, choiceMeaning ms c.group)).toList)

mutual

/-- The value that a document stands for. -/
def denote : Json → Shape → Value
  | .obj ms, s =>
    match s with
    | .one (.element e) => denoteElement e (meanings ms)
    | s => denoteShape s (.obj ms)
  | .arr js, s =>
    match s with
    | .one k => denoteScalar k (.arr js)
    | .list k _ _ => .tuple (denoteItems js k)
    | .set k _ _ => .tuple (Value.distinct .structural (denoteItems js k))
  | .null, s => denoteShape s .null
  | .bool b, s => denoteShape s (.bool b)
  | .int n, s => denoteShape s (.int n)
  | .float x, s => denoteShape s (.float x)
  | .str t, s => denoteShape s (.str t)
termination_by structural j => j

def denoteItems : List Json → Kind → List Value
  | [], _ => []
  | j :: js, k => denote j (.one k) :: denoteItems js k
termination_by structural js => js

def meanings : List (String × Json) → Keyed (Meaning Value)
  | [] => []
  | (k, j) :: ms => (k, ⟨j, denote j⟩) :: meanings ms
termination_by structural ms => ms

end

variable {reader}

theorem denoteItems_eq (js : List Json) (k : Kind) :
    denoteItems js k = js.map (denote · (.one k)) := by
  induction js with
  | nil => rfl
  | cons j js ih => rw [denoteItems, ih, List.map_cons]

theorem meanings_eq (ms : List (String × Json)) :
    meanings ms = ms.map fun (k, j) => (k, ⟨j, denote j⟩) := by
  induction ms with
  | nil => rfl
  | cons m ms ih => simp [meanings, ih]

/-! ### The value of an object -/

variable {ms : Keyed Json}

variable [reader]

/-- The value of a field in an object. -/
def fieldOf (ms : Keyed Json) (f : Field) : Value :=
  match member? ms f.key with
  | some j => if isDropped f j then .none else denote j f.shape
  | none => .none

/-- The members of a group that an object selects. -/
def chosen (g : Group) (ms : Keyed Json) : List Member :=
  g.members.filter fun m => (member? ms m.key).isSome

/-- The selection in an object. -/
def choiceOf (g : Group) (ms : Keyed Json) : Value :=
  ((g.members.filterMap fun m => (member? ms m.key).map fun j =>
    Value.choice m.name (denote j (.one m.kind))).head?).getD .none

variable {reader}

theorem Meaning.member?_map {α : Type} (g : Json → Shape → α) (key : String) :
    Meaning.member? (ms.map fun (k, j) => (k, (⟨j, g j⟩ : Meaning α))) key =
      (Wire.member? ms key).map fun j => ⟨j, g j⟩ := by
  rw [Meaning.member?, Keyed.get?_map fun j => (⟨j, g j⟩ : Meaning α), Wire.member?]
  cases h : Keyed.get? ms key with
  | none => rfl
  | some j => cases hj : j.isNull <;> simp [Option.filter, hj]

variable [reader]

/-- The fields and the selection of an element in an object. -/
def entriesOf (e : Element) (ms : Keyed Json) : List (String × Value) :=
  e.fields.map (fun f => (f.name, fieldOf ms f)) ++
    (e.choice.map fun c => (c.name, choiceOf c.group ms)).toList

variable {reader}

theorem denote_obj (e : Element) :
    denote (.obj ms) (.one (.element e)) = .element e (entriesOf e ms) := by
  have field : fieldMeaning (meanings ms) = fieldOf ms := by
    funext f
    rw [fieldMeaning, meanings_eq, Meaning.member?_map, fieldOf]
    cases member? ms f.key <;> rfl
  have choice : ∀ g, choiceMeaning (meanings ms) g = choiceOf g ms := by
    intro g
    simp only [choiceMeaning, meanings_eq, Meaning.member?_map, Option.map_map, choiceOf]
    rfl
  simp only [denote, denoteElement, field, choice, entriesOf]

theorem keys_entriesOf (e : Element) : Keyed.keys (entriesOf e ms) = e.slots.map (·.1) := by
  rw [entriesOf, Keyed.keys_append, Build.slotNames_eq, Keyed.keys, List.map_map]
  cases e.choice <;> rfl

theorem field_entriesOf {e : Element} {f : Field} (hf : f ∈ e.fields) :
    (Value.element e (entriesOf e ms)).field f.name = fieldOf ms f :=
  Value.field_of_mem (keys_entriesOf e)
    (List.mem_append_left _ (List.mem_map.mpr ⟨f, hf, rfl⟩))

theorem choice_entriesOf {e : Element} {c : ChoiceField} (hc : e.choice = some c) :
    (Value.element e (entriesOf e ms)).field c.name = choiceOf c.group ms :=
  Value.field_of_mem (keys_entriesOf e) (List.mem_append_right _ (by simp [hc]))

/-- The value of an object is told by its fields and its selection. -/
theorem eq_denote_obj {e : Element} {fs : List (String × Value)}
    (names : Keyed.keys fs = e.slots.map (·.1))
    (fields : ∀ f ∈ e.fields, (Value.element e fs).field f.name = fieldOf ms f)
    (choice : ∀ c, e.choice = some c → (Value.element e fs).field c.name = choiceOf c.group ms) :
    Value.element e fs = denote (.obj ms) (.one (.element e)) := by
  rw [denote_obj]
  refine Value.element_ext names (keys_entriesOf e) fun name hn => ?_
  rcases Element.mem_slotNames.mp hn with ⟨f, hf, rfl⟩ | ⟨c, hc, rfl⟩
  · exact (fields f hf).trans (field_entriesOf hf).symm
  · exact (choice c hc).trans (choice_entriesOf hc).symm

theorem head?_filterMap {α β γ : Type} (p : α → Option β) (f : α → β → γ) (l : List α) :
    ((l.filter fun a => (p a).isSome) = [] ∧
        (l.filterMap fun a => (p a).map (f a)).head? = none) ∨
      ∃ a rest b, (l.filter fun a => (p a).isSome) = a :: rest ∧ p a = some b ∧
        (l.filterMap fun a => (p a).map (f a)).head? = some (f a b) := by
  induction l with
  | nil => exact .inl ⟨rfl, rfl⟩
  | cons a l ih =>
    cases h : p a with
    | none => simpa [h] using ih
    | some b => exact .inr ⟨a, l.filter fun a => (p a).isSome, b, by simp [h], h, by simp [h]⟩

theorem fieldOf_cases (ms : Keyed Json) (f : Field) : fieldOf ms f = .none ∨
    ∃ j, member? ms f.key = some j ∧ isDropped f j = false ∧ fieldOf ms f = denote j f.shape := by
  unfold fieldOf
  cases member? ms f.key with
  | none => exact .inl rfl
  | some j =>
    cases hd : isDropped f j with
    | true => exact .inl (if_pos hd)
    | false => exact .inr ⟨j, rfl, hd, by simp [hd]⟩

theorem choiceOf_cases (g : Group) (ms : Keyed Json) :
    (chosen g ms = [] ∧ choiceOf g ms = .none) ∨
      ∃ m rest j, chosen g ms = m :: rest ∧ member? ms m.key = some j ∧
        choiceOf g ms = .choice m.name (denote j (.one m.kind)) := by
  rcases head?_filterMap (fun m => member? ms m.key)
    (fun m j => Value.choice m.name (denote j (.one m.kind))) g.members with
    ⟨none, head⟩ | ⟨m, rest, j, one, there, head⟩
  · exact .inl ⟨none, by rw [choiceOf, head]; rfl⟩
  · exact .inr ⟨m, rest, j, one, there, by rw [choiceOf, head]; rfl⟩

theorem mem_of_chosen {g : Group} {m : Member} {rest : List Member} (h : chosen g ms = m :: rest) :
    m ∈ g.members :=
  List.mem_of_mem_filter (h ▸ List.mem_cons_self : m ∈ chosen g ms)

theorem mem_chosen {g : Group} {m : Member} {j : Json} (hm : m ∈ g.members)
    (hj : member? ms m.key = some j) : m ∈ chosen g ms :=
  List.mem_filter.mpr ⟨hm, by simp [hj]⟩

/-- Of at most one member that is there, each is the first. -/
theorem eq_of_chosen {g : Group} {m m' : Member} {rest : List Member} {j : Json}
    (one : chosen g ms = m :: rest) (count : (chosen g ms).length ≤ 1) (hm' : m' ∈ g.members)
    (hj : member? ms m'.key = some j) : m' = m := by
  have there := mem_chosen hm' hj
  rw [one] at there count
  cases rest with
  | nil => exact List.mem_singleton.mp there
  | cons m rest => simp at count

/-! ### Validity -/

variable [reader]

/-- The documents of a scalar kind, which have its JSON type and lie within its limits. -/
def Accepts : Kind → Json → Prop
  | .int low high, .int n => (∀ l ∈ low, l ≤ n) ∧ ∀ h ∈ high, n ≤ h
  | .bool, .bool _ => True
  | .text least most, .str s => Within least most s.length
  | .bytes least most, .str s =>
    ∃ data, Base64.decode s.toList = .ok data ∧ Within least most data.length
  | .url, .str s => ∃ u, s.utf8ByteSize ≤ Build.maxUrlBytes ∧ Url.read s = .ok (some u) ∧
    u.isWeb = true
  | .token t, .str s => s ∈ t.tokens
  | .identifier t, .str s =>
    Within t.least (some t.most) s.length ∧ ∀ c ∈ s.toList, t.allows c = true
  | _, _ => False

inductive Valid (strict : Bool) : Shape → Json → Prop where
  | scalar {k : Kind} {j : Json} : Accepts k j → Valid strict (.one k) j
  | list {k : Kind} {least most : Nat} {js : List Json} :
      (∀ j ∈ js, Valid strict (.one k) j) → least ≤ js.length → js.length ≤ most →
      Valid strict (.list k least most) (.arr js)
  | set {k : Kind} {least most : Nat} {js : List Json} :
      (∀ j ∈ js, Valid strict (.one k) j) → least ≤ js.length →
      (Value.distinct .structural (js.map (denote · (.one k)))).length ≤ most →
      Valid strict (.set k least most) (.arr js)
  | object {e : Element} {ms : Keyed Json} :
      (∀ f ∈ e.fields, f.required = true → member? ms f.key ≠ none) →
      (∀ f ∈ e.fields, ∀ j, member? ms f.key = some j → Valid strict f.shape j) →
      (∀ c, e.choice = some c → (chosen c.group ms).length ≤ 1 ∧
        (c.group.required = true → chosen c.group ms ≠ [])) →
      (∀ c m j, e.choice = some c → m ∈ c.group.members → member? ms m.key = some j →
        Valid strict (.one m.kind) j) →
      (strict = true → ∀ k ∈ ms.keys, k ∈ e.keys) →
      Rule.broken? e (denote (.obj ms) (.one (.element e))) = none →
      Valid strict (.one (.element e)) (.obj ms)

/-! ### What valid documents stand for -/

variable {reader}

theorem holds_denoteScalar {k : Kind} {j : Json} (h : Accepts k j) :
    k.Holds (denoteScalar k j) := by
  cases k <;> cases j <;> first | exact h.elim | skip
  · exact h
  · exact h
  · exact h
  · obtain ⟨data, read, within⟩ := h
    simp only [denoteScalar, read]
    exact within
  · obtain ⟨u, short, read, web⟩ := h
    have text := Build.urlOfText_eq_ok.mpr ⟨u, short, read, web, rfl⟩
    simp only [denoteScalar, text]
    exact Build.isWebUrl_of_urlOfText text
  · exact ⟨rfl, h⟩
  · exact ⟨rfl, h⟩

theorem denote_of_accepts {k : Kind} {j : Json} (h : Accepts k j) :
    denote j (.one k) = denoteScalar k j := by
  cases j with
  | obj ms => cases k <;> exact h.elim
  | _ => rfl

theorem denote_list {js : List Json} {k : Kind} {least most : Nat} :
    denote (.arr js) (.list k least most) = .tuple (js.map (denote · (.one k))) := by
  rw [denote, denoteItems_eq]

theorem denote_set {js : List Json} {k : Kind} {least most : Nat} :
    denote (.arr js) (.set k least most) =
      .tuple (Value.distinct .structural (js.map (denote · (.one k)))) := by
  rw [denote, denoteItems_eq]

theorem conforms_denote {strict : Bool} {s : Shape} {j : Json} (h : Valid strict s j)
    (small : s.isUnordered = true → s.least ≤ 1) : Conforms s (denote j s) := by
  induction h with
  | scalar h => exact denote_of_accepts h ▸ .scalar (holds_denoteScalar h)
  | list _ hl hm ih =>
    rw [denote_list]
    refine .list (List.forall_mem_map.mpr fun j hj => ih j hj nofun) ?_ ?_ <;>
      rwa [List.length_map]
  | @set k least most js _ hl hm ih =>
    have items : ∀ x ∈ js.map (denote · (.one k)), Conforms (.one k) x :=
      List.forall_mem_map.mpr fun j hj => ih j hj nofun
    rw [denote_set]
    refine .set (fun x hx => items x (Value.mem_of_mem_distinct hx)) ?_ hm
      (Build.unlike_distinct fun x hx => (items x hx).no_dict)
    exact Build.le_length_distinct (by rwa [List.length_map]) (small rfl)
  | @object e ms mandatory _ count _ _ rule ihf ihc =>
    have field : ∀ f ∈ e.fields, ∀ j, member? ms f.key = some j →
        Conforms f.shape (denote j f.shape) :=
      fun f hf j hj => ihf f hf j hj (Element.least_of_set hf)
    rw [denote_obj] at rule ⊢
    refine .element (keys_entriesOf e) (fun f hf required => ?_) (fun f hf given => ?_)
      (fun c hc => ?_) (fun c m w hc hm value => ?_) rule
    · rw [field_entriesOf hf, fieldOf]
      cases hj : member? ms f.key with
      | none => exact absurd hj (mandatory f hf required)
      | some j => simpa [isDropped, required] using (field f hf j hj).ne_none
    · rw [field_entriesOf hf] at given ⊢
      rcases fieldOf_cases ms f with none | ⟨j, hj, -, value⟩
      · exact absurd none given
      · exact value ▸ field f hf j hj
    · rw [choice_entriesOf hc]
      rcases choiceOf_cases c.group ms with ⟨none, value⟩ | ⟨m, rest, j, one, there, value⟩
      · refine .inl ⟨value, ?_⟩
        by_cases required : c.group.required = true
        · exact absurd none ((count c hc).2 required)
        · exact Bool.eq_false_iff.mpr required
      · exact .inr ⟨m, mem_of_chosen one, _, value⟩
    · rw [choice_entriesOf hc] at value
      rcases choiceOf_cases c.group ms with ⟨-, none⟩ | ⟨m', rest, j, one, there, value'⟩
      · rw [value] at none; cases none
      · obtain ⟨name, rfl⟩ := Value.choice.inj (value.symm.trans value')
        obtain rfl := Build.member_ext hc hm (mem_of_chosen one) name
        exact ihc c m j hc hm there nofun

theorem dense_denoteShape (s : Shape) (j : Json) : Dense (denoteShape s j) := by
  have scalar (k : Kind) : Dense (denoteScalar k j) := by
    unfold denoteScalar
    split
    case h_4 => cases Base64.decode _ <;> exact .of_children nofun nofun
    case h_5 =>
      cases h : Build.urlOfText _ with
      | error f => exact .none
      | ok v =>
        obtain ⟨t, rfl⟩ := Build.urlOfText_url h
        exact .of_children nofun nofun
    all_goals exact .of_children nofun nofun
  cases s with
  | one k => exact scalar k
  | _ => exact .none

/-- Only an empty array stands for an empty tuple. -/
theorem ne_empty_of_denote {f : Field} {j : Json} (optional : f.required = false)
    (hc : f.shape.isCollection = true) (kept : isDropped f j = false) :
    denote j f.shape ≠ .tuple [] := by
  intro h
  cases hs : f.shape with
  | one k => rw [hs] at hc; cases hc
  | list k least most | set k least most =>
    rw [hs] at h
    cases j with
    | arr js =>
      have empty : js = [] := by
        first
        | rw [denote_list] at h
          exact List.map_eq_nil_iff.mp (Value.tuple.inj h)
        | rw [denote_set] at h
          exact List.map_eq_nil_iff.mp (Value.distinct_eq_nil_iff.mp (Value.tuple.inj h))
      rw [empty] at kept
      simp [isDropped, optional, hc] at kept
    | _ => cases h

theorem denote_obj_of_ne {s : Shape} (h : ¬ ∃ e, s = .one (.element e)) (ms : Keyed Json) :
    denote (.obj ms) s = denoteShape s (.obj ms) := by
  rcases s with (_ | _ | _ | _ | _ | _ | _ | e) | _ | _ <;> first | rfl | exact absurd ⟨e, rfl⟩ h

theorem dense_denote (j : Json) (s : Shape) : Dense (denote j s) := by
  induction j using Json.induction generalizing s with
  | arr js ih =>
    have items (k : Kind) : ∀ x ∈ js.map (denote · (.one k)), Dense x :=
      List.forall_mem_map.mpr fun j hj => ih j hj _
    cases s with
    | one k => exact dense_denoteShape (.one k) _
    | list k least most =>
      rw [denote_list]
      exact .of_children (fun x c => by cases c with | tuple hx => exact items k x hx) nofun
    | set k least most =>
      rw [denote_set]
      refine .of_children (fun x c => ?_) nofun
      cases c with
      | tuple hx => exact items k x (Value.mem_of_mem_distinct hx)
  | obj ms ih =>
    have there {key : String} {j : Json} (h : member? ms key = some j) (s : Shape) :
        Dense (denote j s) :=
      ih key j (Keyed.mem_of_get? (Option.filter_eq_some_iff.mp h).1) s
    by_cases element : ∃ e, s = .one (.element e)
    · obtain ⟨e, rfl⟩ := element
      rw [denote_obj]
      refine .of_children (fun x c => ?_) ?_
      · cases c with
        | element hx =>
          rcases Value.slot_of_mem (keys_entriesOf e) hx with ⟨f, hf, rfl⟩ | ⟨c, hc, rfl⟩
          · rw [field_entriesOf hf]
            rcases fieldOf_cases ms f with none | ⟨j, hj, -, value⟩
            · exact none ▸ .none
            · exact value ▸ there hj _
          · rw [choice_entriesOf hc]
            rcases choiceOf_cases c.group ms with ⟨-, none⟩ | ⟨m, rest, j, -, hj, value⟩
            · exact none ▸ .none
            · exact value ▸ .choice (there hj _)
      · rintro _ _ ⟨⟩ f hf optional hc
        rw [field_entriesOf hf]
        rcases fieldOf_cases ms f with none | ⟨j, hj, kept, value⟩
        · simp [none]
        · exact value ▸ ne_empty_of_denote optional hc kept
    · rw [denote_obj_of_ne element]
      exact dense_denoteShape s _
  | _ => exact dense_denoteShape s _

end V2G.Wire
