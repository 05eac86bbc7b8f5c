import V2G.Proofs.Obtainable
import V2G.Proofs.Url.Basic
import V2G.Proofs.Wire.Normal

/-!
# The round trip

What a conforming value is written as is a valid document that stands for the value, as long as
no optional collection is empty and no URL too long to be read again (`Back.of_conforms`). So
parsing undoes serializing for whatever a program can obtain, and serializing gives the normal
form of a document that was parsed.
-/

namespace V2G

/-- The URLs in a value are short enough to be read again. -/
def Short (v : Value) : Prop :=
  ∀ t, Value.Part (.url t) v → t.utf8ByteSize ≤ Build.maxUrlBytes

theorem Short.part {v w : Value} (h : Short v) (hw : w.Part v) : Short w :=
  fun t p => h t (p.trans hw)

section

variable {reader : Url.LawfulReader}

namespace Build

/-- The text of a URL is read as the same URL. -/
theorem urlOfText_of_isWebUrl {t : String} (h : IsWebUrl t)
    (short : t.utf8ByteSize ≤ maxUrlBytes) : urlOfText t = .ok (.url t) := by
  obtain ⟨s, u, -, read, web, rfl⟩ := h
  exact urlOfText_eq_ok.mpr ⟨u, short, Url.read_text read, web, rfl⟩

end Build

end

namespace Wire

section

variable [reader : Url.Reader]

/-- What is written of a value for a shape is valid, and stands for the value. -/
def Back (strict : Bool) (s : Shape) (v : Value) : Prop :=
  Valid strict s (wireForm v) ∧ denote (wireForm v) s = v

end

namespace Back

variable {strict : Bool}

section

variable {reader : Url.LawfulReader}

theorem scalar {k : Kind} {v : Value} (h : k.Holds v) (short : Short v) :
    Back strict (.one k) v := by
  have accepted (accepts : Accepts k (wireForm v)) (value : denoteScalar k (wireForm v) = v) :
      Back strict (.one k) v :=
    ⟨.scalar accepts, (denote_of_accepts accepts).trans value⟩
  cases k <;> cases v <;> first | exact h.elim | skip
  · exact accepted h rfl
  · exact accepted trivial rfl
  · exact accepted h rfl
  · next least most data =>
    have read : Base64.decode (String.ofList (Base64.encode data)).toList = .ok data := by
      rw [String.toList_ofList, Base64.decode_encode]
    exact accepted ⟨data, read, h⟩ (by simp only [wireForm_bytes, denoteScalar, read]; rfl)
  · next t =>
    have text := Build.urlOfText_of_isWebUrl h (short t .self)
    obtain ⟨u, small, read, web, -⟩ := Build.urlOfText_eq_ok.mp text
    exact accepted ⟨u, small, read, web⟩ (by simp only [wireForm_url, denoteScalar, text]; rfl)
  · obtain ⟨rfl, token⟩ := h
    exact accepted token rfl
  · obtain ⟨rfl, limits⟩ := h
    exact accepted limits rfl

end

variable {reader : Url.Reader}

theorem items {k : Kind} {xs : List Value} (h : ∀ x ∈ xs, Back strict (.one k) x) :
    (∀ j ∈ xs.map wireForm, Valid strict (.one k) j) ∧
      (xs.map wireForm).map (denote · (.one k)) = xs := by
  refine ⟨List.forall_mem_map.mpr fun x hx => (h x hx).1, ?_⟩
  rw [List.map_map]
  exact (List.map_congr_left fun x hx => (h x hx).2).trans (List.map_id xs)

end Back

section

variable {reader : Url.Reader}

section Element

variable {strict : Bool} {e : Element} {fs : List (String × Value)}

/-- The object that an element is written as. -/
def entries (e : Element) (v : Value) : Keyed Json :=
  e.inOrder (writtenField v) (writtenMember v e)

theorem not_null_of_conforms {s : Shape} {v : Value} (h : Conforms s v) :
    (wireForm v).isNull = false := by
  have conforms := h
  cases h with
  | @scalar k v h => cases v <;> first | rfl | (cases k <;> exact h.elim)
  | list items | set items =>
    rw [wireForm_tuple items]
    rfl
  | element =>
    rw [wireForm_element conforms]
    rfl

/-- Only the empty tuple is dropped when it is read. -/
theorem eq_empty_of_dropped {f : Field} {x : Value} (h : Conforms f.shape x)
    (dropped : isDropped f (wireForm x) = true) :
    f.required = false ∧ f.shape.isCollection = true ∧ x = .tuple [] := by
  simp only [isDropped, Bool.and_eq_true, Bool.not_eq_true'] at dropped
  obtain ⟨⟨optional, collection⟩, empty⟩ := dropped
  refine ⟨optional, collection, ?_⟩
  generalize f.shape = s at h collection
  cases h with
  | scalar => cases collection
  | @list k least most xs items | @set k least most xs items =>
    rw [wireForm_tuple items] at empty
    cases xs with
    | nil => rfl
    | cons x xs => cases empty
  | element => cases collection

/-- The value of a field is written under its key. -/
theorem member?_of_field {f : Field} (hf : f ∈ e.fields)
    (conforms : Conforms f.shape ((Value.element e fs).field f.name))
    (full : f.required = false → f.shape.isCollection = true →
      (Value.element e fs).field f.name ≠ .tuple []) :
    member? (entries e (.element e fs)) f.key =
      some (wireForm ((Value.element e fs).field f.name)) := by
  have found : Keyed.get? (entries e (.element e fs)) f.key = writtenField (.element e fs) f :=
    Element.get?_inOrder_field hf
  rw [member?, found, writtenField, if_pos (written_of_conforms conforms full)]
  simp [Option.filter, not_null_of_conforms conforms]

theorem member?_of_absent {f : Field} (hf : f ∈ e.fields) (optional : f.required = false)
    (none : (Value.element e fs).field f.name = .none) :
    member? (entries e (.element e fs)) f.key = Option.none := by
  have found : Keyed.get? (entries e (.element e fs)) f.key = writtenField (.element e fs) f :=
    Element.get?_inOrder_field hf
  simp [member?, found, writtenField, none, optional, isPresent, Value.isNone]

theorem get?_entries_member {c : ChoiceField} (hc : e.choice = some c) {m : Member}
    (hm : m ∈ c.group.members) : Keyed.get? (entries e (.element e fs)) m.key =
      (selected ((Value.element e fs).field c.name) m).map wireForm := by
  have members := Element.members_eq hc
  rw [entries, Element.get?_inOrder_member (members ▸ hm), writtenMember, hc, Option.bind_some]

/-- The selected value is written under the key of its member. -/
theorem member?_of_choice {c : ChoiceField} (hc : e.choice = some c) {m : Member}
    (hm : m ∈ c.group.members) {w : Value}
    (value : (Value.element e fs).field c.name = .choice m.name w)
    (conforms : Conforms (.one m.kind) w) :
    member? (entries e (.element e fs)) m.key = some (wireForm w) := by
  simp [member?, get?_entries_member hc hm, value, selected, Option.filter,
    not_null_of_conforms conforms]

theorem field_back (strict : Bool) {f : Field} (hf : f ∈ e.fields)
    (required : f.required = true → (Value.element e fs).field f.name ≠ .none)
    (conforms : (Value.element e fs).field f.name ≠ .none →
      Conforms f.shape ((Value.element e fs).field f.name))
    (full : f.required = false → f.shape.isCollection = true →
      (Value.element e fs).field f.name ≠ .tuple [])
    (back : (Value.element e fs).field f.name ≠ .none →
      Back strict f.shape ((Value.element e fs).field f.name)) :
    (f.required = true → member? (entries e (.element e fs)) f.key ≠ none) ∧
      (∀ j, member? (entries e (.element e fs)) f.key = some j → Valid strict f.shape j) ∧
      fieldOf (entries e (.element e fs)) f = (Value.element e fs).field f.name := by
  by_cases none : (Value.element e fs).field f.name = .none
  · have optional : f.required = false :=
      Bool.eq_false_iff.mpr fun mandatory => required mandatory none
    rw [fieldOf, member?_of_absent hf optional none]
    exact ⟨fun mandatory => absurd none (required mandatory), by rintro _ ⟨⟩, none.symm⟩
  · obtain ⟨valid, value⟩ := back none
    have kept : ¬ isDropped f (wireForm ((Value.element e fs).field f.name)) = true := by
      intro dropped
      obtain ⟨optional, collection, empty⟩ := eq_empty_of_dropped (conforms none) dropped
      exact full optional collection empty
    rw [fieldOf, member?_of_field hf (conforms none) full]
    refine ⟨by simp, fun j hj => ?_, ?_⟩
    · cases hj
      exact valid
    · simp only [kept, value]
      rfl

section Choice

variable {c : ChoiceField} {m : Member} {w : Value}

theorem member?_of_unselected (hc : e.choice = some c) (hm : m ∈ c.group.members)
    (none : (Value.element e fs).field c.name = .none) :
    member? (entries e (.element e fs)) m.key = Option.none := by
  rw [member?, get?_entries_member hc hm, none]
  rfl

/-- No other member is written than the one that is selected. -/
theorem eq_of_member? (hc : e.choice = some c) (hm : m ∈ c.group.members)
    (value : (Value.element e fs).field c.name = .choice m.name w)
    (conforms : Conforms (.one m.kind) w) {m' : Member} (hm' : m' ∈ c.group.members) {j : Json}
    (hj : member? (entries e (.element e fs)) m'.key = some j) : m' = m ∧ j = wireForm w := by
  have same : m' = m := by
    refine Build.member_ext hc hm' hm ?_
    by_contra other
    simp [member?, get?_entries_member hc hm', value, selected, other] at hj
  subst same
  exact ⟨rfl, Option.some.inj (hj.symm.trans (member?_of_choice hc hm value conforms))⟩

theorem chosen_of_selected (hc : e.choice = some c) (hm : m ∈ c.group.members)
    (value : (Value.element e fs).field c.name = .choice m.name w)
    (conforms : Conforms (.one m.kind) w) :
    chosen c.group (entries e (.element e fs)) = [m] := by
  have nodup : (chosen c.group (entries e (.element e fs))).Nodup :=
    (List.Nodup.of_map _ (Element.members_eq hc ▸ e.memberNames_nodup)).filter _
  by_contra other
  rcases (nodup.ne_singleton_iff m).mp other with empty | ⟨m', hm', other⟩
  · have chosen := mem_chosen hm (member?_of_choice hc hm value conforms)
    rw [empty] at chosen
    cases chosen
  · obtain ⟨hm', given⟩ := List.mem_filter.mp hm'
    obtain ⟨j, hj⟩ := Option.isSome_iff_exists.mp given
    exact other (eq_of_member? hc hm value conforms hm' hj).1

/-- The selection of an element is written as a single member. -/
theorem choice_written (hc : e.choice = some c)
    (selection : ((Value.element e fs).field c.name).Selects c.group)
    (conforms : ∀ m w, m ∈ c.group.members →
      (Value.element e fs).field c.name = .choice m.name w → Conforms (.one m.kind) w)
    (valid : ∀ m w, m ∈ c.group.members →
      (Value.element e fs).field c.name = .choice m.name w →
      Valid strict (.one m.kind) (wireForm w)) :
    ((chosen c.group (entries e (.element e fs))).length ≤ 1 ∧
        (c.group.required = true → chosen c.group (entries e (.element e fs)) ≠ [])) ∧
      (∀ m j, m ∈ c.group.members → member? (entries e (.element e fs)) m.key = some j →
        Valid strict (.one m.kind) j) ∧
      ((Value.element e fs).field c.name = .none ∧
          choiceOf c.group (entries e (.element e fs)) = .none ∨
        ∃ m w, m ∈ c.group.members ∧ (Value.element e fs).field c.name = .choice m.name w ∧
          choiceOf c.group (entries e (.element e fs)) =
            .choice m.name (denote (wireForm w) (.one m.kind))) := by
  rcases selection with ⟨none, optional⟩ | ⟨m, hm, w, value⟩
  · have empty : chosen c.group (entries e (.element e fs)) = [] :=
      List.filter_eq_nil_iff.mpr fun m hm => by simp [member?_of_unselected hc hm none]
    refine ⟨⟨by simp [empty], fun required => ?_⟩, fun m j hm hj => ?_, .inl ⟨none, ?_⟩⟩
    · rw [optional] at required
      cases required
    · rw [member?_of_unselected hc hm none] at hj
      cases hj
    · rcases choiceOf_cases c.group (entries e (.element e fs)) with ⟨-, h⟩ | ⟨m, rest, j, one, -⟩
      · exact h
      · rw [empty] at one
        cases one
  · have holds := conforms m w hm value
    have one := chosen_of_selected hc hm value holds
    refine ⟨by simp [one], fun m' j hm' hj => ?_, .inr ⟨m, w, hm, value, ?_⟩⟩
    · obtain ⟨rfl, rfl⟩ := eq_of_member? hc hm value holds hm' hj
      exact valid m' w hm value
    · rcases choiceOf_cases c.group (entries e (.element e fs)) with
        ⟨none, -⟩ | ⟨_, _, j, one', hj, h⟩
      · rw [one] at none
        cases none
      · cases one.symm.trans one'
        cases (member?_of_choice hc hm value holds).symm.trans hj
        exact h

end Choice

theorem choice_back (strict : Bool) {c : ChoiceField} (hc : e.choice = some c)
    (selection : ((Value.element e fs).field c.name).Selects c.group)
    (conforms : ∀ m w, m ∈ c.group.members →
      (Value.element e fs).field c.name = .choice m.name w → Conforms (.one m.kind) w)
    (back : ∀ m w, m ∈ c.group.members →
      (Value.element e fs).field c.name = .choice m.name w → Back strict (.one m.kind) w) :
    ((chosen c.group (entries e (.element e fs))).length ≤ 1 ∧
        (c.group.required = true → chosen c.group (entries e (.element e fs)) ≠ [])) ∧
      (∀ m j, m ∈ c.group.members → member? (entries e (.element e fs)) m.key = some j →
        Valid strict (.one m.kind) j) ∧
      choiceOf c.group (entries e (.element e fs)) = (Value.element e fs).field c.name := by
  obtain ⟨count, valid, value⟩ :=
    choice_written hc selection conforms fun m w hm value => (back m w hm value).1
  refine ⟨count, valid, ?_⟩
  rcases value with ⟨none, h⟩ | ⟨m, w, hm, value, h⟩
  · rw [h, none]
  · rw [h, value, (back m w hm value).2]

theorem Back.element (h : Conforms (.one (.element e)) (.element e fs))
    (dense : Dense (.element e fs))
    (fields : ∀ f ∈ e.fields, (Value.element e fs).field f.name ≠ .none →
      Back strict f.shape ((Value.element e fs).field f.name))
    (chosen : ∀ c m w, e.choice = some c → m ∈ c.group.members →
      (Value.element e fs).field c.name = .choice m.name w → Back strict (.one m.kind) w) :
    Back strict (.one (.element e)) (.element e fs) := by
  have written : wireForm (.element e fs) = .obj (entries e (.element e fs)) := wireForm_element h
  cases h with
  | scalar h => exact h.elim
  | element names required conforms selection conformsChosen rule =>
    have field := fun f hf => field_back strict hf (required f hf) (conforms f hf)
      (dense e fs .self f hf) (fields f hf)
    have choice := fun c hc => choice_back strict hc (selection c hc)
      (fun m w hm => conformsChosen c m w hc hm) fun m w hm => chosen c m w hc hm
    have value : denote (.obj (entries e (.element e fs))) (.one (.element e)) =
        .element e fs :=
      (eq_denote_obj names (fun f hf => (field f hf).2.2.symm) fun c hc =>
        (choice c hc).2.2.symm).symm
    rw [Back, written]
    refine ⟨.object (fun f hf => (field f hf).1) (fun f hf => (field f hf).2.1)
      (fun c hc => (choice c hc).1) (fun c m j hc hm => (choice c hc).2.1 m j hm)
      (fun _ _ => Element.mem_keys_of_inOrder) ?_, value⟩
    rw [value]
    exact rule

end Element

end

section

variable {reader : Url.LawfulReader}

namespace Back

variable {strict : Bool}

theorem of_conforms {s : Shape} {v : Value} (h : Conforms s v) (dense : Dense v) (short : Short v) :
    Back strict s v := by
  induction h with
  | scalar h => exact scalar h short
  | @list k least most xs conforms hl hm ih =>
    obtain ⟨valid, values⟩ := items fun x hx =>
      ih x hx (dense.part (Value.Child.tuple hx).part) (short.part (Value.Child.tuple hx).part)
    rw [Back, wireForm_tuple conforms, denote_list, values]
    exact ⟨.list valid (by rwa [List.length_map]) (by rwa [List.length_map]), rfl⟩
  | @set k least most xs conforms hl hm unlike ih =>
    obtain ⟨valid, values⟩ := items fun x hx =>
      ih x hx (dense.part (Value.Child.tuple hx).part) (short.part (Value.Child.tuple hx).part)
    have apart : Value.distinct .structural xs = xs :=
      Value.distinct_of_apart (unlike.imp And.right)
    rw [Back, wireForm_tuple conforms, denote_set, values, apart]
    refine ⟨.set valid (by rwa [List.length_map]) ?_, rfl⟩
    rwa [values, apart]
  | @element e fs names required fields selection chosen rule ihf ihc =>
    refine .element (.element names required fields selection chosen rule) dense
      (fun f hf given => ?_) fun c m w hc hm value => ?_
    · have part := Value.part_of_field names hf
      exact ihf f hf given (dense.part part) (short.part part)
    · have part := Value.part_of_selection names hc value
      exact ihc c m w hc hm value (dense.part part) (short.part part)

end Back

end

section

variable {reader : Url.Reader}

theorem Valid.item {strict : Bool} {s : Shape} {js : List Json} (h : Valid strict s (.arr js))
    (collection : s.isCollection = true) : ∀ j ∈ js, Valid strict (.one s.kind) j := by
  cases h with
  | scalar => cases collection
  | list items => exact items
  | set items => exact items

/-- A URL that is too long is not read again. -/
theorem short_of_valid {strict : Bool} {s : Shape} {v : Value} (h : Conforms s v) (dense : Dense v)
    (valid : Valid strict s (wireForm v)) : Short v := by
  induction h with
  | @scalar k v h =>
    intro t p
    cases p with
    | self =>
      cases k <;> first | exact h.elim | skip
      cases valid with
      | scalar accepts =>
        obtain ⟨u, short, -⟩ := accepts
        exact short
    | inside c _ => exact absurd c (h.no_child _)
  | @list k least most xs items _ _ ih | @set k least most xs items _ _ _ ih =>
    rw [wireForm_tuple items] at valid
    intro t p
    cases p with
    | inside c p =>
      cases c with
      | tuple hx =>
        have item := valid.item rfl _ (List.mem_map_of_mem hx)
        exact ih _ hx (dense.part (Value.Child.tuple hx).part) item t p
  | @element e fs names required fields selection chosen rule ihf ihc =>
    rw [wireForm_element (.element names required fields selection chosen rule)] at valid
    cases valid with
    | scalar accepts => exact accepts.elim
    | object _ validFields _ validChosen =>
      intro t p
      cases p with
      | inside c p =>
        cases c with
        | element hx =>
          rcases Value.slot_of_mem names hx with ⟨f, hf, rfl⟩ | ⟨c, hc, rfl⟩
          · by_cases none : (Value.element e fs).field f.name = .none
            · rw [none] at p
              cases p with
              | inside c _ => cases c
            · have part := Value.part_of_field names hf
              refine ihf f hf none (dense.part part) (validFields f hf _ ?_) t p
              exact member?_of_field hf (fields f hf none) (dense e fs .self f hf)
          · rcases selection c hc with ⟨none, -⟩ | ⟨m, hm, w, value⟩
            · rw [none] at p
              cases p with
              | inside c _ => cases c
            · have part := Value.part_of_selection names hc value
              rw [value] at p
              cases p with
              | inside c' p =>
                cases c'
                refine ihc c m w hc hm value (dense.part part) (validChosen c m _ hc hm ?_) t p
                exact member?_of_choice hc hm value (chosen c m w hc hm value)

end

/-! ### Parsing and serializing -/

section

variable {reader : Url.LawfulReader}

/-- What an element is written as is parsed as the element, exactly if none of its optional
collections is empty and no URL is too long. -/
theorem parse_wireForm {e : Element} {fs : List (String × Value)}
    (h : Conforms (.one (.element e)) (.element e fs)) (s : Settings) :
    (Codec.plain.parse s e (wireForm (.element e fs))).outcome = .ok (.element e fs) ↔
      Dense (.element e fs) ∧ Short (.element e fs) := by
  rw [parse_eq_ok]
  constructor
  · rintro ⟨valid, value⟩
    have dense : Dense (.element e fs) := value ▸ dense_denote _ _
    exact ⟨dense, short_of_valid h dense valid⟩
  · rintro ⟨dense, short⟩
    obtain ⟨valid, value⟩ := Back.of_conforms h dense short
    exact ⟨valid, value.symm⟩

/-- Whatever element a program has is serialized, and parsing the document gives the element
back, exactly if none of its optional collections is empty and no URL is too long. -/
theorem parse_serialize {e : Element} {fs : List (String × Value)}
    (h : Obtainable (fun _ _ => True) (.element e fs)) (s s' : Settings) :
    ∃ document, (Codec.plain.serialize s (.element e fs)).outcome = .ok document ∧
      ((Codec.plain.parse s' e document).outcome = .ok (.element e fs) ↔
        Dense (.element e fs) ∧ Short (.element e fs)) ∧
      (Value.element e fs).same (.element e fs) = true := by
  have conforms := h.sound.element e fs .self
  exact ⟨_, outcome_serialize conforms s, parse_wireForm conforms s', conforms.same_self⟩

end

open Obtainable in
theorem five_parsed_again : ∃ document,
    (Codec.plain.serialize {} (.element .rationalNumber five)).outcome = .ok document ∧
      (Codec.plain.parse {} .rationalNumber document).outcome =
        .ok (.element .rationalNumber five) := by
  have ints {x : Value} (c : x.Child (.element .rationalNumber five)) : ∃ n, x = .int n := by
    cases c with
    | element hx =>
      simp only [five, List.mem_cons, Prod.mk.injEq, List.not_mem_nil, or_false] at hx
      rcases hx with ⟨-, rfl⟩ | ⟨-, rfl⟩ <;> exact ⟨_, rfl⟩
  have single : ∀ f ∈ Element.fields .rationalNumber, f.shape.isCollection = false := by
    decide
  have args : ∀ k x, (k, x) ∈ fiveArguments → Obtainable (fun _ _ => True) x := by
    intro k x hx
    obtain ⟨n, rfl⟩ := int_of_five hx
    exact .int n
  have dense : Dense (.element .rationalNumber five) := by
    refine .of_children (fun x c => ?_) ?_
    · obtain ⟨n, rfl⟩ := ints c
      exact .of_children nofun nofun
    · rintro _ _ ⟨⟩ f hf - collection
      rw [single f hf] at collection
      cases collection
  have short : Short (.element .rationalNumber five) := by
    intro t p
    cases p with
    | inside c p =>
      obtain ⟨n, rfl⟩ := ints c
      cases p with
      | inside c _ => cases c
  have built : Element.build .rationalNumber fiveArguments = .ok (.element .rationalNumber five) :=
    rfl
  obtain ⟨document, serialized, parsed, -⟩ := @parse_serialize Url.lawfulAscii _ _
    (.built trivial args built) {} {}
  exact ⟨document, serialized, parsed.mpr ⟨dense, short⟩⟩

def minimalHeader : Value := .element .messageHeader
  [("session_id", .identifier .sessionId "AB"), ("timestamp", .int 1), ("signature", .none)]

/-- An element without fields has no items, and counts as an empty collection of service ids. -/
def emptyServices : List (String × Value) :=
  [("header", minimalHeader), ("supported_service_ids", .tuple [])]

theorem emptyServices_kept :
    Obtainable (fun _ _ => True) (.element .serviceDiscoveryReq emptyServices) ∧
      ¬ Dense (.element .serviceDiscoveryReq emptyServices) := by
  have params : Element.build .eimAuthReqParams [] = .ok (.element .eimAuthReqParams []) := rfl
  have header : Element.build .messageHeader [("sessionId", .text "AB"), ("timestamp", .int 1)] =
      .ok minimalHeader := rfl
  have message : Element.build .serviceDiscoveryReq
      [("header", minimalHeader), ("supported_service_ids", .element .eimAuthReqParams [])] =
      .ok (.element .serviceDiscoveryReq emptyServices) := rfl
  refine ⟨.built trivial ?_ message, fun dense => ?_⟩
  · simp only [List.mem_cons, Prod.mk.injEq, List.not_mem_nil, or_false]
    rintro _ _ (⟨-, rfl⟩ | ⟨-, rfl⟩)
    · refine .built trivial ?_ header
      simp only [List.mem_cons, Prod.mk.injEq, List.not_mem_nil, or_false]
      rintro _ _ (⟨-, rfl⟩ | ⟨-, rfl⟩)
      · exact .text "AB"
      · exact .int 1
    · exact .built trivial (fun _ _ h => absurd h List.not_mem_nil) params
  · have optional : ⟨"supported_service_ids", "supportedServiceIds", false, .set .uint16 0 16⟩ ∈
        Element.fields .serviceDiscoveryReq := by decide
    exact dense _ _ .self _ optional rfl rfl rfl

section

variable {reader : Url.LawfulReader}

/-- The document of a message that was parsed is the normal form of the document it was parsed
from. If it is parsed in turn, which only a URL that is too long can prevent, the message is the
same again. -/
theorem serialize_parse {s : Settings} {e : Element} {j : Json} {m : Value}
    (h : (Codec.plain.parse s e j).outcome = .ok m) (s' s'' : Settings) :
    (Codec.plain.serialize s' m).outcome = .ok (normal j (.one (.element e))) ∧
      ∀ m', (Codec.plain.parse s'' e (normal j (.one (.element e)))).outcome = .ok m' ↔
        m' = m ∧ Short m := by
  obtain ⟨valid, value⟩ := parse_eq_ok.mp h
  have conforms : Conforms (.one (.element e)) m := value ▸ conforms_denote valid nofun
  have dense : Dense m := value ▸ dense_denote _ _
  have written : wireForm m = normal j (.one (.element e)) := by rw [value, wireForm_denote valid]
  obtain ⟨fs, rfl⟩ : ∃ fs, m = .element e fs := by
    cases conforms with
    | scalar h => exact h.elim
    | element => exact ⟨_, rfl⟩
  rw [← written]
  refine ⟨outcome_serialize conforms s', fun m' => ⟨fun parsed => ?_, ?_⟩⟩
  · obtain ⟨again, value'⟩ := parse_eq_ok.mp parsed
    have short := short_of_valid conforms dense again
    obtain ⟨-, back⟩ : Back s''.rejectUnknown _ _ := Back.of_conforms conforms dense short
    exact ⟨value'.trans back, short⟩
  · rintro ⟨rfl, short⟩
    exact (parse_wireForm conforms s'').mpr ⟨dense, short⟩

end

def disorderly : Json := .obj [("value", .int 5), ("exponent", .int 0), ("comment", .null)]

def orderly : Json := .obj [("exponent", .int 0), ("value", .int 5)]

theorem disorderly_serialized :
    (Codec.plain.parse ⟨"INFO", false, false⟩ .rationalNumber disorderly).outcome =
        .ok (.element .rationalNumber Obtainable.five) ∧
      (Codec.plain.serialize {} (.element .rationalNumber Obtainable.five)).outcome = .ok orderly ∧
      ∀ m, (Codec.plain.parse {} .rationalNumber orderly).outcome = .ok m ↔
        m = .element .rationalNumber Obtainable.five ∧
          Short (.element .rationalNumber Obtainable.five) := by
  have parsed : (Codec.plain.parse ⟨"INFO", false, false⟩ .rationalNumber disorderly).outcome =
      .ok (.element .rationalNumber Obtainable.five) := rfl
  exact ⟨parsed, @serialize_parse Url.lawfulAscii _ _ _ _ parsed {} {}⟩

end Wire

end V2G
