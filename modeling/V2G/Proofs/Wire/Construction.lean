import V2G.Proofs.Wire.Lenient
import V2G.Value.OfJson

/-!
# Documents as arguments

An element is read from a document from the inside out: what stands deeper is an element already
when the arguments are put together. Given as plain arguments (`plain`), with dictionaries and
lists as they are written and only the texts of bytes decoded, the same document makes the same
element: whatever a valid document stands for is what its plain arguments become (`read_plain`).
-/

namespace V2G.Wire

open Build

variable {s : Shape} {e : Element} {ms : Keyed Json} {f : Field} {key : String}

/-- A text that stands for bytes, decoded if it can be. -/
def plainBytes (t : String) : Value :=
  match Base64.decode t.toList with
  | .ok data => .bytes data
  | .error _ => .text t

mutual

/-- A document as a plain argument for a shape. Where bytes are wanted, their text is decoded. -/
def plain : Json → Shape → Value
  | .obj ms, s =>
    match s with
    | .one (.element e) => .dict (plainMembers ms e)
    | _ => .ofJson (.obj ms)
  | .arr js, s =>
    match s with
    | .one _ => .ofJson (.arr js)
    | .list k _ _ => .list (plainItems js k)
    | .set k _ _ => .list (plainItems js k)
  | .str t, s =>
    match s with
    | .one (.bytes _ _) => plainBytes t
    | _ => .text t
  | .null, _ => .none
  | .bool b, _ => .bool b
  | .int n, _ => .int n
  | .float x, _ => .float x
termination_by structural j => j

def plainItems : List Json → Kind → List Value
  | [], _ => []
  | j :: js, k => plain j (.one k) :: plainItems js k
termination_by structural js => js

/-- The members of an object as arguments for an element, each under its own key. -/
def plainMembers : List (String × Json) → Element → Keyed Value
  | [], _ => []
  | (key, j) :: ms, e =>
    (key, match e.shapeOf? key with
      | some s => plain j s
      | none => .ofJson j) :: plainMembers ms e
termination_by structural ms => ms

end

theorem plainItems_eq (js : List Json) (k : Kind) :
    plainItems js k = js.map (plain · (.one k)) := by
  induction js with
  | nil => rfl
  | cons j js ih => rw [plainItems, ih, List.map_cons]

theorem keys_plainMembers (ms : Keyed Json) (e : Element) :
    (plainMembers ms e).keys = ms.keys := by
  induction ms with
  | nil => rfl
  | cons entry ms ih => exact congrArg (entry.1 :: ·) ih

theorem get?_plainMembers (shape : e.shapeOf? key = some s) :
    Keyed.get? (plainMembers ms e) key = (Keyed.get? ms key).map (plain · s) := by
  induction ms with
  | nil => rfl
  | cons entry ms ih =>
    obtain ⟨key', j⟩ := entry
    unfold plainMembers
    by_cases same : key' = key
    · subst same
      simp [Keyed.get?, shape]
    · simpa [Keyed.get?, same] using ih

/-! ### What a plain argument is -/

theorem plainBytes_cases (t : String) :
    (∃ data, plainBytes t = .bytes data) ∨ plainBytes t = .text t := by
  unfold plainBytes
  cases Base64.decode t.toList with
  | ok data => exact .inl ⟨data, rfl⟩
  | error _ => exact .inr rfl

theorem plain_str_cases (t : String) (s : Shape) :
    (∃ data, plain (.str t) s = .bytes data) ∨ plain (.str t) s = .text t := by
  rcases s with (_ | _ | _ | _ | _ | _ | _ | e) | _ | _ <;>
    first | exact .inr rfl | exact plainBytes_cases t

theorem isNone_plain (j : Json) (s : Shape) : (plain j s).isNone = j.isNull := by
  cases j with
  | obj ms => rcases s with (_ | _ | _ | _ | _ | _ | _ | e) | _ | _ <;> rfl
  | arr js => cases s <;> rfl
  | str t =>
    rcases plain_str_cases t s with ⟨data, bytes⟩ | text <;> simp [*, Value.isNone, Json.isNull]
  | _ => rfl

theorem plain_ne_element (j : Json) (s : Shape) (e : Element) (fs : List (String × Value)) :
    plain j s ≠ .element e fs := by
  cases j with
  | obj ms => rcases s with (_ | _ | _ | _ | _ | _ | _ | e) | _ | _ <;> nofun
  | arr js => cases s <;> nofun
  | str t => rcases plain_str_cases t s with ⟨data, bytes⟩ | text <;> simp [*]
  | _ => nofun

theorem plain_arr (collection : s.isCollection = true) (js : List Json) :
    plain (.arr js) s = .list (js.map (plain · (.one s.kind))) := by
  rw [← plainItems_eq]
  cases s with
  | one k => cases collection
  | list k least most | set k least most => rfl

theorem isEmptyCollection_plain (collection : s.isCollection = true) (j : Json) :
    (plain j s).isEmptyCollection = match j with | .arr [] => true | _ => false := by
  cases j with
  | arr js =>
    rw [plain_arr collection]
    cases js <;> rfl
  | obj ms => rcases s with (_ | _ | _ | _ | _ | _ | _ | e) | _ | _ <;> rfl
  | str t =>
    rcases plain_str_cases t s with ⟨data, bytes⟩ | text <;> simp [*, Value.isEmptyCollection]
  | _ => rfl

/-- A document that is not null leaves a field absent exactly if it is dropped. -/
theorem leavesAbsent_plain (j : Json) (given : j.isNull = false) :
    leavesAbsent f (plain j f.shape) = isDropped f j := by
  unfold leavesAbsent isDropped
  rw [isNone_plain, given]
  cases hc : f.shape.isCollection with
  | false => simp
  | true =>
    rw [Bool.and_true, Bool.false_or]
    exact congrArg (!f.required && ·) (isEmptyCollection_plain hc j)

/-! ### What a plain argument becomes -/

/-- Of a document that is read for a kind, the plain argument is what is read. -/
theorem eq_plain_of_decodeKind {k : Kind} {j : Json} {path : Path} {r : Value}
    (h : (decodeKind k j path).outcome = .ok r) : r = plain j (.one k) := by
  cases k with
  | bytes least most =>
    cases j with
    | str t =>
      obtain ⟨data, decoded, rfl⟩ := decodeBytes_eq_ok.mp h
      show _ = plainBytes t
      rw [plainBytes, decoded]
    | _ => cases h
  | _ => cases j <;> cases h <;> rfl

section

variable {reader : Url.Reader}

theorem read_plain_scalar {k : Kind} {j : Json} (h : Accepts k j) :
    read (plain j (.one k)) (.one k) = .ok (denote j (.one k)) := by
  have reads : ∃ r, (decodeKind k j []).outcome = .ok r ∧
      Build.read r (.one k) = .ok (denoteScalar k j) := decodeKind_reads.mpr ⟨h, rfl⟩
  obtain ⟨r, decoded, read⟩ := reads
  rw [denote_of_accepts h, ← eq_plain_of_decodeKind decoded]
  exact read

/-! ### Members of objects -/

theorem present?_plainMembers (shape : e.shapeOf? key = some s) :
    present? (plainMembers ms e) key = (member? ms key).map (plain · s) := by
  unfold present? member?
  rw [get?_plainMembers shape]
  cases Keyed.get? ms key with
  | none => rfl
  | some j => cases null : j.isNull <;> simp [Option.filter, isNone_plain, null]

/-- A field takes from the plain arguments what stands for it in the object. -/
theorem takes_plainMembers (hf : f ∈ e.fields)
    (mandatory : f.required = true → member? ms f.key ≠ none)
    (ih : ∀ j, member? ms f.key = some j → read (plain j f.shape) f.shape = .ok (denote j f.shape)) :
    Takes f ((Keyed.get? (plainMembers ms e) f.key).map argOf) (fieldOf ms f) := by
  have optional (absent : member? ms f.key = none) : f.required = false :=
    Bool.eq_false_iff.mpr fun required => mandatory required absent
  rw [get?_plainMembers (Element.shapeOf?_eq (Element.mem_inspected.mpr (.inl hf)))]
  cases there : Keyed.get? ms f.key with
  | none =>
    have absent : member? ms f.key = none := by rw [member?, there]; rfl
    rw [fieldOf, absent]
    exact ⟨optional absent, rfl⟩
  | some j =>
    cases null : j.isNull with
    | true =>
      have absent : member? ms f.key = none := by rw [member?, there]; simp [Option.filter, null]
      rw [fieldOf, absent]
      simp [Takes, leavesAbsent, isNone_plain, null, optional absent]
    | false =>
      have given : member? ms f.key = some j := member?_of_get? there null
      rw [fieldOf, given]
      simp only [Option.map_some, Takes, leavesAbsent_plain j null]
      split
      · rfl
      · exact ih j given

/-- The selection among the plain arguments is that of the object. -/
theorem chosen_plainMembers {c : ChoiceField} (hc : e.choice = some c)
    (count : (chosen c.group ms).length ≤ 1 ∧ (c.group.required = true → chosen c.group ms ≠ []))
    (ih : ∀ m ∈ c.group.members, ∀ j, member? ms m.key = some j →
      read (plain j (.one m.kind)) (.one m.kind) = .ok (denote j (.one m.kind))) :
    Chosen c.group (fun m => present? (plainMembers ms e) m.key) (choiceOf c.group ms) := by
  have given (m : Member) (hm : m ∈ c.group.members) :
      present? (plainMembers ms e) m.key = (member? ms m.key).map (plain · (.one m.kind)) := by
    have inspected : Field.optional m.name m.key m.kind ∈ e.inspected :=
      Element.mem_inspected.mpr (.inr ⟨m, Element.members_eq hc ▸ hm, rfl⟩)
    exact present?_plainMembers (Element.shapeOf?_eq inspected)
  refine (chosen_congr given).mpr ?_
  have same : (c.group.members.filter fun m =>
      ((member? ms m.key).map (plain · (.one m.kind))).isSome) = chosen c.group ms := by
    simp only [Option.isSome_map, chosen]
  unfold Chosen
  rw [same]
  refine ⟨count, ?_⟩
  rcases choiceOf_cases c.group ms with ⟨none, value⟩ | ⟨m, rest, j, one, there, value⟩
  · exact .inl ⟨none, value⟩
  · refine .inr ⟨m, rest, plain j (.one m.kind), denote j (.one m.kind), one, ?_, ?_, ?_, value⟩
    · exact Option.map_eq_some_iff.mpr ⟨j, there, rfl⟩
    · exact misfit?_of_ne (plain_ne_element j _)
    · exact ih m (mem_of_chosen one) j there

/-- A valid document becomes what it stands for when it is given as a plain argument. -/
theorem read_plain {j : Json} (h : Valid true s j) : read (plain j s) s = .ok (denote j s) := by
  induction h with
  | scalar accepts => exact read_plain_scalar accepts
  | @list k least most js _ hl hm ih =>
    rw [plain_arr rfl, denote_list]
    refine (read_items_list rfl).mpr ⟨js.map (denote · (.one k)), ?_, ?_, ?_, rfl⟩
    · rw [List.map_map, List.map_map]
      exact List.map_congr_left ih
    · rwa [List.length_map]
    · rwa [List.length_map]
  | @set k least most js _ hl hm ih =>
    rw [plain_arr rfl, denote_set]
    refine (read_items_set rfl).mpr ⟨js.map (denote · (.one k)), ?_, ?_, hm, rfl⟩
    · rw [List.map_map, List.map_map]
      exact List.map_congr_left ih
    · rwa [List.length_map]
  | @object e ms mandatory _ count _ declared rule fields members =>
    have known : ∀ key ∈ (plainMembers ms e).keys, key ∈ e.keys :=
      keys_plainMembers ms e ▸ declared rfl
    rw [denote_obj] at rule ⊢
    refine (build_of_known known).mpr ⟨_, rfl, keys_entriesOf e, fun f hf => ?_,
      fun c hc => ?_, rule⟩
    · rw [field_entriesOf hf]
      exact takes_plainMembers hf (mandatory f hf) (fields f hf)
    · rw [choice_entriesOf hc]
      exact chosen_plainMembers hc (count c hc) fun m hm j there => members c m j hc hm there

/-! ### Parsing -/

/-- Where unknown keys are refused, an object that is parsed makes the same element when its
members are given as plain arguments. -/
theorem build_parsed {s : Settings} (strict : s.rejectUnknown = true) {m : Value}
    (h : (Codec.plain.parse s e (.obj ms)).outcome = .ok m) :
    e.build (plainMembers ms e) = .ok m := by
  obtain ⟨valid, rfl⟩ := parse_eq_ok.mp h
  rw [strict] at valid
  exact read_plain valid

end

def chainOfTwo : Keyed Json :=
  [("subCertificates", .arr [.str "Aw==", .str ""]), ("certificate", .str "AQI=")]

theorem chain_built :
    (Codec.plain.parse {} .certificateChain (.obj chainOfTwo)).outcome =
        .ok (.element .certificateChain [("certificate", .bytes [1, 2]),
          ("sub_certificates", .tuple [.bytes [3], .bytes []])]) ∧
      Element.build .certificateChain [("subCertificates", .list [.bytes [3], .bytes []]),
          ("certificate", .bytes [1, 2])] =
        .ok (.element .certificateChain [("certificate", .bytes [1, 2]),
          ("sub_certificates", .tuple [.bytes [3], .bytes []])]) :=
  ⟨rfl, @build_parsed .certificateChain chainOfTwo Url.ascii {} rfl _ rfl⟩

end V2G.Wire
