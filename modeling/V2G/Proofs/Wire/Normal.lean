import V2G.Proofs.Wire.Encode
import V2G.Proofs.Wire.Grammar

/-!
# Normal forms

The normal form of a document: keys in the order of the declaration, what is null, empty or
unknown left out, the first of equal entries of a set kept, Base64 and URLs written anew. It is
defined on documents alone, along the declarations. What a valid document stands for is written
as its normal form (`wireForm_denote`).
-/

namespace V2G.Wire

/-! ### The form of a document -/

variable [reader : Url.Reader]

def normalScalar (k : Kind) (j : Json) : Json :=
  match k, j with
  | .bytes _ _, .str s =>
    .str (String.ofList (Base64.encode ((Base64.decode s.toList).toOption.getD [])))
  | .url, .str s =>
    match Build.urlOfText s with
    | .ok (.url t) => .str t
    | _ => .str s
  | _, j => j

def normalShape (s : Shape) (j : Json) : Json :=
  match s with
  | .one k => normalScalar k j
  | _ => j

/-- One entry of a set is kept, or passed over. -/
abbrev keepFirst (kept : List (Value × Json)) (p : Value × Json) : List (Value × Json) :=
  if kept.any (fun q => p.1.equal .structural q.1) then kept else kept ++ [p]

/-- The first entry of each class of equal ones. -/
def firsts (entries : List (Value × Json)) : List Json :=
  (entries.foldl keepFirst []).map (·.2)

def normalElement (e : Element) (ms : Keyed (Meaning Json)) : Json :=
  .obj (e.inOrder
    (fun f => (Meaning.member? ms f.key).bind fun m =>
      if isDropped f m.json then none else some (m.value f.shape))
    fun m => (Meaning.member? ms m.key).map (·.value (.one m.kind)))

mutual

/-- The normal form of a document for a shape. -/
def normal : Json → Shape → Json
  | .obj ms, s =>
    match s with
    | .one (.element e) => normalElement e (forms ms)
    | s => normalShape s (.obj ms)
  | .arr js, s =>
    match s with
    | .one k => normalScalar k (.arr js)
    | .list k _ _ => .arr ((normalItems js k).map (·.2))
    | .set k _ _ => .arr (firsts (normalItems js k))
  | .null, s => normalShape s .null
  | .bool b, s => normalShape s (.bool b)
  | .int n, s => normalShape s (.int n)
  | .float x, s => normalShape s (.float x)
  | .str t, s => normalShape s (.str t)
termination_by structural j => j

/-- The normal forms of items with the values they are told apart by. -/
def normalItems : List Json → Kind → List (Value × Json)
  | [], _ => []
  | j :: js, k => (denote j (.one k), normal j (.one k)) :: normalItems js k
termination_by structural js => js

def forms : List (String × Json) → Keyed (Meaning Json)
  | [] => []
  | (k, j) :: ms => (k, ⟨j, normal j⟩) :: forms ms
termination_by structural ms => ms

end

variable {reader}

theorem normalItems_eq (js : List Json) (k : Kind) :
    normalItems js k = js.map fun j => (denote j (.one k), normal j (.one k)) := by
  induction js with
  | nil => rfl
  | cons j js ih => rw [normalItems, ih, List.map_cons]

theorem forms_eq (ms : List (String × Json)) :
    forms ms = ms.map fun (k, j) => (k, ⟨j, normal j⟩) := by
  induction ms with
  | nil => rfl
  | cons m ms ih => simp [forms, ih]

variable {e : Element} {ms : Keyed Json}

theorem normal_obj (e : Element) :
    normal (.obj ms) (.one (.element e)) = .obj (e.inOrder
      (fun f => (member? ms f.key).bind fun j =>
        if isDropped f j then none else some (normal j f.shape))
      fun m => (member? ms m.key).map (normal · (.one m.kind))) := by
  simp only [normal, normalElement, forms_eq, Meaning.member?_map, Option.bind_map, Option.map_map]
  rfl

theorem normal_list {js : List Json} {k : Kind} {least most : Nat} :
    normal (.arr js) (.list k least most) = .arr (js.map (normal · (.one k))) := by
  rw [normal, normalItems_eq, List.map_map]
  rfl

theorem normal_set {js : List Json} {k : Kind} {least most : Nat} :
    normal (.arr js) (.set k least most) =
      .arr (firsts (js.map fun j => (denote j (.one k), normal j (.one k)))) := by
  rw [normal, normalItems_eq]

/-- Where each entry is a function of its value, the first entries are those of the distinct
values. -/
theorem firsts_eq {entries : List (Value × Json)} {g : Value → Json}
    (h : ∀ p ∈ entries, p.2 = g p.1) :
    firsts entries = (Value.distinct .structural (entries.map (·.1))).map g := by
  have step (kept : List Value) (p : Value × Json) (hp : p.2 = g p.1) :
      keepFirst (kept.map fun v => (v, g v)) p =
        (Value.keep .structural kept p.1).map fun v => (v, g v) := by
    have : p = (p.1, g p.1) := Prod.ext rfl hp
    simp only [keepFirst, Value.keep, List.any_map, Function.comp_def]
    split
    · rfl
    · rw [List.map_append, List.map_singleton, ← this]
  have run (kept : List Value) : entries.foldl keepFirst (kept.map fun v => (v, g v)) =
      ((entries.map (·.1)).foldl (Value.keep .structural) kept).map fun v => (v, g v) := by
    induction entries generalizing kept with
    | nil => rfl
    | cons p entries ih =>
      rw [List.foldl_cons, step kept p (h p List.mem_cons_self), List.map_cons, List.foldl_cons]
      exact ih (fun q hq => h q (List.mem_cons_of_mem _ hq)) _
  rw [firsts, show ([] : List (Value × Json)) = [].map fun v => (v, g v) from rfl, run,
    Value.distinct_eq_foldl, List.map_map]
  rfl

/-! ### What is written of what was read -/

theorem wireForm_denoteScalar {k : Kind} {j : Json} (h : Accepts k j) :
    wireForm (denoteScalar k j) = normalScalar k j := by
  cases k <;> cases j <;> first | exact h.elim | skip
  · rfl
  · rfl
  · rfl
  · obtain ⟨data, read, -⟩ := h
    simp only [denoteScalar, normalScalar, read]
    rfl
  · obtain ⟨u, short, read, web⟩ := h
    have text := Build.urlOfText_eq_ok.mpr ⟨u, short, read, web, rfl⟩
    simp only [denoteScalar, normalScalar, text]
    rfl
  · rfl
  · rfl

theorem normal_of_accepts {k : Kind} {j : Json} (h : Accepts k j) :
    normal j (.one k) = normalScalar k j := by
  cases j with
  | obj ms => cases k <;> exact h.elim
  | _ => rfl

/-- Of what conforms only the empty tuple is left out. -/
theorem isPresent_of_conforms {s : Shape} {v : Value} (h : Conforms s v) (full : v ≠ .tuple []) :
    isPresent v = true := by
  cases h with
  | @scalar k v h => cases v <;> first | rfl | (cases k <;> exact h.elim)
  | @list k least most xs | @set k least most xs =>
    cases xs with
    | nil => exact absurd rfl full
    | cons x xs => rfl
  | element => rfl

/-- What conforms is written, unless it is empty and may be absent. -/
theorem written_of_conforms {f : Field} {x : Value} (h : Conforms f.shape x)
    (full : f.required = false → f.shape.isCollection = true → x ≠ .tuple []) :
    (f.required || isPresent x) = true := by
  rw [Bool.or_eq_true]
  refine (Bool.eq_false_or_eq_true f.required).imp id fun optional => ?_
  refine isPresent_of_conforms h ?_
  cases hc : f.shape.isCollection with
  | true => exact full optional hc
  | false => exact h.ne_empty hc

/-- The selection in an object is that of the member which is there. -/
theorem selected_choiceOf {c : ChoiceField} (hc : e.choice = some c)
    (count : (chosen c.group ms).length ≤ 1) {m : Member} (hm : m ∈ c.group.members) :
    selected (choiceOf c.group ms) m = (member? ms m.key).map (denote · (.one m.kind)) := by
  rcases choiceOf_cases c.group ms with ⟨none, value⟩ | ⟨m', rest, j, one, there, value⟩
  · rw [value]
    cases hj : member? ms m.key with
    | none => rfl
    | some j =>
      have := mem_chosen hm hj
      rw [none] at this
      cases this
  · rw [value, selected]
    split
    · next name =>
      obtain rfl := Build.member_ext hc hm (mem_of_chosen one) name
      rw [there, Option.map_some]
    · next name =>
      cases hj : member? ms m.key with
      | none => rfl
      | some j => exact absurd (eq_of_chosen one count hm hj ▸ rfl) name

/-- What a valid document stands for is written as its normal form. -/
theorem wireForm_denote {strict : Bool} {s : Shape} {j : Json} (h : Valid strict s j) :
    wireForm (denote j s) = normal j s := by
  induction h with
  | scalar h => rw [denote_of_accepts h, wireForm_denoteScalar h, normal_of_accepts h]
  | @list k least most js items _ _ ih =>
    have conforms : ∀ x ∈ js.map (denote · (.one k)), Conforms (.one k) x :=
      List.forall_mem_map.mpr fun j hj => conforms_denote (items j hj) nofun
    rw [denote_list, normal_list, wireForm_tuple conforms, List.map_map]
    exact congrArg Json.arr (List.map_congr_left ih)
  | @set k least most js items _ _ ih =>
    have conforms : ∀ x ∈ js.map (denote · (.one k)), Conforms (.one k) x :=
      List.forall_mem_map.mpr fun j hj => conforms_denote (items j hj) nofun
    rw [denote_set, normal_set,
      wireForm_tuple fun x hx => conforms x (Value.mem_of_mem_distinct hx),
      firsts_eq (List.forall_mem_map.mpr fun j hj => (ih j hj).symm), List.map_map]
    rfl
  | @object e ms mandatory fields count selected known rule ihf ihc =>
    have conforms : Conforms (.one (.element e)) (.element e (entriesOf e ms)) := by
      rw [← denote_obj]
      exact conforms_denote (.object mandatory fields count selected known rule) nofun
    rw [denote_obj, normal_obj, wireForm_element conforms]
    refine congrArg Json.obj (Element.inOrder_congr (fun f hf => ?_) fun m hm => ?_)
    · rw [writtenField, field_entriesOf hf, fieldOf]
      cases hj : member? ms f.key with
      | none =>
        have optional : f.required = false :=
          Bool.eq_false_iff.mpr fun required => mandatory f hf required hj
        simp [optional, isPresent, Value.isNone]
      | some j =>
        simp only [Option.bind_some]
        cases hd : isDropped f j with
        | true =>
          simp only [isDropped, Bool.and_eq_true, Bool.not_eq_true'] at hd
          simp [hd.1.1, isPresent, Value.isNone]
        | false =>
          have conforms := conforms_denote (fields f hf j hj) (Element.least_of_set hf)
          have written := written_of_conforms conforms fun optional collection =>
            ne_empty_of_denote optional collection hd
          simp [written, ihf f hf j hj]
    · cases hc : e.choice with
      | none => simp [Element.members, hc] at hm
      | some c =>
        have hm : m ∈ c.group.members := by simpa [Element.members, hc] using hm
        rw [writtenMember, hc, Option.bind_some, choice_entriesOf hc,
          selected_choiceOf hc (count c hc).1 hm, Option.map_map]
        exact Option.map_congr fun j hj => ihc c m j hc hm hj

end V2G.Wire
