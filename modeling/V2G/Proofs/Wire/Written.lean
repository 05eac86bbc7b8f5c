import V2G.Proofs.Build.Restored
import V2G.Proofs.Wire.Repetition

/-!
# What is written is valid

Whatever conforms is written as a valid document (`valid_wireForm`), if the URLs in it are short
enough to be read again. An optional collection that is empty is left out: the document stands for
another element then, but the rules make no difference between the two.
-/

namespace V2G

section

variable {reader : Url.Reader}

namespace Rule

theorem Agree.trans {u v w : Value} (h : Agree u v) (h' : Agree v w) : Agree u w :=
  ⟨h.isNone.trans h'.isNone, h.text.trans h'.text, h.member.trans h'.member, h.int.trans h'.int,
    fun t => (h.texts t).trans (h'.texts t)⟩

theorem Agree.element {e : Element} (fs gs : List (String × Value)) :
    Agree (.element e fs) (.element e gs) :=
  ⟨rfl, rfl, rfl, rfl, fun _ => Iff.rfl⟩

/-- No rule makes a difference between items and their distinct ones. -/
theorem agree_distinct {k : Kind} {xs : List Value} (items : ∀ x ∈ xs, Conforms (.one k) x) :
    Agree (.tuple xs) (.tuple (Value.distinct .structural xs)) := by
  refine ⟨rfl, rfl, rfl, rfl, fun t => ?_⟩
  simp only [Value.texts, Value.items?, Option.getD_some, List.mem_filterMap]
  constructor
  · rintro ⟨x, hx, text⟩
    obtain ⟨y, hy, same⟩ :=
      Value.exists_mem_distinct (fun x hx => (items x hx).equal_self .structural) hx
    have agree := agree_of_alike (items x hx) (items y (Value.mem_of_mem_distinct hy)) same
    exact ⟨y, hy, agree.text ▸ text⟩
  · rintro ⟨x, hx, text⟩
    exact ⟨x, Value.mem_of_mem_distinct hx, text⟩

end Rule

end

namespace Wire

variable {strict : Bool}

section

variable [reader : Url.Reader]

/-- What is written of a value for a shape is valid, and stands for a value between which and the
first one no rule makes a difference. -/
def ReadsBack (strict : Bool) (s : Shape) (v : Value) : Prop :=
  Valid strict s (wireForm v) ∧ Rule.Agree v (denote (wireForm v) s)

variable {reader}

theorem items_readBack {k : Kind} {xs : List Value} (h : ∀ x ∈ xs, ReadsBack strict (.one k) x) :
    (∀ j ∈ xs.map wireForm, Valid strict (.one k) j) ∧
      Rule.Agree (.tuple xs) (.tuple ((xs.map wireForm).map (denote · (.one k)))) := by
  refine ⟨List.forall_mem_map.mpr fun x hx => (h x hx).1, ?_⟩
  rw [List.map_map]
  refine .tuple (List.forall₂_map_right_iff.mpr ?_) (.refl _)
  exact List.forall₂_same.mpr fun x hx => (h x hx).2

section Element

variable {e : Element} {fs : List (String × Value)}

/-- A field is written under its key, or left out if it is optional and absent or empty. -/
theorem member?_field_cases {f : Field} (hf : f ∈ e.fields)
    (required : f.required = true → (Value.element e fs).field f.name ≠ .none)
    (conforms : (Value.element e fs).field f.name ≠ .none →
      Conforms f.shape ((Value.element e fs).field f.name)) :
    (f.required = false ∧ member? (entries e (.element e fs)) f.key = none ∧
        ((Value.element e fs).field f.name = .none ∨ f.shape.isCollection = true)) ∨
      (Value.element e fs).field f.name ≠ .none ∧ member? (entries e (.element e fs)) f.key =
        some (wireForm ((Value.element e fs).field f.name)) := by
  by_cases none : (Value.element e fs).field f.name = .none
  · have optional : f.required = false :=
      Bool.eq_false_iff.mpr fun mandatory => required mandatory none
    exact .inl ⟨optional, member?_of_absent hf optional none, .inl none⟩
  · by_cases full : f.required = false → f.shape.isCollection = true →
        (Value.element e fs).field f.name ≠ .tuple []
    · exact .inr ⟨none, member?_of_field hf (conforms none) full⟩
    · push Not at full
      obtain ⟨optional, collection, empty⟩ := full
      have found : Keyed.get? (entries e (.element e fs)) f.key = writtenField (.element e fs) f :=
        Element.get?_inOrder_field hf
      refine .inl ⟨optional, ?_, .inr collection⟩
      simp [member?, found, writtenField, empty, optional, isPresent, Value.isNone,
        Value.isEmptyCollection]

/-- Where no field is an optional collection, the document stands for fields between which and the
first ones no rule makes a difference. -/
theorem agree_fieldOf {f : Field} (hf : f ∈ e.fields)
    (single : f.required = false → f.shape.isCollection = false)
    (required : f.required = true → (Value.element e fs).field f.name ≠ .none)
    (conforms : (Value.element e fs).field f.name ≠ .none →
      Conforms f.shape ((Value.element e fs).field f.name))
    (back : (Value.element e fs).field f.name ≠ .none →
      ReadsBack strict f.shape ((Value.element e fs).field f.name)) :
    Rule.Agree ((Value.element e fs).field f.name) (fieldOf (entries e (.element e fs)) f) := by
  rcases member?_field_cases hf required conforms with ⟨optional, absent, reason⟩ | ⟨given, there⟩
  · rw [fieldOf, absent]
    rcases reason with none | collection
    · rw [none]
      exact .refl _
    · rw [single optional] at collection
      cases collection
  · have kept : isDropped f (wireForm ((Value.element e fs).field f.name)) = false := by
      simp only [isDropped]
      cases optional : f.required with
      | true => rfl
      | false => simp [single optional]
    rw [fieldOf_of_there there, kept]
    exact (back given).2

/-- No rule makes a difference between what stands in an element and what its document stands for
there, but for optional collections. -/
theorem agree_slot (h : Conforms (.one (.element e)) (.element e fs))
    (fields : ∀ f ∈ e.fields, (Value.element e fs).field f.name ≠ .none →
      ReadsBack strict f.shape ((Value.element e fs).field f.name))
    (selected : ∀ c m w, e.choice = some c → m ∈ c.group.members →
      (Value.element e fs).field c.name = .choice m.name w →
      ReadsBack strict (.one m.kind) w)
    {name : String} (single : ∀ f ∈ e.fields, f.name = name → f.required = false →
      f.shape.isCollection = false) :
    Rule.Agree ((Value.element e fs).field name)
      ((denote (wireForm (.element e fs)) (.one (.element e))).field name) := by
  have written := wireForm_element h
  cases h with
  | scalar h => exact h.elim
  | element names required conforms selection conformsChosen _ =>
    rw [written, denote_obj]
    by_cases slot : name ∈ e.slots.map (·.1)
    · rcases Element.mem_slotNames.mp slot with ⟨f, hf, rfl⟩ | ⟨c, hc, rfl⟩
      · rw [field_entriesOf hf]
        exact agree_fieldOf hf (single f hf rfl) (required f hf) (conforms f hf) (fields f hf)
      · rw [choice_entriesOf hc]
        obtain ⟨-, -, written⟩ := choice_written hc (selection c hc)
          (fun m w hm => conformsChosen c m w hc hm)
          fun m w hm value => (selected c m w hc hm value).1
        rcases written with ⟨none, absent⟩ | ⟨m, w, -, value, there⟩
        · rw [none]
          exact absent ▸ .refl _
        · rw [value]
          exact there ▸ .choice _ _ _
    · rw [Value.field_of_not_mem names slot, Value.field_of_not_mem (keys_entriesOf e) slot]
      exact .refl _

theorem ReadsBack.element (h : Conforms (.one (.element e)) (.element e fs))
    (fields : ∀ f ∈ e.fields, (Value.element e fs).field f.name ≠ .none →
      ReadsBack strict f.shape ((Value.element e fs).field f.name))
    (selected : ∀ c m w, e.choice = some c → m ∈ c.group.members →
      (Value.element e fs).field c.name = .choice m.name w →
      ReadsBack strict (.one m.kind) w) :
    ReadsBack strict (.one (.element e)) (.element e fs) := by
  have form := wireForm_element h
  have agree := fun name => @agree_slot strict reader e fs h fields selected name
  cases h with
  | scalar h => exact h.elim
  | element names required conforms selection conformsChosen rule =>
    have written := fun f hf => member?_field_cases hf (required f hf) (conforms f hf)
    have choice := fun c hc => choice_written hc (selection c hc)
      (fun m w hm => conformsChosen c m w hc hm) fun m w hm value => (selected c m w hc hm value).1
    rw [form] at agree
    rw [ReadsBack, form]
    refine ⟨.object (fun f hf mandatory => ?_) (fun f hf j hj => ?_) (fun c hc => (choice c hc).1)
      (fun c m j hc hm => (choice c hc).2.1 m j hm) (fun _ _ => Element.mem_keys_of_inOrder) ?_, ?_⟩
    · rcases written f hf with ⟨optional, -⟩ | ⟨-, there⟩
      · rw [optional] at mandatory
        cases mandatory
      · exact Option.ne_none_iff_exists'.mpr ⟨_, there⟩
    · rcases written f hf with ⟨-, absent, -⟩ | ⟨given, there⟩
      · cases absent.symm.trans hj
      · cases there.symm.trans hj
        exact (fields f hf given).1
    · by_cases ruled : e ∈ Rule.ruled
      · refine (Rule.broken?_congr fun name => agree name fun f hf _ => ?_).mp rule
        exact Rule.full_of_ruled e ruled f hf
      · exact Rule.broken?_of_not_ruled ruled _
    · rw [denote_obj]
      exact .element _ _

end Element

end

variable {reader : Url.LawfulReader}

theorem readsBack_of_conforms {s : Shape} {v : Value} (h : Conforms s v) (short : Short v) :
    ReadsBack strict s v := by
  induction h with
  | scalar h =>
    obtain ⟨valid, value⟩ : Back strict _ _ := .scalar h short
    exact ⟨valid, value.symm ▸ .refl _⟩
  | @list k least most xs items hl hm ih =>
    have back : ∀ x ∈ xs, ReadsBack strict (.one k) x :=
      fun x hx => ih x hx (short.part (Value.Child.tuple hx).part)
    obtain ⟨valid, agree⟩ := items_readBack back
    rw [ReadsBack, wireForm_tuple items, denote_list]
    exact ⟨.list valid (by rwa [List.length_map]) (by rwa [List.length_map]), agree⟩
  | @set k least most xs items hl hm _ ih =>
    have back : ∀ x ∈ xs, ReadsBack strict (.one k) x :=
      fun x hx => ih x hx (short.part (Value.Child.tuple hx).part)
    obtain ⟨valid, agree⟩ := items_readBack back
    have read : ∀ x ∈ (xs.map wireForm).map (denote · (.one k)), Conforms (.one k) x :=
      List.forall_mem_map.mpr fun j hj => conforms_denote (valid j hj) nofun
    rw [ReadsBack, wireForm_tuple items, denote_set]
    refine ⟨.set valid (by rwa [List.length_map]) ?_, agree.trans (Rule.agree_distinct read)⟩
    have fewer := (Value.distinct_sublist .structural
      ((xs.map wireForm).map (denote · (.one k)))).length_le
    rw [List.length_map, List.length_map] at fewer
    omega
  | @element e fs names required fields selection chosen rule ihf ihc =>
    refine .element (.element names required fields selection chosen rule)
      (fun f hf given => ?_) fun c m w hc hm value => ?_
    · exact ihf f hf given (short.part (Value.part_of_field names hf))
    · exact ihc c m w hc hm value (short.part (Value.part_of_selection names hc value))

/-- Whatever conforms is written as a valid document. -/
theorem valid_wireForm {s : Shape} {v : Value} (h : Conforms s v) (short : Short v) :
    Valid strict s (wireForm v) :=
  (readsBack_of_conforms h short).1

/-- What an element is written as stands for another element at most in optional collections, as far
as rules are concerned. -/
theorem agree_written {e : Element} {fs : List (String × Value)}
    (h : Conforms (.one (.element e)) (.element e fs)) (short : Short (.element e fs))
    {name : String} (single : ∀ f ∈ e.fields, f.name = name → f.required = false →
      f.shape.isCollection = false) :
    Rule.Agree ((Value.element e fs).field name)
      ((denote (wireForm (.element e fs)) (.one (.element e))).field name) := by
  have conforms := h
  cases h with
  | scalar h => exact h.elim
  | element names _ fields _ chosen _ =>
    refine @agree_slot true reader.toReader e fs conforms (fun f hf given => ?_)
      (fun c m w hc hm value => ?_) name single
    · exact readsBack_of_conforms (fields f hf given) (short.part (Value.part_of_field names hf))
    · exact readsBack_of_conforms (chosen c m w hc hm value)
        (short.part (Value.part_of_selection names hc value))

/-- What a document stands for equals the element that it was written from exactly if no optional
collection in that is empty. -/
theorem parsed_same_iff {e : Element} {fs : List (String × Value)}
    (h : Conforms (.one (.element e)) (.element e fs)) (short : Short (.element e fs)) :
    ((denote (wireForm (.element e fs)) (.one (.element e))).same (.element e fs) = true ↔
        Dense (.element e fs)) ∧
      (Dense (.element e fs) →
        denote (wireForm (.element e fs)) (.one (.element e)) = .element e fs) := by
  have valid : Valid true (.one (.element e)) (wireForm (.element e fs)) := valid_wireForm h short
  have back (dense : Dense (.element e fs)) :
      denote (wireForm (.element e fs)) (.one (.element e)) = .element e fs := by
    have back : Back true (.one (.element e)) (.element e fs) := .of_conforms h dense short
    exact back.2
  refine ⟨⟨fun same => ?_, fun dense => ?_⟩, back⟩
  · exact (conforms_denote valid nofun).dense_alike h same (dense_denote _ _)
  · rw [back dense]
    exact h.same_self

end Wire

end V2G
