import V2G.Build.Mapping
import V2G.Proofs.Build.Restored

/-!
# Mappings and dictionaries

Whatever element a mapping makes, a dictionary makes as well, if the selection in it is one that the
choice group takes (`build_asDictionary`). Only the spelling is another: a dictionary has to hold
the selection itself, and an empty collection in another form than a tuple or list, as it would drop
those. Where there is no choice group and no empty collection, both make the same of the same,
faults included (`ofMapping_eq_build`).
-/

namespace V2G

variable {reader : Url.Reader}

/-! ### Selections by themselves -/

namespace ChoiceField

variable {c : ChoiceField} {v x : Value}

theorem text_of_readName {place : Step} (h : readName place x = .ok v) : ∃ m, v = .text m := by
  have read := Except.mapError_eq_ok.mp h
  unfold Build.readText at read
  split at read
  · exact ⟨_, (Build.boundedText_eq_ok.mp read).1⟩
  · cases read
  · cases read

theorem grounded_readName (place : Step) (x : Value) : Refusal.Grounded (readName place x) := by
  unfold readName
  cases Build.readText 0 none x <;> exact nofun

theorem grounded_parts (here : List (Except Refusal Value)) (extra : List Issue) :
    Refusal.Grounded ((partsIssues here extra).map selectionOf) := by
  refine Refusal.grounded_map ?_ _
  have surveyed : Refusal.survey here ≠ .error (.issues []) := Refusal.survey_ne_issues
  unfold partsIssues
  cases h : Refusal.survey here with
  | error r =>
    exact fun fails => surveyed (h.trans (congrArg Except.error (Except.error.inj fails)))
  | ok found =>
    obtain ⟨vs, issues⟩ := found
    show Refusal.Grounded (if _ then _ else _)
    split
    · exact nofun
    · next some => simpa [Refusal.Grounded] using some

theorem grounded_read (c : ChoiceField) (x : Value) : Refusal.Grounded (c.read x) := by
  cases x with
  | none =>
    simp only [read]
    split <;> exact nofun
  | tuple | list | dict => exact grounded_parts _ _
  | _ => exact nofun

/-- Two parts make a selection if the first is a name. -/
theorem selection_of_parts {name value : Except Refusal Value} {extra : List Issue}
    (h : (partsIssues [name, value] extra).map selectionOf = .ok v)
    (grounded : Refusal.Grounded name ∧ Refusal.Grounded value)
    (text : ∀ w, name = .ok w → ∃ m, w = .text m) : ∃ m w, value = .ok w ∧ v = .choice m w := by
  obtain ⟨vs, parts, rfl⟩ := Except.map_eq_ok.mp h
  obtain ⟨⟨ws, faults⟩, surveyed, parts⟩ := Except.bind_eq_ok.mp parts
  dsimp only at parts
  split at parts
  · next none =>
    cases parts
    obtain rfl : faults = [] := by simpa using (Bool.and_eq_true_iff.mp none).1
    have both : [name, value] = vs.map .ok :=
      (Refusal.survey_eq_ok_nil (by simp [grounded])).mp surveyed
    match vs, both with
    | [n, w], both =>
      simp only [List.map_cons, List.map_nil, List.cons.injEq, and_true] at both
      obtain ⟨rfl, rfl⟩ := both
      obtain ⟨m, rfl⟩ := text n rfl
      exact ⟨m, w, rfl, rfl⟩
  · cases parts

theorem readSequence_eq_ok {xs : List Value} (h : readSequence xs = .ok v) :
    ∃ m, ∃ w ∈ xs, v = .choice m w := by
  match xs with
  | [] =>
    simp only [readSequence, parts, List.map_cons, List.map_nil] at h
    obtain ⟨_, _, ⟨⟩, -⟩ := selection_of_parts h ⟨nofun, nofun⟩ nofun
  | [n] =>
    obtain ⟨_, _, ⟨⟩, -⟩ := selection_of_parts h ⟨grounded_readName _ n, nofun⟩
      fun _ => text_of_readName
  | n :: w :: rest =>
    obtain ⟨m, _, ⟨⟩, rfl⟩ := selection_of_parts h ⟨grounded_readName _ n, nofun⟩
      fun _ => text_of_readName
    exact ⟨m, w, List.mem_cons_of_mem _ List.mem_cons_self, rfl⟩

theorem readNamed_eq_ok {es : List (String × Value)} (h : readNamed es = .ok v) :
    ∃ m k w, (k, w) ∈ es ∧ v = .choice m w := by
  unfold readNamed at h
  cases named : Keyed.get? es "member" <;> cases given : Keyed.get? es "value" <;>
    simp only [named, given] at h
  case none.none =>
    obtain ⟨_, _, ⟨⟩, -⟩ := selection_of_parts h ⟨nofun, nofun⟩ nofun
  case some.none n =>
    obtain ⟨_, _, ⟨⟩, -⟩ := selection_of_parts h ⟨grounded_readName _ n, nofun⟩
      fun _ => text_of_readName
  case none.some w =>
    obtain ⟨m, _, ⟨⟩, rfl⟩ := selection_of_parts h ⟨nofun, nofun⟩ nofun
    exact ⟨m, "value", w, Keyed.mem_of_get? given, rfl⟩
  case some.some n w =>
    obtain ⟨m, _, ⟨⟩, rfl⟩ := selection_of_parts h ⟨grounded_readName _ n, nofun⟩
      fun _ => text_of_readName
    exact ⟨m, "value", w, Keyed.mem_of_get? given, rfl⟩

/-- What stands by itself for a choice group is no selection, or one whose value is given within
it. -/
theorem part_of_read (h : c.read x = .ok v) :
    (v = .none ∧ c.group.required = false) ∨ ∃ m w, v = .choice m w ∧ w.Part x := by
  cases x with
  | none =>
    simp only [read] at h
    split at h
    · cases h
    · next optional =>
      cases h
      exact .inl ⟨rfl, by simpa using optional⟩
  | choice m w =>
    cases h
    exact .inr ⟨m, w, rfl, Value.Child.choice.part⟩
  | tuple xs =>
    obtain ⟨m, w, hw, rfl⟩ := readSequence_eq_ok h
    exact .inr ⟨m, w, rfl, (Value.Child.tuple hw).part⟩
  | list xs =>
    obtain ⟨m, w, hw, rfl⟩ := readSequence_eq_ok h
    exact .inr ⟨m, w, rfl, (Value.Child.list hw).part⟩
  | dict es =>
    obtain ⟨m, k, w, hw, rfl⟩ := readNamed_eq_ok h
    exact .inr ⟨m, w, rfl, (Value.Child.dict hw).part⟩
  | _ => cases h

end ChoiceField

namespace Build

variable {e : Element} {es fs : List (String × Value)}

/-! ### What a mapping makes -/

variable [reader]

/-- What a field or a choice group takes by itself from the argument that it finds, or from none. -/
def TakesAlone (required : Bool) (read : Value → Except Refusal Value) (x? : Option Value)
    (v : Value) : Prop :=
  match x? with
  | none => required = false ∧ v = .none
  | some x => read x = .ok v

/-- How the fields and the selection of an element come from a mapping. -/
structure Mapped (e : Element) (es fs : List (String × Value)) : Prop where
  names : Keyed.keys fs = e.slots.map (·.1)
  field : ∀ f ∈ e.fields, TakesAlone f.required f.read ((fieldArg? es f).map (·.2))
    ((Value.element e fs).field f.name)
  choice : ∀ c, e.choice = some c → TakesAlone c.group.required c.read (Keyed.get? es c.name)
    ((Value.element e fs).field c.name)
  taken : ∀ k ∈ Keyed.keys es, (∃ c, e.choice = some c ∧ k = c.name) ∨
    ∃ f ∈ e.fields, (fieldArg? es f).map (·.1) = some k
  rule : Rule.broken? e (.element e fs) = none

variable {reader}

theorem readAlone_eq_ok {key name : String} {required : Bool}
    {read : Value → Except Refusal Value} {found : Option (String × Arg)} {p : String × Value} :
    readAlone key name required read found = .ok p ↔
      p.1 = name ∧ TakesAlone required read (found.map (·.2.value)) p.2 := by
  obtain ⟨own, v⟩ := p
  unfold readAlone
  cases found with
  | none => cases required <;> simp [TakesAlone, eq_comm]
  | some found =>
    simp only [Except.mapError_eq_ok, Except.map_eq_ok, Prod.mk.injEq, Option.map_some, TakesAlone]
    constructor
    · rintro ⟨_, h, rfl, rfl⟩
      exact ⟨rfl, h⟩
    · rintro ⟨rfl, h⟩
      exact ⟨_, h, rfl, rfl⟩

theorem fieldAlone_eq_ok {f : Field} {p : String × Value} :
    fieldAlone (arguments es) f = .ok p ↔
      p.1 = f.name ∧ TakesAlone f.required f.read ((fieldArg? es f).map (·.2)) p.2 := by
  rw [fieldAlone, readAlone_eq_ok, argument?_eq, Option.map_map]
  rfl

theorem choiceAlone_eq_ok {c : ChoiceField} {p : String × Value} :
    choiceAlone (arguments es) c = .ok p ↔
      p.1 = c.name ∧ TakesAlone c.group.required c.read (Keyed.get? es c.name) p.2 := by
  have found : ((Keyed.get? (arguments es) c.name).map fun a => (c.name, a)).map (·.2.value) =
      Keyed.get? es c.name := by
    rw [get?_arguments]
    cases Keyed.get? es c.name <;> rfl
  rw [choiceAlone, readAlone_eq_ok, found]

theorem grounded_readAlone {key name : String} {required : Bool}
    {read : Value → Except Refusal Value} (grounded : ∀ x, Refusal.Grounded (read x))
    (found : Option (String × Arg)) :
    Refusal.Grounded (readAlone key name required read found) := by
  unfold readAlone
  split
  · split <;> exact nofun
  · exact Refusal.grounded_mapError_under (Refusal.grounded_map (grounded _) _) _

theorem grounded_alone : ∀ o ∈ e.fields.map (fieldAlone (arguments es)) ++
    e.choice.toList.map (choiceAlone (arguments es)) ++
      leftOver (besides (arguments es) e.choice) e.fields, Refusal.Grounded o := by
  intro o ho
  rcases List.mem_append.mp ho with ho | ho
  · rcases List.mem_append.mp ho with ho | ho
    · obtain ⟨f, -, rfl⟩ := List.mem_map.mp ho
      refine grounded_readAlone (fun x => ?_) _
      unfold Field.read
      split
      · exact nofun
      · exact grounded_read x _
    · obtain ⟨c, -, rfl⟩ := List.mem_map.mp ho
      exact grounded_readAlone c.grounded_read _
  · obtain ⟨k, -, rfl⟩ := List.mem_map.mp ho
    exact nofun

/-- Besides the argument of the choice group there is nothing that no field takes. -/
theorem taken_of_leftOver (h : leftOver (besides (arguments es) e.choice) e.fields = []) :
    ∀ k ∈ Keyed.keys es, (∃ c, e.choice = some c ∧ k = c.name) ∨
      ∃ f ∈ e.fields, (fieldArg? es f).map (·.1) = some k := by
  intro k hk
  have taken (l : List (String × Value)) (h : leftOver (arguments l) e.fields = [])
      (hk : k ∈ Keyed.keys l) : ∃ f ∈ e.fields, (fieldArg? l f).map (·.1) = some k := by
    obtain ⟨f, hf, there⟩ := leftOver_eq_nil.mp h k (keys_arguments l ▸ hk)
    rw [argument?_eq, Option.map_map] at there
    exact ⟨f, hf, there⟩
  cases hc : e.choice with
  | none =>
    rw [hc] at h
    exact .inr (taken es h hk)
  | some c =>
    by_cases own : k = c.name
    · exact .inl ⟨c, rfl, own⟩
    · have rest : besides (arguments es) e.choice =
          arguments (es.filter fun p => p.1 != c.name) := by
        rw [hc, arguments_filter (· != c.name)]
        rfl
      obtain ⟨f, hf, there⟩ := taken _ (rest ▸ h)
        ((Keyed.mem_keys_filter (· != c.name)).mpr ⟨hk, by simpa using own⟩)
      have look {j : String} (hj : j ≠ c.name) :
          Keyed.get? (es.filter fun p => p.1 != c.name) j = Keyed.get? es j := by
        rw [Keyed.get?_filter (· != c.name), if_pos (by simpa using hj)]
      refine .inr ⟨f, hf, ?_⟩
      rw [← there, fieldArg?, fieldArg?, look (Element.key_ne_choiceName hf hc),
        look (Element.name_ne_choiceName hf hc)]

theorem mapped_of_ofMapping {v : Value} (h : e.ofMapping es = .ok v) :
    ∃ fs, v = .element e fs ∧ Mapped e es fs := by
  obtain ⟨entries, gathered, ruled⟩ := Except.bind_eq_ok.mp h
  have all := (Refusal.gather_eq_ok grounded_alone).mp gathered
  obtain ⟨_, left, rfl, front, rest⟩ := List.map_eq_append_iff.mp all.symm
  obtain ⟨fields, sel, rfl, fieldsRead, selRead⟩ := List.map_eq_append_iff.mp front
  have none : left = [] := by
    refine List.eq_nil_iff_forall_not_mem.mpr fun p hp => ?_
    have := rest ▸ List.mem_map_of_mem (f := Except.ok) hp
    obtain ⟨k, -, fault⟩ := List.mem_map.mp this
    cases fault
  subst none
  rw [List.append_nil] at ruled
  have names : Keyed.keys (fields ++ sel) = e.slots.map (·.1) := by
    rw [Keyed.keys_append, slotNames_eq,
      keys_of_map_ok (fun _ _ read => (fieldAlone_eq_ok.mp read).1) fieldsRead.symm,
      keys_of_map_ok (fun _ _ read => (choiceAlone_eq_ok.mp read).1) selRead.symm]
    cases e.choice <;> rfl
  unfold checkRules at ruled
  split at ruled
  · cases ruled
  next rule =>
  cases ruled
  refine ⟨_, rfl, names, fun f hf => ?_, fun c hc => ?_, taken_of_leftOver rest.symm, rule⟩
  · obtain ⟨⟨name, v⟩, hp, read⟩ := ok_of_mem fieldsRead.symm hf
    obtain ⟨rfl, takes⟩ := fieldAlone_eq_ok.mp read
    rw [Value.field_of_mem names (List.mem_append_left sel hp)]
    exact takes
  · have hc : c ∈ e.choice.toList := Option.mem_toList.mpr hc
    obtain ⟨⟨name, v⟩, hp, read⟩ := ok_of_mem selRead.symm hc
    obtain ⟨rfl, chooses⟩ := choiceAlone_eq_ok.mp read
    rw [Value.field_of_mem names (List.mem_append_right fields hp)]
    exact chooses

/-! ### The dictionary that makes the same -/

/-- An argument in a form that a dictionary keeps: an empty collection is given as an element that
has no fields. -/
def undropped (x : Value) : Value :=
  if x.isEmptyCollection then .element .eimAuthReqParams [] else x

/-- The arguments of a mapping for a dictionary, with the selection that the element holds. -/
def asDictionary (e : Element) (es fs : List (String × Value)) : List (String × Value) :=
  let kept : Keyed Value := es.map fun (k, x) => (k, undropped x)
  match e.choice with
  | none => kept
  | some c => kept.update c.name fun _ => (Value.element e fs).field c.name

theorem keys_asDictionary (e : Element) (es fs : List (String × Value)) :
    Keyed.keys (asDictionary e es fs) = Keyed.keys es := by
  have kept : Keyed.keys (es.map fun (k, x) => (k, undropped x)) = Keyed.keys es := by
    rw [Keyed.keys, Keyed.keys, List.map_map]
    rfl
  unfold asDictionary
  split
  · exact kept
  · rw [Keyed.keys_update, kept]

theorem mem_asDictionary {k : String} {x : Value} (h : (k, x) ∈ asDictionary e es fs) :
    (∃ y, (k, y) ∈ es ∧ x = undropped y) ∨
      ∃ c, e.choice = some c ∧ k = c.name ∧ x = (Value.element e fs).field c.name := by
  have kept {k : String} {x : Value} (h : (k, x) ∈ es.map fun (k, x) => (k, undropped x)) :
      ∃ y, (k, y) ∈ es ∧ x = undropped y := by
    obtain ⟨⟨_, y⟩, hy, same⟩ := List.mem_map.mp h
    cases same
    exact ⟨y, hy, rfl⟩
  unfold asDictionary at h
  split at h
  · exact .inl (kept h)
  · next c hc =>
    obtain ⟨⟨j, y⟩, hy, same⟩ := List.mem_map.mp h
    cases same
    split
    · next own => exact .inr ⟨c, hc, own, rfl⟩
    · exact .inl (kept hy)

theorem fieldArg?_asDictionary {f : Field} (hf : f ∈ e.fields) :
    fieldArg? (asDictionary e es fs) f = (fieldArg? es f).map fun p => (p.1, undropped p.2) := by
  have look {k : String} (apart : ∀ c, e.choice = some c → k ≠ c.name) :
      Keyed.get? (asDictionary e es fs) k = (Keyed.get? es k).map undropped := by
    unfold asDictionary
    split
    · exact Keyed.get?_map undropped es k
    · next c hc => rw [Keyed.get?_update_of_ne (apart c hc).symm, Keyed.get?_map undropped]
  rw [fieldArg?, look fun c hc => Element.key_ne_choiceName hf hc,
    look fun c hc => Element.name_ne_choiceName hf hc, fieldArg?]
  cases Keyed.get? es f.key with
  | some v => rfl
  | none => cases Keyed.get? es f.name <;> rfl

/-- What an empty collection becomes, an element without fields becomes as well. -/
theorem read_fieldless {x v : Value} {s : Shape} (empty : x.isEmptyCollection = true)
    (h : read x s = .ok v) : read (.element .eimAuthReqParams []) s = .ok v := by
  unfold Value.isEmptyCollection at empty
  split at empty
  · cases s with
    | one k => cases k <;> cases h
    | _ => exact h
  · cases s with
    | one k => cases k <;> cases h
    | _ => exact h
  · cases empty

theorem takes_undropped {f : Field} {x v : Value} (h : f.read x = .ok v) :
    Takes f (some (argOf (undropped x))) v := by
  unfold Field.read at h
  cases empty : x.isEmptyCollection with
  | true =>
    have given : x.isNone = false := by cases x <;> first | rfl | cases empty
    rw [given, Bool.and_false, if_neg Bool.false_ne_true] at h
    rw [undropped, if_pos empty, Takes]
    dsimp only
    rw [if_neg (by simp [leavesAbsent, Value.isNone, Value.isEmptyCollection])]
    exact read_fieldless empty h
  | false =>
    have absent : leavesAbsent f x = (!f.required && x.isNone) := by
      rw [leavesAbsent, empty, Bool.and_false, Bool.or_false]
    rw [undropped, empty, if_neg Bool.false_ne_true, Takes]
    dsimp only
    rw [absent]
    split at h
    · next none =>
      cases h
      rw [if_pos none]
    · next given => rwa [if_neg given]

/-- In a mapping no member is given by itself. -/
theorem Mapped.apart (h : Mapped e es fs) {m : Member} (hm : m ∈ e.members) :
    GivenOnce (asDictionary e es fs) m ∧ memberArg? (asDictionary e es fs) m = none := by
  have absent {k : String} (word : k = m.name ∨ k = m.key) :
      present? (asDictionary e es fs) k = none := by
    have missing : k ∉ Keyed.keys es := by
      intro there
      rcases h.taken k there with ⟨c, hc, own⟩ | ⟨f, hf, found⟩
      · obtain ⟨name, key⟩ := Element.memberWord_ne_choiceName hm hc
        rcases word with same | same
        · exact name (same.symm.trans own)
        · exact key (same.symm.trans own)
      · obtain ⟨p, given, rfl⟩ := Option.map_eq_some_iff.mp found
        obtain ⟨key, name⟩ := Element.field_not_selector hf
        have selector : p.1 ∈ e.selectors := Element.mem_selectors.mpr (.inl ⟨m, hm, word⟩)
        rcases (mem_of_fieldArg? given).2 with same | same
        · exact key (same ▸ selector)
        · exact name (same ▸ selector)
    rw [present?, Keyed.get?_eq_none_iff.mpr (keys_asDictionary e es fs ▸ missing),
      Option.filter_none]
  exact ⟨.inl (absent (.inl rfl)), by rw [memberArg?, absent (.inl rfl), absent (.inr rfl)]; rfl⟩

variable [reader]

/-- What a choice group makes of a selection that it takes. -/
def Yields (g : Group) (v : Value) : Prop :=
  v.Selects g ∧ ∀ m ∈ g.members, ∀ w, v = .choice m.name w → Conforms (.one m.kind) w

variable {reader}

theorem Mapped.resolves (h : Mapped e es fs) {c : ChoiceField} (hc : e.choice = some c)
    (yields : Yields c.group ((Value.element e fs).field c.name)) :
    Resolves c (asDictionary e es fs) ((Value.element e fs).field c.name) := by
  have apart : ∀ m ∈ c.group.members, memberArg? (asDictionary e es fs) m = none :=
    fun m hm => (h.apart (Element.members_eq hc ▸ hm)).2
  have own : Keyed.get? (asDictionary e es fs) c.name =
      (Keyed.get? es c.name).map fun _ => (Value.element e fs).field c.name := by
    rw [asDictionary, hc]
    dsimp only
    rw [Keyed.get?_update_self, Keyed.get?_map undropped, Option.map_map]
    rfl
  have chooses := h.choice c hc
  rw [Resolves, present?, own]
  rcases yields.1 with ⟨none, optional⟩ | ⟨m, hm, w, value⟩
  · rw [none]
    cases Keyed.get? es c.name <;> exact chosen_none apart optional
  · rw [value] at chooses ⊢
    cases given : Keyed.get? es c.name with
    | none =>
      rw [given] at chooses
      cases chooses.2
    | some x => exact named_self hc apart hm (yields.2 m hm w value)

/-- Whatever a mapping makes, a dictionary makes as well, if the selection is one that the group
takes. -/
theorem build_asDictionary (h : Mapped e es fs)
    (yields : ∀ c, e.choice = some c → Yields c.group ((Value.element e fs).field c.name)) :
    e.build (asDictionary e es fs) = .ok (.element e fs) := by
  refine build_eq_ok.mpr ⟨fs, rfl, h.names, fun f hf => ?_, fun m hm => (h.apart hm).1,
    fun c hc => h.resolves hc (yields c hc), fun k hk => ?_, h.rule⟩
  · have takes := h.field f hf
    rw [fieldArg?_asDictionary hf]
    cases given : fieldArg? es f with
    | none => rwa [given] at takes
    | some p =>
      rw [given] at takes
      exact takes_undropped takes
  · rw [keys_asDictionary] at hk
    rcases h.taken k hk with ⟨c, hc, own⟩ | ⟨f, hf, found⟩
    · exact .inl (Element.mem_selectors.mpr (.inr ⟨c, hc, own⟩))
    · refine .inr ⟨f, hf, ?_⟩
      rw [fieldArg?_asDictionary hf, Option.map_map]
      exact found

/-! ### The same of the same -/

theorem fieldAlone_eq_readField
    (full : ∀ k v, (k, v) ∈ es → v.isEmptyCollection = false) (f : Field) :
    fieldAlone (arguments es) f = readField (arguments es) f := by
  unfold fieldAlone readAlone readField
  rw [argument?_eq]
  cases given : fieldArg? es f with
  | none => rfl
  | some p =>
    have absent : leavesAbsent f p.2 = (!f.required && p.2.isNone) := by
      rw [leavesAbsent, full _ _ (mem_of_fieldArg? given).1, Bool.and_false, Bool.or_false]
    dsimp only [Option.map_some]
    rw [absent, Field.read]
    split <;> rfl

/-- A mapping makes what a dictionary makes, but for choice groups and empty collections. -/
theorem ofMapping_eq_build (none : e.choice = none)
    (full : ∀ k v, (k, v) ∈ es → v.isEmptyCollection = false) :
    e.ofMapping es = e.build es := by
  have fields : e.fields.map (fieldAlone (arguments es)) =
      e.fields.map (readField (arguments es)) :=
    List.map_congr_left fun f _ => fieldAlone_eq_readField full f
  simp only [Element.ofMapping, Element.build, assemble, readChoice, readFields, besides, none,
    fields, Option.toList_none, List.map_nil, List.append_nil]
  show (Refusal.gather _ >>= fun fs => checkRules e (.element e fs)) =
    Refusal.gather _ >>= fun fs => checkRules e (.element e (fs ++ []))
  simp only [List.append_nil]

end Build

end V2G
