import V2G.Proofs.Build.Refusal

/-!
# The issue that is reported

Of all the issues of a refusal the first one is reported. For parts that are gathered it is the
first issue of the first part that is refused (`first?_gather`); for the items of a collection it
stands below the place of the item, unless it is about the size of the whole
(`first_of_read_items`).
-/

namespace V2G

namespace Refusal

variable {α β : Type}

/-- The issue that a refusal by faults is reported with. -/
def first? : Except Refusal α → Option Issue
  | .error (.issues is) => is.head?
  | _ => none

@[simp]
theorem first?_ok (v : α) : first? (.ok v) = none := rfl

@[simp]
theorem first?_fault (f : Fault) :
    first? (.error (fault f) : Except Refusal α) = some ⟨[], f⟩ := rfl

theorem first?_map (o : Except Refusal α) (f : α → β) : first? (o.map f) = first? o := by
  match o with
  | .ok v => rfl
  | .error r => cases r <;> rfl

theorem first?_under (o : Except Refusal α) (step : Step) :
    first? (o.mapError (·.under step)) = (first? o).map (·.under step) := by
  match o with
  | .ok v | .error (.message m) | .error (.unhashable t) => rfl
  | .error (.issues is) => exact List.head?_map

theorem first?_mapError_fault (o : Except Fault α) {i : Issue}
    (h : first? (o.mapError fault) = some i) : i.place = [] := by
  cases o with
  | ok v => cases h
  | error f =>
    cases h
    rfl

/-- A refusal by faults is reported with one of them. -/
theorem exists_first {o : Except Refusal α} (faulty : Faulty o) (grounded : Grounded o)
    {r : Refusal} (h : o = .error r) : ∃ i is, r = .issues (i :: is) ∧ first? o = some i := by
  obtain ⟨_ | ⟨i, is⟩, rfl⟩ := faulty r h
  · exact absurd h grounded
  · exact ⟨i, is, rfl, by rw [h]; rfl⟩

theorem first?_eq_none_iff {o : Except Refusal α} (faulty : Faulty o) (grounded : Grounded o) :
    first? o = none ↔ ∃ v, o = .ok v := by
  cases h : o with
  | ok v => simp
  | error r =>
    obtain ⟨i, is, rfl, first⟩ := exists_first faulty grounded h
    rw [← h, first]
    simp [h]

theorem survey_of_faulty {outs : List (Except Refusal α)} (h : ∀ o ∈ outs, Faulty o) :
    ∃ vs is, survey outs = .ok (vs, is) ∧ is.head? = outs.findSome? first? := by
  induction outs with
  | nil => exact ⟨[], [], rfl, rfl⟩
  | cons o outs ih =>
    obtain ⟨first, rest⟩ := List.forall_mem_cons.mp h
    obtain ⟨vs, is, surveyed, head⟩ := ih rest
    cases o with
    | ok v => exact ⟨v :: vs, is, by rw [survey, surveyed]; rfl, head⟩
    | error r =>
      obtain ⟨js, rfl⟩ := first r rfl
      refine ⟨vs, js ++ is, by rw [survey, surveyed]; rfl, ?_⟩
      rw [List.head?_append, head, List.findSome?_cons]
      cases js <;> rfl

theorem first?_gather {outs : List (Except Refusal α)} (h : ∀ o ∈ outs, Faulty o) :
    first? (gather outs) = outs.findSome? first? := by
  obtain ⟨vs, is, surveyed, head⟩ := survey_of_faulty h
  rw [gather, surveyed, ← head]
  cases is <;> rfl

/-- Of no more outcomes than there may be values none is left out. -/
theorem takeValues_of_le {most : Nat} {outs : List (Except Refusal α)} (h : outs.length ≤ most) :
    takeValues most outs = outs := by
  fun_induction takeValues most outs with
  | case1 => rfl
  | case2 most r rest ih => rw [ih (Nat.le_of_succ_le h)]
  | case3 => cases h
  | case4 v rest most ih => rw [ih (Nat.le_of_succ_le_succ h)]

end Refusal

variable {reader : Url.Reader}

namespace Build

open Refusal

variable {k : Kind} {least most : Nat} {xs : List Value} {i : Issue}

/-! ### Collections -/

/-- The issue of gathered items is that of the first one refused, or else about their number. -/
theorem first_of_gatherAtLeast {outs : List (Except Refusal Value)} (h : ∀ o ∈ outs, Faulty o)
    (first : first? (gatherAtLeast least outs) = some i) :
    outs.findSome? first? = some i ∨ outs.findSome? first? = none ∧ i.place = [] := by
  obtain ⟨vs, is, surveyed, head⟩ := survey_of_faulty h
  rw [← head]
  simp only [gatherAtLeast, surveyed, bind, Except.bind] at first
  cases is with
  | cons j is =>
    cases first
    exact .inl rfl
  | nil =>
    refine .inr ⟨rfl, ?_⟩
    by_cases few : vs.length < least
    · simp only [few, ↓reduceIte, List.nil_append] at first
      cases first
      rfl
    · simp only [few, ↓reduceIte, List.append_nil] at first
      cases first

variable [reader]

/-- An issue stands below the first of some values that is refused for a kind. -/
def BelowItem (k : Kind) (xs : List Value) (i : Issue) : Prop :=
  ∃ before x after i', xs = before ++ x :: after ∧
    (∀ y ∈ before, ∃ v, read y (.one k) = .ok v) ∧ first? (read x (.one k)) = some i' ∧
    i = i'.under (.index before.length)

variable {reader}

theorem readItems_readings (k : Kind) (xs : List Value) : readItems k (readings xs) =
    xs.mapIdx fun n x => (read x (.one k)).mapError (·.under (.index n)) := by
  refine List.ext_getElem (by simp [readItems, readings_eq]) fun n h h' => ?_
  simp [readItems, readings_eq]

section Items

variable (plain : ∀ x ∈ xs, Faulty (read x (.one k)))

include plain

theorem first?_read_eq_none {x : Value} (hx : x ∈ xs) :
    first? (read x (.one k)) = none ↔ ∃ v, read x (.one k) = .ok v :=
  first?_eq_none_iff (plain x hx) (grounded_read x _)

theorem faulty_readItems_of_plain : ∀ o ∈ readItems k (readings xs), Faulty o := by
  refine faulty_readItems fun read hr => ?_
  rw [readings_eq] at hr
  obtain ⟨x, hx, rfl⟩ := List.mem_map.mp hr
  exact plain x hx

theorem below_of_readItems (h : (readItems k (readings xs)).findSome? first? = some i) :
    BelowItem k xs i := by
  rw [readItems_readings] at h
  obtain ⟨_, _, _, split, first, none⟩ := List.findSome?_eq_some_iff.mp h
  obtain ⟨before, rest, rfl, rfl, tail⟩ := List.mapIdx_eq_append_iff.mp split
  obtain ⟨x, after, rfl, rfl, -⟩ := List.mapIdx_eq_cons_iff.mp tail
  rw [first?_under, Option.map_eq_some_iff] at first
  obtain ⟨i', first, rfl⟩ := first
  refine ⟨before, x, after, i', rfl, fun y hy => ?_, first, by simp⟩
  refine (first?_read_eq_none plain (List.mem_append_left _ hy)).mp ?_
  obtain ⟨n, hn, rfl⟩ := List.mem_iff_getElem.mp hy
  have item := none _ (List.mem_mapIdx.mpr ⟨n, hn, rfl⟩)
  rwa [first?_under, Option.map_eq_none_iff] at item

theorem first_of_items (h : first? (gatherAtLeast least (readItems k (readings xs))) = some i) :
    BelowItem k xs i ∨ i.place = [] ∧ ∀ x ∈ xs, ∃ v, read x (.one k) = .ok v := by
  rcases first_of_gatherAtLeast (faulty_readItems_of_plain plain) h with item | ⟨none, place⟩
  · exact .inl (below_of_readItems plain item)
  · refine .inr ⟨place, fun x hx => (first?_read_eq_none plain hx).mp ?_⟩
    obtain ⟨n, hn, rfl⟩ := List.mem_iff_getElem.mp hx
    rw [readItems_readings, List.findSome?_eq_none_iff] at none
    have item := none _ (List.mem_mapIdx.mpr ⟨n, hn, rfl⟩)
    rwa [first?_under, Option.map_eq_none_iff] at item

/-- The issue of a list stands below the first item that is refused, if any is. A list that is too
long may be refused before its items are. -/
theorem first_of_read_list (h : first? (read (.tuple xs) (.list k least most)) = some i) :
    BelowItem k xs i ∨
      i.place = [] ∧ ((∀ x ∈ xs, ∃ v, read x (.one k) = .ok v) ∨ most < xs.length) := by
  have length : (readItems k (readings xs)).length = xs.length := by
    rw [readItems_readings, List.length_mapIdx]
  have unfolded : read (.tuple xs) (.list k least most) = readList k least most (readings xs) :=
    rfl
  rw [unfolded, readList] at h
  by_cases long : (takeValues most (readItems k (readings xs))).length <
      (readItems k (readings xs)).length
  · have more : most < xs.length := by
      by_contra few
      rw [takeValues_of_le (by omega)] at long
      exact Nat.lt_irrefl _ long
    have faulty : ∀ o ∈ takeValues most (readItems k (readings xs)), Faulty o :=
      fun o ho => faulty_readItems_of_plain plain o (mem_of_takeValues ho)
    obtain ⟨vs, is, surveyed, -⟩ := survey_of_faulty faulty
    rw [if_pos long, surveyed] at h
    cases h
    exact .inr ⟨rfl, .inr more⟩
  · rw [if_neg long, first?_map] at h
    refine (first_of_items plain h).imp_right ?_
    rintro ⟨place, all⟩
    exact ⟨place, .inl all⟩

/-- The issue of a set stands below the first item that is refused, if any is. -/
theorem first_of_read_set (h : first? (read (.tuple xs) (.set k least most)) = some i) :
    BelowItem k xs i ∨ i.place = [] ∧ ∀ x ∈ xs, ∃ v, read x (.one k) = .ok v := by
  have unfolded : read (.tuple xs) (.set k least most) = readSet k least most (readings xs) := rfl
  rw [unfolded, readSet] at h
  cases gathered : gatherAtLeast least (readItems k (readings xs)) with
  | error r =>
    rw [gathered] at h
    have first : first? (gatherAtLeast least (readItems k (readings xs))) = some i := by
      rw [gathered, ← h]
      cases r <;> rfl
    exact first_of_items plain first
  | ok vs =>
    obtain ⟨all, -⟩ := (gatherAtLeast_eq_ok (grounded_readItems grounded_readings)).mp gathered
    refine .inr ⟨?_, fun x hx => ?_⟩
    · rw [gathered] at h
      simp only [bind, Except.bind] at h
      cases distinct : dedupe most vs with
      | ok ds => simp [distinct, pure, Except.pure] at h
      | error f =>
        simp only [distinct, Except.mapError_error, first?_fault, Option.some.injEq] at h
        rw [← h]
    · have items := readItems_eq_ok.mp all
      rw [readings_eq, List.map_map] at items
      obtain ⟨v, -, hv⟩ := ok_of_mem items hx
      exact ⟨v, hv⟩

end Items

/-! ### Elements -/

variable {e : Element} {field : Field → Option Value} {member : Member → Option Value}
  {r : Refusal}

variable [reader]

/-- Why the members of a group that are given make no selection: there are several, there is none
where one is required, or the value of the only one is refused. -/
inductive Unselected (g : Group) (given : Member → Option Value) : Refusal → Prop where
  | several {ms : List Member} : (g.members.filter fun m => (given m).isSome) = ms →
      1 < ms.length → Unselected g given (.message (.conflictingChoice g.name (ms.map (·.key))))
  | none : (g.members.filter fun m => (given m).isSome) = [] → g.required = true →
      Unselected g given (.message (.missingChoice g.name g.keys))
  | refused {m : Member} {x : Value} {is : List Issue} :
      (g.members.filter fun m => (given m).isSome) = [m] → given m = some x →
      read x (.one m.kind) = .error (.issues is) →
      Unselected g given (fault (.badMember m.key (is.map fun i => (i.place, i.fault))))

variable {reader}

theorem oneSet_eq_error {group : String} {options : List String} {isSet : String → Bool}
    {required : Bool} {m : MessageError} (h : oneSet group options isSet true required = .error m) :
    1 < (options.filter isSet).length ∧ m = .conflictingChoice group (options.filter isSet) ∨
      options.filter isSet = [] ∧ required = true ∧ m = .missingChoice group options := by
  simp only [oneSet, Bool.true_and, decide_eq_true_eq] at h
  split at h
  · next many =>
    cases h
    exact .inl ⟨many, rfl⟩
  · split at h
    · next missing =>
      simp only [Bool.and_eq_true, List.isEmpty_iff] at missing
      cases h
      exact .inr ⟨missing.2, missing.1, rfl⟩
    · cases h

theorem choose_eq_error {m : Member} {x : Value} (fit : Group.misfit? m.kind x = none)
    (faulty : Faulty (read x (.one m.kind))) {o : Objection}
    (h : Group.choose m (argOf x).given = .error o) :
    ∃ is, read x (.one m.kind) = .error (.issues is) ∧
      o = .fault (.badMember m.key (is.map fun i => (i.place, i.fault))) := by
  simp only [Group.choose, Arg.given, fit] at h
  cases hr : read x (.one m.kind) with
  | ok v => simp [hr] at h
  | error r =>
    obtain ⟨is, rfl⟩ := faulty r hr
    simp only [hr] at h
    cases h
    exact ⟨is, rfl, rfl⟩

theorem unselected_of_resolve (there : There field member)
    (fit : ∀ m v, member m = some v → Group.misfit? m.kind v = none)
    (plain : ∀ m v, member m = some v → Faulty (read v (.one m.kind))) {c : ChoiceField}
    (hc : e.choice = some c) {o : Objection}
    (h : (c.group.resolve c.name (arguments (e.inOrder field member))).1 = .error o) :
    Unselected c.group member o.refusal := by
  rw [resolve_inOrder hc] at h
  obtain ⟨given, keys, source⟩ := found_inOrder there hc
  unfold Group.resolveFound at h
  rcases Except.bind_eq_error.mp h with one | ⟨keys', one, h⟩
  · obtain ⟨m, hm, rfl⟩ := Except.mapError_eq_error.mp one
    rcases oneSet_eq_error hm with ⟨many, rfl⟩ | ⟨none, required, rfl⟩
    · rw [← Group.chosenKeys, keys] at many ⊢
      rw [List.length_map] at many
      exact .several rfl many
    · rw [← Group.chosenKeys, keys, List.map_eq_nil_iff] at none
      exact .none none required
  · obtain ⟨rfl, count, -⟩ := Group.oneSet_eq_ok.mp (Except.mapError_eq_ok.mp one)
    rw [← Group.chosenKeys, keys, List.length_map, ← given] at count
    cases hl : found c.group (e.inOrder field member) with
    | nil =>
      rw [hl] at h
      cases h
    | cons p rest =>
      obtain ⟨-, x, hx, value⟩ := source p (hl ▸ List.mem_cons_self)
      rw [hl] at h count given
      have single : rest = [] := by simpa using count
      subst single
      rcases Except.bind_eq_error.mp h with h | ⟨_, -, h⟩
      · obtain ⟨m, y⟩ := p
        cases value
        obtain ⟨is, refused, rfl⟩ := choose_eq_error (fit m x hx) (plain m x hx) h
        exact .refused given.symm hx refused
      · cases h

/-- The issue of the fields is that of the first one in their order whose value is refused. -/
theorem first_of_readFields
    (mandatory : ∀ f ∈ e.fields, f.required = true → field f ≠ none)
    (plain : ∀ p ∈ arguments (e.inOrder field member), ∀ s, Faulty (p.2.read s)) {i : Issue}
    (h : first? (readFields e (readChoice e (arguments (e.inOrder field member))).2) = some i) :
    ∃ before f after v i', e.fields = before ++ f :: after ∧
      (∀ g ∈ before, ∃ v, Takes g ((field g).map argOf) v) ∧ field f = some v ∧
      first? (read v f.shape) = some i' ∧ i = i'.under (.key f.key) := by
  have sub := left_sublist e (arguments (e.inOrder field member))
  have faulty : ∀ p ∈ (readChoice e (arguments (e.inOrder field member))).2, ∀ s,
      Faulty (p.2.read s) := fun p hp => plain p (sub.subset hp)
  have grounded : ∀ p ∈ (readChoice e (arguments (e.inOrder field member))).2, ∀ s,
      Grounded (p.2.read s) := fun p hp => grounded_arguments _ p (sub.subset hp)
  rw [readFields, leftOver_eq_nil.mpr (taken_inOrder), List.append_nil, first?_gather
    (List.forall_mem_map.mpr fun f _ => faulty_readField faulty f)] at h
  obtain ⟨_, _, _, split, first, none⟩ := List.findSome?_eq_some_iff.mp h
  obtain ⟨before, rest, fields, rfl, tail⟩ := List.map_eq_append_iff.mp split
  obtain ⟨f, after, rfl, rfl, rfl⟩ := List.map_eq_cons_iff.mp tail
  have takes : ∀ g ∈ before, ∃ v, Takes g ((field g).map argOf) v := by
    intro g hg
    obtain ⟨p, hp⟩ := (first?_eq_none_iff (faulty_readField faulty g)
      (grounded_readField grounded g)).mp (none _ (List.mem_map_of_mem hg))
    have hg : g ∈ e.fields := fields ▸ List.mem_append_left _ hg
    have takes := (readField_eq_ok.mp hp).2
    rw [argument?_inOrder hg, Option.map_map] at takes
    exact ⟨p.2, takes⟩
  have hf : f ∈ e.fields := fields ▸ List.mem_append_right _ List.mem_cons_self
  rw [readField, argument?_inOrder hf] at first
  cases value : field f with
  | none =>
    have optional : f.required = false :=
      Bool.eq_false_iff.mpr fun required => mandatory f hf required value
    simp [value, optional] at first
  | some v =>
    simp only [value, Option.map_some] at first
    split at first
    · cases first
    · rw [first?_under, first?_map, Option.map_eq_some_iff] at first
      obtain ⟨i', first, rfl⟩ := first
      exact ⟨before, f, after, v, i', fields, takes, value, first, rfl⟩

variable [reader]

/-- Why arguments by key make no element. The choice group is looked at before the fields, these
in their order, and the rule at last. -/
inductive Unbuilt (e : Element) (field : Field → Option Value) (member : Member → Option Value) :
    Refusal → Prop where
  | choice {c : ChoiceField} {r : Refusal} : e.choice = some c → Unselected c.group member r →
      Unbuilt e field member r
  | field {before after : List Field} {f : Field} {v : Value} {i : Issue} {is : List Issue} :
      (∀ c, e.choice = some c → ∃ v, Chosen c.group member v) →
      e.fields = before ++ f :: after → (∀ g ∈ before, ∃ v, Takes g ((field g).map argOf) v) →
      field f = some v → first? (read v f.shape) = some i →
      Unbuilt e field member (.issues (i.under (.key f.key) :: is))
  | rule {fs : List (String × Value)} {error : MessageError} :
      Keyed.keys fs = e.slots.map (·.1) →
      (∀ f ∈ e.fields, Takes f ((field f).map argOf) ((Value.element e fs).field f.name)) →
      (∀ c, e.choice = some c → Chosen c.group member ((Value.element e fs).field c.name)) →
      Rule.broken? e (.element e fs) = some error → Unbuilt e field member (.message error)

variable {reader}

theorem unbuilt_of_build (there : There field member)
    (mandatory : ∀ f ∈ e.fields, f.required = true → field f ≠ none)
    (fit : ∀ m v, member m = some v → Group.misfit? m.kind v = none)
    (fields : ∀ f v, field f = some v → ∀ es, ¬ Value.Part (.dict es) v)
    (members : ∀ m v, member m = some v → ∀ es, ¬ Value.Part (.dict es) v)
    (h : e.build (e.inOrder field member) = .error r) : Unbuilt e field member r := by
  have args := @faulty_arguments reader e field member fields members
  have unfolded : e.build (e.inOrder field member) =
      (readChoice e (arguments (e.inOrder field member))).1 >>= fun sel =>
        readFields e (readChoice e (arguments (e.inOrder field member))).2 >>= fun fs =>
          checkRules e (.element e (fs ++ sel)) := rfl
  rw [unfolded] at h
  rcases Except.bind_eq_error.mp h with choice | ⟨sel, selected, h⟩
  · unfold readChoice at choice
    split at choice
    · cases choice
    · next c hc =>
      obtain ⟨o, ho, rfl⟩ := Except.mapError_eq_error.mp choice
      refine .choice hc (unselected_of_resolve there fit (fun m v hv => ?_) hc
        (Except.map_eq_error.mp ho))
      exact faulty_read v (members m v hv) _
  · have chosen : ∀ c, e.choice = some c → ∃ r,
        (c.group.resolve c.name (arguments (e.inOrder field member))).1 = .ok r :=
      fun c hc => ((readChoice_eq_ok.mp selected).2 c hc).imp fun r => And.left
    have left : ∀ p ∈ (readChoice e (arguments (e.inOrder field member))).2, ∀ s,
        Faulty (p.2.read s) :=
      fun p hp => args p ((left_sublist e _).subset hp)
    rcases Except.bind_eq_error.mp h with h | ⟨fs, hfs, h⟩
    · obtain ⟨i, is, rfl, first⟩ := exists_first (faulty_readFields left e) (grounded_gather _) h
      obtain ⟨before, f, after, v, i', split, takes, value, refused, rfl⟩ :=
        first_of_readFields mandatory args first
      refine .field (fun c hc => ?_) split takes value refused
      obtain ⟨r, hr⟩ := chosen c hc
      exact ⟨_, (resolves_inOrder there hc).mp ((resolves_iff hc).mp ⟨r, hr, rfl⟩).2⟩
    · have grounded : ∀ p ∈ (readChoice e (arguments (e.inOrder field member))).2, ∀ s,
          Grounded (p.2.read s) :=
        fun p hp => grounded_arguments _ p ((left_sublist e _).subset hp)
      obtain ⟨names, takes, choice⟩ :=
        slots_of_parts selected ((readFields_eq_ok grounded).mp hfs).1
      unfold checkRules at h
      split at h
      · next error broken =>
        cases h
        refine .rule names (fun f hf => ?_) (fun c hc => ?_) broken
        · have := takes f hf
          rwa [argument?_inOrder hf, Option.map_map] at this
        · exact (resolves_inOrder there hc).mp ((resolves_iff hc).mp (choice c hc)).2
      · cases h

end Build

end V2G
