import V2G.Proofs.Build.Conform
import V2G.Proofs.Build.Lookup

/-!
# What ends the building of an element

Faults of arguments are gathered. Everything else that refuses arguments comes from one of their
parts and is passed on as it is (`source_of_read`): an error over several fields, or a name without
a hash that a selection is given under. So an element is built, or it is refused by faults, by an
error over several fields, or because of such a name (`built_or_refused`).
-/

namespace V2G

/-- The errors over several fields: a choice group with no or several members, or a rule that does
not hold. -/
def MessageError.IsConstraint : MessageError → Prop
  | .missingChoice _ _ | .conflictingChoice _ _ | .violated _ => True
  | _ => False

namespace Refusal

variable {α : Type} {outs : List (Except Refusal α)} {o : Except Refusal α} {r : Refusal}

/-- A refusal that is no list of faults. It ends the building of an element at once. -/
def IsEnd (r : Refusal) : Prop := ∀ is, r ≠ .issues is

theorem not_isEnd_issues (is : List Issue) : ¬ IsEnd (.issues is) := fun ends => ends is rfl

theorem mem_of_survey (h : survey outs = .error r) : .error r ∈ outs ∧ r.IsEnd := by
  fun_induction survey outs with
  | case1 => cases h
  | case2 v rest ih =>
    obtain ⟨mem, ends⟩ := ih (Except.map_eq_error.mp h)
    exact ⟨List.mem_cons_of_mem _ mem, ends⟩
  | case3 is rest ih =>
    obtain ⟨mem, ends⟩ := ih (Except.map_eq_error.mp h)
    exact ⟨List.mem_cons_of_mem _ mem, ends⟩
  | case4 r rest other =>
    cases h
    exact ⟨List.mem_cons_self, other⟩

theorem mem_of_gather (h : gather outs = .error r) (ends : r.IsEnd) : .error r ∈ outs := by
  unfold gather at h
  split at h
  · cases h
  · cases h
    exact absurd ends (not_isEnd_issues _)
  · next refused =>
    cases h
    exact (mem_of_survey refused).1

theorem mem_of_takeValues {most : Nat} (h : o ∈ takeValues most outs) : o ∈ outs := by
  fun_induction takeValues most outs <;> simp_all <;> tauto

/-- An end is passed on as it is. -/
theorem of_mapError_under {step : Step} (h : o.mapError (·.under step) = .error r)
    (ends : r.IsEnd) : o = .error r := by
  obtain ⟨r', rfl, rfl⟩ := Except.mapError_eq_error.mp h
  cases r' with
  | issues is => exact absurd ends (not_isEnd_issues _)
  | message m => rfl
  | unhashable t => rfl

theorem not_isEnd_of_fault {o : Except Fault α} (h : o.mapError fault = .error r) : ¬ r.IsEnd := by
  obtain ⟨f, -, rfl⟩ := Except.mapError_eq_error.mp h
  exact not_isEnd_issues _

end Refusal

namespace Build

open Refusal

variable {v : Value} {s : Shape} {k : Kind} {r : Refusal} {items : List Reading} {e : Element}

/-! ### Where an end comes from -/

theorem source_of_readItems (h : .error r ∈ readItems k items) (ends : r.IsEnd) :
    ∃ read ∈ items, read k = .error r := by
  obtain ⟨i, hi, refused⟩ := List.mem_mapIdx.mp h
  exact ⟨items[i], List.getElem_mem hi, of_mapError_under refused ends⟩

theorem mem_of_gatherAtLeast {least : Nat} {outs : List (Except Refusal Value)}
    (h : gatherAtLeast least outs = .error r) (ends : r.IsEnd) : .error r ∈ outs := by
  rcases Except.bind_eq_error.mp h with refused | ⟨⟨vs, is⟩, -, refused⟩
  · exact (mem_of_survey refused).1
  · dsimp only at refused
    split at refused
    · cases refused
    · cases refused
      exact absurd ends (not_isEnd_issues _)

section

variable {reader : Url.Reader}

theorem source_of_readShape {items? : Option (List Reading)}
    (h : readShape v items? s = .error r) (ends : r.IsEnd) :
    s.isCollection = true ∧ ∃ items ∈ items?, ∃ read ∈ items, read s.kind = .error r := by
  cases s with
  | one k => exact absurd ends (not_isEnd_of_fault h)
  | list k least most =>
    cases items? with
    | none =>
      cases h
      exact absurd ends (not_isEnd_issues _)
    | some items =>
      have mem : .error r ∈ readItems k items := by
        simp only [readShape, readList] at h
        split at h
        · rcases Except.bind_eq_error.mp h with refused | ⟨_, -, refused⟩
          · exact mem_of_takeValues (mem_of_survey refused).1
          · cases refused
            exact absurd ends (not_isEnd_issues _)
        · exact mem_of_gatherAtLeast (Except.map_eq_error.mp h) ends
      exact ⟨rfl, items, rfl, source_of_readItems mem ends⟩
  | set k least most =>
    cases items? with
    | none =>
      cases h
      exact absurd ends (not_isEnd_issues _)
    | some items =>
      have mem : .error r ∈ readItems k items := by
        rcases Except.bind_eq_error.mp h with refused | ⟨vs, -, h⟩
        · exact mem_of_gatherAtLeast refused ends
        · rcases Except.bind_eq_error.mp h with refused | ⟨ds, -, refused⟩
          · exact absurd ends (not_isEnd_of_fault refused)
          · cases refused
      exact ⟨rfl, items, rfl, source_of_readItems mem ends⟩

/-- An end comes from an item of a collection, or from the arguments of an element. -/
theorem source_of_read (h : read v s = .error r) (ends : r.IsEnd) :
    (∃ es e, v = .dict es ∧ s = .one (.element e) ∧ e.build es = .error r) ∨
      ∃ xs, ∃ x ∈ xs, v.sequence? = some xs ∧ x.Child v ∧ s.isCollection = true ∧
        read x (.one s.kind) = .error r := by
  rcases read_cases v s with ⟨es, e, rfl, rfl⟩ | shape
  · exact .inl ⟨es, e, rfl, rfl, h⟩
  · rw [shape] at h
    obtain ⟨collection, items, hi, read, hr, refused⟩ := source_of_readShape h ends
    refine .inr ?_
    cases v with
    | tuple xs | list xs =>
      cases hi
      rw [readings_eq] at hr
      obtain ⟨x, hx, rfl⟩ := List.mem_map.mp hr
      refine ⟨xs, x, hx, rfl, ?_, collection, refused⟩
      exact Value.child_of_items rfl hx
    | choice m x =>
      cases hi
      simp only [List.mem_cons, List.not_mem_nil, or_false] at hr
      rcases hr with rfl | rfl
      · exact absurd ends (not_isEnd_of_fault refused)
      · exact ⟨_, x, List.mem_cons_of_mem _ List.mem_cons_self, rfl, .choice, collection,
          refused⟩
    | element e fs =>
      cases hi
      obtain ⟨_, -, rfl⟩ := List.mem_map.mp hr
      exact absurd ends (not_isEnd_of_fault refused)
    | _ => cases hi

theorem source_of_readField {args : Keyed Arg} {f : Field} (h : readField args f = .error r)
    (ends : r.IsEnd) : ∃ p, argument? args f = some p ∧ p.2.read f.shape = .error r := by
  unfold readField at h
  split at h
  · split at h
    · cases h
      exact absurd ends (not_isEnd_issues _)
    · cases h
  · next p found =>
    split at h
    · cases h
    · exact ⟨_, found, Except.map_eq_error.mp (of_mapError_under h ends)⟩

theorem source_of_readFields {args : Keyed Arg} (h : readFields e args = .error r)
    (ends : r.IsEnd) :
    ∃ f ∈ e.fields, ∃ p, argument? args f = some p ∧ p.2.read f.shape = .error r := by
  rcases List.mem_append.mp (mem_of_gather h ends) with mem | mem
  · obtain ⟨f, hf, refused⟩ := List.mem_map.mp mem
    exact ⟨f, hf, source_of_readField refused ends⟩
  · obtain ⟨k, -, refused⟩ := List.mem_map.mp mem
    cases refused
    exact absurd ends (not_isEnd_issues _)

/-! ### Selections -/

theorem source_of_choose {m : Member} {x : Given} {o : Objection}
    (h : Group.choose m x = .error o) (ends : o.refusal.IsEnd) :
    x.read m.kind = .error o.refusal := by
  unfold Group.choose at h
  split at h
  · cases h
    exact absurd ends (not_isEnd_issues _)
  · split at h
    · cases h
    · cases h
      exact absurd ends (not_isEnd_issues _)
    · next refused => cases h; exact refused
    · next refused => cases h; exact refused

theorem oneSet_constraint {group : String} {options : List String} {isSet : String → Bool}
    {exclusive required : Bool} {m : MessageError}
    (h : oneSet group options isSet exclusive required = .error m) : m.IsConstraint := by
  unfold oneSet at h
  simp only at h
  split at h
  · cases h
    trivial
  · split at h <;> cases h
    trivial

theorem find_eq_error {g : Group} {name : Value} {o : Objection} (h : g.find name = .error o)
    (ends : o.refusal.IsEnd) : ∃ t, name.unhashable? = some t ∧ o = .unhashable t := by
  unfold Group.find at h
  split at h
  · next t unhashable =>
    cases h
    exact ⟨t, unhashable, rfl⟩
  · split at h
    · cases h
    · cases h
      exact absurd ends (not_isEnd_issues _)

variable [reader]

/-- How a choice group ends the building of an element. -/
inductive Objected (e : Element) (es : Keyed Value) : Refusal → Prop where
  | constraint {m : MessageError} : m.IsConstraint → Objected e es (.message m)
  | unhashable {c : ChoiceField} {a : Value} {g : Tagged} {t : String} : e.choice = some c →
      present? es c.name = some a → tagged? a = some g → g.member.unhashable? = some t →
      Objected e es (.unhashable t)
  | member {m : Member} {x : Value} {r : Refusal} : m ∈ e.members → memberArg? es m = some x →
      read x (.one m.kind) = .error r → Objected e es r
  | selected {c : ChoiceField} {a : Value} {g : Tagged} {m : Member} {r : Refusal} :
      e.choice = some c → present? es c.name = some a → tagged? a = some g →
      c.group.find g.member = .ok m → g.given.read m.kind = .error r → Objected e es r

variable {es : Keyed Value} {c : ChoiceField} {o : Objection}

variable {reader}

theorem objected_of_tagged (hc : e.choice = some c) {a : Value} (ha : present? es c.name = some a)
    {found : List (Member × Given)} (h : c.group.resolveTagged found (argOf a) = .error o)
    (ends : o.refusal.IsEnd) : Objected e es o.refusal := by
  unfold Group.resolveTagged at h
  split at h
  · cases h
    exact absurd ends (not_isEnd_issues _)
  · next g hg =>
    have unhashable (h : c.group.find g.member = .error o) : Objected e es o.refusal := by
      obtain ⟨t, name, rfl⟩ := find_eq_error h ends
      exact .unhashable hc ha hg name
    by_cases none : found.isEmpty = true
    · simp only [none, Bool.not_true, Bool.false_eq_true, ↓reduceIte] at h
      rcases Except.bind_eq_error.mp h with lost | ⟨m, hm, refused⟩
      · exact unhashable lost
      · exact .selected hc ha hg hm (source_of_choose refused ends)
    · simp only [none, Bool.not_false, ↓reduceIte] at h
      rcases Except.bind_eq_error.mp h with lost | ⟨m, -, conflict⟩
      · exact unhashable lost
      · cases conflict
        exact .constraint trivial

theorem objected_of_found (hc : e.choice = some c)
    (h : c.group.resolveFound (found c.group es) = .error o) (ends : o.refusal.IsEnd) :
    Objected e es o.refusal := by
  unfold Group.resolveFound at h
  rcases Except.bind_eq_error.mp h with one | ⟨_, -, h⟩
  · obtain ⟨m, unset, rfl⟩ := Except.mapError_eq_error.mp one
    exact .constraint (oneSet_constraint unset)
  · cases given : found c.group es with
    | nil =>
      rw [given] at h
      cases h
    | cons p rest =>
      obtain ⟨hm, x, hx, same⟩ := mem_found (given ▸ List.mem_cons_self : p ∈ found c.group es)
      rw [given] at h
      rcases Except.bind_eq_error.mp h with refused | ⟨_, -, h⟩
      · have read := source_of_choose refused ends
        rw [same] at read
        exact .member (Element.members_eq hc ▸ hm) hx read
      · cases h

theorem objected_of_resolve (hc : e.choice = some c)
    (h : (c.group.resolve c.name (arguments es)).1 = .error o) (ends : o.refusal.IsEnd) :
    Objected e es o.refusal := by
  by_cases once : ∀ m ∈ e.members, GivenOnce es m
  · rw [resolve_arguments hc once] at h
    cases there : present? es c.name with
    | none =>
      rw [there] at h
      exact objected_of_found hc h ends
    | some a =>
      rw [there] at h
      exact objected_of_tagged hc there (Except.map_eq_error.mp h) ends
  · obtain ⟨m, -, conflict⟩ := resolve_twice hc once
    cases conflict.symm.trans h
    exact .constraint trivial

theorem eq_of_ite {p : Prop} [Decidable p] {a m : MessageError}
    (h : (if p then none else some a) = some m) : a = m := by
  split at h <;> cases h
  rfl

theorem eq_of_ite_some {p : Prop} [Decidable p] {a m : MessageError}
    (h : (if p then some a else none) = some m) : a = m := by
  split at h <;> cases h
  rfl

theorem broken?_constraint {e : Element} {v : Value} {m : MessageError}
    (h : Rule.broken? e v = some m) : m.IsConstraint := by
  unfold Rule.broken? at h
  split at h
  · exact eq_of_ite h ▸ trivial
  · exact eq_of_ite h ▸ trivial
  · exact eq_of_ite h ▸ trivial
  · obtain ⟨violation, -, rfl⟩ := Option.map_eq_some_iff.mp h
    trivial
  · exact eq_of_ite_some h ▸ trivial
  · exact eq_of_ite_some h ▸ trivial
  · obtain ⟨member, -, h⟩ := Option.bind_eq_some_iff.mp h
    obtain ⟨expected, -, h⟩ := Option.bind_eq_some_iff.mp h
    obtain ⟨curve, -, h⟩ := Option.bind_eq_some_iff.mp h
    exact eq_of_ite h ▸ trivial
  · cases h

/-- An end comes from the choice group, from the argument of a field, or from the rule. -/
theorem source_of_build (h : e.build es = .error r) (ends : r.IsEnd) :
    Objected e es r ∨
      ∃ f ∈ e.fields, ∃ p, fieldArg? es f = some p ∧ read p.2 f.shape = .error r := by
  have unfolded : e.build es = (readChoice e (arguments es)).1 >>= fun sel =>
      readFields e (readChoice e (arguments es)).2 >>= fun fields =>
        checkRules e (.element e (fields ++ sel)) := rfl
  rw [unfolded] at h
  rcases Except.bind_eq_error.mp h with choice | ⟨sel, selected, h⟩
  · unfold readChoice at choice
    split at choice
    · cases choice
    · next c hc =>
      obtain ⟨o, refused, rfl⟩ := Except.mapError_eq_error.mp choice
      exact .inl (objected_of_resolve hc (Except.map_eq_error.mp refused) ends)
  rcases Except.bind_eq_error.mp h with fields | ⟨fs, -, h⟩
  · obtain ⟨f, hf, p, hp, refused⟩ := source_of_readFields fields ends
    have once : ∀ m ∈ e.members, GivenOnce es m := by
      intro m hm
      cases hc : e.choice with
      | none => simp [Element.members, hc] at hm
      | some c =>
        obtain ⟨r, resolved, -⟩ := (readChoice_eq_ok.mp selected).2 c hc
        exact ((resolves_iff hc).mp ⟨r, resolved, rfl⟩).1 m hm
    rw [argument?_arguments once hf] at hp
    obtain ⟨q, hq, rfl⟩ := Option.map_eq_some_iff.mp hp
    exact .inr ⟨f, hf, q, hq, refused⟩
  · unfold checkRules at h
    split at h
    · next m broken =>
      cases h
      exact .inl (.constraint (broken?_constraint broken))
    · cases h

/-! ### Names without a hash -/

variable [reader]

/-- Where a value is read for a shape, a selection is given under a name that has no hash because
of its type. -/
inductive Unhashed (type : String) : Value → Shape → Prop where
  | here {es : Keyed Value} {e : Element} {c : ChoiceField} {a : Value} {g : Tagged} :
      e.choice = some c → present? es c.name = some a → tagged? a = some g →
      g.member.unhashable? = some type → Unhashed type (.dict es) (.one (.element e))
  | item {v x : Value} {xs : List Value} {s : Shape} : v.sequence? = some xs → x ∈ xs →
      s.isCollection = true → Unhashed type x (.one s.kind) → Unhashed type v s
  | field {es : Keyed Value} {e : Element} {f : Field} {p : String × Value} : f ∈ e.fields →
      fieldArg? es f = some p → Unhashed type p.2 f.shape →
      Unhashed type (.dict es) (.one (.element e))
  | member {es : Keyed Value} {e : Element} {m : Member} {x : Value} : m ∈ e.members →
      memberArg? es m = some x → Unhashed type x (.one m.kind) →
      Unhashed type (.dict es) (.one (.element e))
  | selected {es : Keyed Value} {e : Element} {c : ChoiceField} {a : Value} {g : Tagged}
      {m : Member} : e.choice = some c → present? es c.name = some a → tagged? a = some g →
      c.group.find g.member = .ok m → Unhashed type g.given.value (.one m.kind) →
      Unhashed type (.dict es) (.one (.element e))

/-- What ends the reading of a value is an error over several fields or a name without a hash. -/
inductive Ended (v : Value) (s : Shape) : Refusal → Prop where
  | constraint {m : MessageError} : m.IsConstraint → Ended v s (.message m)
  | unhashed {type : String} : Unhashed type v s → Ended v s (.unhashable type)

variable {reader}

/-- What ends the reading of a part ends that of the whole. -/
theorem Ended.whole {v' : Value} {s' : Shape} (h : Ended v s r)
    (part : ∀ type, Unhashed type v s → Unhashed type v' s') : Ended v' s' r := by
  cases h with
  | constraint fits => exact .constraint fits
  | unhashed named => exact .unhashed (part _ named)

/-- The building of an element ends as the reading of one of its arguments does, or of the value of
a selection among them. -/
theorem ended_of_build
    (ih : ∀ key x, (key, x) ∈ es → ∀ s, read x s = .error r → Ended x s r)
    (ih' : ∀ key x y, (key, x) ∈ es → y.Child x → ∀ s, read y s = .error r → Ended y s r)
    (h : e.build es = .error r) (ends : r.IsEnd) : Ended (.dict es) (.one (.element e)) r := by
  rcases source_of_build h ends with objected | ⟨f, hf, p, hp, refused⟩
  · cases objected with
    | constraint fits => exact .constraint fits
    | unhashable hc ha hg named => exact .unhashed (.here hc ha hg named)
    | member hm hx refused =>
      obtain ⟨key, mem⟩ := mem_of_memberArg? hx
      exact (ih key _ mem _ refused).whole fun _ => .member hm hx
    | selected hc ha hg hm refused =>
      obtain ⟨child, same⟩ := tagged?_child hg
      rw [same] at refused
      exact (ih' _ _ _ (mem_of_present? ha).1 child _ refused).whole fun _ => .selected hc ha hg hm
  · exact (ih p.1 p.2 (mem_of_fieldArg? hp).1 _ refused).whole fun _ => .field hf hp

theorem ended_of_read (h : read v s = .error r) (ends : r.IsEnd) : Ended v s r := by
  induction v using Value.family_induction generalizing s with
  | step v ih ih' =>
    rcases source_of_read h ends with ⟨es, e, rfl, rfl, refused⟩ |
      ⟨xs, x, hx, hv, child, collection, refused⟩
    · exact ended_of_build (fun key x hx s h => ih x (.dict hx) h)
        (fun key x y hx hy s h => ih' x y (.dict hx) hy h) refused ends
    · exact (ih x child refused).whole fun _ => .item hv hx collection

/-! ### Elements -/

theorem find_of_unhashable {g : Group} {name : Value} {type : String}
    (h : name.unhashable? = some type) : g.find name = .error (.unhashable type) := by
  unfold Group.find
  rw [h]

/-- The name of a selection is looked up before anything else is asked of the selection. -/
theorem resolveTagged_of_unhashable {g : Group} {given : List (Member × Given)} {a : Value}
    {t : Tagged} {type : String} (ht : tagged? a = some t)
    (h : t.member.unhashable? = some type) :
    g.resolveTagged given (argOf a) = .error (.unhashable type) := by
  unfold Group.resolveTagged Group.select
  dsimp only
  rw [ht]
  dsimp only
  rw [find_of_unhashable h]
  split <;> rfl

/-- The arguments of an element make it, or they are refused by their faults, by an error over
several fields, or since a selection among them is given under a name without a hash. The last is
what comes of such a name for the element's own selection, whatever else is among the arguments, as
long as no member of the group is given twice. -/
theorem built_or_refused (e : Element) (es : Keyed Value) :
    ((∃ fs, e.build es = .ok (.element e fs)) ∨
      (∃ is, is ≠ [] ∧ e.build es = .error (.issues is)) ∨
      (∃ m, m.IsConstraint ∧ e.build es = .error (.message m)) ∨
      ∃ type, Unhashed type (.dict es) (.one (.element e)) ∧
        e.build es = .error (.unhashable type)) ∧
    ∀ c a g type, e.choice = some c → (∀ m ∈ e.members, GivenOnce es m) →
      present? es c.name = some a → tagged? a = some g → g.member.unhashable? = some type →
      e.build es = .error (.unhashable type) := by
  constructor
  · cases h : e.build es with
    | ok v =>
      obtain ⟨fs, rfl, -⟩ := build_eq_ok.mp h
      exact .inl ⟨fs, rfl⟩
    | error r =>
      by_cases ends : r.IsEnd
      · cases (ended_of_read h ends : Ended (.dict es) (.one (.element e)) r) with
        | constraint fits => exact .inr (.inr (.inl ⟨_, fits, rfl⟩))
        | unhashed named => exact .inr (.inr (.inr ⟨_, named, rfl⟩))
      · obtain ⟨is, rfl⟩ : ∃ is, r = .issues is := by simpa [IsEnd] using ends
        refine .inr (.inl ⟨is, ?_, rfl⟩)
        rintro rfl
        exact grounded_assemble e (arguments es) h
  · intro c a g type hc once ha hg named
    have resolved : (c.group.resolve c.name (arguments es)).1 = .error (.unhashable type) := by
      rw [resolve_arguments hc once, ha]
      exact congrArg (Except.map some) (resolveTagged_of_unhashable hg named)
    have choice : (readChoice e (arguments es)).1 = .error (.unhashable type) := by
      unfold readChoice
      rw [hc]
      dsimp only
      rw [resolved]
      rfl
    show ((readChoice e (arguments es)).1 >>= _) = _
    rw [choice]
    rfl

end

def namedByList : Keyed Value :=
  [("auth_mode", .list [.list [.text "eim_params"], .dict []])]

theorem list_without_hash :
    Element.build .authorizationReq namedByList = .error (.unhashable "list") := by
  have once : ∀ m ∈ Element.members .authorizationReq, (present? namedByList m.name).isNone := by
    decide
  exact (built_or_refused .authorizationReq namedByList).2 _ _ _ _ rfl
    (fun m hm => .inl (Option.isNone_iff_eq_none.mp (once m hm))) rfl rfl rfl

end Build

end V2G
