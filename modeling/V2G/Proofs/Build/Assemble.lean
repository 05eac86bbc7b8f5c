import V2G.Proofs.Build.Gather
import V2G.Proofs.Build.Selection
import V2G.Proofs.Conforms

/-!
# What arguments make

An element is made from arguments exactly if each of its fields takes a value from the argument
under its key or name, its choice group resolves, no argument is left, and its rule holds
(`assemble_eq_ok`).
-/

namespace V2G

namespace Value

variable {e : Element} {fs gs : List (String × Value)}

/-- The entries of an element are the values of its fields in their order. -/
theorem eq_map_field (names : Keyed.keys fs = e.slots.map (·.1)) :
    fs = (e.slots.map (·.1)).map fun name => (name, (Value.element e fs).field name) := by
  rw [← names, Keyed.keys, List.map_map]
  refine (List.map_id fs).symm.trans (List.map_congr_left fun p hp => ?_)
  obtain ⟨name, x⟩ := p
  rw [Function.comp, field_of_mem names hp]
  rfl

theorem element_ext (hf : Keyed.keys fs = e.slots.map (·.1))
    (hg : Keyed.keys gs = e.slots.map (·.1))
    (h : ∀ name ∈ e.slots.map (·.1),
      (Value.element e fs).field name = (Value.element e gs).field name) :
    Value.element e fs = .element e gs := by
  have entries : fs = gs := by
    refine (eq_map_field hf).trans (Eq.trans ?_ (eq_map_field hg).symm)
    exact List.map_congr_left fun name hn => by rw [h name hn]
  rw [entries]

end Value

variable {reader : Url.Reader}

namespace Build

open Refusal

/-- What a field takes from the argument that it finds, or from none. -/
def Takes (f : Field) (a? : Option Arg) (v : Value) : Prop :=
  match a? with
  | none => f.required = false ∧ v = .none
  | some a => if leavesAbsent f a.value then v = .none else a.read f.shape = .ok v

theorem readField_eq_ok {args : Keyed Arg} {f : Field} {p : String × Value} :
    readField args f = .ok p ↔ p.1 = f.name ∧ Takes f ((argument? args f).map (·.2)) p.2 := by
  obtain ⟨name, v⟩ := p
  unfold readField
  cases argument? args f with
  | none => cases h : f.required <;> simp [Takes, h, eq_comm]
  | some found =>
    obtain ⟨k, a⟩ := found
    by_cases absent : leavesAbsent f a.value = true
    · simp [Takes, absent, eq_comm]
    · simp only [absent, Bool.false_eq_true, ↓reduceIte, Except.mapError_eq_ok, Except.map_eq_ok,
        Prod.mk.injEq, Option.map_some, Takes]
      constructor
      · rintro ⟨_, h, rfl, rfl⟩
        exact ⟨rfl, h⟩
      · rintro ⟨rfl, h⟩
        exact ⟨_, h, rfl, rfl⟩

theorem mem_of_argument {args : Keyed Arg} {f : Field} {k : String} {a : Arg}
    (h : argument? args f = some (k, a)) : (k, a) ∈ args ∧ (k = f.key ∨ k = f.name) := by
  unfold argument? at h
  split at h
  · next ha => cases h; exact ⟨Keyed.mem_of_get? ha, .inl rfl⟩
  · obtain ⟨a, ha, e⟩ := Option.map_eq_some_iff.mp h
    cases e
    exact ⟨Keyed.mem_of_get? ha, .inr rfl⟩

theorem grounded_readField {args : Keyed Arg} (h : ∀ p ∈ args, ∀ s, Grounded (p.2.read s))
    (f : Field) : Grounded (readField args f) := by
  unfold readField
  split
  · split <;> exact fun e => nomatch e
  · next ha =>
    split
    · exact fun e => nomatch e
    · exact grounded_mapError_under (grounded_map (h _ (mem_of_argument ha).1 _) _) _

theorem leftOver_eq_nil {args : Keyed Arg} {fs : List Field} :
    leftOver args fs = [] ↔
      ∀ k ∈ args.keys, ∃ f ∈ fs, (argument? args f).map (·.1) = some k := by
  simp [leftOver, List.filter_eq_nil_iff, Option.map_eq_some_iff]

theorem readFields_eq_ok {e : Element} {args : Keyed Arg}
    (h : ∀ p ∈ args, ∀ s, Grounded (p.2.read s)) {fields : List (String × Value)} :
    readFields e args = .ok fields ↔
      (e.fields.map (readField args)) = fields.map .ok ∧ leftOver args e.fields = [] := by
  have left : ∀ o ∈ leftOver args e.fields, ∃ i, o = .error (.issues [i]) := by
    intro o ho
    obtain ⟨k, -, rfl⟩ := List.mem_map.mp ho
    exact ⟨_, rfl⟩
  rw [readFields, gather_eq_ok]
  · constructor
    · intro all
      have none : leftOver args e.fields = [] := by
        refine List.eq_nil_iff_forall_not_mem.mpr fun o ho => ?_
        obtain ⟨i, rfl⟩ := left o ho
        have := all ▸ List.mem_append_right (e.fields.map (readField args)) ho
        obtain ⟨v, -, e⟩ := List.mem_map.mp this
        cases e
      exact ⟨by rw [← all, none, List.append_nil], none⟩
    · rintro ⟨fields, none⟩
      rw [none, List.append_nil, fields]
  · intro o ho
    rcases List.mem_append.mp ho with ho | ho
    · obtain ⟨f, -, rfl⟩ := List.mem_map.mp ho
      exact grounded_readField h f
    · obtain ⟨i, rfl⟩ := left o ho
      exact fun e => nomatch e

theorem readChoice_eq_ok {e : Element} {args : Keyed Arg} {sel : List (String × Value)} :
    (readChoice e args).1 = .ok sel ↔ Keyed.keys sel = (e.choice.map (·.name)).toList ∧
      ∀ c, e.choice = some c → ∃ r, (c.group.resolve c.name args).1 = .ok r ∧
        sel = [(c.name, r.getD .none)] := by
  unfold readChoice
  cases e.choice with
  | none => cases sel <;> simp [Keyed.keys]
  | some c =>
    simp only [Except.mapError_eq_ok, Except.map_eq_ok]
    constructor
    · rintro ⟨r, hr, rfl⟩
      exact ⟨rfl, fun c' e => by cases e; exact ⟨r, hr, rfl⟩⟩
    · rintro ⟨-, h⟩
      obtain ⟨r, hr, rfl⟩ := h c rfl
      exact ⟨r, hr, rfl⟩

/-- How the fields and the selection of an element come from arguments. -/
structure Made (e : Element) (args : Keyed Arg) (fs : List (String × Value)) : Prop where
  names : Keyed.keys fs = e.slots.map (·.1)
  field : ∀ f ∈ e.fields, Takes f ((argument? (readChoice e args).2 f).map (·.2))
    ((Value.element e fs).field f.name)
  choice : ∀ c, e.choice = some c → ∃ r, (c.group.resolve c.name args).1 = .ok r ∧
    (Value.element e fs).field c.name = r.getD .none
  taken : ∀ k ∈ (readChoice e args).2.keys, ∃ f ∈ e.fields,
    (argument? (readChoice e args).2 f).map (·.1) = some k
  rule : Rule.broken? e (.element e fs) = none

theorem slotNames_eq (e : Element) : e.slots.map (·.1) =
    e.fields.map (·.name) ++ (e.choice.map (·.name)).toList := by
  cases h : e.choice <;> simp [Element.slots, h]

/-- Entries that are read each under its own name have these names. -/
theorem keys_of_map_ok {ι ε : Type} {read : ι → Except ε (String × Value)} {name : ι → String}
    (named : ∀ i p, read i = .ok p → p.1 = name i) {l : List ι} {entries : List (String × Value)}
    (h : l.map read = entries.map .ok) : Keyed.keys entries = l.map name := by
  have names : (l.map fun i => (read i).map (·.1)) = (Keyed.keys entries).map .ok := by
    simpa [Keyed.keys, Function.comp_def, Except.map] using congrArg (List.map (·.map (·.1))) h
  refine eq_map_of_ok names fun i _ k hk => ?_
  obtain ⟨p, hp, rfl⟩ := Except.map_eq_ok.mp hk
  exact named i p hp

theorem keys_of_readFields {e : Element} {args : Keyed Arg} {fields : List (String × Value)}
    (h : (e.fields.map (readField args)) = fields.map .ok) :
    Keyed.keys fields = e.fields.map (·.name) :=
  keys_of_map_ok (fun _ _ read => (readField_eq_ok.mp read).1) h

theorem Made.entries {e : Element} {args : Keyed Arg} {fs : List (String × Value)}
    (h : Made e args fs) :
    fs = (e.fields.map fun f => (f.name, (Value.element e fs).field f.name)) ++
      (e.choice.map fun c => (c.name, (Value.element e fs).field c.name)).toList := by
  refine (Value.eq_map_field h.names).trans ?_
  rw [slotNames_eq, List.map_append, List.map_map]
  cases e.choice <;> rfl

/-- The entries that a selection and the values of the fields make together. -/
theorem slots_of_parts {e : Element} {args : Keyed Arg} {fields sel : List (String × Value)}
    (hs : (readChoice e args).1 = .ok sel)
    (hf : (e.fields.map (readField (readChoice e args).2)) = fields.map .ok) :
    Keyed.keys (fields ++ sel) = e.slots.map (·.1) ∧
      (∀ f ∈ e.fields, Takes f ((argument? (readChoice e args).2 f).map (·.2))
        ((Value.element e (fields ++ sel)).field f.name)) ∧
      ∀ c, e.choice = some c → ∃ r, (c.group.resolve c.name args).1 = .ok r ∧
        (Value.element e (fields ++ sel)).field c.name = r.getD .none := by
  obtain ⟨keys, choice⟩ := readChoice_eq_ok.mp hs
  have names : Keyed.keys (fields ++ sel) = e.slots.map (·.1) := by
    rw [Keyed.keys_append, keys_of_readFields hf, keys, slotNames_eq]
  refine ⟨names, fun f hf' => ?_, fun c hc => ?_⟩
  · obtain ⟨⟨name, v⟩, hp, hv⟩ := ok_of_mem hf hf'
    obtain ⟨rfl, takes⟩ := readField_eq_ok.mp hv
    rw [Value.field_of_mem names (List.mem_append_left sel hp)]
    exact takes
  · obtain ⟨r, hr, rfl⟩ := choice c hc
    refine ⟨r, hr, ?_⟩
    rw [Value.field_of_mem names (List.mem_append_right fields List.mem_cons_self)]

theorem made_of_parts {e : Element} {args : Keyed Arg} {fields sel : List (String × Value)}
    (hs : (readChoice e args).1 = .ok sel)
    (hf : (e.fields.map (readField (readChoice e args).2)) = fields.map .ok)
    (left : leftOver (readChoice e args).2 e.fields = [])
    (rule : Rule.broken? e (.element e (fields ++ sel)) = none) : Made e args (fields ++ sel) := by
  obtain ⟨names, field, choice⟩ := slots_of_parts hs hf
  exact ⟨names, field, choice, leftOver_eq_nil.mp left, rule⟩

theorem assemble_eq_ok {e : Element} {args : Keyed Arg}
    (h : ∀ p ∈ args, ∀ s, Grounded (p.2.read s)) {w : Value} :
    assemble e args = .ok w ↔ ∃ fs, w = .element e fs ∧ Made e args fs := by
  have sub : ∀ p ∈ (readChoice e args).2, ∀ s, Grounded (p.2.read s) := by
    refine fun p hp => h p ?_
    unfold readChoice at hp
    split at hp
    · exact hp
    · exact (Group.resolve_sublist _).subset hp
  have unfolded : assemble e args = (readChoice e args).1 >>= fun sel =>
      readFields e (readChoice e args).2 >>= fun fields =>
        checkRules e (.element e (fields ++ sel)) := rfl
  rw [unfolded]
  simp only [Except.bind_eq_ok, readFields_eq_ok sub]
  constructor
  · rintro ⟨sel, hs, fields, ⟨hf, left⟩, hw⟩
    unfold checkRules at hw
    split at hw
    · cases hw
    · next rule => cases hw; exact ⟨_, rfl, made_of_parts hs hf left rule⟩
  · rintro ⟨fs, rfl, made⟩
    refine ⟨(e.choice.map fun c => (c.name, (Value.element e fs).field c.name)).toList,
      readChoice_eq_ok.mpr ⟨by cases e.choice <;> rfl, fun c hc => ?_⟩,
      e.fields.map fun f => (f.name, (Value.element e fs).field f.name),
      ⟨?_, leftOver_eq_nil.mpr made.taken⟩, ?_⟩
    · obtain ⟨r, hr, value⟩ := made.choice c hc
      exact ⟨r, hr, by simp [hc, value]⟩
    · rw [List.map_map]
      exact List.map_congr_left fun f hf => readField_eq_ok.mpr ⟨rfl, made.field f hf⟩
    · rw [← made.entries]
      simp [checkRules, made.rule]

variable [reader]

/-- A value as an argument. -/
abbrev argOf (v : Value) : Arg := ⟨v, read v, tagged? v⟩

variable {reader}

theorem get?_arguments (es : List (String × Value)) (k : String) :
    Keyed.get? (arguments es) k = (Keyed.get? es k).map argOf := by
  rw [arguments_eq]
  exact Keyed.get?_map argOf es k

theorem keys_arguments (es : List (String × Value)) : (arguments es).keys = Keyed.keys es := by
  rw [arguments_eq, Keyed.keys, List.map_map]
  rfl

theorem mem_arguments {es : List (String × Value)} {k : String} {a : Arg}
    (h : (k, a) ∈ arguments es) : ∃ x, (k, x) ∈ es ∧ a = argOf x := by
  rw [arguments_eq] at h
  obtain ⟨⟨_, x⟩, hx, e⟩ := List.mem_map.mp h
  cases e
  exact ⟨x, hx, rfl⟩

theorem left_sublist (e : Element) (args : Keyed Arg) : (readChoice e args).2.Sublist args := by
  unfold readChoice
  split
  · exact .refl _
  · exact Group.resolve_sublist _

theorem grounded_arguments (es : List (String × Value)) :
    ∀ p ∈ arguments es, ∀ s, Grounded (p.2.read s) := by
  intro p hp s
  rw [arguments_eq] at hp
  obtain ⟨⟨k, v⟩, -, rfl⟩ := List.mem_map.mp hp
  exact grounded_read v s

end Build

end V2G
