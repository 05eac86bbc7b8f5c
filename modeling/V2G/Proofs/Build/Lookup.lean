import Mathlib.Data.List.Nodup
import V2G.Proofs.Build.Assemble

/-!
# Arguments looked up

Which arguments an element is made from. A field has the argument under its key, or else under its
name. The choice group has the arguments under the words that speak of it, and uses them up: no
field goes by any of them (`Element.field_not_selector`). So what arguments make is told by
look-ups alone, in whatever order the arguments are given (`build_eq_ok`).
-/

namespace V2G

namespace Element

variable {e : Element} {f : Field}

/-- No member goes by the name of a field, nor by that of the selection. -/
theorem membersApart : ∀ e ∈ all, ∀ m ∈ e.members, m.name ∉ e.slots.map (·.1) := by
  decide +kernel

/-- No field goes by the name of the selection. -/
theorem name_ne_choiceName (hf : f ∈ e.fields) {c : ChoiceField} (hc : e.choice = some c) :
    f.name ≠ c.name := by
  have nodup := e.slotNames_nodup
  rw [Build.slotNames_eq, hc] at nodup
  exact (List.nodup_append.mp nodup).2.2 _ (List.mem_map_of_mem hf) _ List.mem_cons_self

theorem key_mem_keys (hf : f ∈ e.fields) : f.key ∈ e.keys :=
  List.mem_append_left _ (List.mem_map_of_mem hf)

/-- No field goes by the name of the selection as its key. -/
theorem key_ne_choiceName (hf : f ∈ e.fields) {c : ChoiceField} (hc : e.choice = some c) :
    f.key ≠ c.name :=
  fun same => choiceName_not_mem_keys hc (same ▸ key_mem_keys hf)

theorem memberKey_mem_keys {m : Member} (hm : m ∈ e.members) : m.key ∈ e.keys :=
  List.mem_append_right _ (List.mem_map_of_mem hm)

theorem key_ne_memberKey {m : Member} (hf : f ∈ e.fields) (hm : m ∈ e.members) : f.key ≠ m.key :=
  (List.nodup_append.mp e.keys_nodup).2.2 _ (List.mem_map_of_mem hf) _ (List.mem_map_of_mem hm)

/-- No two fields go by one word. -/
theorem eq_of_fieldWord {g : Field} {k : String} (hf : f ∈ e.fields) (hg : g ∈ e.fields)
    (h : k = f.key ∨ k = f.name) (h' : k = g.key ∨ k = g.name) : f = g := by
  have keys : (e.fields.map (·.key)).Nodup := (List.nodup_append.mp e.keys_nodup).1
  have names : (e.fields.map (·.name)).Nodup :=
    (List.nodup_append.mp (Build.slotNames_eq e ▸ e.slotNames_nodup)).1
  rcases h with rfl | rfl
  · refine List.inj_on_of_nodup_map keys hf hg (h'.elim id fun same => ?_)
    exact same.trans (name_eq_key hg (same ▸ key_mem_keys hf))
  · rcases h' with same | same
    · refine List.inj_on_of_nodup_map keys hf hg ?_
      exact (name_eq_key hf (same ▸ key_mem_keys hg)).symm.trans same
    · exact List.inj_on_of_nodup_map names hf hg same

/-- No two members go by one word. -/
theorem eq_of_memberWord {m m' : Member} {k : String} (hm : m ∈ e.members) (hm' : m' ∈ e.members)
    (h : k = m.name ∨ k = m.key) (h' : k = m'.name ∨ k = m'.key) : m = m' := by
  have keys : (e.members.map (·.key)).Nodup := (List.nodup_append.mp e.keys_nodup).2.1
  rcases h with rfl | rfl <;> rcases h' with same | same
  · exact List.inj_on_of_nodup_map e.memberNames_nodup hm hm' same
  · exact absurd (same ▸ memberKey_mem_keys hm') (memberName_not_mem_keys hm)
  · exact absurd (same ▸ memberKey_mem_keys hm) (memberName_not_mem_keys hm')
  · exact List.inj_on_of_nodup_map keys hm hm' same

/-- No member goes by the name of the selection. -/
theorem memberWord_ne_choiceName {m : Member} {c : ChoiceField} (hm : m ∈ e.members)
    (hc : e.choice = some c) : m.name ≠ c.name ∧ m.key ≠ c.name :=
  ⟨fun same => membersApart e e.mem_all m hm
      (same ▸ mem_slotNames.mpr (.inr ⟨c, hc, rfl⟩)),
    fun same => choiceName_not_mem_keys hc (same ▸ memberKey_mem_keys hm)⟩

/-- The words that arguments for the choice group stand under. -/
def selectors (e : Element) : List String :=
  (e.members.map (·.name) ++ e.members.map (·.key)) ++ (e.choice.map (·.name)).toList

theorem mem_selectors {k : String} : k ∈ e.selectors ↔
    (∃ m ∈ e.members, k = m.name ∨ k = m.key) ∨ ∃ c, e.choice = some c ∧ k = c.name := by
  simp only [selectors, List.mem_append, List.mem_map, Option.mem_toList, Option.map_eq_some_iff]
  constructor
  · rintro ((⟨m, hm, rfl⟩ | ⟨m, hm, rfl⟩) | ⟨c, hc, rfl⟩)
    · exact .inl ⟨m, hm, .inl rfl⟩
    · exact .inl ⟨m, hm, .inr rfl⟩
    · exact .inr ⟨c, hc, rfl⟩
  · rintro (⟨m, hm, rfl | rfl⟩ | ⟨c, hc, rfl⟩)
    · exact .inl (.inl ⟨m, hm, rfl⟩)
    · exact .inl (.inr ⟨m, hm, rfl⟩)
    · exact .inr ⟨c, hc, rfl⟩

/-- No word of the choice group is the key or the name of a field. -/
theorem field_not_selector (hf : f ∈ e.fields) : f.key ∉ e.selectors ∧ f.name ∉ e.selectors := by
  simp only [mem_selectors, not_or, not_exists, not_and]
  have key := key_mem_keys hf
  have slot : f.name ∈ e.slots.map (·.1) := mem_slotNames.mpr (.inl ⟨f, hf, rfl⟩)
  refine ⟨⟨fun m hm => ⟨?_, key_ne_memberKey hf hm⟩, fun c hc => key_ne_choiceName hf hc⟩,
    fun m hm => ⟨?_, ?_⟩, fun c hc => name_ne_choiceName hf hc⟩
  · exact fun same => memberName_not_mem_keys hm (same ▸ key)
  · exact fun same => membersApart e e.mem_all m hm (same ▸ slot)
  · intro same
    have declared : f.name ∈ e.keys := same ▸ memberKey_mem_keys hm
    exact key_ne_memberKey hf hm ((name_eq_key hf declared).symm.trans same)

end Element

variable {reader : Url.Reader}

namespace Build

variable {e : Element} {es : Keyed Value} {f : Field} {k : String}

/-! ### Look-ups -/

/-- The argument under a word, if it is not absent. -/
def present? (es : Keyed Value) (k : String) : Option Value :=
  (Keyed.get? es k).filter (!·.isNone)

/-- The argument that a member is given by itself. -/
def memberArg? (es : Keyed Value) (m : Member) : Option Value :=
  (present? es m.name).or (present? es m.key)

/-- The argument for a field, with the word that it stands under. -/
def fieldArg? (es : Keyed Value) (f : Field) : Option (String × Value) :=
  match Keyed.get? es f.key with
  | some v => some (f.key, v)
  | none => (Keyed.get? es f.name).map (f.name, ·)

/-- The member is not given both by its name and by its key. -/
def GivenOnce (es : Keyed Value) (m : Member) : Prop :=
  present? es m.name = none ∨ present? es m.key = none

variable [reader]

/-- A selection that is given by itself, among the members of a group. -/
def found (g : Group) (es : Keyed Value) : List (Member × Given) :=
  g.members.filterMap fun m => (memberArg? es m).map fun v => (m, (argOf v).given)

variable {reader}

theorem mem_of_present? {x : Value} (h : present? es k = some x) :
    (k, x) ∈ es ∧ x.isNone = false := by
  obtain ⟨there, given⟩ := Option.filter_eq_some_iff.mp h
  exact ⟨Keyed.mem_of_get? there, by simpa using given⟩

theorem mem_of_memberArg? {m : Member} {x : Value} (h : memberArg? es m = some x) :
    ∃ k, (k, x) ∈ es := by
  rcases Option.or_eq_some_iff.mp h with h | ⟨-, h⟩
  · exact ⟨_, (mem_of_present? h).1⟩
  · exact ⟨_, (mem_of_present? h).1⟩

theorem mem_of_fieldArg? {p : String × Value} (h : fieldArg? es f = some p) :
    p ∈ es ∧ (p.1 = f.key ∨ p.1 = f.name) := by
  unfold fieldArg? at h
  split at h
  · next there =>
    cases h
    exact ⟨Keyed.mem_of_get? there, .inl rfl⟩
  · obtain ⟨x, there, rfl⟩ := Option.map_eq_some_iff.mp h
    exact ⟨Keyed.mem_of_get? there, .inr rfl⟩

theorem present?_filter (q : String → Bool) (es : Keyed Value) (k : String) :
    present? (es.filter fun p => q p.1) k = if q k then present? es k else none := by
  rw [present?, Keyed.get?_filter q es k]
  split <;> rfl

theorem arguments_filter (q : String → Bool) (es : Keyed Value) :
    arguments (es.filter fun p => q p.1) = (arguments es).filter fun p => q p.1 := by
  rw [arguments_eq, arguments_eq, List.filter_map]
  rfl

theorem get?_arguments_filter (es : Keyed Value) (k : String) :
    (Keyed.get? (arguments es) k).filter (!·.value.isNone) = (present? es k).map argOf := by
  rw [get?_arguments, present?]
  cases Keyed.get? es k with
  | none => rfl
  | some v => cases h : v.isNone <;> simp [Option.filter, h]

end Build

namespace Group

open Build

/-- The member of a name, whatever kind of text the name is. -/
theorem find_of_named {g : Group} (names : g.names.Nodup) {m : Member} (hm : m ∈ g.members) {v : Value}
    (named : v.text? = some m.name) : g.find v = .ok m := by
  have there : g.member? m.name = some m := by
    unfold member?
    cases found : g.members.find? (·.name == m.name) with
    | none => simpa using List.find?_eq_none.mp found m hm
    | some m' =>
      have name : m'.name = m.name := by simpa using List.find?_some found
      rw [List.inj_on_of_nodup_map names (List.mem_of_find?_eq_some found) hm name]
  have hashed : v.unhashable? = none := by
    cases v <;> first | rfl | cases named
  simp only [find, hashed, named, Option.bind_some, there]

variable {g : Group} {ms : List Member} {es : Keyed Value}

theorem draw_arguments (es : Keyed Value) (k : String) :
    draw (arguments es) k =
      ((present? es k).map argOf, arguments (es.filter fun p => p.1 != k)) := by
  rw [draw, get?_arguments_filter, arguments_filter (· != k)]
  rfl

theorem given_congr {es' : Keyed Value} {m : Member}
    (h : ∀ k, k = m.name ∨ k = m.key → present? es' k = present? es k) :
    memberArg? es' m = memberArg? es m ∧ (GivenOnce es' m ↔ GivenOnce es m) := by
  rw [memberArg?, memberArg?, GivenOnce, GivenOnce, h _ (.inl rfl), h _ (.inr rfl)]
  exact ⟨rfl, .rfl⟩

/-- The arguments that are left once a member was drawn. -/
def without (es : Keyed Value) (m : Member) : Keyed Value :=
  es.filter fun p => p.1 != m.name && p.1 != m.key

/-- Names and keys of members that stand for one thing each. -/
structure Apart (ms : List Member) : Prop where
  names : (ms.map (·.name)).Nodup
  keys : (ms.map (·.key)).Nodup
  both : ∀ m ∈ ms, m.name ∉ ms.map (·.key)

theorem Apart.tail {m : Member} (h : Apart (m :: ms)) : Apart ms :=
  ⟨(List.nodup_cons.mp h.names).2, (List.nodup_cons.mp h.keys).2, fun m' hm' key =>
    h.both m' (List.mem_cons_of_mem _ hm') (List.mem_cons_of_mem _ key)⟩

/-- Drawing a member leaves the arguments of the others as they are. -/
theorem given_without {m m' : Member} (h : Apart (m :: ms)) (hm : m' ∈ ms) :
    memberArg? (without es m) m' = memberArg? es m' ∧
      (GivenOnce (without es m) m' ↔ GivenOnce es m') := by
  have key : m'.key ∈ ms.map (·.key) := List.mem_map_of_mem hm
  refine given_congr fun k hk => ?_
  have other : (k != m.name && k != m.key) = true := by
    simp only [Bool.and_eq_true, bne_iff_ne]
    rcases hk with rfl | rfl
    · refine ⟨fun same => (List.nodup_cons.mp h.names).1 ?_, fun same => ?_⟩
      · exact List.mem_map.mpr ⟨m', hm, same⟩
      · exact h.both m' (List.mem_cons_of_mem _ hm) (same ▸ List.mem_cons_self)
    · refine ⟨fun same => ?_, fun same => (List.nodup_cons.mp h.keys).1 ?_⟩
      · exact h.both m List.mem_cons_self (same ▸ List.mem_cons_of_mem _ key)
      · exact List.mem_map.mpr ⟨m', hm, same⟩
  rw [without, present?_filter fun k => k != m.name && k != m.key, if_pos other]

theorem candidates_cons {m : Member} (h : Apart (m :: ms)) :
    g.candidates (m :: ms) (arguments es) =
      if (present? es m.name).isSome && (present? es m.key).isSome then
        (.error (.conflictingChoice g.name [m.key, m.key]), arguments (without es m))
      else
        ((g.candidates ms (arguments (without es m))).1.map
            (((memberArg? es m).map fun v => (m, (argOf v).given)).toList ++ ·),
          (g.candidates ms (arguments (without es m))).2) := by
  have self : m.key ≠ m.name := fun same => h.both m List.mem_cons_self (by simp [same])
  have drawn : (es.filter fun p => p.1 != m.name).filter (fun p => p.1 != m.key) =
      without es m := by
    simp only [without, List.filter_filter, Bool.and_comm]
  have byKey : present? (es.filter fun p => p.1 != m.name) m.key = present? es m.key := by
    rw [present?_filter (· != m.name), if_pos (by simpa using self)]
  have given : ((present? es m.name).map argOf).or ((present? es m.key).map argOf) =
      (memberArg? es m).map argOf := by
    rw [memberArg?, Option.map_or]
  simp only [candidates, draw_arguments, byKey, drawn, Option.isSome_map, given, Option.map_map]
  rfl

/-- Members that are given at most once each are drawn one after the other, and nothing else is. -/
theorem candidates_arguments (h : Apart ms) (once : ∀ m ∈ ms, GivenOnce es m) :
    g.candidates ms (arguments es) =
      (.ok (ms.filterMap fun m => (memberArg? es m).map fun v => (m, (argOf v).given)),
        arguments (es.filter fun p => !(ms.map (·.name) ++ ms.map (·.key)).contains p.1)) := by
  induction ms generalizing es with
  | nil => simp [candidates, List.filter_eq_self.mpr]
  | cons m ms ih =>
    have single : ((present? es m.name).isSome && (present? es m.key).isSome) = false := by
      rcases once m List.mem_cons_self with none | none <;> simp [none]
    have rest := @ih (without es m) h.tail fun m' hm' =>
      (given_without h hm').2.mpr (once m' (List.mem_cons_of_mem _ hm'))
    have same : (ms.filterMap fun m' =>
        (memberArg? (without es m) m').map fun v => (m', (argOf v).given)) =
        ms.filterMap fun m' => (memberArg? es m').map fun v => (m', (argOf v).given) :=
      List.filterMap_congr fun m' hm' => by rw [(given_without h hm').1]
    rw [candidates_cons h, single, rest, same]
    simp only [Bool.false_eq_true, ↓reduceIte, Except.map]
    congr 1
    · cases given : memberArg? es m <;> simp [given]
    · simp only [without, List.filter_filter]
      refine congrArg arguments (List.filter_congr fun p _ => ?_)
      rw [Bool.eq_iff_iff]
      simp
      tauto

/-- A member that is given twice is in conflict with itself. -/
theorem candidates_twice (h : Apart ms) (twice : ∃ m ∈ ms, ¬ GivenOnce es m) :
    ∃ m ∈ ms, (g.candidates ms (arguments es)).1 =
      .error (.conflictingChoice g.name [m.key, m.key]) := by
  induction ms generalizing es with
  | nil =>
    obtain ⟨m, hm, -⟩ := twice
    cases hm
  | cons m ms ih =>
    rw [candidates_cons h]
    split
    · exact ⟨m, List.mem_cons_self, rfl⟩
    · next single =>
      obtain ⟨m', hm', given⟩ := twice
      rcases List.mem_cons.mp hm' with rfl | hm'
      · refine absurd ?_ given
        simp only [Bool.and_eq_true, not_and, Bool.not_eq_true, Option.isSome_eq_false_iff,
          Option.isNone_iff_eq_none] at single
        cases name : present? es m'.name with
        | none => exact .inl name
        | some v => exact .inr (single (by simp [name]))
      · obtain ⟨m'', hm'', conflict⟩ :=
          @ih (without es m) h.tail ⟨m', hm', mt (given_without h hm').2.mp given⟩
        exact ⟨m'', List.mem_cons_of_mem _ hm'', by rw [conflict]; rfl⟩

end Group

namespace Build

variable {c : ChoiceField} {es : Keyed Value} {e : Element} {f : Field}

section Choice

variable (hc : e.choice = some c)
include hc

theorem selectors_eq : e.selectors =
    (c.group.members.map (·.name) ++ c.group.members.map (·.key)) ++ [c.name] := by
  rw [Element.selectors, Element.members_eq hc, hc]
  rfl

theorem members_apart : Group.Apart c.group.members := by
  have members := Element.members_eq hc
  refine ⟨members ▸ e.memberNames_nodup, members ▸ (List.nodup_append.mp e.keys_nodup).2.1,
    fun m hm key => ?_⟩
  exact Element.memberName_not_mem_keys (members ▸ hm)
    (List.mem_append_right _ (members ▸ key))

/-- What arguments for a choice group make, if no member is given twice: the selection that stands
under the field of the group counts if there is one. -/
theorem resolve_arguments (once : ∀ m ∈ e.members, GivenOnce es m) :
    c.group.resolve c.name (arguments es) =
      (match present? es c.name with
        | some v => (c.group.resolveTagged (found c.group es) (argOf v)).map some
        | none => c.group.resolveFound (found c.group es),
        arguments (es.filter fun p => !e.selectors.contains p.1)) := by
  have members := Element.members_eq hc
  have drawn := @Group.candidates_arguments reader c.group c.group.members es (members_apart hc)
    (members ▸ once)
  have word : c.name ∉ c.group.members.map (·.name) ++ c.group.members.map (·.key) := by
    intro h
    rcases List.mem_append.mp h with h | h
    · obtain ⟨m, hm, same⟩ := List.mem_map.mp h
      exact (Element.memberWord_ne_choiceName (members ▸ hm) hc).1 same
    · obtain ⟨m, hm, same⟩ := List.mem_map.mp h
      exact (Element.memberWord_ne_choiceName (members ▸ hm) hc).2 same
  have kept : present? (es.filter fun p => !(c.group.members.map (·.name) ++
      c.group.members.map (·.key)).contains p.1) c.name = present? es c.name := by
    rw [present?_filter fun k => !(c.group.members.map (·.name) ++
      c.group.members.map (·.key)).contains k, if_pos (by simpa using word)]
  have left : (es.filter fun p => !(c.group.members.map (·.name) ++
      c.group.members.map (·.key)).contains p.1).filter (fun p => p.1 != c.name) =
      es.filter fun p => !e.selectors.contains p.1 := by
    rw [List.filter_filter, selectors_eq hc]
    refine List.filter_congr fun p _ => ?_
    rw [Bool.eq_iff_iff]
    simp
    tauto
  unfold Group.resolve
  rw [drawn]
  dsimp only
  rw [Group.draw_arguments, kept, left]
  cases present? es c.name <;> rfl

end Choice

theorem left_arguments (once : ∀ m ∈ e.members, GivenOnce es m) :
    (readChoice e (arguments es)).2 =
      arguments (es.filter fun p => !e.selectors.contains p.1) := by
  unfold readChoice
  split
  · next hc => simp [Element.selectors, Element.members, hc, List.filter_eq_self.mpr]
  · next c hc => simp only [resolve_arguments hc once]

theorem mem_left (once : ∀ m ∈ e.members, GivenOnce es m) {k : String} :
    k ∈ (readChoice e (arguments es)).2.keys ↔ k ∈ es.keys ∧ k ∉ e.selectors := by
  rw [left_arguments once, keys_arguments,
    Keyed.mem_keys_filter fun k => !e.selectors.contains k]
  simp

theorem argument?_eq (es : Keyed Value) (f : Field) :
    argument? (arguments es) f = (fieldArg? es f).map fun p => (p.1, argOf p.2) := by
  unfold argument? fieldArg?
  rw [get?_arguments, get?_arguments]
  cases Keyed.get? es f.key with
  | some v => rfl
  | none => cases Keyed.get? es f.name <;> rfl

/-- A field is left the argument that it has among all. -/
theorem argument?_arguments (once : ∀ m ∈ e.members, GivenOnce es m) (hf : f ∈ e.fields) :
    argument? (readChoice e (arguments es)).2 f =
      (fieldArg? es f).map fun p => (p.1, argOf p.2) := by
  obtain ⟨key, name⟩ := Element.field_not_selector hf
  have look (k : String) (hk : k ∉ e.selectors) :
      Keyed.get? (es.filter fun p => !e.selectors.contains p.1) k = Keyed.get? es k := by
    rw [Keyed.get?_filter fun k => !e.selectors.contains k, if_pos (by simpa using hk)]
  rw [left_arguments once, argument?_eq, fieldArg?, look _ key, look _ name]
  rfl

/-! ### What arguments make -/

variable [reader]

/-- The selection among members of which some are given: the one that is, with what its value
becomes, or none where none is required. -/
def Chosen (g : Group) (given : Member → Option Value) (v : Value) : Prop :=
  let chosen := g.members.filter fun m => (given m).isSome
  (chosen.length ≤ 1 ∧ (g.required = true → chosen ≠ [])) ∧
    (chosen = [] ∧ v = .none ∨ ∃ m rest x w, chosen = m :: rest ∧ given m = some x ∧
      Group.misfit? m.kind x = none ∧ read x (.one m.kind) = .ok w ∧ v = .choice m.name w)

variable {reader}

theorem chosen_congr {g : Group} {given given' : Member → Option Value}
    (h : ∀ m ∈ g.members, given m = given' m) {v : Value} : Chosen g given v ↔ Chosen g given' v := by
  have same : (g.members.filter fun m => (given m).isSome) =
      g.members.filter fun m => (given' m).isSome :=
    List.filter_congr fun m hm => by rw [h m hm]
  unfold Chosen
  rw [same]
  dsimp only
  refine and_congr_right fun _ => or_congr_right ?_
  refine exists_congr fun m => exists_congr fun rest => exists_congr fun x => exists_congr fun w => ?_
  refine and_congr_right fun one => ?_
  have hm : m ∈ g.members := List.mem_of_mem_filter (one ▸ List.mem_cons_self)
  rw [h m hm]

variable [reader]

/-- A selection that is given under the field of the group, while no member is given by itself. -/
def Named (g : Group) (es : Keyed Value) (a v : Value) : Prop :=
  (∀ m ∈ g.members, memberArg? es m = none) ∧ ∃ t m w, tagged? a = some t ∧
    g.find t.member = .ok m ∧ Group.misfit? m.kind t.given.value = none ∧
    t.given.read m.kind = .ok w ∧ v = .choice m.name w

/-- What arguments make of a choice group. -/
def Resolves (c : ChoiceField) (es : Keyed Value) (v : Value) : Prop :=
  match present? es c.name with
  | some a => Named c.group es a v
  | none => Chosen c.group (memberArg? es) v

variable {reader}

theorem map_fst_pairs {α β : Type} (g : α → Option β) (l : List α) :
    (l.filterMap fun a => (g a).map fun b => (a, b)).map (·.1) =
      l.filter fun a => (g a).isSome := by
  induction l with
  | nil => rfl
  | cons a l ih => cases h : g a <;> simp [h, ih]

theorem map_fst_found (g : Group) (es : Keyed Value) :
    (found g es).map (·.1) = g.members.filter fun m => (memberArg? es m).isSome := by
  have pairs := map_fst_pairs (fun m => (memberArg? es m).map fun v => (argOf v).given) g.members
  simp only [Option.map_map, Option.isSome_map] at pairs
  exact pairs

theorem mem_found {g : Group} {p : Member × Given} (h : p ∈ found g es) :
    p.1 ∈ g.members ∧ ∃ v, memberArg? es p.1 = some v ∧ p.2 = (argOf v).given := by
  obtain ⟨m, hm, given⟩ := List.mem_filterMap.mp h
  obtain ⟨v, hv, rfl⟩ := Option.map_eq_some_iff.mp given
  exact ⟨hm, v, hv, rfl⟩

theorem chosenKeys_found (hc : e.choice = some c) : c.group.chosenKeys (found c.group es) =
    (c.group.members.filter fun m => (memberArg? es m).isSome).map (·.key) := by
  have any (m : Member) (hm : m ∈ c.group.members) :
      (found c.group es).any (·.1.key == m.key) = (memberArg? es m).isSome := by
    rw [Bool.eq_iff_iff, List.any_eq_true]
    constructor
    · rintro ⟨p, hp, same⟩
      obtain ⟨hp, v, hv, -⟩ := mem_found hp
      have one := List.inj_on_of_nodup_map (members_apart hc).keys hp hm (eq_of_beq same)
      rw [← one, hv]
      rfl
    · intro given
      obtain ⟨v, hv⟩ := Option.isSome_iff_exists.mp given
      refine ⟨(m, (argOf v).given), List.mem_filterMap.mpr ⟨m, hm, ?_⟩, beq_self_eq_true _⟩
      rw [hv]
      rfl
  rw [Group.chosenKeys, Group.keys, List.filter_map]
  congr 1
  exact List.filter_congr any

theorem resolveFound_found (hc : e.choice = some c) {v : Value} :
    (∃ r, c.group.resolveFound (found c.group es) = .ok r ∧ v = r.getD .none) ↔
      Chosen c.group (memberArg? es) v := by
  have keys := @chosenKeys_found reader c es e hc
  have firsts := @map_fst_found reader c.group es
  have source := @mem_found reader es c.group
  simp only [Group.resolveFound_eq_ok, keys, List.length_map, ne_eq, List.map_eq_nil_iff, Chosen]
  rw [← firsts]
  cases hl : found c.group es with
  | nil => simp
  | cons p rest =>
    obtain ⟨m, y⟩ := p
    obtain ⟨-, x, hx, same⟩ := @source (m, y) (hl ▸ List.mem_cons_self)
    cases same
    simp only [Group.choose_eq_ok, reduceCtorEq, false_and, false_or, List.map_cons]
    constructor
    · rintro ⟨_, ⟨count, _, _, _, h, ⟨fit, w, read, rfl⟩, rfl⟩, rfl⟩
      cases h
      exact ⟨count, m, _, x, w, rfl, hx, fit, read, rfl⟩
    · rintro ⟨count, m, _, x', w, h, hx', fit, read, rfl⟩
      cases h
      cases hx.symm.trans hx'
      exact ⟨_, ⟨count, _, _, _, rfl, ⟨fit, w, read, rfl⟩, rfl⟩, rfl⟩

theorem found_eq_nil {g : Group} :
    found g es = [] ↔ ∀ m ∈ g.members, memberArg? es m = none := by
  simp [found, List.filterMap_eq_nil_iff]

theorem resolveTagged_found {g : Group} {a v : Value} :
    g.resolveTagged (found g es) (argOf a) = .ok v ↔ Named g es a v := by
  unfold Group.resolveTagged Named
  rw [← @found_eq_nil reader]
  dsimp only
  cases tagged? a with
  | none => simp
  | some t =>
    dsimp only
    by_cases none : found g es = []
    · simp only [none, List.isEmpty_nil, Bool.not_true, Bool.false_eq_true, ↓reduceIte, true_and,
        Option.some.injEq, exists_and_left, exists_eq_left', Group.select, Except.bind_eq_ok,
        Group.choose_eq_ok]
    · have full : (!(found g es).isEmpty) = true := by simpa using none
      simp only [full, ↓reduceIte, none, false_and, iff_false, Except.bind_eq_ok, not_exists,
        not_and]
      rintro m -
      nofun

/-- A member that is given twice ends the selection. -/
theorem resolve_twice (hc : e.choice = some c) (twice : ¬ ∀ m ∈ e.members, GivenOnce es m) :
    ∃ m ∈ e.members, (c.group.resolve c.name (arguments es)).1 =
      .error (.message (.conflictingChoice c.group.name [m.key, m.key])) := by
  rw [Element.members_eq hc] at twice ⊢
  simp only [not_forall, exists_prop] at twice
  obtain ⟨m, hm, conflict⟩ := @Group.candidates_twice reader c.group _ es (members_apart hc) twice
  refine ⟨m, hm, ?_⟩
  unfold Group.resolve
  generalize c.group.candidates c.group.members (arguments es) = drawn at conflict
  obtain ⟨_, left⟩ := drawn
  cases conflict
  rfl

theorem resolves_iff (hc : e.choice = some c) {v : Value} :
    (∃ r, (c.group.resolve c.name (arguments es)).1 = .ok r ∧ v = r.getD .none) ↔
      (∀ m ∈ e.members, GivenOnce es m) ∧ Resolves c es v := by
  by_cases once : ∀ m ∈ e.members, GivenOnce es m
  · rw [resolve_arguments hc once, Resolves, and_iff_right once]
    cases present? es c.name with
    | none => exact resolveFound_found hc
    | some a =>
      simp only [Except.map_eq_ok, resolveTagged_found]
      constructor
      · rintro ⟨_, ⟨w, named, rfl⟩, rfl⟩
        exact named
      · exact fun named => ⟨_, ⟨v, named, rfl⟩, rfl⟩
  · obtain ⟨m, -, conflict⟩ := resolve_twice hc once
    refine ⟨fun ⟨r, resolved, _⟩ => ?_, fun h => absurd h.1 once⟩
    rw [conflict] at resolved
    cases resolved

/-- What arguments make of an element is told by what its fields and its choice group have of
them: no argument may be left over, and no member may be given twice. -/
theorem build_eq_ok {v : Value} : e.build es = .ok v ↔ ∃ fs, v = .element e fs ∧
    Keyed.keys fs = e.slots.map (·.1) ∧
    (∀ f ∈ e.fields,
      Takes f ((fieldArg? es f).map (argOf ·.2)) ((Value.element e fs).field f.name)) ∧
    (∀ m ∈ e.members, GivenOnce es m) ∧
    (∀ c, e.choice = some c → Resolves c es ((Value.element e fs).field c.name)) ∧
    (∀ k ∈ es.keys, k ∈ e.selectors ∨ ∃ f ∈ e.fields, (fieldArg? es f).map (·.1) = some k) ∧
    Rule.broken? e (.element e fs) = none := by
  rw [Element.build, assemble_eq_ok (grounded_arguments es)]
  refine exists_congr fun fs => and_congr_right fun _ => ?_
  have resolved (once : ∀ m ∈ e.members, GivenOnce es m) :
      (∀ f ∈ e.fields, (argument? (readChoice e (arguments es)).2 f).map (·.2) =
          (fieldArg? es f).map (argOf ·.2)) ∧
        ((∀ k ∈ (readChoice e (arguments es)).2.keys, ∃ f ∈ e.fields,
            (argument? (readChoice e (arguments es)).2 f).map (·.1) = some k) ↔
          ∀ k ∈ es.keys, k ∈ e.selectors ∨
            ∃ f ∈ e.fields, (fieldArg? es f).map (·.1) = some k) := by
    have look (f : Field) (hf : f ∈ e.fields) :
        argument? (readChoice e (arguments es)).2 f =
          (fieldArg? es f).map fun p => (p.1, argOf p.2) := argument?_arguments once hf
    refine ⟨fun f hf => ?_, ?_⟩
    · rw [look f hf, Option.map_map]
      rfl
    · have word (k : String) : (∃ f ∈ e.fields,
          (argument? (readChoice e (arguments es)).2 f).map (·.1) = some k) ↔
            ∃ f ∈ e.fields, (fieldArg? es f).map (·.1) = some k := by
        refine exists_congr fun f => and_congr_right fun hf => ?_
        rw [look f hf, Option.map_map]
        rfl
      simp only [word, mem_left once, and_imp, or_iff_not_imp_left]
  constructor
  · intro made
    have once : ∀ m ∈ e.members, GivenOnce es m := by
      intro m hm
      cases hc : e.choice with
      | none => simp [Element.members, hc] at hm
      | some c => exact ((resolves_iff hc).mp (made.choice c hc)).1 m hm
    obtain ⟨same, taken⟩ := resolved once
    exact ⟨made.names, fun f hf => same f hf ▸ made.field f hf, once,
      fun c hc => ((resolves_iff hc).mp (made.choice c hc)).2, taken.mp made.taken, made.rule⟩
  · rintro ⟨names, fields, once, choice, all, rule⟩
    obtain ⟨same, taken⟩ := resolved once
    exact ⟨names, fun f hf => (same f hf).symm ▸ fields f hf,
      fun c hc => (resolves_iff hc).mpr ⟨once, choice c hc⟩, taken.mpr all, rule⟩

/-- A field that is not left absent holds what its argument is read as. -/
theorem read_of_built (hf : f ∈ e.fields) {x v : Value} (given : fieldArg? es f = some (k, x))
    (there : ¬ leavesAbsent f x = true) (built : e.build es = .ok v) :
    read x f.shape = .ok (v.field f.name) := by
  obtain ⟨fs, rfl, -, takes, -⟩ := build_eq_ok.mp built
  have takes := takes f hf
  rw [given] at takes
  exact (if_neg there).mp takes

end Build

end V2G
