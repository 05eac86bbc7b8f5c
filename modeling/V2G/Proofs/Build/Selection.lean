import Mathlib.Data.List.Basic
import V2G.Build.Selection
import V2G.Proofs.Keyed
import V2G.Proofs.Outcome

/-!
# How selections come about

A selection that arguments make is the value of a member of the group: of one given by itself
under its name or key, or of one given together with its name. No selection is made only where
none is required (`selecting_of_resolve`).
-/

namespace V2G

/-- What arguments make of a choice group. -/
inductive Selecting (c : ChoiceField) (args : Keyed Arg) : Value → Prop where
  | none : c.group.required = false → Selecting c args .none
  | member {k : String} {a : Arg} {m : Member} {v : Value} : (k, a) ∈ args → m ∈ c.group.members →
      k = m.name ∨ k = m.key → Group.misfit? m.kind a.value = Option.none →
      a.read (.one m.kind) = .ok v → Selecting c args (.choice m.name v)
  | tagged {a : Arg} {t : Tagged} {m : Member} {v : Value} : (c.name, a) ∈ args →
      a.tagged? = some t → m ∈ c.group.members → t.member.text? = some m.name →
      Group.misfit? m.kind t.given.value = Option.none → t.given.read m.kind = .ok v →
      Selecting c args (.choice m.name v)

namespace Group

variable {g : Group} {args : Keyed Arg}

theorem mem_of_find {name : Value} {m : Member} (h : g.find name = .ok m) :
    m ∈ g.members ∧ name.text? = some m.name := by
  unfold find at h
  split at h
  · cases h
  · split at h
    · next hm =>
      cases h
      obtain ⟨s, text, hs⟩ := Option.bind_eq_some_iff.mp hm
      refine ⟨List.mem_of_find?_eq_some hs, ?_⟩
      have named := List.find?_some (show g.members.find? (·.name == s) = some m from hs)
      rw [text, eq_of_beq named]
    · cases h

theorem choose_eq_ok {m : Member} {x : Given} {w : Value} :
    choose m x = .ok w ↔ misfit? m.kind x.value = none ∧ ∃ v, x.read m.kind = .ok v ∧
      w = .choice m.name v := by
  unfold choose
  cases misfit? m.kind x.value with
  | some e => simp
  | none => rcases x.read m.kind with (_ | _ | _) | v <;> simp [eq_comm]

theorem mem_of_draw {name : String} {a : Arg} (h : (draw args name).1 = some a) :
    (name, a) ∈ args ∧ a.value.isNone = false := by
  obtain ⟨there, given⟩ := Option.filter_eq_some_iff.mp h
  exact ⟨Keyed.mem_of_get? there, by simpa using given⟩

theorem draw_sublist (name : String) : (draw args name).2.Sublist args := List.filter_sublist

/-! ### Where members and values come from -/

theorem mem_of_candidates {ms : List Member} {found : List (Member × Given)}
    (h : (g.candidates ms args).1 = .ok found) :
    ∀ p ∈ found, p.1 ∈ ms ∧
      ∃ k a, (k, a) ∈ args ∧ (k = p.1.name ∨ k = p.1.key) ∧ a.value.isNone = false ∧
        p.2 = a.given := by
  induction ms generalizing args found with
  | nil => cases h; simp
  | cons m ms ih =>
    simp only [candidates] at h
    split at h
    · cases h
    · obtain ⟨rest, hr, rfl⟩ := Except.map_eq_ok.mp h
      intro p hp
      rcases List.mem_append.mp hp with hp | hp
      · obtain ⟨a, ha, rfl⟩ := Option.map_eq_some_iff.mp (Option.mem_toList.mp hp)
        refine ⟨List.mem_cons_self, ?_⟩
        rcases Option.or_eq_some_iff.mp ha with ha | ⟨-, ha⟩
        · obtain ⟨there, given⟩ := mem_of_draw ha
          exact ⟨m.name, a, there, .inl rfl, given, rfl⟩
        · obtain ⟨there, given⟩ := mem_of_draw ha
          exact ⟨m.key, a, (draw_sublist _).subset there, .inr rfl, given, rfl⟩
      · obtain ⟨hm, k, a, ha, hk, e⟩ := ih hr p hp
        have sub : (draw (draw args m.name).2 m.key).2.Sublist args :=
          (draw_sublist m.key).trans (draw_sublist m.name)
        exact ⟨List.mem_cons_of_mem _ hm, k, a, sub.subset ha, hk, e⟩

theorem candidates_sublist (ms : List Member) : (g.candidates ms args).2.Sublist args := by
  induction ms generalizing args with
  | nil => exact List.Sublist.refl _
  | cons m ms ih =>
    have sub : (draw (draw args m.name).2 m.key).2.Sublist args :=
      (draw_sublist m.key).trans (draw_sublist m.name)
    simp only [candidates]
    split
    · exact sub
    · exact ih.trans sub

theorem resolve_sublist (field : String) : (g.resolve field args).2.Sublist args := by
  have sub : (g.candidates g.members args).2.Sublist args := candidates_sublist g.members
  unfold resolve
  generalize g.candidates g.members args = drawn at sub
  obtain ⟨_ | found, rest⟩ := drawn
  · exact sub
  · have sub' : (draw rest field).2.Sublist args := (draw_sublist field).trans sub
    simp only
    split <;> next hd => exact (congrArg Prod.snd hd : _ = _) ▸ sub'

theorem oneSet_eq_ok {name : String} {options chosen : List String} {isSet : String → Bool}
    {required : Bool} :
    oneSet name options isSet true required = .ok chosen ↔ chosen = options.filter isSet ∧
      chosen.length ≤ 1 ∧ (required = true → chosen ≠ []) := by
  simp only [oneSet, Bool.true_and, decide_eq_true_eq]
  split
  · next many =>
    simp only [reduceCtorEq, false_iff]
    rintro ⟨rfl, one, -⟩
    omega
  · next few =>
    split
    · next missing =>
      simp only [Bool.and_eq_true, List.isEmpty_iff] at missing
      simp only [reduceCtorEq, false_iff]
      rintro ⟨rfl, -, some⟩
      exact some missing.1 missing.2
    · next given =>
      simp only [Bool.and_eq_true, List.isEmpty_iff, not_and] at given
      simp only [Except.ok.injEq]
      constructor
      · rintro rfl
        exact ⟨rfl, Nat.not_lt.mp few, given⟩
      · exact fun h => h.1.symm

/-- The keys of the members that are given by themselves. -/
def chosenKeys (g : Group) (found : List (Member × Given)) : List String :=
  g.keys.filter fun k => found.any (·.1.key == k)

theorem resolveFound_eq_ok {found : List (Member × Given)} {r : Option Value} :
    g.resolveFound found = .ok r ↔ ((g.chosenKeys found).length ≤ 1 ∧
      (g.required = true → g.chosenKeys found ≠ [])) ∧
        (found = [] ∧ r = none ∨
          ∃ p rest w, found = p :: rest ∧ choose p.1 p.2 = .ok w ∧ r = some w) := by
  simp only [resolveFound, Except.bind_eq_ok, Except.mapError_eq_ok, oneSet_eq_ok]
  constructor
  · rintro ⟨_, ⟨rfl, count⟩, h⟩
    refine ⟨count, ?_⟩
    cases found with
    | nil => cases h; exact .inl ⟨rfl, rfl⟩
    | cons p rest =>
      obtain ⟨w, hw, e⟩ := Except.bind_eq_ok.mp h
      cases e
      exact .inr ⟨p, rest, w, rfl, hw, rfl⟩
  · rintro ⟨count, ⟨rfl, rfl⟩ | ⟨p, rest, w, rfl, hw, rfl⟩⟩
    · exact ⟨_, ⟨rfl, count⟩, rfl⟩
    · exact ⟨_, ⟨rfl, count⟩, Except.bind_eq_ok.mpr ⟨w, hw, rfl⟩⟩

theorem selecting_of_tagged {c : ChoiceField} {found : List (Member × Given)} {a : Arg} {w : Value}
    (ha : (c.name, a) ∈ args) (h : c.group.resolveTagged found a = .ok w) : Selecting c args w := by
  unfold resolveTagged at h
  split at h
  · cases h
  · next t ht =>
    by_cases none : found.isEmpty = true
    · simp only [none, Bool.not_true, Bool.false_eq_true, ↓reduceIte] at h
      obtain ⟨m, hm, h⟩ := Except.bind_eq_ok.mp h
      obtain ⟨fit, v, hv, rfl⟩ := choose_eq_ok.mp h
      exact .tagged ha ht (mem_of_find hm).1 (mem_of_find hm).2 fit hv
    · simp only [none, Bool.not_false, ↓reduceIte] at h
      obtain ⟨m, -, h⟩ := Except.bind_eq_ok.mp h
      cases h

theorem selecting_of_resolve {c : ChoiceField} {r : Option Value}
    (h : (c.group.resolve c.name args).1 = .ok r) : Selecting c args (r.getD .none) := by
  have source := @mem_of_candidates c.group args c.group.members
  have sub : (c.group.candidates c.group.members args).2.Sublist args :=
    candidates_sublist c.group.members
  unfold resolve at h
  generalize c.group.candidates c.group.members args = drawn at source sub h
  obtain ⟨_ | found, rest⟩ := drawn
  · cases h
  simp only at h
  split at h
  · next a _ hd =>
    have ha := sub.subset (mem_of_draw (congrArg Prod.fst hd)).1
    obtain ⟨w, hw, rfl⟩ := Except.map_eq_ok.mp h
    exact selecting_of_tagged ha hw
  · obtain ⟨⟨-, some⟩, ⟨rfl, rfl⟩ | ⟨⟨m, x⟩, more, w, rfl, hw, rfl⟩⟩ := resolveFound_eq_ok.mp h
    · refine .none ?_
      by_cases required : c.group.required = true
      · exact absurd (by simp [chosenKeys]) (some required)
      · exact Bool.eq_false_iff.mpr required
    · obtain ⟨hm, k, a, ha, hk, -, rfl⟩ := source rfl _ List.mem_cons_self
      obtain ⟨fit, v, hv, rfl⟩ := choose_eq_ok.mp hw
      exact .member ha hm hk fit hv

end Group

end V2G
