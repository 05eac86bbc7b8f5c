import V2G.Proofs.Build.Conform
import V2G.Proofs.Build.Lookup

/-!
# How often a choice is made

A choice group counts the arguments that speak of it: its members, each under its name or its key,
and the selection under its field. Of none it makes no selection, or complains if one is required;
of one it makes what that argument says; of more it makes a conflict, whatever their values are.
Each member is drawn from what the members before it left, so the count is carried along the
members (`givenUnder_member`). Main statement: `resolve_cardinality`.
-/

namespace V2G

theorem filter_mem_of_sublist {α : Type} [BEq α] [LawfulBEq α] {xs ys : List α}
    (sub : xs.Sublist ys) (nodup : ys.Nodup) : (ys.filter fun y => xs.contains y) = xs := by
  induction sub with
  | slnil => rfl
  | @cons xs ys y sub ih =>
    obtain ⟨fresh, nodup⟩ := List.nodup_cons.mp nodup
    have : xs.contains y = false := by simpa using fun there => fresh (sub.subset there)
    rw [List.filter_cons, this, if_neg Bool.false_ne_true, ih nodup]
  | @cons_cons xs ys y sub ih =>
    obtain ⟨fresh, nodup⟩ := List.nodup_cons.mp nodup
    have rest : (ys.filter fun z => (y :: xs).contains z) = ys.filter fun z => xs.contains z := by
      refine List.filter_congr fun z hz => ?_
      have : z ≠ y := fun same => fresh (same ▸ hz)
      simp [this]
    rw [List.filter_cons, List.contains_cons, beq_self_eq_true, Bool.true_or, if_pos rfl, rest,
      ih nodup]

theorem Keyed.countP_key {α : Type} {m : Keyed α} (nodup : m.keys.Nodup) (k : String)
    (q : α → Bool) :
    m.countP (fun p => p.1 == k && q p.2) = ((Keyed.get? m k).filter q).isSome.toNat := by
  induction m with
  | nil => rfl
  | cons entry m ih =>
    obtain ⟨j, v⟩ := entry
    obtain ⟨fresh, nodup⟩ := List.nodup_cons.mp nodup
    rw [List.countP_cons, ih nodup]
    by_cases same : j = k
    · subst same
      rw [Keyed.get?_eq_none_iff.mpr fresh]
      cases hq : q v <;> simp [Keyed.get?, hq, Option.filter]
    · simp [Keyed.get?, same]

namespace Group

open Build

variable {g : Group} {args : Keyed Arg} {ms : List Member}

/-! ### Counting arguments -/

/-- How many arguments that are not absent stand under some words. -/
def givenUnder (ks : List String) (args : Keyed Arg) : Nat :=
  args.countP fun p => ks.contains p.1 && !p.2.value.isNone

/-- The words that members go by. -/
def words (ms : List Member) : List String := ms.flatMap fun m => [m.name, m.key]

theorem words_cons (m : Member) (ms : List Member) :
    words (m :: ms) = m.name :: m.key :: words ms := rfl

theorem givenUnder_append (ks ks' : List String) (args : Keyed Arg) :
    givenUnder (ks ++ ks') args =
      givenUnder ks args + givenUnder ks' (args.filter fun p => !ks.contains p.1) := by
  unfold givenUnder
  rw [List.countP_eq_countP_filter_add args _ fun p => ks.contains p.1]
  congr 1
  · rw [List.countP_filter]
    refine List.countP_congr fun p _ => ?_
    simp
    tauto
  · rw [List.countP_filter, List.countP_filter]
    refine List.countP_congr fun p _ => ?_
    simp
    tauto

theorem givenUnder_word (dict : args.keys.Nodup) (k : String) :
    givenUnder [k] args = (draw args k).1.isSome.toNat := by
  rw [draw, ← Keyed.countP_key dict]
  exact List.countP_congr fun p _ => by simp

theorem draw_nodup (dict : args.keys.Nodup) (k : String) : (draw args k).2.keys.Nodup :=
  dict.sublist (List.filter_sublist.map _)

theorem filter_word (k : String) : (args.filter fun p => !([k].contains p.1)) = (draw args k).2 :=
  List.filter_congr fun p _ => by rw [Bool.eq_iff_iff]; simp

/-- A member is counted, and then the others among what it left. -/
theorem givenUnder_member (dict : args.keys.Nodup) (m : Member) (ks : List String) :
    givenUnder (m.name :: m.key :: ks) args = (draw args m.name).1.isSome.toNat +
      (draw (draw args m.name).2 m.key).1.isSome.toNat +
        givenUnder ks (draw (draw args m.name).2 m.key).2 := by
  have name := givenUnder_append [m.name] (m.key :: ks) args
  have key := givenUnder_append [m.key] ks (draw args m.name).2
  rw [filter_word, givenUnder_word dict] at name
  rw [filter_word, givenUnder_word (draw_nodup dict m.name)] at key
  rw [List.singleton_append] at name key
  rw [name, key, Nat.add_assoc]

/-! ### Members given by themselves -/

/-- Drawing the members stops at one that is given twice. -/
theorem candidates_error (dict : args.keys.Nodup) {e : MessageError}
    (h : (g.candidates ms args).1 = .error e) :
    (∃ m ∈ ms, e = .conflictingChoice g.name [m.key, m.key]) ∧
      2 ≤ givenUnder (words ms) args := by
  induction ms generalizing args with
  | nil => cases h
  | cons m ms ih =>
    rw [words_cons, givenUnder_member dict]
    simp only [candidates] at h
    split at h
    · next both =>
      cases h
      obtain ⟨name, key⟩ := Bool.and_eq_true_iff.mp both
      rw [name, key]
      exact ⟨⟨m, List.mem_cons_self, rfl⟩, Nat.le_add_right _ _⟩
    · have rest := Except.map_eq_error.mp h
      obtain ⟨⟨m', hm', conflict⟩, two⟩ := ih (draw_nodup (draw_nodup dict m.name) m.key) rest
      exact ⟨⟨m', List.mem_cons_of_mem _ hm', conflict⟩, Nat.le_trans two (Nat.le_add_left _ _)⟩

theorem length_or {α β : Type} {a b : Option α} (single : ¬ (a.isSome && b.isSome) = true)
    (f : α → β) : ((a.or b).map f).toList.length = a.isSome.toNat + b.isSome.toNat := by
  cases a <;> cases b <;> simp_all

/-- Otherwise as many members are found as arguments stand under their words, in the order of the
members, and these arguments are used up. -/
theorem candidates_ok (dict : args.keys.Nodup) {found : List (Member × Given)}
    (h : (g.candidates ms args).1 = .ok found) :
    found.length = givenUnder (words ms) args ∧ (found.map (·.1)).Sublist ms ∧
      (g.candidates ms args).2 = args.filter fun p => !(words ms).contains p.1 := by
  induction ms generalizing args found with
  | nil =>
    cases h
    exact ⟨by simp [words, givenUnder], .slnil, by simp [words, candidates]⟩
  | cons m ms ih =>
    rw [words_cons, givenUnder_member dict]
    simp only [candidates] at h ⊢
    split at h
    · cases h
    · next single =>
      obtain ⟨others, rest, rfl⟩ := Except.map_eq_ok.mp h
      obtain ⟨count, sub, left⟩ := ih (draw_nodup (draw_nodup dict m.name) m.key) rest
      rw [if_neg single]
      refine ⟨?_, ?_, ?_⟩
      · rw [List.length_append, length_or single, count]
      · rw [List.map_append]
        cases (draw args m.name).1.or (draw (draw args m.name).2 m.key).1 with
        | none => exact sub.cons m
        | some a => exact sub.cons_cons m
      · refine left.trans ?_
        simp only [draw, Keyed.erase, List.filter_filter]
        refine List.filter_congr fun p _ => ?_
        rw [Bool.eq_iff_iff]
        simp
        tauto

/-- Whatever comes of the members, other arguments stay as they are. -/
theorem get?_candidates {k : String} (h : k ∉ words ms) :
    Keyed.get? (g.candidates ms args).2 k = Keyed.get? args k := by
  induction ms generalizing args with
  | nil => rfl
  | cons m ms ih =>
    rw [words_cons, List.mem_cons, List.mem_cons, not_or, not_or] at h
    obtain ⟨name, key, others⟩ := h
    have drawn : Keyed.get? (draw (draw args m.name).2 m.key).2 k = Keyed.get? args k := by
      rw [draw, Keyed.get?_erase_of_ne (Ne.symm key), draw, Keyed.get?_erase_of_ne (Ne.symm name)]
    simp only [candidates]
    split
    · exact drawn
    · exact (ih others).trans drawn

/-! ### From the members to the selection -/

/-- What members that are given by themselves make of a group, by how many they are. -/
def madeOf (g : Group) : List (Member × Given) → Except Objection (Option Value)
  | [] => if g.required then .error (.message (.missingChoice g.name g.keys)) else .ok none
  | [(m, x)] => (choose m x).map some
  | found => .error (.message (.conflictingChoice g.name (found.map (·.1.key))))

section Found

variable {found : List (Member × Given)} (keys : g.keys.Nodup)
  (sub : (found.map (·.1)).Sublist g.members)
include keys sub

theorem chosenKeys_eq : g.chosenKeys found = found.map (·.1.key) := by
  have sub' : (found.map (·.1.key)).Sublist g.keys := by
    have := sub.map Member.key
    rwa [List.map_map] at this
  rw [← filter_mem_of_sublist sub' keys, chosenKeys]
  refine List.filter_congr fun k _ => ?_
  rw [Bool.eq_iff_iff]
  simp

theorem resolveFound_eq : g.resolveFound found = g.madeOf found := by
  have chosen : (g.keys.filter fun k => found.any (·.1.key == k)) = found.map (·.1.key) :=
    chosenKeys_eq keys sub
  unfold resolveFound oneSet
  rw [chosen]
  match found with
  | [] => cases required : g.required <;> simp [madeOf, required]
  | [(m, x)] => cases g.required <;> cases made : choose m x <;> simp only [madeOf, made] <;> rfl
  | p :: q :: rest => rfl

end Found

/-- A selection that names a member is made if no member is given by itself. -/
theorem resolveTagged_eq (names : g.names.Nodup) {m : Member} (hm : m ∈ g.members) {a : Arg}
    {t : Tagged} (spells : a.tagged? = some t) (named : t.member.text? = some m.name)
    (found : List (Member × Given)) : g.resolveTagged found a =
      if found.isEmpty then choose m t.given
      else .error (.message (.conflictingChoice g.name (m.key :: found.map (·.1.key)))) := by
  unfold resolveTagged select
  rw [spells]
  simp only [find_of_named names hm named]
  cases found <;> rfl

/-! ### Arguments that speak of a group -/

/-- The words that speak of a group: those of its members, and its field. -/
def selectors (g : Group) (field : String) : List String := g.names ++ g.keys ++ [field]

/-- How many arguments that are not absent speak of a group. -/
def spoken (g : Group) (field : String) (es : Keyed Value) : Nat :=
  es.countP fun p => (g.selectors field).contains p.1 && !p.2.isNone

section

variable [reader : Url.Reader]

/-- An argument gives a member a value: by itself under the member's name or key, or together with
the member's name under the field of the group. -/
inductive Gives (g : Group) (field : String) (es : Keyed Value) : Member → Value → Prop where
  | member {m : Member} {k : String} {x : Value} : m ∈ g.members → k = m.name ∨ k = m.key →
      (k, x) ∈ es → x.isNone = false → Gives g field es m x
  | tagged {m : Member} {a : Value} {t : Tagged} : m ∈ g.members → (field, a) ∈ es →
      tagged? a = some t → t.member.text? = some m.name → Gives g field es m t.given.value

/-- The selection under the field of a group, if there is one, names a member. -/
def Spells (g : Group) (field : String) (es : Keyed Value) : Prop :=
  ∀ a, (field, a) ∈ es → a.isNone = false →
    ∃ t, tagged? a = some t ∧ ∃ m ∈ g.members, t.member.text? = some m.name

variable {reader}

theorem mem_words {k : String} : k ∈ words g.members ↔ k ∈ g.names ∨ k ∈ g.keys := by
  simp only [words, names, Group.keys, List.mem_flatMap, List.mem_map, List.mem_cons,
    List.not_mem_nil, or_false]
  constructor
  · rintro ⟨m, hm, rfl | rfl⟩
    · exact .inl ⟨m, hm, rfl⟩
    · exact .inr ⟨m, hm, rfl⟩
  · rintro (⟨m, hm, rfl⟩ | ⟨m, hm, rfl⟩)
    · exact ⟨m, hm, .inl rfl⟩
    · exact ⟨m, hm, .inr rfl⟩

theorem mem_selectors {k field : String} :
    k ∈ g.selectors field ↔ k ∈ words g.members ∨ k = field := by
  rw [mem_words, selectors, List.mem_append, List.mem_append, List.mem_singleton]

variable {field : String} {es : Keyed Value}

theorem spoken_eq (g : Group) (field : String) (es : Keyed Value) :
    g.spoken field es = givenUnder (words g.members ++ [field]) (arguments es) := by
  rw [spoken, givenUnder, arguments_eq, List.countP_map]
  refine List.countP_congr fun p _ => ?_
  simp only [Function.comp, Bool.and_eq_true, List.contains_iff_mem, mem_selectors,
    List.mem_append, List.mem_singleton]

/-- The arguments that do not speak of a group. -/
def others (g : Group) (field : String) (es : Keyed Value) : Keyed Value :=
  es.filter fun p => !(g.selectors field).contains p.1

variable [reader]

/-- What the arguments that speak of a group are: a member is given twice, or members are found by
themselves, each once, and a selection may stand under the field as well. -/
inductive Drawn (g : Group) (field : String) (es : Keyed Value) : Prop where
  | twice (m : Member) : m ∈ g.members → 2 ≤ g.spoken field es →
      (g.resolve field (arguments es)).1 =
        .error (.message (.conflictingChoice g.name [m.key, m.key])) → Drawn g field es
  | alone (found : List (Member × Given)) : (found.map (·.1)).Sublist g.members →
      (∀ p ∈ found, ∃ x, Gives g field es p.1 x ∧ p.2 = (argOf x).given) →
      g.spoken field es = found.length →
      g.resolve field (arguments es) = (g.resolveFound found, arguments (g.others field es)) →
      Drawn g field es
  | tagged (found : List (Member × Given)) (a : Value) : (found.map (·.1)).Sublist g.members →
      (field, a) ∈ es → a.isNone = false → g.spoken field es = found.length + 1 →
      g.resolve field (arguments es) =
        ((g.resolveTagged found (argOf a)).map some, arguments (g.others field es)) →
      Drawn g field es

variable {reader}

theorem drawn (dict : es.keys.Nodup) (apart : field ∉ words g.members) : g.Drawn field es := by
  have dict' : (arguments es).keys.Nodup := keys_arguments es ▸ dict
  have counted := @spoken_eq reader g field es
  rw [givenUnder_append] at counted
  cases result : (g.candidates g.members (arguments es)).1 with
  | error e =>
    obtain ⟨⟨m, hm, rfl⟩, two⟩ := candidates_error dict' result
    refine .twice m hm (counted ▸ Nat.le_add_right_of_le two) ?_
    unfold resolve
    generalize g.candidates g.members (arguments es) = pair at result
    obtain ⟨_, left⟩ := pair
    cases result
    rfl
  | ok found =>
    obtain ⟨count, sub, left⟩ := candidates_ok dict' result
    have rest : ((arguments es).filter fun p => !(words g.members).contains p.1) =
        arguments (es.filter fun p => !(words g.members).contains p.1) :=
      (arguments_filter (fun k => !(words g.members).contains k) es).symm
    have pair : g.candidates g.members (arguments es) =
        (.ok found, arguments (es.filter fun p => !(words g.members).contains p.1)) :=
      Prod.ext result (left.trans rest)
    have last : draw (arguments (es.filter fun p => !(words g.members).contains p.1)) field =
        ((present? es field).map argOf, arguments (g.others field es)) := by
      rw [draw_arguments, present?_filter fun k => !(words g.members).contains k,
        if_pos (by simpa using apart), List.filter_filter, Group.others]
      refine congrArg _ (congrArg arguments (List.filter_congr fun p _ => ?_))
      rw [Bool.eq_iff_iff]
      simp [mem_selectors]
      tauto
    have nodup : (arguments (es.filter fun p => !(words g.members).contains p.1)).keys.Nodup :=
      rest ▸ dict'.sublist (List.filter_sublist.map _)
    rw [← count, rest, givenUnder_word nodup, last, Option.isSome_map] at counted
    have resolved : g.resolve field (arguments es) =
        ((present? es field).elim (g.resolveFound found) fun a =>
          (g.resolveTagged found (argOf a)).map some, arguments (g.others field es)) := by
      unfold resolve
      rw [pair]
      dsimp only
      rw [last]
      cases present? es field <;> rfl
    cases under : present? es field with
    | none =>
      rw [under] at counted resolved
      refine .alone found sub (fun p hp => ?_) counted resolved
      obtain ⟨hm, k, a, ha, hk, given, value⟩ := mem_of_candidates result p hp
      obtain ⟨x, hx, rfl⟩ := mem_arguments ha
      exact ⟨x, .member hm hk hx given, value⟩
    | some a =>
      rw [under] at counted resolved
      obtain ⟨there, given⟩ := mem_of_present? under
      exact .tagged found a sub there given counted resolved

/-- Arguments that do not speak of a group stay as they are, whatever comes of it. -/
theorem get?_resolve {k : String} (other : k ∉ g.selectors field) :
    Keyed.get? (g.resolve field args).2 k = Keyed.get? args k := by
  rw [mem_selectors, not_or] at other
  obtain ⟨word, ne⟩ := other
  have kept : Keyed.get? (g.candidates g.members args).2 k = Keyed.get? args k :=
    get?_candidates word
  have drawn (rest : Keyed Arg) : Keyed.get? (draw rest field).2 k = Keyed.get? rest k :=
    Keyed.get?_erase_of_ne (Ne.symm ne)
  unfold resolve
  generalize g.candidates g.members args = pair at kept
  obtain ⟨_ | found, left⟩ := pair
  · exact kept
  · dsimp only
    have last := drawn left
    split <;> next taken => exact (taken ▸ last).trans kept

/-! ### The outcome by the number of arguments -/

section Number

variable (names : g.names.Nodup) (keys : g.keys.Nodup) (word : field ∉ words g.members)
  (dict : es.keys.Nodup) (spelled : g.Spells field es)

include keys word dict in
theorem resolve_of_none (unspoken : g.spoken field es = 0) :
    (g.resolve field (arguments es)).1 =
      if g.required then .error (.message (.missingChoice g.name g.keys)) else .ok none := by
  cases drawn dict word with
  | twice m hm two result => omega
  | alone found sub source count result =>
    obtain rfl : found = [] := List.length_eq_zero_iff.mp (count ▸ unspoken)
    rw [result, resolveFound_eq keys sub]
    rfl
  | tagged found a sub ha given count result => omega

include names keys word dict spelled

theorem resolve_of_one (one : g.spoken field es = 1) : ∃ m x, g.Gives field es m x ∧
    (g.resolve field (arguments es)).1 = (g.select (.text m.name) (argOf x).given).map some := by
  have select {m : Member} (hm : m ∈ g.members) (x : Given) :
      g.select (.text m.name) x = choose m x := by
    rw [select, find_of_named names hm rfl]
    rfl
  cases drawn dict word with
  | twice m hm two result => omega
  | alone found sub source count result =>
    obtain ⟨⟨m, y⟩, rfl⟩ := List.length_eq_one_iff.mp (count ▸ one)
    obtain ⟨x, gives, rfl⟩ := source _ List.mem_cons_self
    refine ⟨m, x, gives, ?_⟩
    rw [result, resolveFound_eq keys sub, select (sub.subset List.mem_cons_self)]
    rfl
  | tagged found a sub ha given count result =>
    obtain rfl : found = [] := List.length_eq_zero_iff.mp (by omega)
    obtain ⟨t, spells, m, hm, named⟩ := spelled a ha given
    refine ⟨m, t.given.value, .tagged hm ha spells named, ?_⟩
    have within : (argOf t.given.value).given = t.given := by
      rw [Arg.given, ← (tagged?_child spells).2]
    rw [result, resolveTagged_eq names hm spells named, select hm, within]
    rfl

theorem resolve_of_several (several : 2 ≤ g.spoken field es) :
    ∃ conflicting ⊆ g.keys, 2 ≤ conflicting.length ∧ (g.resolve field (arguments es)).1 =
      .error (.message (.conflictingChoice g.name conflicting)) := by
  have known {found : List (Member × Given)} (sub : (found.map (·.1)).Sublist g.members) :
      found.map (·.1.key) ⊆ g.keys := by
    have := (sub.map Member.key).subset
    rwa [List.map_map] at this
  have key {m : Member} (hm : m ∈ g.members) : m.key ∈ g.keys := List.mem_map_of_mem hm
  cases drawn dict word with
  | twice m hm two result => exact ⟨[m.key, m.key], by simpa using key hm, Nat.le_refl 2, result⟩
  | alone found sub source count result =>
    refine ⟨found.map (·.1.key), known sub, by rw [List.length_map]; omega, ?_⟩
    rw [result, resolveFound_eq keys sub]
    match found, count ▸ several with
    | p :: q :: rest, _ => rfl
  | tagged found a sub ha given count result =>
    obtain ⟨t, spells, m, hm, named⟩ := spelled a ha given
    refine ⟨m.key :: found.map (·.1.key), List.cons_subset.mpr ⟨key hm, known sub⟩, ?_, ?_⟩
    · rw [List.length_cons, List.length_map]
      omega
    · rw [result, resolveTagged_eq names hm spells named]
      match found, Nat.le_of_succ_le_succ (count ▸ several) with
      | p :: rest, _ => rfl

end Number

/-- What a choice group makes of arguments is told by how many of them speak of it. Of none it
makes no selection, unless one is required. Of one it makes what selecting the member with the
value makes, also where that ends with an error. Of more it makes a conflict of the group. Where
it succeeds, the arguments that speak of the group are used up, and whatever comes out, all others
stay. -/
theorem resolve_cardinality (names : g.names.Nodup) (keys : g.keys.Nodup)
    (apart : field ∉ g.names ∧ field ∉ g.keys) (dict : es.keys.Nodup)
    (spelled : g.Spells field es) :
    (g.spoken field es = 0 → (g.resolve field (arguments es)).1 =
        if g.required then .error (.message (.missingChoice g.name g.keys)) else .ok none) ∧
      (g.spoken field es = 1 → ∃ m x, g.Gives field es m x ∧
        (g.resolve field (arguments es)).1 =
          (g.select (.text m.name) (argOf x).given).map some) ∧
      (2 ≤ g.spoken field es → ∃ conflicting ⊆ g.keys, 2 ≤ conflicting.length ∧
        (g.resolve field (arguments es)).1 =
          .error (.message (.conflictingChoice g.name conflicting))) ∧
      (∀ selection, (g.resolve field (arguments es)).1 = .ok selection →
        (selection.isSome = true ↔ g.spoken field es = 1) ∧
          (g.resolve field (arguments es)).2 = arguments (g.others field es)) ∧
      ∀ k, k ∉ g.selectors field →
        Keyed.get? (g.resolve field (arguments es)).2 k = Keyed.get? (arguments es) k := by
  have word : field ∉ words g.members := by
    rw [mem_words, not_or]
    exact apart
  refine ⟨resolve_of_none keys word dict, resolve_of_one names keys word dict spelled,
    resolve_of_several names keys word dict spelled, fun selection made => ⟨?_, ?_⟩,
    fun k other => get?_resolve other⟩
  · match number : g.spoken field es with
    | 0 =>
      rw [resolve_of_none keys word dict number] at made
      split at made <;> cases made
      simp
    | 1 =>
      obtain ⟨m, x, -, one⟩ := resolve_of_one names keys word dict spelled number
      obtain ⟨v, -, rfl⟩ := Except.map_eq_ok.mp (one.symm.trans made)
      simp
    | n + 2 =>
      obtain ⟨conflicting, -, -, several⟩ :=
        resolve_of_several names keys word dict spelled (number ▸ Nat.le_add_left 2 n)
      cases several.symm.trans made
  · cases drawn dict word with
    | twice m hm two result => cases result.symm.trans made
    | alone found sub source count result => exact congrArg Prod.snd result
    | tagged found a sub ha given count result => exact congrArg Prod.snd result

end

/-- Two members of a parameter, one of them by its key, with values that count for nothing, and its
name. -/
def offValues : Keyed Value :=
  [("bool_value", .bool false), ("name", .text "x"), ("intValue", .int 0), ("value", .none)]

theorem offValues_conflict : 2 ≤ Group.parameterValue.spoken "value" offValues ∧
    (∃ conflicting ⊆ Group.parameterValue.keys, 2 ≤ conflicting.length ∧
      (Group.parameterValue.resolve "value" (arguments offValues)).1 =
        .error (.message (.conflictingChoice "ParameterValue" conflicting))) ∧
    Keyed.get? (Group.parameterValue.resolve "value" (arguments offValues)).2 "name" =
      Keyed.get? (arguments offValues) "name" := by
  have spelled : Group.parameterValue.Spells "value" offValues := by
    intro a ha given
    simp only [offValues, List.mem_cons, Prod.mk.injEq, List.not_mem_nil, or_false] at ha
    rcases ha with ⟨h, -⟩ | ⟨h, -⟩ | ⟨h, -⟩ | ⟨-, rfl⟩
    · exact absurd h (by decide)
    · exact absurd h (by decide)
    · exact absurd h (by decide)
    · cases given
  have several : 2 ≤ Group.parameterValue.spoken "value" offValues := by decide
  obtain ⟨-, -, conflict, -, others⟩ :=
    resolve_cardinality (by decide) (by decide) (by decide) (by decide) spelled
  exact ⟨several, conflict several, others "name" (by decide)⟩

/-- The dynamic parameters of a schedule, with a minimum above the target. -/
def contraryValues : Keyed Value :=
  [("dynamicSeResControlMode", .dict [("minimumSoc", .int 80), ("targetSoc", .int 20)])]

/-- One member is given, but its value breaks a rule of its own: neither is a selection made nor is
the value refused as a fault of the member. -/
theorem contraryValues_violate :
    Group.seResControlMode.spoken "control_mode" contraryValues = 1 ∧
      (∀ selection, (Group.seResControlMode.resolve "control_mode"
        (arguments contraryValues)).1 ≠ .ok selection) ∧
      ∀ fault, (Group.seResControlMode.resolve "control_mode"
        (arguments contraryValues)).1 ≠ .error (.fault fault) := by
  have outcome : (Group.seResControlMode.resolve "control_mode" (arguments contraryValues)).1 =
      .error (.message (.violated (.socOrder 80 20))) := rfl
  rw [outcome]
  exact ⟨by decide, nofun, nofun⟩

end Group

end V2G
