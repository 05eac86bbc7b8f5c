import V2G.Build.Element
import V2G.Proofs.Outcome

/-!
# Gathered parts

When fields and items have values together: each of them has one. This needs that no refusal
comes without a reason, which all readings satisfy (`grounded_read`). Main statements:
`gather_eq_ok`, `readList_eq_ok` and `readSet_eq_ok`.
-/

namespace V2G

namespace Refusal

variable {α β : Type}

/-- A refusal by faults names at least one. -/
def Grounded (o : Except Refusal α) : Prop := o ≠ .error (.issues [])

theorem grounded_mapError_under {o : Except Refusal α} (h : Grounded o) (step : Step) :
    Grounded (o.mapError (·.under step)) := by
  match o with
  | .ok v => simp [Grounded]
  | .error (.issues []) => exact absurd rfl h
  | .error (.issues (i :: is)) | .error (.message m) | .error (.unhashable t) =>
    simp [Grounded, under]

theorem grounded_map {o : Except Refusal α} (h : Grounded o) (f : α → β) : Grounded (o.map f) := by
  cases o with
  | ok v => simp [Grounded, Except.map]
  | error r => exact fun e => h (congrArg Except.error (Except.error.inj e))

theorem grounded_mapError_fault (o : Except Fault α) : Grounded (o.mapError fault) := by
  cases o <;> simp [Grounded, fault]

theorem grounded_bind {o : Except Refusal α} {f : α → Except Refusal β} (h : Grounded o)
    (hf : ∀ v, Grounded (f v)) : Grounded (o >>= f) := by
  cases o with
  | ok v => exact hf v
  | error r => exact fun e => h (congrArg Except.error (Except.error.inj e))

theorem survey_ne_issues {outs : List (Except Refusal α)} {is : List Issue} :
    survey outs ≠ .error (.issues is) := by
  fun_induction survey outs with
  | case1 => simp
  | case2 v rest ih => cases h : survey rest <;> simp_all [Except.map]
  | case3 is rest ih => cases h : survey rest <;> simp_all [Except.map]
  | case4 r rest h => exact fun e => h is (Except.error.inj e)

theorem survey_eq_ok_nil {outs : List (Except Refusal α)} (h : ∀ o ∈ outs, Grounded o)
    {vs : List α} : survey outs = .ok (vs, []) ↔ outs = vs.map .ok := by
  refine ⟨fun hs => ?_, fun e => by rw [e, survey_map_ok]⟩
  fun_induction survey outs generalizing vs with
  | case1 => cases hs; rfl
  | case2 v rest ih =>
    obtain ⟨⟨ws, is⟩, hr, e⟩ := Except.map_eq_ok.mp hs
    cases e
    rw [ih (fun o ho => h o (List.mem_cons_of_mem _ ho)) hr, List.map_cons]
  | case3 is rest ih =>
    obtain ⟨⟨ws, js⟩, hr, e⟩ := Except.map_eq_ok.mp hs
    have : is = [] := (List.append_eq_nil_iff.mp (Prod.mk.inj e).2).1
    exact absurd (this ▸ rfl) (h _ List.mem_cons_self)
  | case4 r rest hr => cases hs

theorem gather_eq_ok {outs : List (Except Refusal α)} (h : ∀ o ∈ outs, Grounded o) {vs : List α} :
    gather outs = .ok vs ↔ outs = vs.map .ok := by
  rw [← survey_eq_ok_nil h, gather]
  rcases survey outs with _ | ⟨ws, _ | ⟨i, is⟩⟩ <;> simp

theorem grounded_gather (outs : List (Except Refusal α)) : Grounded (gather outs) := by
  have : survey outs ≠ .error (.issues []) := survey_ne_issues
  unfold gather
  rcases h : survey outs with r | ⟨ws, _ | ⟨i, is⟩⟩ <;> simp_all [Grounded]

end Refusal

variable {reader : Url.Reader}

namespace Build

open Refusal

variable {k : Kind} {least most : Nat} {items : List Reading}

/-! ### Collections -/

/-- The places that refusals are given make no difference to the values. -/
theorem mapIdx_mapError_eq_ok {e : Nat → Refusal → Refusal} {vs : List Value} :
    (items.mapIdx fun i read => (read k).mapError (e i)) = vs.map .ok ↔
      (items.map fun read => read k) = vs.map .ok := by
  induction items generalizing e vs with
  | nil => rfl
  | cons read items ih =>
    cases vs with
    | nil => simp
    | cons v vs =>
      rw [List.mapIdx_cons, List.map_cons, List.map_cons, List.cons.injEq, List.cons.injEq,
        Except.mapError_eq_ok, ih]

theorem readItems_eq_ok {vs : List Value} :
    readItems k items = vs.map .ok ↔ (items.map fun read => read k) = vs.map .ok :=
  mapIdx_mapError_eq_ok

theorem grounded_readItems (h : ∀ read ∈ items, Grounded (read k)) :
    ∀ o ∈ readItems k items, Grounded o := by
  intro o ho
  obtain ⟨i, hi, rfl⟩ := List.mem_mapIdx.mp ho
  exact grounded_mapError_under (h _ (List.getElem_mem hi)) _

theorem gatherAtLeast_map_ok (least : Nat) (vs : List Value) : gatherAtLeast least (vs.map .ok) =
    if vs.length < least then .error (.fault (.tooFew least vs.length)) else .ok vs := by
  rw [gatherAtLeast, survey_map_ok]
  by_cases few : vs.length < least <;> simp only [bind, Except.bind, few, if_true, if_false] <;> rfl

theorem gatherAtLeast_eq_ok {outs : List (Except Refusal Value)} (h : ∀ o ∈ outs, Grounded o)
    {vs : List Value} :
    gatherAtLeast least outs = .ok vs ↔ outs = vs.map .ok ∧ least ≤ vs.length := by
  rw [← survey_eq_ok_nil h, gatherAtLeast, Except.bind_eq_ok]
  constructor
  · rintro ⟨⟨ws, is⟩, hs, hb⟩
    by_cases few : ws.length < least
    · simp [few] at hb
    · simp only [few, ↓reduceIte, List.append_nil] at hb
      cases is with
      | nil => cases hb; exact ⟨hs, by omega⟩
      | cons i is => cases hb
  · rintro ⟨hs, hl⟩
    refine ⟨_, hs, ?_⟩
    simp [Nat.not_lt.mpr hl]
    rfl

/-- An ordered collection has all its items, as many as its bounds allow. -/
theorem readList_eq_ok (h : ∀ read ∈ items, Grounded (read k)) {w : Value} :
    readList k least most items = .ok w ↔ ∃ vs : List Value,
      (items.map fun read => read k) = vs.map .ok ∧ least ≤ vs.length ∧ vs.length ≤ most ∧
        w = .tuple vs := by
  have grounded := grounded_readItems h
  simp only [readList]
  constructor
  · intro hr
    split at hr
    · obtain ⟨_, _, e⟩ := Except.bind_eq_ok.mp hr
      cases e
    · next within =>
      obtain ⟨vs, hvs, rfl⟩ := Except.map_eq_ok.mp hr
      obtain ⟨all, hl⟩ := (gatherAtLeast_eq_ok grounded).mp hvs
      refine ⟨vs, readItems_eq_ok.mp all, hl, ?_, rfl⟩
      rw [all, takeValues_map_ok] at within
      simp only [List.length_map, List.length_take] at within
      omega
  · rintro ⟨vs, hvs, hl, hm, rfl⟩
    have all : readItems k items = vs.map .ok := readItems_eq_ok.mpr hvs
    have within : ¬ (takeValues most (readItems k items)).length < (readItems k items).length := by
      rw [all, takeValues_map_ok]
      simp only [List.length_map, List.length_take]
      omega
    rw [if_neg within, (gatherAtLeast_eq_ok grounded).mpr ⟨all, hl⟩]
    rfl

theorem dedupe_eq_ok {vs ws : List Value} :
    dedupe most vs = .ok ws ↔ ws = Value.distinct .structural vs ∧ ws.length ≤ most := by
  unfold dedupe
  simp only
  split
  · next many =>
    refine ⟨nofun, ?_⟩
    rintro ⟨rfl, within⟩
    exact absurd within (Nat.not_le.mpr many)
  · next within =>
    rw [Except.ok.injEq, eq_comm]
    refine (and_iff_left_of_imp ?_).symm
    rintro rfl
    exact Nat.not_lt.mp within

/-- A set has the distinct ones of its items. The minimum counts all of them, the maximum the
distinct ones. -/
theorem readSet_eq_ok (h : ∀ read ∈ items, Grounded (read k)) {w : Value} :
    readSet k least most items = .ok w ↔ ∃ vs : List Value,
      (items.map fun read => read k) = vs.map .ok ∧ least ≤ vs.length ∧
        (Value.distinct .structural vs).length ≤ most ∧
        w = .tuple (Value.distinct .structural vs) := by
  simp only [readSet, Except.bind_eq_ok, Except.mapError_eq_ok,
    gatherAtLeast_eq_ok (grounded_readItems h), readItems_eq_ok, dedupe_eq_ok]
  constructor
  · rintro ⟨vs, ⟨hvs, hl⟩, _, ⟨rfl, hm⟩, e⟩
    cases e
    exact ⟨vs, hvs, hl, hm, rfl⟩
  · rintro ⟨vs, hvs, hl, hm, rfl⟩
    exact ⟨vs, ⟨hvs, hl⟩, _, ⟨rfl, hm⟩, rfl⟩

/-! ### Readings -/

theorem grounded_survey {α : Type} (outs : List (Except Refusal α)) : Grounded (survey outs) :=
  survey_ne_issues

theorem grounded_gatherAtLeast (outs : List (Except Refusal Value)) :
    Grounded (gatherAtLeast least outs) := by
  refine grounded_bind (grounded_survey outs) fun (vs, is) => ?_
  simp only
  split
  · exact fun e => nomatch e
  · next ne => exact fun e => ne (Refusal.issues.inj (Except.error.inj e))

theorem grounded_readShape (v : Value) (items : Option (List Reading)) (s : Shape) :
    Grounded (readShape v items s) := by
  cases s with
  | one k => exact grounded_mapError_fault _
  | list k least most =>
    cases items with
    | none => exact fun e => nomatch e
    | some items =>
      simp only [readShape, readList]
      split
      · exact grounded_bind (grounded_survey _) fun _ e => nomatch e
      · exact grounded_map (grounded_gatherAtLeast _) _
  | set k least most =>
    cases items with
    | none => exact fun e => nomatch e
    | some items =>
      exact grounded_bind (grounded_gatherAtLeast _) fun vs =>
        grounded_bind (grounded_mapError_fault _) fun ds e => nomatch e

theorem grounded_readChoice (e : Element) (args : Keyed Arg) : Grounded (readChoice e args).1 := by
  unfold readChoice
  split
  · exact fun e => nomatch e
  · next c _ =>
    simp only
    rcases (c.group.resolve c.name args).1 with (_ | _ | _) | _ <;>
      simp [Grounded, Except.map, Objection.refusal, fault]

theorem grounded_assemble (e : Element) (args : Keyed Arg) : Grounded (assemble e args) := by
  refine grounded_bind (grounded_readChoice e args) fun choice =>
    grounded_bind (grounded_gather _) fun fields => ?_
  unfold checkRules
  split <;> exact fun e => nomatch e

/-- No reading refuses a value without a reason. -/
theorem grounded_read (v : Value) (s : Shape) : Grounded (read v s) := by
  cases v with
  | dict es =>
    simp only [read]
    split
    · exact grounded_assemble _ _
    · exact grounded_readShape _ _ _
  | _ => exact grounded_readShape _ _ _

theorem grounded_readings {xs : List Value} {k : Kind} :
    ∀ read ∈ readings xs, Grounded (read k) := by
  intro r hr
  rw [readings_eq] at hr
  obtain ⟨x, -, rfl⟩ := List.mem_map.mp hr
  exact grounded_read x _

/-- The arguments in a row that a tuple or list is. -/
theorem read_items_list {v : Value} {xs : List Value} (h : v.items? = some xs) {w : Value} :
    read v (.list k least most) = .ok w ↔ ∃ vs : List Value,
      (xs.map fun x => read x (.one k)) = vs.map .ok ∧ least ≤ vs.length ∧ vs.length ≤ most ∧
        w = .tuple vs := by
  have hv : read v (.list k least most) = readList k least most (readings xs) := by
    cases v <;> simp only [Value.items?, Option.some.injEq, reduceCtorEq] at h <;> subst h <;> rfl
  rw [hv, readList_eq_ok grounded_readings, readings_eq, List.map_map]
  rfl

theorem read_items_set {v : Value} {xs : List Value} (h : v.items? = some xs) {w : Value} :
    read v (.set k least most) = .ok w ↔ ∃ vs : List Value,
      (xs.map fun x => read x (.one k)) = vs.map .ok ∧ least ≤ vs.length ∧
        (Value.distinct .structural vs).length ≤ most ∧
        w = .tuple (Value.distinct .structural vs) := by
  have hv : read v (.set k least most) = readSet k least most (readings xs) := by
    cases v <;> simp only [Value.items?, Option.some.injEq, reduceCtorEq] at h <;> subst h <;> rfl
  rw [hv, readSet_eq_ok grounded_readings, readings_eq, List.map_map]
  rfl

end Build

end V2G
