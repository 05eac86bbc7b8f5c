import V2G.Trace.Basic

/-!
# Outcomes

When a computation has a value, what its steps have. A list of computations has values if
each of them has one; `xs.map f = ys.map .ok` says so with the values in order.
-/

namespace V2G

namespace Except

variable {ε δ α β : Type}

theorem bind_eq_ok {x : Except ε α} {f : α → Except ε β} {b : β} :
    (x >>= f) = .ok b ↔ ∃ a, x = .ok a ∧ f a = .ok b := by
  cases x <;> simp [bind, Except.bind]

theorem bind_eq_error {x : Except ε α} {f : α → Except ε β} {e : ε} :
    (x >>= f) = .error e ↔ x = .error e ∨ ∃ a, x = .ok a ∧ f a = .error e := by
  cases x <;> simp [bind, Except.bind]

theorem map_eq_ok {x : Except ε α} {f : α → β} {b : β} :
    x.map f = .ok b ↔ ∃ a, x = .ok a ∧ f a = b := by
  cases x <;> simp [Except.map]

theorem map_eq_error {x : Except ε α} {f : α → β} {e : ε} :
    x.map f = .error e ↔ x = .error e := by
  cases x <;> simp [Except.map]

@[simp]
theorem mapError_ok (f : ε → δ) (a : α) : (Except.ok a).mapError f = .ok a := rfl

@[simp]
theorem mapError_error (f : ε → δ) (e : ε) :
    (Except.error e : Except ε α).mapError f = .error (f e) :=
  rfl

theorem mapError_eq_ok {x : Except ε α} {f : ε → δ} {a : α} :
    x.mapError f = .ok a ↔ x = .ok a := by
  cases x <;> simp

theorem mapError_eq_error {x : Except ε α} {f : ε → δ} {d : δ} :
    x.mapError f = .error d ↔ ∃ e, x = .error e ∧ f e = d := by
  cases x <;> simp

/-- A sequence of computations fails with the first one that fails. -/
theorem mapM_eq_error {f : α → Except ε β} {xs : List α} {e : ε} :
    xs.mapM f = .error e ↔ ∃ before x after, xs = before ++ x :: after ∧
      (∀ y ∈ before, ∃ v, f y = .ok v) ∧ f x = .error e := by
  induction xs with
  | nil => simp [pure, Except.pure]
  | cons x xs ih =>
    rw [List.mapM_cons, bind_eq_error]
    constructor
    · rintro (fails | ⟨v, hv, rest⟩)
      · exact ⟨[], x, xs, rfl, by simp, fails⟩
      · rcases bind_eq_error.mp rest with fails | ⟨_, _, h⟩
        · obtain ⟨before, y, after, rfl, ok, fails⟩ := ih.mp fails
          refine ⟨x :: before, y, after, rfl, ?_, fails⟩
          exact List.forall_mem_cons.mpr ⟨⟨v, hv⟩, ok⟩
        · cases h
    · rintro ⟨before, y, after, split, ok, fails⟩
      cases before with
      | nil =>
        cases split
        exact .inl fails
      | cons z before =>
        cases split
        obtain ⟨⟨v, hv⟩, ok⟩ := List.forall_mem_cons.mp ok
        exact .inr ⟨v, hv, bind_eq_error.mpr (.inl (ih.mpr ⟨before, y, after, rfl, ok, fails⟩))⟩

end Except

section Lists

variable {ε α β : Type} {f : α → Except ε β} {xs : List α} {ys : List β}

theorem ok_of_mem (h : xs.map f = ys.map .ok) {x : α} (hx : x ∈ xs) :
    ∃ y ∈ ys, f x = .ok y := by
  have : f x ∈ ys.map .ok := h ▸ List.mem_map_of_mem hx
  obtain ⟨y, hy, e⟩ := List.mem_map.mp this
  exact ⟨y, hy, e.symm⟩

theorem mem_of_ok (h : xs.map f = ys.map .ok) {y : β} (hy : y ∈ ys) :
    ∃ x ∈ xs, f x = .ok y := by
  have : (.ok y : Except ε β) ∈ xs.map f := h ▸ List.mem_map_of_mem hy
  exact List.mem_map.mp this

theorem mem_iff_of_ok (h : xs.map f = ys.map .ok) {y : β} :
    y ∈ ys ↔ ∃ x ∈ xs, f x = .ok y := by
  refine ⟨mem_of_ok h, ?_⟩
  rintro ⟨x, hx, value⟩
  obtain ⟨z, hz, value'⟩ := ok_of_mem h hx
  cases value.symm.trans value'
  exact hz

theorem eq_map_of_ok {g : α → β} (h : xs.map f = ys.map .ok)
    (hg : ∀ x ∈ xs, ∀ y, f x = .ok y → y = g x) : ys = xs.map g := by
  induction xs generalizing ys with
  | nil => exact List.map_eq_nil_iff.mp h.symm
  | cons x xs ih =>
    cases ys with
    | nil => cases h
    | cons y ys =>
      obtain ⟨hx, hxs⟩ := List.cons.inj h
      rw [List.map_cons, hg x List.mem_cons_self y hx,
        ih hxs fun z hz => hg z (List.mem_cons_of_mem _ hz)]

theorem map_eq_ok_iff {P : α → Prop} {g : α → β} (h : ∀ x y, f x = .ok y ↔ P x ∧ y = g x) :
    xs.map f = ys.map .ok ↔ (∀ x ∈ xs, P x) ∧ ys = xs.map g := by
  constructor
  · intro all
    refine ⟨fun x hx => ?_, eq_map_of_ok all fun x _ y hy => ((h x y).mp hy).2⟩
    obtain ⟨y, -, hy⟩ := ok_of_mem all hx
    exact ((h x y).mp hy).1
  · rintro ⟨all, rfl⟩
    rw [List.map_map]
    exact List.map_congr_left fun x hx => (h x (g x)).mpr ⟨all x hx, rfl⟩

/-- All of some outcomes are values if each of them is. -/
theorem exists_map_ok_iff {xs : List (Except ε β)} :
    (∃ vs : List β, xs = vs.map .ok) ↔ ∀ x ∈ xs, ∃ v, x = .ok v := by
  induction xs with
  | nil => exact ⟨fun _ => nofun, fun _ => ⟨[], rfl⟩⟩
  | cons x xs ih =>
    rw [List.forall_mem_cons, ← ih]
    constructor
    · rintro ⟨vs, h⟩
      cases vs with
      | nil => cases h
      | cons v vs =>
        obtain ⟨hv, hvs⟩ := List.cons.inj h
        exact ⟨⟨v, hv⟩, vs, hvs⟩
    · rintro ⟨⟨v, rfl⟩, vs, rfl⟩
      exact ⟨v :: vs, rfl⟩

theorem Except.mapM_eq_ok : xs.mapM f = .ok ys ↔ xs.map f = ys.map .ok := by
  induction xs generalizing ys with
  | nil => cases ys <;> simp [pure, Except.pure]
  | cons x xs ih =>
    simp only [List.mapM_cons, Except.bind_eq_ok, ih]
    cases ys with
    | nil => simp [pure, Except.pure]
    | cons y ys =>
      constructor
      · rintro ⟨_, hx, _, hxs, h⟩
        cases h
        rw [List.map_cons, List.map_cons, hx, hxs]
      · intro h
        obtain ⟨hx, hxs⟩ := List.cons.inj h
        exact ⟨y, hx, ys, hxs, rfl⟩

end Lists

namespace Traced

variable {α β : Type}

instance : LawfulMonad Traced := LawfulMonad.mk' Traced
  (fun t => by
    obtain ⟨events, outcome⟩ := t
    cases outcome <;> simp [Functor.map, andThen])
  (fun v f => by simp [pure, bind, andThen])
  (fun t f g => by
    obtain ⟨events, outcome⟩ := t
    cases outcome with
    | error e => rfl
    | ok v =>
      simp only [bind, andThen]
      cases (f v).outcome <;> simp)

theorem outcome_bind_eq_ok {t : Traced α} {f : α → Traced β} {b : β} :
    (t >>= f).outcome = .ok b ↔ ∃ a, t.outcome = .ok a ∧ (f a).outcome = .ok b := by
  rw [outcome_bind]
  exact Except.bind_eq_ok

theorem outcome_mapM (f : α → Traced β) (xs : List α) :
    (xs.mapM f).outcome = xs.mapM fun x => (f x).outcome := by
  induction xs with
  | nil => rfl
  | cons x xs ih =>
    rw [List.mapM_cons, List.mapM_cons, outcome_bind, ← ih]
    cases (f x).outcome with
    | error e => rfl
    | ok v =>
      show (xs.mapM f >>= fun vs => pure (v :: vs)).outcome = _
      rw [outcome_bind]
      rfl

theorem outcome_mapM_eq_ok {f : α → Traced β} {xs : List α} {ys : List β} :
    (xs.mapM f).outcome = .ok ys ↔ (xs.map fun x => (f x).outcome) = ys.map .ok := by
  rw [outcome_mapM, Except.mapM_eq_ok]

end Traced

end V2G
