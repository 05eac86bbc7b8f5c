import V2G.Json.Value
import V2G.Value.Basic

/-!
# Parts of values

Values and documents are trees whose nodes hold lists. `Value.induction` and
`Json.induction` give what holds of every node from what its children have; `Child x v` says
that `x` stands directly in `v`, and `Part v w` that `v` stands in `w` at whatever depth.
-/

namespace V2G

namespace Value

theorem induction {P : Value → Prop} (none : P .none) (bool : ∀ b, P (.bool b))
    (int : ∀ n, P (.int n)) (float : ∀ x, P (.float x)) (text : ∀ s, P (.text s))
    (bytes : ∀ data, P (.bytes data)) (token : ∀ t s, P (.token t s))
    (identifier : ∀ t s, P (.identifier t s)) (url : ∀ s, P (.url s))
    (tuple : ∀ xs, (∀ x ∈ xs, P x) → P (.tuple xs)) (list : ∀ xs, (∀ x ∈ xs, P x) → P (.list xs))
    (dict : ∀ es, (∀ k x, (k, x) ∈ es → P x) → P (.dict es))
    (choice : ∀ m v, P v → P (.choice m v))
    (element : ∀ e fs, (∀ k x, (k, x) ∈ fs → P x) → P (.element e fs)) (v : Value) : P v :=
  @Value.rec P (fun xs => ∀ x ∈ xs, P x) (fun es => ∀ k x, (k, x) ∈ es → P x) (fun e => P e.2)
    none bool int float text bytes token identifier url tuple list dict choice element
    (by simp) (fun v vs hv hvs => by simpa using ⟨hv, hvs⟩)
    (by simp) (fun e es he hes => by
      intro k x h
      rcases List.mem_cons.mp h with rfl | h
      · exact he
      · exact hes k x h)
    (fun _ _ h => h) v

/-- `x` stands directly in `v`. -/
inductive Child (x : Value) : Value → Prop where
  | tuple {xs : List Value} : x ∈ xs → Child x (.tuple xs)
  | list {xs : List Value} : x ∈ xs → Child x (.list xs)
  | dict {es : List (String × Value)} {k : String} : (k, x) ∈ es → Child x (.dict es)
  | choice {m : String} : Child x (.choice m x)
  | element {e : Element} {fs : List (String × Value)} {k : String} :
      (k, x) ∈ fs → Child x (.element e fs)

/-- `v` is `w` or stands in it. -/
inductive Part (v : Value) : Value → Prop where
  | self : Part v v
  | inside {x w : Value} : Child x w → Part v x → Part v w

theorem Part.trans {u v w : Value} (h : Part u v) (hw : Part v w) : Part u w := by
  induction hw with
  | self => exact h
  | inside c _ ih => exact .inside c ih

theorem Child.part {x v : Value} (h : Child x v) : Part x v := .inside h .self

theorem child_of_items {v x : Value} {xs : List Value} (h : v.items? = some xs) (hx : x ∈ xs) :
    x.Child v := by
  cases v <;> cases h
  · exact .tuple hx
  · exact .list hx

theorem child_induction {P : Value → Prop} (step : ∀ v, (∀ x, Child x v → P x) → P v) (v : Value) :
    P v := by
  induction v using Value.induction with
  | tuple xs ih => exact step _ fun x h => by cases h with | tuple h => exact ih x h
  | list xs ih => exact step _ fun x h => by cases h with | list h => exact ih x h
  | dict es ih => exact step _ fun x h => by cases h with | dict h => exact ih _ x h
  | choice m v ih => exact step _ fun x h => by cases h with | choice => exact ih
  | element e fs ih => exact step _ fun x h => by cases h with | element h => exact ih _ x h
  | _ => exact step _ fun x h => nomatch h

/-- Induction with two generations at hand: a selection among arguments is read from within. -/
theorem family_induction {P : Value → Prop}
    (step : ∀ v, (∀ x, Child x v → P x) → (∀ x y, Child x v → Child y x → P y) → P v) (v : Value) :
    P v := by
  refine And.left (b := ∀ x, Child x v → P x) ?_
  induction v using child_induction with
  | step v ih =>
    have children : ∀ x, Child x v → P x := fun x h => (ih x h).1
    exact ⟨step v children fun x y h => (ih x h).2 y, children⟩

end Value

theorem Json.induction {P : Json → Prop} (null : P .null) (bool : ∀ b, P (.bool b))
    (int : ∀ n, P (.int n)) (float : ∀ x, P (.float x)) (str : ∀ s, P (.str s))
    (arr : ∀ xs, (∀ x ∈ xs, P x) → P (.arr xs))
    (obj : ∀ ms, (∀ k x, (k, x) ∈ ms → P x) → P (.obj ms)) (j : Json) : P j :=
  @Json.rec P (fun xs => ∀ x ∈ xs, P x) (fun es => ∀ k x, (k, x) ∈ es → P x) (fun e => P e.2)
    null bool int float str arr obj
    (by simp) (fun v vs hv hvs => by simpa using ⟨hv, hvs⟩)
    (by simp) (fun e es he hes => by
      intro k x h
      rcases List.mem_cons.mp h with rfl | h
      · exact he
      · exact hes k x h)
    (fun _ _ h => h) j

end V2G
