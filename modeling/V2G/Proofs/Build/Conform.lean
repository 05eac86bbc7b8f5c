import Mathlib.Data.List.Nodup
import V2G.Proofs.Build.Assemble
import V2G.Proofs.Build.Scalar
import V2G.Proofs.Value.Distinct

/-!
# What is built conforms

Whatever arguments an element is built from, it conforms to its declaration, as long as the
elements, tokens and URLs among the arguments are sound (`conforms_of_build`). Conforming
elements are used as they are and never looked at again, so this is an induction over the
arguments. If collections are given as tuples or lists, no optional one of them is stored empty
(`dense_of_build`).
-/

namespace V2G

open Value

variable {reader : Url.Reader}

theorem Sound.of_children {v : Value} (h : ∀ x, x.Child v → Sound x)
    (token : ∀ t s, v = .token t s → s ∈ t.tokens) (url : ∀ s, v = .url s → IsWebUrl s)
    (element : ∀ e fs, v = .element e fs → Conforms (.one (.element e)) (.element e fs)) :
    Sound v where
  token t s p := by
    cases p with
    | self => exact token t s rfl
    | inside c p => exact (h _ c).token t s p
  url s p := by
    cases p with
    | self => exact url s rfl
    | inside c p => exact (h _ c).url s p
  element e fs p := by
    cases p with
    | self => exact element e fs rfl
    | inside c p => exact (h _ c).element e fs p

namespace Build

/-! ### Readings by the form of the argument -/

variable [reader]

/-- The readings of what stands in sequence in an argument. -/
def sequenceReadings : Value → Option (List Reading)
  | .tuple xs | .list xs => some (readings xs)
  | .choice m v => some [scalarReading (.text m), fun k => read v (.one k)]
  | .element _ fs => some (fieldReadings fs)
  | _ => none

variable {reader}

/-- A dictionary becomes an element, and nothing else is looked at by name. -/
theorem read_cases (v : Value) (s : Shape) :
    (∃ es e, v = .dict es ∧ s = .one (.element e)) ∨
      read v s = readShape v (sequenceReadings v) s := by
  cases v with
  | dict es =>
    rcases s with (_ | _ | _ | _ | _ | _ | _ | e) | _ | _ <;>
      first | exact .inr rfl | exact .inl ⟨es, e, rfl, rfl⟩
  | _ => exact .inr rfl

/-- A place of a declaration, where no element of another class than the one asked for gets
through. -/
structure Place (s : Shape) (v : Value) : Prop where
  kind : Element.isBaseKind s.kind = false ∨
    s.isCollection = false ∧ Group.misfit? s.kind v = Option.none
  set : s.isUnordered = true → s.least ≤ 1

theorem Place.one {k : Kind} {v : Value} (h : Fits k v) : Place (.one k) v :=
  ⟨h.imp id fun fit => ⟨rfl, fit⟩, fun e => nomatch e⟩

theorem Place.field {e : Element} {f : Field} (hf : f ∈ e.fields) (v : Value) : Place f.shape v :=
  ⟨.inl (Element.isBaseKind_field hf), Element.least_of_set hf⟩

theorem Place.fits {s : Shape} {v : Value} (h : Place s v) : Fits s.kind v :=
  h.kind.imp id And.right

theorem Place.base {s : Shape} {v : Value} (h : Place s v) (hc : s.isCollection = true) :
    Element.isBaseKind s.kind = false := by
  rcases h.kind with base | ⟨one, -⟩
  · exact base
  · rw [hc] at one; cases one

variable [reader]

/-- What an argument becomes conforms, wherever it stands. -/
def ReadsWell (v : Value) : Prop :=
  Sound v → ∀ s w, Place s v → read v s = .ok w → Conforms s w

variable {reader}

theorem unlike_distinct {vs : List Value} (h : ∀ v ∈ vs, ∀ es, ¬ Part (.dict es) v) :
    Unlike (distinct .structural vs) := by
  refine (apart_distinct .structural vs).imp_of_mem fun {v w} hv hw apart => ?_
  exact ⟨same_comm v w (h v (mem_of_mem_distinct hv)) ▸ apart, apart⟩

theorem le_length_distinct {least : Nat} {vs : List Value} (h : least ≤ vs.length)
    (one : least ≤ 1) : least ≤ (distinct .structural vs).length := by
  cases least with
  | zero => exact Nat.zero_le _
  | succ n =>
    have : 1 ≤ (distinct .structural vs).length :=
      one_le_length_distinct (Nat.le_trans (by omega) h)
    omega

/-- Collections of well-read items conform. -/
theorem conforms_of_items {items : List Reading} {s : Shape} {v w : Value} (place : Place s v)
    (hc : s.isCollection = true) (grounded : ∀ read ∈ items, Refusal.Grounded (read s.kind))
    (h : ∀ read ∈ items, ∀ x, read s.kind = .ok x → Conforms (.one s.kind) x)
    (hw : readShape v (some items) s = .ok w) : Conforms s w := by
  cases s with
  | one k => cases hc
  | list k least most =>
    obtain ⟨vs, all, hl, hm, rfl⟩ := (readList_eq_ok grounded).mp hw
    refine .list (fun x hx => ?_) hl hm
    obtain ⟨read, hr, hx⟩ := mem_of_ok all hx
    exact h read hr x hx
  | set k least most =>
    obtain ⟨vs, all, hl, hm, rfl⟩ := (readSet_eq_ok grounded).mp hw
    have items : ∀ x ∈ vs, Conforms (.one k) x := by
      intro x hx
      obtain ⟨read, hr, hx⟩ := mem_of_ok all hx
      exact h read hr x hx
    exact .set (fun x hx => items x (mem_of_mem_distinct hx))
      (le_length_distinct hl (place.set rfl)) hm (unlike_distinct fun v hv => (items v hv).no_dict)

/-! ### Elements -/

/-- How a field came to its value: it is absent, or it was read from an argument under its key
or name. -/
theorem Takes.source {e : Element} {es : List (String × Value)} {f : Field} {v : Value}
    (h : Takes f ((argument? (readChoice e (arguments es)).2 f).map (·.2)) v) :
    v = .none ∧ f.required = false ∨
      ∃ k x, (k, x) ∈ es ∧ (k = f.key ∨ k = f.name) ∧ leavesAbsent f x = false ∧
        read x f.shape = .ok v := by
  cases ha : argument? (readChoice e (arguments es)).2 f with
  | none =>
    rw [ha] at h
    exact .inl ⟨h.2, h.1⟩
  | some found =>
    obtain ⟨k, a⟩ := found
    obtain ⟨hm, hk⟩ := mem_of_argument ha
    obtain ⟨x, hx, rfl⟩ := mem_arguments ((left_sublist e _).subset hm)
    rw [ha] at h
    simp only [Option.map_some, Takes] at h
    split at h
    · next absent =>
      simp only [leavesAbsent, Bool.and_eq_true, Bool.not_eq_true'] at absent
      exact .inl ⟨h, absent.1⟩
    · next given => exact .inr ⟨k, x, hx, hk, Bool.eq_false_iff.mpr given, h⟩

/-- A selection spelled by an argument is read from within it. -/
theorem tagged?_child {x : Value} {t : Tagged} (h : tagged? x = some t) :
    t.given.value.Child x ∧ t.given.read = fun k => read t.given.value (.one k) := by
  unfold tagged? at h
  split at h <;> cases h
  · exact ⟨.choice, rfl⟩
  · exact ⟨.tuple (List.mem_cons_of_mem _ List.mem_cons_self), rfl⟩
  · exact ⟨.list (List.mem_cons_of_mem _ List.mem_cons_self), rfl⟩

/-- How the selection of an element came about: none is made and none required, or a member was
given by itself or within the selection that an argument spells. -/
theorem Made.selecting {e : Element} {args : Keyed Arg} {fs : List (String × Value)}
    (made : Made e args fs) {c : ChoiceField} (hc : e.choice = some c) :
    Selecting c args ((Value.element e fs).field c.name) := by
  obtain ⟨r, hr, value⟩ := made.choice c hc
  exact value ▸ Group.selecting_of_resolve hr

theorem member_ext {e : Element} {c : ChoiceField} (hc : e.choice = some c) {m m' : Member}
    (hm : m ∈ c.group.members) (hm' : m' ∈ c.group.members) (name : m.name = m'.name) : m = m' := by
  have members := Element.members_eq hc
  exact List.inj_on_of_nodup_map (members ▸ e.memberNames_nodup) hm hm' name

theorem conforms_of_made {e : Element} {es fs : List (String × Value)}
    (made : Made e (arguments es) fs) (sound : ∀ k x, (k, x) ∈ es → Sound x)
    (well : ∀ k x, (k, x) ∈ es → ReadsWell x)
    (within : ∀ k x y, (k, x) ∈ es → y.Child x → ReadsWell y) :
    Conforms (.one (.element e)) (.element e fs) := by
  have field : ∀ f ∈ e.fields, (Value.element e fs).field f.name = .none ∧ f.required = false ∨
      Conforms f.shape ((Value.element e fs).field f.name) := by
    intro f hf
    rcases (made.field f hf).source with absent | ⟨k, x, hx, -, -, read⟩
    · exact .inl absent
    · exact .inr (well k x hx (sound k x hx) _ _ (.field hf x) read)
  have selected : ∀ c, e.choice = some c →
      (Value.element e fs).field c.name = .none ∧ c.group.required = false ∨
        ∃ m ∈ c.group.members, ∃ v, (Value.element e fs).field c.name = .choice m.name v ∧
          Conforms (.one m.kind) v := by
    intro c hc
    have := made.selecting hc
    generalize (Value.element e fs).field c.name = v at this
    cases this with
    | none required => exact .inl ⟨rfl, required⟩
    | member ha hm _ fit read =>
      obtain ⟨x, hx, rfl⟩ := mem_arguments ha
      exact .inr ⟨_, hm, _, rfl, well _ x hx (sound _ x hx) _ _ (.one (.inr fit)) read⟩
    | tagged ha ht hm _ fit read =>
      obtain ⟨x, hx, rfl⟩ := mem_arguments ha
      obtain ⟨child, same⟩ := tagged?_child ht
      rw [same] at read
      exact .inr ⟨_, hm, _, rfl, within _ x _ hx child ((sound _ x hx).child child) _ _
        (.one (.inr fit)) read⟩
  refine .element made.names (fun f hf required => ?_) (fun f hf given => ?_) (fun c hc => ?_)
    (fun c m w hc hm value => ?_) made.rule
  · rcases field f hf with ⟨-, optional⟩ | conforms
    · rw [required] at optional; cases optional
    · exact conforms.ne_none
  · exact (field f hf).resolve_left fun absent => given absent.1
  · exact (selected c hc).imp id fun ⟨m, hm, v, value, _⟩ => ⟨m, hm, v, value⟩
  · rcases selected c hc with ⟨none, -⟩ | ⟨m', hm', v, value', conforms⟩
    · rw [value] at none; cases none
    · obtain ⟨name, rfl⟩ := Value.choice.inj (value.symm.trans value')
      exact member_ext hc hm hm' name ▸ conforms

/-! ### The induction over the arguments -/

theorem conforms_of_scalarReading {k : Kind} (base : Element.isBaseKind k = false) {x y : Value}
    (sound : Sound x) (h : scalarReading x k = .ok y) : Conforms (.one k) y :=
  conforms_of_readScalar sound (.inl base) (Except.mapError_eq_ok.mp h)

/-- What stands in sequence in an argument is read well if the parts of the argument are. -/
theorem conforms_of_sequence {v : Value} (sound : Sound v) (ih : ∀ x, x.Child v → ReadsWell x)
    {items : List Reading} (h : sequenceReadings v = some items) {k : Kind}
    (base : Element.isBaseKind k = false) :
    ∀ read ∈ items, Refusal.Grounded (read k) ∧ ∀ y, read k = .ok y → Conforms (.one k) y := by
  have well {x y : Value} (hx : x.Child v) (hy : read x (.one k) = .ok y) : Conforms (.one k) y :=
    ih x hx (sound.child hx) _ _ (.one (.inl base)) hy
  have text (s : String) : Sound (.text s) :=
    .of_children (fun x c => nomatch c) nofun nofun nofun
  intro read hr
  cases v with
  | tuple xs | list xs =>
    cases h
    refine ⟨grounded_readings read hr, fun y hy => ?_⟩
    rw [readings_eq] at hr
    obtain ⟨x, hx, rfl⟩ := List.mem_map.mp hr
    first | exact well (.tuple hx) hy | exact well (.list hx) hy
  | choice m x =>
    cases h
    simp only [List.mem_cons, List.not_mem_nil, or_false] at hr
    rcases hr with rfl | rfl
    · exact ⟨Refusal.grounded_mapError_fault _, fun y => conforms_of_scalarReading base (text m)⟩
    · exact ⟨grounded_read x _, fun y => well .choice⟩
  | element e fs =>
    cases h
    obtain ⟨⟨name, x⟩, hx, rfl⟩ := List.mem_map.mp hr
    refine ⟨Refusal.grounded_mapError_fault _, fun y => conforms_of_scalarReading base ?_⟩
    refine .of_children (fun y c => ?_) nofun nofun nofun
    cases c with
    | tuple hy =>
      simp only [List.mem_cons, List.not_mem_nil, or_false] at hy
      rcases hy with rfl | rfl
      · exact text name
      · exact sound.child (.element hx)
  | _ => cases h

theorem readsWell (v : Value) : ReadsWell v := by
  induction v using family_induction with
  | step v ih ih' =>
    intro sound s w place h
    rcases read_cases v s with ⟨es, e, rfl, rfl⟩ | shape
    · obtain ⟨fs, rfl, made⟩ := (assemble_eq_ok (grounded_arguments es)).mp h
      exact conforms_of_made made (fun k x hx => sound.child (.dict hx))
        (fun k x hx => ih x (.dict hx)) fun k x y hx hy => ih' x y (.dict hx) hy
    · rw [shape] at h
      cases hc : s.isCollection with
      | false =>
        cases s with
        | one k => exact conforms_of_readScalar sound place.fits (Except.mapError_eq_ok.mp h)
        | _ => cases hc
      | true =>
        cases hq : sequenceReadings v with
        | some items =>
          have parts := conforms_of_sequence sound ih hq (place.base hc)
          rw [hq] at h
          exact conforms_of_items place hc (fun read hr => (parts read hr).1)
            (fun read hr => (parts read hr).2) h
        | none =>
          rw [hq] at h
          cases s with
          | one k => cases hc
          | _ => cases h

/-- An element conforms, whatever sound arguments it was built from. -/
theorem conforms_of_build {e : Element} {args : Keyed Value} {v : Value}
    (sound : ∀ k x, (k, x) ∈ args → Sound x) (h : e.build args = .ok v) :
    Conforms (.one (.element e)) v := by
  obtain ⟨fs, rfl, made⟩ := (assemble_eq_ok (grounded_arguments args)).mp h
  exact conforms_of_made made sound (fun k x _ => readsWell x) fun k x y _ _ => readsWell y

/-! ### Collections given as tuples or lists -/

variable [reader]

/-- The argument `w` is what is read for the shape `t` when `v` is read for a shape: `v` itself,
an item of a collection, or an argument of an element under one of its names. -/
inductive Stands (w : Value) (t : Shape) : Value → Shape → Prop where
  | self : Stands w t w t
  | item {v x : Value} {xs : List Value} {s : Shape} : v.items? = some xs → x ∈ xs →
      s.isCollection = true → Stands w t x (.one s.kind) → Stands w t v s
  | field {es : List (String × Value)} {k : String} {x : Value} {e : Element} {f : Field} :
      (k, x) ∈ es → f ∈ e.fields → k = f.key ∨ k = f.name → Stands w t x f.shape →
      Stands w t (.dict es) (.one (.element e))
  | member {es : List (String × Value)} {k : String} {x : Value} {e : Element} {m : Member} :
      (k, x) ∈ es → m ∈ e.members → k = m.name ∨ k = m.key → Stands w t x (.one m.kind) →
      Stands w t (.dict es) (.one (.element e))
  | selected {es : List (String × Value)} {x : Value} {e : Element} {c : ChoiceField} {g : Tagged}
      {m : Member} : e.choice = some c → (c.name, x) ∈ es → tagged? x = some g → m ∈ e.members →
      g.member.text? = some m.name → Stands w t g.given.value (.one m.kind) →
      Stands w t (.dict es) (.one (.element e))

/-- Every collection in an argument is given as a tuple or list, if it is given. -/
def Listed (v : Value) (s : Shape) : Prop :=
  ∀ w t, Stands w t v s → t.isCollection = true → w = .none ∨ ∃ xs, w.items? = some xs

/-- No optional collection is left empty in what an argument becomes, wherever it stands. -/
def ReadsDensely (v : Value) : Prop :=
  Sound v → Dense v → ∀ s w, Listed v s → read v s = .ok w → Dense w

variable {reader}

theorem dense_of_readScalar {k : Kind} {v w : Value} (sound : Sound v) (dense : Dense v)
    (h : readScalar k v = .ok w) : Dense w := by
  have scalar (base : Element.isBaseKind k = false) (plain : ∀ e, k ≠ .element e) : Dense w := by
    cases conforms_of_readScalar sound (.inl base) h with
    | scalar holds =>
      refine .of_children (fun x c => absurd c (holds.no_child x)) ?_
      rintro e fs rfl
      cases k <;> exact holds.elim
    | element => exact absurd rfl (plain _)
  cases k with
  | element e =>
    simp only [readScalar, readElement] at h
    split at h
    · split at h
      · cases h; exact dense
      · cases h
    · cases h
  | _ => exact scalar rfl (by rintro _ ⟨⟩)

/-- A tuple or list becomes the tuple of what its items become, empty only if it is itself. -/
theorem items_of_read {v w : Value} {s : Shape} (hc : s.isCollection = true)
    {xs : List Value} (hxs : v.items? = some xs) (h : read v s = .ok w) :
    ∃ vs : List Value, w = .tuple vs ∧ (vs = [] → xs = []) ∧
      ∀ y ∈ vs, ∃ x ∈ xs, read x (.one s.kind) = .ok y := by
  cases s with
  | one k => cases hc
  | list k least most =>
    obtain ⟨vs, all, -, -, rfl⟩ := (read_items_list hxs).mp h
    refine ⟨vs, rfl, ?_, fun y hy => mem_of_ok all hy⟩
    rintro rfl
    exact List.map_eq_nil_iff.mp all
  | set k least most =>
    obtain ⟨vs, all, -, -, rfl⟩ := (read_items_set hxs).mp h
    refine ⟨_, rfl, fun e => ?_, fun y hy => mem_of_ok all (mem_of_mem_distinct hy)⟩
    rw [distinct_eq_nil_iff.mp e] at all
    exact List.map_eq_nil_iff.mp all

theorem ne_empty_of_read {f : Field} {x : Value} (given : leavesAbsent f x = false)
    (optional : f.required = false) (hc : f.shape.isCollection = true)
    (listed : x = .none ∨ ∃ xs, x.items? = some xs) : read x f.shape ≠ .ok (.tuple []) := by
  intro h
  have absent : leavesAbsent f x = (x.isNone || x.isEmptyCollection) := by
    simp [leavesAbsent, optional, hc]
  rcases listed with rfl | ⟨xs, hxs⟩
  · rw [absent] at given
    cases given
  · obtain ⟨vs, e, empty, -⟩ := items_of_read hc hxs h
    obtain rfl := empty (Value.tuple.inj e).symm
    rw [absent] at given
    cases x <;> cases hxs <;> cases given

theorem dense_of_made {e : Element} {es fs : List (String × Value)}
    (made : Made e (arguments es) fs) (sound : Sound (.dict es)) (dense : Dense (.dict es))
    (listed : Listed (.dict es) (.one (.element e)))
    (ih : ∀ k x, (k, x) ∈ es → ReadsDensely x)
    (ih' : ∀ k x y, (k, x) ∈ es → y.Child x → ReadsDensely y) : Dense (.element e fs) := by
  have part {k : String} {x : Value} (hx : (k, x) ∈ es) : x.Part (.dict es) := (Child.dict hx).part
  refine .of_children (fun x c => ?_) ?_
  · cases c with
    | element hx =>
      rcases slot_of_mem made.names hx with ⟨f, hf, rfl⟩ | ⟨c, hc, rfl⟩
      · rcases (made.field f hf).source with ⟨none, -⟩ | ⟨k, x, hx, hk, -, read⟩
        · exact none ▸ .none
        · exact ih k x hx (sound.part (part hx)) (dense.part (part hx)) _ _
            (fun w t hw => listed w t (.field hx hf hk hw)) read
      · have members := Element.members_eq hc
        have := made.selecting hc
        generalize (Value.element e fs).field c.name = v at this
        cases this with
        | none _ => exact .none
        | member ha hm hk _ read =>
          obtain ⟨x, hx, rfl⟩ := mem_arguments ha
          exact .choice (ih _ x hx (sound.part (part hx)) (dense.part (part hx)) _ _
            (fun w t hw => listed w t (.member hx (members ▸ hm) hk hw)) read)
        | tagged ha ht hm text _ read =>
          obtain ⟨x, hx, rfl⟩ := mem_arguments ha
          obtain ⟨child, same⟩ := tagged?_child ht
          rw [same] at read
          have inner := child.part.trans (part hx)
          exact .choice (ih' _ x _ hx child (sound.part inner) (dense.part inner) _ _
            (fun w t hw => listed w t (.selected hc hx ht (members ▸ hm) text hw)) read)
  · rintro _ _ ⟨⟩ f hf optional hc value
    rcases (made.field f hf).source with ⟨none, -⟩ | ⟨k, x, hx, hk, given, read⟩
    · rw [value] at none; cases none
    · rw [value] at read
      exact ne_empty_of_read given optional hc
        (listed x f.shape (.field hx hf hk .self) hc) read

theorem readsDensely (v : Value) : ReadsDensely v := by
  induction v using family_induction with
  | step v ih ih' =>
    intro sound dense s w listed h
    cases hc : s.isCollection with
    | true =>
      rcases listed v s .self hc with rfl | ⟨xs, hxs⟩
      · cases s with
        | one k => cases hc
        | _ => cases h
      · obtain ⟨vs, rfl, -, source⟩ := items_of_read hc hxs h
        refine .of_children (fun y c => ?_) nofun
        cases c with
        | tuple hy =>
          obtain ⟨x, hx, read⟩ := source y hy
          have child : x.Child v := child_of_items hxs hx
          exact ih x child (sound.child child) (dense.part child.part) _ _
            (fun w t hw => listed w t (.item hxs hx hc hw)) read
    | false =>
      rcases read_cases v s with ⟨es, e, rfl, rfl⟩ | shape
      · obtain ⟨fs, rfl, made⟩ := (assemble_eq_ok (grounded_arguments es)).mp h
        exact dense_of_made made sound dense listed (fun k x hx => ih x (.dict hx))
          fun k x y hx hy => ih' x y (.dict hx) hy
      · rw [shape] at h
        cases s with
        | one k => exact dense_of_readScalar sound dense (Except.mapError_eq_ok.mp h)
        | _ => cases hc

/-- No optional collection of an element is empty if the arguments give collections as tuples or
lists. -/
theorem dense_of_build {e : Element} {args : Keyed Value} {v : Value}
    (sound : ∀ k x, (k, x) ∈ args → Sound x) (dense : ∀ k x, (k, x) ∈ args → Dense x)
    (listed : Listed (.dict args) (.one (.element e))) (h : e.build args = .ok v) : Dense v := by
  refine readsDensely (.dict args) (.of_children (fun x c => ?_) nofun nofun nofun)
    (.of_children (fun x c => ?_) nofun) _ v listed h
  · cases c with | dict hx => exact sound _ x hx
  · cases c with | dict hx => exact dense _ x hx

end Build

end V2G
