import V2G.Proofs.Wire.Lockstep
import V2G.Proofs.Wire.Place

/-!
# The order of keys

The order in which the keys of objects stand in a document makes no difference to what parsing
gives (`parse_reordered`): the keys that an element declares are looked up in the order of the
declaration. Only where one object holds several unknown keys, and unknown keys are refused, the
one that comes first in the document is the one that is named.
-/

namespace V2G.Wire

variable {strict : Bool} {path : Path} {s : Shape} {e : Element} {j j' : Json} {ms ms' : Keyed Json}

/-- Two documents that differ in the order of the keys of objects only, at any depth. No key stands
twice in an object. -/
inductive Reordered : Json → Json → Prop where
  | same {j : Json} : Reordered j j
  | arr {js js' : List Json} : js.length = js'.length →
      (∀ p ∈ js.zip js', Reordered p.1 p.2) → Reordered (.arr js) (.arr js')
  | obj {ms ms' : Keyed Json} : ms.keys.Nodup → ms.keys.Perm ms'.keys →
      (∀ k j j', Keyed.get? ms k = some j → Keyed.get? ms' k = some j' → Reordered j j') →
      Reordered (.obj ms) (.obj ms')

theorem Reordered.isNull_eq (h : Reordered j j') : j.isNull = j'.isNull := by
  cases h <;> rfl

/-- Two objects with the same keys both hold something under a key, or neither does. -/
theorem member?_both (keys : ∀ k, k ∈ ms.keys ↔ k ∈ ms'.keys) {key : String}
    (null : ∀ j j', Keyed.get? ms key = some j → Keyed.get? ms' key = some j' →
      j.isNull = j'.isNull) :
    (member? ms key = none ∧ member? ms' key = none) ∨
      ∃ j j', member? ms key = some j ∧ member? ms' key = some j' := by
  have absent : Keyed.get? ms key = none ↔ Keyed.get? ms' key = none := by
    rw [Keyed.get?_eq_none_iff, Keyed.get?_eq_none_iff, keys]
  unfold member?
  cases hj : Keyed.get? ms key with
  | none =>
    rw [absent.mp hj]
    exact .inl ⟨rfl, rfl⟩
  | some j =>
    cases hj' : Keyed.get? ms' key with
    | none => cases hj.symm.trans (absent.mpr hj')
    | some j' =>
      have same := null j j' hj hj'
      cases hn : j.isNull with
      | true => exact .inl ⟨by simp [Option.filter, hn], by simp [Option.filter, ← same, hn]⟩
      | false =>
        exact .inr ⟨j, j', by simp [Option.filter, hn], by simp [Option.filter, ← same, hn]⟩

/-! ### Unknown keys -/

/-- The keys of an object that an element does not declare, in the order of the document. -/
def unknownKeys (e : Element) (ms : Keyed Json) : List String :=
  ms.keys.filter fun k => !e.keys.contains k

section

variable {reader : Url.Reader}

theorem outcome_checkKeys : (checkKeys strict e (object strict ms) path).outcome =
    match unknownKeys e ms with
    | [] => .ok ()
    | k :: _ =>
      if strict then .error (.error (.malformed (path ++ [.key k]) (.unknownKey e))) else .ok () := by
  unfold checkKeys unknownKeys
  rw [keys_object]
  cases ms.keys.filter fun k => !e.keys.contains k with
  | nil => rfl
  | cons k rest => cases strict <;> rfl

/-- Where unknown keys are ignored, the check for them never fails. -/
theorem outcome_checkKeys_lenient :
    (checkKeys false e (object false ms) path).outcome = .ok () := by
  rw [outcome_checkKeys]
  cases unknownKeys e ms <;> rfl

/-- A reading ends with the first unknown key of an object. -/
def NamesFirst (path : Path) (e : Element) (ms : Keyed Json) (failure : Failure) : Prop :=
  ∃ k, (unknownKeys e ms).head? = some k ∧
    failure = .error (.malformed (path ++ [.key k]) (.unknownKey e))

/-- How the readings of two documents may end in different ways: an object holds several unknown
keys, and each reading ends with the one that comes first in its own document. -/
inductive NamesApart (path : Path) (s : Shape) (j j' : Json) : Failure → Failure → Prop where
  | unknown {p : Path} {e : Element} {ms ms' : Keyed Json} {failure failure' : Failure} :
      At s j p (.one (.element e)) (.obj ms) → At s j' p (.one (.element e)) (.obj ms') →
      ms.keys.Perm ms'.keys → 1 < (unknownKeys e ms).length →
      NamesFirst (path ++ p) e ms failure → NamesFirst (path ++ p) e ms' failure' →
      NamesApart path s j j' failure failure'

/-! ### Outcomes that agree -/

/-- The same outcome, or two failures that are excused. -/
def Agree (X : Failure → Failure → Prop) (α : Type) (o o' : Except Failure α) : Prop :=
  o = o' ∨ ∃ failure failure', o = .error failure ∧ o' = .error failure' ∧ X failure failure'

theorem kept_agree (X : Failure → Failure → Prop) : Kept (Agree X) where
  refl _ := .inl rfl
  bind := by
    rintro _ _ o _ _ _ (rfl | ⟨failure, failure', rfl, rfl, excused⟩) rest
    · cases o with
      | error failure => exact .inl rfl
      | ok v => exact rest v
    · exact .inr ⟨failure, failure', rfl, rfl, excused⟩

theorem Agree.imp {X Y : Failure → Failure → Prop} {α : Type} {o o' : Except Failure α}
    (h : Agree X α o o') (imp : ∀ failure failure', X failure failure' → Y failure failure') :
    Agree Y α o o' :=
  h.imp_right fun ⟨failure, failure', ends, ends', excused⟩ =>
    ⟨failure, failure', ends, ends', imp _ _ excused⟩

theorem checkKeys_reordered (perm : ms.keys.Perm ms'.keys) :
    Agree (fun failure failure' => strict = true ∧
        NamesApart path (.one (.element e)) (.obj ms) (.obj ms') failure failure') Unit
      (checkKeys strict e (object strict ms) path).outcome
      (checkKeys strict e (object strict ms') path).outcome := by
  have same : (unknownKeys e ms).Perm (unknownKeys e ms') := perm.filter _
  cases strict with
  | false => exact .inl (outcome_checkKeys_lenient.trans outcome_checkKeys_lenient.symm)
  | true =>
    rw [outcome_checkKeys, outcome_checkKeys]
    cases first : unknownKeys e ms with
    | nil =>
      rw [first, List.nil_perm] at same
      rw [same]
      exact .inl rfl
    | cons k rest =>
      cases rest with
      | nil =>
        rw [first, List.singleton_perm] at same
        rw [same]
        exact .inl rfl
      | cons l rest =>
        cases first' : unknownKeys e ms' with
        | nil =>
          rw [first, first'] at same
          cases same.eq_nil
        | cons k' rest' =>
          refine .inr ⟨_, _, rfl, rfl, rfl, .unknown .here .here perm (by simp [first])
            ⟨k, by rw [first]; rfl, ?_⟩ ⟨k', by rw [first']; rfl, ?_⟩⟩ <;> rw [List.append_nil]

/-! ### Reading -/

theorem NamesApart.item {js js' : List Json} {i : Nat} {x x' : Json} {failure failure' : Failure}
    (collection : s.isCollection = true) (there : js[i]? = some x) (there' : js'[i]? = some x')
    (h : NamesApart (path ++ [.index i]) (.one s.kind) x x' failure failure') :
    NamesApart path s (.arr js) (.arr js') failure failure' := by
  cases h with
  | unknown place place' perm several first first' =>
    rw [List.append_assoc] at first first'
    exact .unknown (.item collection there place) (.item collection there' place') perm several
      first first'

theorem NamesApart.entry {f : Field} {x x' : Json} {failure failure' : Failure}
    (inspected : f ∈ e.inspected) (there : member? ms f.key = some x)
    (there' : member? ms' f.key = some x')
    (h : NamesApart (path ++ [.key f.key]) f.shape x x' failure failure') :
    NamesApart path (.one (.element e)) (.obj ms) (.obj ms') failure failure' := by
  cases h with
  | unknown place place' perm several first first' =>
    rw [List.append_assoc] at first first'
    exact .unknown (.entry inspected there place) (.entry inspected there' place') perm several
      first first'

/-- The readings of two documents that differ in the order of keys agree. -/
theorem decode_reordered (h : Reordered j j') (strict : Bool) (s : Shape) (path : Path) :
    Agree (fun failure failure' => strict = true ∧ NamesApart path s j j' failure failure') Value
      (decode strict j s path).outcome (decode strict j' s path).outcome := by
  induction h generalizing s path with
  | same => exact .inl rfl
  | @arr js js' length _ ih =>
    cases collection : s.isCollection with
    | false =>
      exact .inl (congrArg Traced.outcome (decode_arr_of_single collection js js'))
    | true =>
      refine decode_arrays_inStep (kept_agree _) collection length fun i x x' there there' => ?_
      have pair : (x, x') ∈ js.zip js' :=
        List.mem_of_getElem? (List.getElem?_zip_eq_some.mpr ⟨there, there'⟩)
      exact (ih (x, x') pair (.one s.kind) _).imp fun _ _ apart =>
        ⟨apart.1, apart.2.item collection there there'⟩
  | @obj ms ms' _ perm entries ih =>
    by_cases element : ∃ e, s = .one (.element e)
    · obtain ⟨e, rfl⟩ := element
      refine decode_objects_inStep (kept_agree _) (fun f hf => ?_) (checkKeys_reordered perm)
      have null (x x' : Json) (hx : Keyed.get? ms f.key = some x)
          (hx' : Keyed.get? ms' f.key = some x') : x.isNull = x'.isNull :=
        (entries _ x x' hx hx').isNull_eq
      rcases member?_both (fun _ => perm.mem_iff) null with
        ⟨none, none'⟩ | ⟨x, x', there, there'⟩
      · rw [none, none']
        exact .none
      · have agree := ih _ x x' (get?_of_member? there).1 (get?_of_member? there').1 f.shape
          (path ++ [.key f.key])
        rw [there, there']
        exact .some (agree.imp fun _ _ apart => ⟨apart.1, apart.2.entry hf there there'⟩)
    · exact .inl (congrArg Traced.outcome (decode_obj_of_other element ms ms'))

/-! ### Parsing -/

/-- Two documents that differ in the order of keys are parsed as the same message, or refused with
the same error, with one exception: where unknown keys are refused and an object holds several of
them, the one named is the first in the order of the document. -/
theorem parse_reordered (h : Reordered j j') (s : Settings) (e : Element) :
    (Codec.plain.parse s e j).outcome = (Codec.plain.parse s e j').outcome ∨
      ∃ failure failure', (Codec.plain.parse s e j).outcome = .error failure ∧
        (Codec.plain.parse s e j').outcome = .error failure' ∧ s.rejectUnknown = true ∧
        NamesApart [] (.one (.element e)) j j' failure failure' := by
  rw [Codec.outcome_parse, Codec.outcome_parse]
  exact decode_reordered h s.rejectUnknown (.one (.element e)) []

end

def valueFirst : Json := .obj [("value", .int 5), ("exponent", .int 0)]

def exponentFirst : Json := .obj [("exponent", .int 0), ("value", .int 5)]

def remarkFirst : Json :=
  .obj [("remark", .null), ("unit", .str "V"), ("exponent", .int 0), ("value", .int 5)]

def unitFirst : Json :=
  .obj [("unit", .str "V"), ("remark", .null), ("exponent", .int 0), ("value", .int 5)]

theorem rational_reordered :
    (Codec.plain.parse {} .rationalNumber valueFirst).outcome =
        (Codec.plain.parse {} .rationalNumber exponentFirst).outcome ∧
      ((Codec.plain.parse {} .rationalNumber remarkFirst).outcome =
          (Codec.plain.parse {} .rationalNumber unitFirst).outcome ∨
        ∃ failure failure',
          (Codec.plain.parse {} .rationalNumber remarkFirst).outcome = .error failure ∧
          (Codec.plain.parse {} .rationalNumber unitFirst).outcome = .error failure' ∧
          true = true ∧
          NamesApart [] (.one (.element .rationalNumber)) remarkFirst unitFirst failure
            failure') := by
  have entries {ms ms' : Keyed Json} (nodup : ms.keys.Nodup) (perm : ms.Perm ms') :
      Reordered (.obj ms) (.obj ms') := by
    refine .obj nodup (perm.map _) fun k j j' hj hj' => ?_
    rw [Keyed.get?_of_mem ((perm.map _).nodup nodup) (perm.subset (Keyed.mem_of_get? hj))] at hj'
    cases hj'
    exact .same
  have known : Reordered valueFirst exponentFirst := entries (by decide) (.swap _ _ _)
  have unknown : Reordered remarkFirst unitFirst := entries (by decide) (.swap _ _ _)
  refine ⟨(parse_reordered known {} .rationalNumber).resolve_right ?_,
    parse_reordered unknown {} .rationalNumber⟩
  rintro ⟨failure, -, fails, -⟩
  cases fails

end V2G.Wire
