import Mathlib.Data.List.Forall2
import V2G.Proofs.Wire.Diagnosis

/-!
# Two readings in step

Two documents are read for one shape, step by step: item by item of their arrays, and key by key
of their objects. A relation between outcomes that sequences keep (`Kept`) holds of what becomes
of two arrays if it does of their items, and of what becomes of two objects if it does of what
stands under the keys that are inspected and of the check for unknown keys.
-/

namespace V2G

/-- A relation between outcomes that holds of two sequences if it holds step by step. -/
structure Kept (R : (α : Type) → Except Failure α → Except Failure α → Prop) : Prop where
  refl {α : Type} (o : Except Failure α) : R α o o
  bind {α β : Type} {o o' : Except Failure α} {f f' : α → Except Failure β} :
    R α o o' → (∀ v, R β (f v) (f' v)) → R β (o >>= f) (o' >>= f')

namespace Kept

variable {R : (α : Type) → Except Failure α → Except Failure α → Prop} {α β γ : Type}

theorem eq : Kept fun _ o o' => o = o' where
  refl _ := rfl
  bind := by
    rintro _ _ _ _ f f' rfl rest
    rw [show f = f' from funext rest]

theorem map (kept : Kept R) {o o' : Except Failure α} (h : R α o o') (f : α → β) :
    R β (o.map f) (o'.map f) := by
  have map_eq (o : Except Failure α) : o.map f = o >>= fun v => .ok (f v) := by
    cases o <;> rfl
  rw [map_eq, map_eq]
  exact kept.bind h fun v => kept.refl _

theorem mapM (kept : Kept R) {xs : List α} {ys : List β} {f : α → Except Failure γ}
    {g : β → Except Failure γ} (h : List.Forall₂ (fun x y => R γ (f x) (g y)) xs ys) :
    R (List γ) (xs.mapM f) (ys.mapM g) := by
  induction h with
  | nil => exact kept.refl _
  | cons first _ ih =>
    rw [List.mapM_cons, List.mapM_cons]
    exact kept.bind first fun v => kept.bind ih fun vs => kept.refl _

end Kept

variable {reader : Url.Reader}

namespace Wire

variable {R : (α : Type) → Except Failure α → Except Failure α → Prop} {strict strict' : Bool}
  {path : Path} {s : Shape} {e : Element}

variable [reader]

/-- What stands in two documents at one place is read in step. -/
abbrev InStep (R : (α : Type) → Except Failure α → Except Failure α → Prop)
    (strict strict' : Bool) (s : Shape) (path : Path) (j j' : Json) : Prop :=
  R Value (decode strict j s path).outcome (decode strict' j' s path).outcome

variable {reader}

/-- Where no collection is read, an array is refused whatever stands in it. -/
theorem decode_arr_of_single (single : s.isCollection = false) (js js' : List Json) :
    decode strict (.arr js) s path = decode strict' (.arr js') s path := by
  rcases s with (_ | _ | _ | _ | _ | _ | _ | e) | _ | _ <;> first | rfl | cases single

/-- Where no element is read, an object is refused whatever stands in it. -/
theorem decode_obj_of_other (other : ¬ ∃ e, s = .one (.element e)) (ms ms' : Keyed Json) :
    decode strict (.obj ms) s path = decode strict' (.obj ms') s path := by
  rcases s with (_ | _ | _ | _ | _ | _ | _ | e) | _ | _ <;>
    first | rfl | exact absurd ⟨e, rfl⟩ other

theorem decode_arrays_inStep (kept : Kept R) {js js' : List Json}
    (collection : s.isCollection = true) (length : js.length = js'.length)
    (items : ∀ i x x', js[i]? = some x → js'[i]? = some x' →
      InStep R strict strict' (.one s.kind) (path ++ [.index i]) x x') :
    InStep R strict strict' s path (.arr js) (.arr js') := by
  rw [InStep, decode_array collection, decode_array collection, outcome_decodeItems,
    outcome_decodeItems]
  refine kept.map (kept.mapM (List.forall₂_iff_get.mpr ⟨by simpa using length, ?_⟩)) _
  intro i hi hi'
  rw [List.length_mapIdx] at hi hi'
  simpa using items i js[i] js'[i] (List.getElem?_eq_getElem hi) (List.getElem?_eq_getElem hi')

theorem outcome_decodeField {ms : Keyed Json} (f : Field) :
    (decodeField (object strict ms) path f).outcome =
      match member? ms f.key with
      | some j => (decode strict j f.shape (path ++ [.key f.key])).outcome.map fun v => [(f.key, v)]
      | none =>
        if f.required then .error (.error (.missingMandatory (path ++ [.key f.key]))) else .ok [] := by
  unfold decodeField
  rw [entry_object]
  cases member? ms f.key with
  | none => cases f.required <;> rfl
  | some j =>
    dsimp only [Option.map_some]
    rw [Traced.outcome_bind, Traced.outcome_emit]
    show (decode strict j f.shape _ >>= _).outcome = _
    rw [Traced.outcome_bind]
    cases (decode strict j f.shape (path ++ [.key f.key])).outcome <;> rfl

theorem decode_objects_inStep (kept : Kept R) {ms ms' : Keyed Json}
    (entries : ∀ f ∈ e.inspected,
      Option.Rel (InStep R strict strict' f.shape (path ++ [.key f.key])) (member? ms f.key)
        (member? ms' f.key))
    (keys : R Unit (checkKeys strict e (object strict ms) path).outcome
      (checkKeys strict' e (object strict' ms') path).outcome) :
    InStep R strict strict' (.one (.element e)) path (.obj ms) (.obj ms') := by
  show R Value (decodeObject strict e (object strict ms) path).outcome
    (decodeObject strict' e (object strict' ms') path).outcome
  rw [outcome_decodeObject, outcome_decodeObject]
  refine kept.bind (kept.mapM (List.forall₂_same.mpr fun f hf => ?_)) fun args =>
    kept.bind keys fun _ => kept.refl _
  have entry := entries f hf
  rw [outcome_decodeField, outcome_decodeField]
  generalize member? ms f.key = there at entry ⊢
  generalize member? ms' f.key = there' at entry ⊢
  cases entry with
  | some step => exact kept.map step _
  | none => exact kept.refl _

end Wire

end V2G
