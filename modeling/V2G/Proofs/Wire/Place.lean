import V2G.Proofs.Wire.Diagnosis
import V2G.Proofs.Wire.RoundTrip

/-!
# Places in documents

What stands at a place of a document, and for which shape it is read there (`At`). A place is
reached if everything that is read before it can be read (`Reached`): an error at a place that is
reached is the error of the whole document (`decode_of_reached`). In a valid document every place
is reached, and it still is when what stands there is replaced (`reached_edit`).
-/

namespace V2G

namespace Json

/-- The document at a place. -/
def at? : Json → Path → Option Json
  | j, [] => some j
  | .obj ms, .key k :: p => (Keyed.get? ms k).bind (·.at? p)
  | .arr js, .index i :: p => js[i]?.bind (·.at? p)
  | _, _ => none

/-- A document with what stands at a place changed. -/
def edit (f : Json → Json) : Path → Json → Json
  | [], j => f j
  | .key k :: p, .obj ms => .obj (Keyed.update ms k (edit f p))
  | .index i :: p, .arr js => .arr (js.modify i (edit f p))
  | _, j => j

/-- An object without a key. -/
def without (key : String) : Json → Json
  | .obj ms => .obj (Keyed.erase ms key)
  | j => j

theorem edit_append (f : Json → Json) (p q : Path) (j : Json) :
    j.edit f (p ++ q) = j.edit (edit f q) p := by
  induction p generalizing j with
  | nil => rfl
  | cons step p ih =>
    have rest : edit f (p ++ q) = edit (edit f q) p := funext ih
    cases step <;> cases j <;> simp only [List.cons_append, edit, rest]

end Json

namespace Path

theorem join_ne_empty {path : String} (h : path ≠ "") (step : Step) : join path step ≠ "" := by
  cases step <;> simp [join, h]

theorem render_append_ne_empty {p : Path} (h : render p ≠ "") (q : Path) :
    render (p ++ q) ≠ "" := by
  induction q generalizing p with
  | nil => rwa [List.append_nil]
  | cons step q ih =>
    have longer : render (p ++ [step]) ≠ "" := by
      rw [render_append_singleton]
      exact join_ne_empty h step
    simpa using ih longer

/-- A path with a key in it is not written as the empty text. -/
theorem render_ne_empty {k : String} (h : k ≠ "") (p q : Path) :
    render (p ++ .key k :: q) ≠ "" := by
  have first : render (p ++ [.key k]) ≠ "" := by
    rw [render_append_singleton, join]
    split <;> simp [h]
  simpa using render_append_ne_empty first q

end Path

namespace Element

variable {e : Element} {f : Field}

theorem mem_inspected :
    f ∈ e.inspected ↔ f ∈ e.fields ∨ ∃ m ∈ e.members, f = .optional m.name m.key m.kind := by
  rw [inspected, List.mem_append, mem_orderedFields, List.mem_map]
  simp only [eq_comm]

theorem inspectedKeys_nodup (e : Element) : (e.inspected.map (·.key)).Nodup := by
  have keys : e.inspected.map (·.key) =
      (e.mandatoryFields ++ e.optionalFields).map (·.key) ++ e.members.map (·.key) := by
    rw [inspected, List.map_append, List.map_map]
    rfl
  rw [keys]
  exact (e.orderedKeys_perm.append_right _).nodup_iff.mpr e.keys_nodup

theorem key_of_inspected (h : f ∈ e.inspected) : f.key ∈ e.keys := by
  rcases mem_inspected.mp h with hf | ⟨m, hm, rfl⟩
  · exact List.mem_append_left _ (List.mem_map_of_mem hf)
  · exact List.mem_append_right _ (List.mem_map_of_mem hm)

/-- What is inspected is told by its key. -/
theorem eq_of_inspectedKey {g : Field} (hf : f ∈ e.inspected) (hg : g ∈ e.inspected)
    (same : f.key = g.key) : f = g :=
  List.inj_on_of_nodup_map e.inspectedKeys_nodup hf hg same

/-- The keys that are inspected before another are different from it. -/
theorem key_ne_of_before {before after : List Field} (split : e.inspected = before ++ f :: after)
    {g : Field} (hg : g ∈ before) : f.key ≠ g.key := by
  have nodup := e.inspectedKeys_nodup
  rw [split, List.map_append, List.map_cons] at nodup
  have apart := (List.nodup_append.mp nodup).2.2 _ (List.mem_map_of_mem hg) _ List.mem_cons_self
  exact apart.symm

end Element

variable {reader : Url.Reader}

namespace Wire

variable {strict : Bool} {s t : Shape} {j w : Json} {p : Path}

/-! ### What stands at a place -/

/-- At a place of a document that is read for a shape there is a document that is read for a shape
in turn: the value of a key that is inspected, or an item of an array. -/
inductive At : Shape → Json → Path → Shape → Json → Prop where
  | here {s : Shape} {j : Json} : At s j [] s j
  | item {s t : Shape} {js : List Json} {i : Nat} {x w : Json} {p : Path} :
      s.isCollection = true → js[i]? = some x → At (.one s.kind) x p t w →
      At s (.arr js) (.index i :: p) t w
  | entry {e : Element} {t : Shape} {ms : Keyed Json} {f : Field} {x w : Json} {p : Path} :
      f ∈ e.inspected → member? ms f.key = some x → At f.shape x p t w →
      At (.one (.element e)) (.obj ms) (.key f.key :: p) t w

theorem get?_of_member? {ms : Keyed Json} {key : String} (h : member? ms key = some j) :
    Keyed.get? ms key = some j ∧ j.isNull = false := by
  obtain ⟨there, full⟩ := Option.filter_eq_some_iff.mp h
  exact ⟨there, by simpa using full⟩

theorem member?_of_get? {ms : Keyed Json} {key : String} (h : Keyed.get? ms key = some j)
    (full : j.isNull = false) : member? ms key = some j :=
  Option.filter_eq_some_iff.mpr ⟨h, by simpa using full⟩

namespace At

theorem at?_eq (h : At s j p t w) : j.at? p = some w := by
  induction h with
  | here => rw [Json.at?]
  | item _ there _ ih => rw [Json.at?, there, Option.bind_some, ih]
  | entry _ there _ ih => rw [Json.at?, (get?_of_member? there).1, Option.bind_some, ih]

/-- A place below another one is a place of what stands there. -/
theorem rest {q : Path} {u : Shape} {x : Json} (h : At s j p t w) (h' : At s j (p ++ q) u x) :
    At t w q u x := by
  induction h with
  | here => exact h'
  | item _ there _ ih =>
    cases h' with
    | item _ there' below =>
      cases there.symm.trans there'
      exact ih below
  | entry inspected there _ ih =>
    generalize key : Step.key _ = step at h'
    cases h' with
    | entry inspected' there' below =>
      obtain rfl := Element.eq_of_inspectedKey inspected inspected' (Step.key.inj key)
      cases there.symm.trans there'
      exact ih below

end At

/-- Below the root of an element a place goes by its path. -/
theorem At.orClass_eq {e : Element} (h : At (.one (.element e)) j p t w) (below : p ≠ [])
    (e' : Element) : orClass e' p = p := by
  refine if_neg ?_
  cases h with
  | here => exact absurd rfl below
  | item collection => cases collection
  | entry inspected =>
    exact Path.render_ne_empty (Element.ne_empty_of_key (Element.key_of_inspected inspected)) [] _

theorem Valid.readable (h : Valid strict s j) : Readable strict s j := by
  obtain ⟨r, read, -⟩ := (told strict j s [] _).mpr ⟨h, rfl⟩
  exact (decode_ok_iff j s []).mp ⟨r, read⟩

/-- In a valid object each key that is inspected holds something valid. -/
theorem Valid.entry {e : Element} {ms : Keyed Json} {f : Field}
    (h : Valid strict (.one (.element e)) (.obj ms)) (hf : f ∈ e.inspected) :
    (f.required = true → member? ms f.key ≠ none) ∧
      ∀ j, member? ms f.key = some j → Valid strict f.shape j := by
  cases h with
  | scalar accepts => exact accepts.elim
  | object mandatory fields _ chosen =>
    rcases Element.mem_inspected.mp hf with hf | ⟨m, hm, rfl⟩
    · exact ⟨mandatory f hf, fields f hf⟩
    · refine ⟨nofun, fun j hj => ?_⟩
      cases hc : e.choice with
      | none => simp [Element.members, hc] at hm
      | some c => exact chosen c m j hc (Element.members_eq hc ▸ hm) hj

theorem Valid.passes {e : Element} {ms : Keyed Json} {f : Field}
    (h : Valid strict (.one (.element e)) (.obj ms)) (hf : f ∈ e.inspected) :
    Passes strict ms f :=
  ⟨(h.entry hf).1, fun j hj => ((h.entry hf).2 j hj).readable⟩

theorem At.valid (h : At s j p t w) (valid : Valid strict s j) : Valid strict t w := by
  induction h with
  | here => exact valid
  | item collection there _ ih =>
    exact ih (valid.item collection _ (List.mem_of_getElem? there))
  | entry inspected there _ ih => exact ih ((valid.entry inspected).2 _ there)

/-! ### What is reached -/

variable [reader]

/-- Everything that is read before a place can be read: the items before it in each array, and the
keys that are inspected before it in each object. -/
inductive Reached (strict : Bool) : Shape → Json → Path → Shape → Json → Prop where
  | here {s : Shape} {j : Json} : Reached strict s j [] s j
  | item {s t : Shape} {before after : List Json} {x w : Json} {p : Path} :
      s.isCollection = true → (∀ y ∈ before, Readable strict (.one s.kind) y) →
      Reached strict (.one s.kind) x p t w →
      Reached strict s (.arr (before ++ x :: after)) (.index before.length :: p) t w
  | entry {e : Element} {t : Shape} {ms : Keyed Json} {before after : List Field} {f : Field}
      {x w : Json} {p : Path} : e.inspected = before ++ f :: after →
      (∀ g ∈ before, Passes strict ms g) → member? ms f.key = some x →
      Reached strict f.shape x p t w →
      Reached strict (.one (.element e)) (.obj ms) (.key f.key :: p) t w

variable {reader}

theorem Reached.at (h : Reached strict s j p t w) : At s j p t w := by
  induction h with
  | here => exact .here
  | item collection _ _ ih => exact .item collection (by simp) ih
  | entry split _ there _ ih =>
    exact .entry (split ▸ List.mem_append_right _ List.mem_cons_self) there ih

/-- What cannot be read at a place that is reached ends the reading of the whole. -/
theorem decode_of_reached (h : Reached strict s j p t w) {path : Path} {failure : Failure}
    (fails : (decode strict w t (path ++ p)).outcome = .error failure) :
    (decode strict j s path).outcome = .error failure := by
  induction h generalizing path with
  | here => rwa [List.append_nil] at fails
  | item collection before _ ih =>
    rw [decode_array collection]
    refine decodeItems_eq_error.mpr ⟨_, _, _, rfl, before, ih ?_⟩
    rwa [List.append_assoc]
  | entry split before there _ ih =>
    refine decodeObject_eq_error.mpr (.inl ⟨_, _, _, split, before, ?_⟩)
    refine decodeField_eq_error.mpr (.inr ⟨_, there, ih ?_⟩)
    rwa [List.append_assoc]

/-! ### Changes at a place -/

variable {f : Json → Json}

theorem isNull_edit (h : At s j p t w) (full : j.isNull = false) (full' : (f w).isNull = false) :
    (j.edit f p).isNull = false := by
  cases h with
  | here => exact full'
  | item => rfl
  | entry => rfl

theorem member?_update_of_ne {ms : Keyed Json} {k k' : String} (h : k ≠ k') :
    member? (Keyed.update ms k f) k' = member? ms k' := by
  rw [member?, Keyed.get?_update_of_ne h, member?]

theorem member?_update_self {ms : Keyed Json} {k : String} (h : Keyed.get? ms k = some j)
    (full : (f j).isNull = false) : member? (Keyed.update ms k f) k = some (f j) :=
  member?_of_get? (by rw [Keyed.get?_update_self, h, Option.map_some]) full

theorem passes_congr {ms ms' : Keyed Json} {g : Field}
    (same : member? ms' g.key = member? ms g.key) (h : Passes strict ms g) :
    Passes strict ms' g := by
  rw [Passes, same]
  exact h

/-- Each place of a valid document is reached, also when what stands there is changed. -/
theorem reached_edit (h : At s j p t w) (valid : Valid strict s j)
    (full : (f w).isNull = false) : Reached strict s (j.edit f p) p t (f w) := by
  induction h with
  | here => exact .here
  | @item s t js i x w p collection there _ ih =>
    obtain ⟨hi, rfl⟩ := List.getElem?_eq_some_iff.mp there
    have items := valid.item collection
    have split : js.modify i (Json.edit f p) =
        js.take i ++ js[i].edit f p :: js.drop (i + 1) := by
      rw [List.modify_eq_take_cons_drop hi]
    have length : (js.take i).length = i := by
      rw [List.length_take]
      omega
    have reached : Reached strict s (.arr (js.take i ++ js[i].edit f p :: js.drop (i + 1)))
        (.index (js.take i).length :: p) t (f w) :=
      .item collection (fun y hy => (items y (List.mem_of_mem_take hy)).readable)
        (ih (items _ (List.getElem_mem hi)) full)
    rwa [length, ← split] at reached
  | @entry e t ms g x w p inspected there below ih =>
    obtain ⟨before, after, split⟩ := List.append_of_mem inspected
    obtain ⟨found, kept⟩ := get?_of_member? there
    refine .entry split (fun g' hg' => ?_)
      (member?_update_self found (isNull_edit below kept full))
      (ih ((valid.entry inspected).2 x there) full)
    have hg : g' ∈ e.inspected := split ▸ List.mem_append_left _ hg'
    exact passes_congr (member?_update_of_ne (Element.key_ne_of_before split hg'))
      (valid.passes hg)

end Wire

end V2G
