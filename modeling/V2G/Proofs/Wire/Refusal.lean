import V2G.Proofs.Alike
import V2G.Proofs.Build.Report
import V2G.Proofs.Wire.Place

/-!
# Where the reading of a document ends

The reading of a document that is not valid ends at a place that is reached (`ends_of_decode`): at
a value of another type, at a mandatory key that is missing, at an unknown key, or at an object all
keys of which are read but which makes no element (`Refused`). An object makes no element because
of its choice group, else because of the first of its fields in declaration order whose value is
not valid, else because of its rule.
-/

namespace V2G.Wire

variable {strict : Bool} {path : Path} {s : Shape} {j : Json}

/-! ### Values that cannot be read -/

/-- A value that cannot be read is malformed at its path. -/
theorem malformed_of_decodeShape {error : MessageError}
    (h : (decodeShape s j path).outcome = .error (.error error)) :
    ∃ detail, error = .malformed path detail ∨
      ∃ e', s = .one (.element e') ∧ error = .malformed (orClass e' path) detail := by
  have bytes (s : String) (h : (decodeBytes path s).outcome = .error (.error error)) :
      ∃ detail, error = .malformed path detail := by
    unfold decodeBytes at h
    split at h
    · cases h
    · split at h
      · cases h
      · cases h
        exact ⟨_, rfl⟩
  cases s with
  | one k =>
    cases k with
    | bytes least most =>
      cases j with
      | str s => exact (bytes s h).imp fun _ => .inl
      | _ =>
        cases h
        exact ⟨_, .inl rfl⟩
    | element e' =>
      cases j <;> cases h <;> exact ⟨_, .inr ⟨e', rfl, rfl⟩⟩
    | _ => cases j <;> cases h <;> exact ⟨_, .inl rfl⟩
  | _ =>
    cases h
    exact ⟨_, .inl rfl⟩

/-! ### Faults of a value -/

variable [reader : Url.Reader]

/-- Where the fault of a value lies that is read for a shape but is not valid: in the first item of
an array that is not valid, or in the value as a whole. -/
inductive FaultAt (strict : Bool) : Shape → Json → Path → Prop where
  | whole {s : Shape} {j : Json} : (∀ js, s.isCollection = true → j = .arr js →
      (∀ x ∈ js, Valid strict (.one s.kind) x) ∨
        ∃ k least most, s = .list k least most ∧ most < js.length) → FaultAt strict s j []
  | item {s : Shape} {before after : List Json} {x : Json} : s.isCollection = true →
      (∀ y ∈ before, Valid strict (.one s.kind) y) → ¬ Valid strict (.one s.kind) x →
      FaultAt strict s (.arr (before ++ x :: after)) [.index before.length]

variable {reader}

theorem valid_of_read {r v : Value} (h : (decode strict j s path).outcome = .ok r)
    (read : Build.read r s = .ok v) : Valid strict s j :=
  ((told strict j s path v).mp ⟨r, h, read⟩).1

theorem read_of_valid {r : Value} (h : (decode strict j s path).outcome = .ok r)
    (valid : Valid strict s j) : Build.read r s = .ok (denote j s) := by
  obtain ⟨r', h', read⟩ := (told strict j s path _).mpr ⟨valid, rfl⟩
  cases h.symm.trans h'
  exact read

/-- A value other than a dictionary is refused for a kind as a whole. -/
theorem place_of_read_one {r : Value} {k : Kind} (plain : ∀ es, r ≠ .dict es) {i : Issue}
    (h : Refusal.first? (Build.read r (.one k)) = some i) : i.place = [] := by
  have scalar : Build.read r (.one k) = (Build.readScalar k r).mapError Refusal.fault := by
    cases r with
    | dict es => exact absurd rfl (plain es)
    | _ => rfl
  exact Refusal.first?_mapError_fault _ (scalar ▸ h)

theorem faulty_read_of_decode {r : Value} (h : (decode strict j s path).outcome = .ok r)
    (t : Shape) : Refusal.Faulty (Build.read r t) :=
  Build.faulty_read r (no_dict_of_decode h) t

variable [reader]

/-- What was read of an array, item by item. -/
def ItemsRead (strict : Bool) (k : Kind) (js : List Json) (rs : List Value) : Prop :=
  List.Forall₂ (fun j r => ∃ p, (decode strict j (.one k) p).outcome = .ok r) js rs

variable {reader}

/-- What was read of the items of an array is what was read of each. -/
theorem items_of_decode {js : List Json} {r : Value} (collection : s.isCollection = true)
    (h : (decode strict (.arr js) s path).outcome = .ok r) : ∃ rs : List Value, r = .tuple rs ∧
      ItemsRead strict s.kind js rs := by
  rw [decode_array collection] at h
  obtain ⟨rs, all, rfl⟩ := decodeItems_eq_ok.mp h
  refine ⟨rs, rfl, ?_⟩
  have length : js.length = rs.length := by simpa [items_eq] using congrArg List.length all
  refine List.forall₂_iff_get.mpr ⟨length, fun i hi hi' => ⟨path ++ [.index i], ?_⟩⟩
  have item := congrArg (·[i]?) all
  simpa [items_eq, hi, hi'] using item

theorem ItemsRead.valid {k : Kind} {js : List Json} {rs : List Value}
    (all : ItemsRead strict k js rs) (ok : ∀ r ∈ rs, ∃ v, Build.read r (.one k) = .ok v) :
    ∀ x ∈ js, Valid strict (.one k) x := by
  intro x hx
  obtain ⟨r, hr, p, read⟩ := (exists_of_forall₂ all).1 x hx
  obtain ⟨v, hv⟩ := ok r hr
  exact valid_of_read read hv

theorem ItemsRead.faulty {k : Kind} {js : List Json} {rs : List Value}
    (all : ItemsRead strict k js rs) : ∀ r ∈ rs, Refusal.Faulty (Build.read r (.one k)) := by
  intro r hr
  obtain ⟨x, -, p, read⟩ := (exists_of_forall₂ all).2 r hr
  exact faulty_read_of_decode read _

/-- The issue of an item is that of the first one that is not valid. -/
theorem ItemsRead.fault {js : List Json} {rs : List Value} {i : Issue}
    (all : ItemsRead strict s.kind js rs) (collection : s.isCollection = true)
    (below : Build.BelowItem s.kind rs i) : FaultAt strict s (.arr js) i.place := by
  obtain ⟨before, r, after, i', rfl, ok, refused, rfl⟩ := below
  have first := List.forall₂_take_append js before (r :: after) all
  obtain ⟨x, rest, ⟨p, read⟩, -, tail⟩ :=
    List.forall₂_cons_right_iff.mp (List.forall₂_drop_append js before (r :: after) all)
  have place : i'.place = [] :=
    place_of_read_one (fun es e => no_dict_of_decode read es (e ▸ .self)) refused
  have split : js = js.take before.length ++ x :: rest :=
    (List.take_append_drop before.length js).symm.trans (congrArg _ tail)
  have invalid : ¬ Valid strict (.one s.kind) x := by
    intro valid
    rw [read_of_valid read valid] at refused
    cases refused
  have item : FaultAt strict s (.arr (js.take before.length ++ x :: rest))
      [.index (js.take before.length).length] :=
    .item collection (ItemsRead.valid first ok) invalid
  rw [first.length_eq] at item
  rw [split, Issue.under, place]
  exact item

/-- The issue of a value that was read lies where its fault is. -/
theorem fault_of_read {r : Value} (h : (decode strict j s path).outcome = .ok r) {i : Issue}
    (first : Refusal.first? (Build.read r s) = some i) : FaultAt strict s j i.place := by
  cases collection : s.isCollection with
  | false =>
    cases s with
    | one k =>
      have place := place_of_read_one (fun es e => no_dict_of_decode h es (e ▸ .self)) first
      rw [place]
      exact .whole fun _ one => nomatch one
    | _ => cases collection
  | true =>
    obtain ⟨js, _, rfl, -, -⟩ := (decode_raw h).2.2 collection
    obtain ⟨rs, rfl, all⟩ := items_of_decode collection h
    have whole (place : i.place = [])
        (size : (∀ x ∈ rs, ∃ v, Build.read x (.one s.kind) = .ok v) ∨
          ∃ k least most, s = .list k least most ∧ most < rs.length) :
        FaultAt strict s (.arr js) i.place := by
      rw [place]
      refine .whole fun _ _ e => ?_
      cases e
      exact size.imp all.valid fun ⟨k, least, most, hs, long⟩ =>
        ⟨k, least, most, hs, all.length_eq ▸ long⟩
    cases s with
    | one k => cases collection
    | list k least most =>
      rcases Build.first_of_read_list all.faulty first with below | ⟨place, size⟩
      · exact all.fault rfl below
      · exact whole place (size.imp_right fun long => ⟨k, least, most, rfl, long⟩)
    | set k least most =>
      rcases Build.first_of_read_set all.faulty first with below | ⟨place, ok⟩
      · exact all.fault rfl below
      · exact whole place (.inl ok)

/-- The first entry of a list without a property is the only one that comes after entries with the
property. -/
theorem first_unique {α : Type} {P : α → Prop} {before before' after after' : List α} {a b : α}
    (h : before ++ a :: after = before' ++ b :: after') (hb : ∀ x ∈ before, P x) (ha : ¬ P a)
    (hb' : ∀ x ∈ before', P x) (hb'' : ¬ P b) : before = before' ∧ a = b := by
  induction before generalizing before' with
  | nil =>
    cases before' with
    | nil => exact ⟨rfl, (List.cons.inj h).1⟩
    | cons x before' => exact absurd ((List.cons.inj h).1 ▸ hb' x List.mem_cons_self) ha
  | cons x before ih =>
    cases before' with
    | nil => exact absurd ((List.cons.inj h).1 ▸ hb x List.mem_cons_self) hb''
    | cons y before' =>
      obtain ⟨rfl, rest⟩ := List.cons.inj h
      obtain ⟨rfl, same⟩ := ih rest (fun z hz => hb z (List.mem_cons_of_mem _ hz))
        fun z hz => hb' z (List.mem_cons_of_mem _ hz)
      exact ⟨rfl, same⟩

/-! ### Refused objects -/

section Objects

variable {e : Element} {ms : Keyed Json} {r : Refusal} {failure : Failure}

variable [reader]

/-- What stands under the key of a field is valid, if anything does. -/
def FieldValid (strict : Bool) (ms : Keyed Json) (f : Field) : Prop :=
  ∀ j, member? ms f.key = some j → Valid strict f.shape j

/-- An object selects as many members of the choice group as it has to, and what stands under
their keys is valid. -/
def SelectionValid (strict : Bool) (e : Element) (ms : Keyed Json) : Prop :=
  ∀ c, e.choice = some c → ((chosen c.group ms).length ≤ 1 ∧
    (c.group.required = true → chosen c.group ms ≠ [])) ∧
      ∀ m ∈ c.group.members, ∀ j, member? ms m.key = some j → Valid strict (.one m.kind) j

variable {reader}

theorem Valid.selection (h : Valid strict (.one (.element e)) (.obj ms)) :
    SelectionValid strict e ms := by
  cases h with
  | scalar accepts => exact accepts.elim
  | object _ _ count chosen =>
    exact fun c hc => ⟨count c hc, fun m hm j => chosen c m j hc hm⟩

theorem Valid.known (h : Valid strict (.one (.element e)) (.obj ms)) :
    strict = true → ∀ k ∈ ms.keys, k ∈ e.keys := by
  cases h with
  | scalar accepts => exact accepts.elim
  | object _ _ _ _ known => exact known

variable [reader]

/-- Why an object all keys of which are read makes no element. -/
inductive Refused (strict : Bool) (e : Element) (ms : Keyed Json) : Refusal → Prop where
  | conflict {c : ChoiceField} : e.choice = some c → 1 < (chosen c.group ms).length →
      Refused strict e ms
        (.message (.conflictingChoice c.group.name ((chosen c.group ms).map (·.key))))
  | unchosen {c : ChoiceField} : e.choice = some c → chosen c.group ms = [] →
      c.group.required = true →
      Refused strict e ms (.message (.missingChoice c.group.name c.group.keys))
  | member {c : ChoiceField} {m : Member} {j : Json} {faults : List (Path × Fault)} :
      e.choice = some c → chosen c.group ms = [m] → member? ms m.key = some j →
      ¬ Valid strict (.one m.kind) j →
      Refused strict e ms (Refusal.fault (.badMember m.key faults))
  | field {before after : List Field} {f : Field} {j : Json} {i : Issue} {is : List Issue} :
      SelectionValid strict e ms → e.fields = before ++ f :: after →
      (∀ g ∈ before, FieldValid strict ms g) → member? ms f.key = some j →
      ¬ Valid strict f.shape j → FaultAt strict f.shape j i.place →
      Refused strict e ms (.issues (i.under (.key f.key) :: is))
  | rule {error : MessageError} : SelectionValid strict e ms →
      (∀ f ∈ e.fields, FieldValid strict ms f) →
      Rule.broken? e (denote (.obj ms) (.one (.element e))) = some error →
      Refused strict e ms (.message error)

variable {reader}

/-- The place of an issue by the key of a field stays as it is. -/
theorem documentPlace_key {f : Field} (hf : f ∈ e.fields) (p : Path) :
    documentPlace e (.key f.key :: p) = .key f.key :: p := by
  rw [documentPlace]
  cases named : e.fields.find? (·.name == f.key) with
  | none => rfl
  | some g =>
    have hg : g ∈ e.fields := List.mem_of_find?_eq_some named
    have name : g.name = f.key := by simpa using List.find?_some named
    have known : g.name ∈ e.keys := name ▸ List.mem_append_left _ (List.mem_map_of_mem hf)
    simp [← name, Element.name_eq_key hg known]

/-- A field is reported at its place. -/
theorem ofRefusal_field {f : Field} (hf : f ∈ e.fields) (path : Path) (i : Issue)
    (is : List Issue) : ofRefusal e path (.issues (i.under (.key f.key) :: is)) =
      .error (.malformed (path ++ .key f.key :: i.place) (.refused i.fault)) := by
  have named : f.key ≠ "" :=
    Element.ne_empty_of_key (List.mem_append_left _ (List.mem_map_of_mem hf))
  rw [ofRefusal, Issue.under, documentPlace_key hf, orClass,
    if_neg (Path.render_ne_empty named path i.place)]

/-- A member is reported at the place of its element. -/
theorem ofRefusal_member (e : Element) (path : Path) (f : Fault) :
    ofRefusal e path (.fault f) = .error (.malformed (orClass e path) (.refused f)) := by
  simp [ofRefusal, Refusal.fault, documentPlace]

section Passed

variable (passes : ∀ f ∈ e.inspected, Passes strict ms f)

include passes

/-- What was read for the fields and the members before the element is built. -/
theorem passed_field (path : Path) {f : Field} (hf : f ∈ e.fields) :
    (f.required = true → Object.entry? (object strict ms) f.key ≠ none) ∧
      Ready (object strict ms) path f.key f.shape := by
  obtain ⟨there, readable⟩ := passes f (Element.mem_inspected.mpr (.inl hf))
  rw [entry_object, ready_object]
  refine ⟨fun required => ?_, fun j hj => (decode_ok_iff j _ _).mpr (readable j hj)⟩
  simpa using there required

theorem found_of_required (path : Path) {f : Field} (hf : f ∈ e.fields)
    (required : f.required = true) : found (object strict ms) path f.key f.shape ≠ none := by
  obtain ⟨there, -⟩ := passes f (Element.mem_inspected.mpr (.inl hf))
  obtain ⟨j, hj⟩ := Option.ne_none_iff_exists'.mp (there required)
  obtain ⟨r, read⟩ := ready_object.mp (passed_field passes path hf).2 j hj
  simp [found_object hj read]

theorem passed_member (path : Path) {m : Member} (hm : m ∈ e.members) :
    Ready (object strict ms) path m.key (.one m.kind) := by
  obtain ⟨-, readable⟩ := passes _ (Element.mem_inspected.mpr (.inr ⟨m, hm, rfl⟩))
  exact ready_object.mpr fun j hj => (decode_ok_iff j _ _).mpr (readable j hj)

theorem fieldValid_of_takes {f : Field} (hf : f ∈ e.fields) {v : Value}
    (takes : Build.Takes f ((found (object strict ms) path f.key f.shape).map Build.argOf) v) :
    FieldValid strict ms f ∧ v = fieldOf ms f := by
  obtain ⟨there, ready⟩ := passed_field passes path hf
  exact ((field_reads path strict hf (fun j _ => told strict j _) v).mp
    ⟨there, ready, takes⟩).2

theorem selectionValid_of_chosen {c : ChoiceField} (hc : e.choice = some c) {v : Value}
    (h : Build.Chosen c.group (fun m => found (object strict ms) path m.key (.one m.kind)) v) :
    ((chosen c.group ms).length ≤ 1 ∧ (c.group.required = true → chosen c.group ms ≠ [])) ∧
      (∀ m ∈ c.group.members, ∀ j, member? ms m.key = some j → Valid strict (.one m.kind) j) ∧
      v = choiceOf c.group ms :=
  (choice_reads path strict c.group (fun _ _ j _ => told strict j _) v).mp
    ⟨fun _ hm => passed_member passes path (Element.members_eq hc ▸ hm), h⟩

theorem refused_of_unselected {c : ChoiceField} (hc : e.choice = some c)
    (h : Build.Unselected c.group (fun m => found (object strict ms) path m.key (.one m.kind)) r) :
    Refused strict e ms r := by
  have same : (c.group.members.filter fun m =>
      (found (object strict ms) path m.key (.one m.kind)).isSome) = chosen c.group ms :=
    filter_found fun m hm => passed_member passes path (Element.members_eq hc ▸ hm)
  cases h with
  | several eq many =>
    rw [← eq, same] at many ⊢
    exact .conflict hc many
  | none eq required => exact .unchosen hc (same ▸ eq) required
  | refused eq value refused =>
    obtain ⟨j, hj, read⟩ := exists_of_found value
    refine .member hc (same ▸ eq) hj fun valid => ?_
    rw [read_of_valid read valid] at refused
    cases refused

theorem refused_of_unbuilt
    (h : Build.Unbuilt e (fun f => found (object strict ms) path f.key f.shape)
      (fun m => found (object strict ms) path m.key (.one m.kind)) r) : Refused strict e ms r := by
  cases h with
  | choice hc h => exact refused_of_unselected passes hc h
  | @field before after f v i is selected split takes value refused =>
    have mem {g : Field} (hg : g ∈ before) : g ∈ e.fields := split ▸ List.mem_append_left _ hg
    obtain ⟨j, hj, read⟩ := exists_of_found value
    refine .field (fun c hc => ?_) split (fun g hg => ?_) hj (fun valid => ?_)
      (fault_of_read read refused)
    · obtain ⟨v, hv⟩ := selected c hc
      obtain ⟨count, valid, -⟩ := selectionValid_of_chosen passes hc hv
      exact ⟨count, valid⟩
    · obtain ⟨v, hv⟩ := takes g hg
      exact (fieldValid_of_takes passes (mem hg) hv).1
    · rw [read_of_valid read valid] at refused
      cases refused
  | rule names takes selected broken =>
    have fields := fun f hf => fieldValid_of_takes passes hf (takes f hf)
    have choice := fun c hc => selectionValid_of_chosen passes hc (selected c hc)
    rw [eq_denote_obj names (fun f hf => (fields f hf).2) fun c hc => (choice c hc).2.2] at broken
    exact .rule (fun c hc => ⟨(choice c hc).1, (choice c hc).2.1⟩)
      (fun f hf => (fields f hf).1) broken

/-- An object all keys of which are read, and none of which is unknown, ends the reading only if it
makes no element. -/
theorem refused_of_passes (h : (decodeObject strict e (object strict ms) path).outcome =
      .error failure) :
    (strict = true ∧ ∃ k ∈ ms.keys, k ∉ e.keys ∧
        failure = .error (.malformed (path ++ [.key k]) (.unknownKey e))) ∨
      (strict = true → ∀ k ∈ ms.keys, k ∈ e.keys) ∧
        ∃ r, Refused strict e ms r ∧ ofRefusal e path r = failure := by
  rcases decodeObject_eq_error.mp h with ⟨before, f, after, split, -, fails⟩ | ⟨-, fails⟩
  · have hf : f ∈ e.inspected := split ▸ List.mem_append_right _ List.mem_cons_self
    have read : ∃ args, (decodeField (object strict ms) path f).outcome = .ok args :=
      decodeField_ok_iff.mpr (passes f hf)
    rw [fails] at read
    obtain ⟨_, read⟩ := read
    cases read
  · rcases fails with unknown | ⟨known, r, build, rfl⟩
    · unfold checkKeys at unknown
      split at unknown
      · cases unknown
      · next k ks first =>
        have mem := List.mem_filter.mp (first ▸ List.mem_cons_self : k ∈ List.filter _ _)
        rw [keys_object] at mem
        split at unknown
        · cases unknown
          exact .inl ⟨‹_›, k, mem.1, by simpa using mem.2, rfl⟩
        · cases unknown
    · have known := checkKeys_eq_ok.mp known
      rw [keys_object] at known
      have plain {key : String} {s : Shape} {v : Value}
          (h : found (object strict ms) path key s = some v) (es : List (String × Value)) :
          ¬ Value.Part (.dict es) v := by
        obtain ⟨j, -, read⟩ := exists_of_found h
        exact no_dict_of_decode read es
      have there : Build.There (fun f => found (object strict ms) path f.key f.shape)
          fun m => found (object strict ms) path m.key (.one m.kind) :=
        ⟨fun _ _ => found_there, fun _ _ => found_there⟩
      have unbuilt := Build.unbuilt_of_build there
        (fun f hf required => found_of_required passes path hf required)
        (fun m v hv => ?_) (fun _ _ => plain) (fun _ _ => plain) build
      · exact .inr ⟨known, r, refused_of_unbuilt passes unbuilt, rfl⟩
      · obtain ⟨j, -, read⟩ := exists_of_found hv
        exact (decode_raw read).2.1

theorem refused_of_known (known : strict = true → ∀ k ∈ ms.keys, k ∈ e.keys)
    (invalid : ¬ Valid strict (.one (.element e)) (.obj ms)) (path : Path) :
    ∃ r, Refused strict e ms r ∧
      (decodeObject strict e (object strict ms) path).outcome = .error (ofRefusal e path r) := by
  cases h : (decodeObject strict e (object strict ms) path).outcome with
  | ok v =>
    have read : (decode strict (.obj ms) (.one (.element e)) path).outcome = .ok v := h
    exact absurd (decode_eq_ok.mp read).1 invalid
  | error failure =>
    rcases refused_of_passes passes h with ⟨on, k, hk, unknown, -⟩ | ⟨-, r, refused, told⟩
    · exact absurd (known on k hk) unknown
    · exact ⟨r, refused, by rw [told]⟩

/-- Of the fields that are read but not valid, the first one in declaration order is reported,
where its fault is, if the choice group selects as it has to. -/
theorem decode_of_invalid_field (known : strict = true → ∀ k ∈ ms.keys, k ∈ e.keys)
    (selection : SelectionValid strict e ms) {before after : List Field} {f : Field}
    (split : e.fields = before ++ f :: after) (valid : ∀ g ∈ before, FieldValid strict ms g)
    (there : member? ms f.key = some j) (invalid : ¬ Valid strict f.shape j) (path : Path) :
    ∃ place fault, FaultAt strict f.shape j place ∧
      (decode strict (.obj ms) (.one (.element e)) path).outcome =
        .error (.error (.malformed (path ++ .key f.key :: place) (.refused fault))) := by
  have hf : f ∈ e.fields := split ▸ List.mem_append_right _ List.mem_cons_self
  have faulty : ¬ FieldValid strict ms f := fun valid => invalid (valid j there)
  have whole : ¬ Valid strict (.one (.element e)) (.obj ms) :=
    fun valid => faulty (valid.entry (Element.mem_inspected.mpr (.inl hf))).2
  obtain ⟨r, refused, outcome⟩ := refused_of_known passes known whole path
  cases refused with
  | conflict hc many => exact absurd (selection _ hc).1.1 (Nat.not_le.mpr many)
  | unchosen hc none required => exact absurd none ((selection _ hc).1.2 required)
  | member hc one hm invalid =>
    exact absurd ((selection _ hc).2 _ (mem_of_chosen one) _ hm) invalid
  | @field before' after' g x i is _ split' valid' hx invalid' fault =>
    have faulty' : ¬ FieldValid strict ms g := fun valid => invalid' (valid x hx)
    obtain ⟨-, rfl⟩ := first_unique (split ▸ split') valid faulty valid' faulty'
    cases there.symm.trans hx
    exact ⟨i.place, i.fault, fault, outcome.trans (congrArg _ (ofRefusal_field hf path i is))⟩
  | rule _ fields _ => exact absurd (fields f hf) faulty

/-- The only member that is there, if it is read but not valid, is reported at the place of the
element. -/
theorem decode_of_invalid_member (known : strict = true → ∀ k ∈ ms.keys, k ∈ e.keys)
    {c : ChoiceField} (hc : e.choice = some c) {m : Member} (one : chosen c.group ms = [m])
    (there : member? ms m.key = some j) (invalid : ¬ Valid strict (.one m.kind) j) (path : Path) :
    ∃ faults, (decode strict (.obj ms) (.one (.element e)) path).outcome =
      .error (.error (.malformed (orClass e path) (.refused (.badMember m.key faults)))) := by
  have hm : m ∈ c.group.members := mem_of_chosen one
  have faulty : ¬ SelectionValid strict e ms :=
    fun valid => invalid ((valid c hc).2 m hm j there)
  have whole : ¬ Valid strict (.one (.element e)) (.obj ms) := by
    intro valid
    cases valid with
    | scalar accepts => exact accepts
    | object _ _ _ chosen => exact invalid (chosen c m j hc hm there)
  obtain ⟨r, refused, outcome⟩ := refused_of_known passes known whole path
  cases refused with
  | conflict hc' many =>
    cases hc.symm.trans hc'
    rw [one] at many
    exact absurd many (Nat.lt_irrefl 1)
  | unchosen hc' none =>
    cases hc.symm.trans hc'
    rw [one] at none
    cases none
  | @member c' m' x faults hc' one' _ _ =>
    cases hc.symm.trans hc'
    cases one.symm.trans one'
    exact ⟨faults, outcome.trans (congrArg _ (ofRefusal_member e path _))⟩
  | field selection => exact absurd selection faulty
  | rule selection => exact absurd selection faulty

end Passed

end Objects

/-! ### The place where the reading ends -/

variable [reader]

/-- What ends the reading at a place itself, before or after what stands below it was read. -/
inductive Ends (strict : Bool) (path : Path) : Shape → Json → Failure → Prop where
  | unread {s : Shape} {j : Json} {failure : Failure} :
      (s.isCollection = true → ∀ js, j ≠ .arr js) →
      (∀ e ms, s = .one (.element e) → j ≠ .obj ms) →
      (decodeShape s j path).outcome = .error failure → Ends strict path s j failure
  | missing {e : Element} {ms : Keyed Json} {before after : List Field} {f : Field} :
      e.inspected = before ++ f :: after → (∀ g ∈ before, Passes strict ms g) →
      f.required = true → member? ms f.key = none →
      Ends strict path (.one (.element e)) (.obj ms)
        (.error (.missingMandatory (path ++ [.key f.key])))
  | unknown {e : Element} {ms : Keyed Json} {k : String} :
      (∀ f ∈ e.inspected, Passes strict ms f) → strict = true → k ∈ ms.keys → k ∉ e.keys →
      Ends strict path (.one (.element e)) (.obj ms)
        (.error (.malformed (path ++ [.key k]) (.unknownKey e)))
  | refused {e : Element} {ms : Keyed Json} {r : Refusal} {failure : Failure} :
      (∀ f ∈ e.inspected, Passes strict ms f) → (strict = true → ∀ k ∈ ms.keys, k ∈ e.keys) →
      Refused strict e ms r → ofRefusal e path r = failure →
      Ends strict path (.one (.element e)) (.obj ms) failure

variable {reader}

/-- The reading of a document ends at a place that is reached. -/
theorem ends_of_decode {failure : Failure}
    (h : (decode strict j s path).outcome = .error failure) :
    ∃ p t w, Reached strict s j p t w ∧ Ends strict (path ++ p) t w failure := by
  have here (h : Ends strict path s j failure) :
      ∃ p t w, Reached strict s j p t w ∧ Ends strict (path ++ p) t w failure :=
    ⟨[], s, j, .here, by rwa [List.append_nil]⟩
  induction j using Json.induction generalizing s path with
  | arr js ih =>
    cases collection : s.isCollection with
    | false =>
      cases s with
      | one k => exact here (.unread (by rw [collection]; exact nofun) nofun h)
      | _ => cases collection
    | true =>
      rw [decode_array collection] at h
      obtain ⟨before, x, after, rfl, readable, fails⟩ := decodeItems_eq_error.mp h
      have mem : x ∈ before ++ x :: after := List.mem_append_right _ List.mem_cons_self
      obtain ⟨p, t, w, reached, ends⟩ :=
        ih x mem fails fun h => ⟨[], _, _, .here, by rwa [List.append_nil]⟩
      exact ⟨_, t, w, .item collection readable reached, by rwa [List.append_assoc] at ends⟩
  | obj ms ih =>
    by_cases element : ∃ e, s = .one (.element e)
    · obtain ⟨e, rfl⟩ := element
      by_cases passes : ∀ f ∈ e.inspected, Passes strict ms f
      · rcases refused_of_passes passes h with
          ⟨strict, k, mem, unknown, rfl⟩ | ⟨known, r, refused, told⟩
        · exact here (.unknown passes strict mem unknown)
        · exact here (.refused passes known refused told)
      · rcases decodeObject_eq_error.mp h with ⟨before, f, after, split, pass, fails⟩ | ⟨all, -⟩
        · rcases decodeField_eq_error.mp fails with ⟨none, required, rfl⟩ | ⟨x, there, fails⟩
          · exact here (.missing split pass required none)
          · have mem := Keyed.mem_of_get? (get?_of_member? there).1
            obtain ⟨p, t, w, reached, ends⟩ :=
              ih f.key x mem fails fun h => ⟨[], _, _, .here, by rwa [List.append_nil]⟩
            exact ⟨_, t, w, .entry split pass there reached,
              by rwa [List.append_assoc] at ends⟩
        · exact absurd all passes
    · rw [decode_obj_of_ne element] at h
      exact here (.unread nofun (fun e _ hs => absurd ⟨e, hs⟩ element) h)
  | _ => exact here (.unread nofun nofun h)

end V2G.Wire
