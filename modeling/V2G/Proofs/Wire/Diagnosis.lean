import V2G.Proofs.Build.Refusal
import V2G.Proofs.Wire.Decode

/-!
# What is wrong first

A document is read in a fixed order, and the first thing wrong with it ends the reading: an item
of an array after items that were read (`decodeItems_eq_error`), or a key of an object after keys
that were read, then an unknown key, then what building the element refuses
(`decodeObject_eq_error`). What is wrong is told by a diagnostic of the document, with one
exception: a text with characters beyond ASCII where bytes are expected. Where nothing is wrong the
record of the document may still fail (`parsed_or_refused`).
-/

namespace V2G

/-- What an object of an element is read for, in this order: its mandatory fields, its optional
fields, and the members of its choice group, none of which is mandatory by itself. -/
def Element.inspected (e : Element) : List Field :=
  e.mandatoryFields ++ e.optionalFields ++ e.members.map fun m => .optional m.name m.key m.kind

/-- A failure that is told by an error of the message. -/
abbrev Failure.IsDiagnostic (failure : Failure) : Prop :=
  ∃ error, failure = .error error ∧ error.IsDiagnostic

namespace Wire

variable {strict : Bool} {path : Path} {failure : Failure}

/-! ### What is read at all -/

/-- A document of the JSON type of a kind. -/
def Typed : Kind → Json → Prop
  | .int _ _, .int _ | .bool, .bool _ => True
  | .bytes _ _, .str s => ∃ data, Base64.decode s.toList = .ok data
  | .text _ _, .str _ | .url, .str _ | .token _, .str _ | .identifier _, .str _ => True
  | _, _ => False

section

variable [reader : Url.Reader]

/-- The documents that are read for a shape. The limits of scalars and the sizes of collections are
not looked at until the element they stand in is built. -/
inductive Readable (strict : Bool) : Shape → Json → Prop where
  | scalar {k : Kind} {j : Json} : Typed k j → Readable strict (.one k) j
  | items {s : Shape} {js : List Json} : s.isCollection = true →
      (∀ j ∈ js, Readable strict (.one s.kind) j) → Readable strict s (.arr js)
  | element {e : Element} {j : Json} : Valid strict (.one (.element e)) j →
      Readable strict (.one (.element e)) j

variable {reader}

theorem decodeKind_ok_iff {k : Kind} {j : Json} :
    (∃ v, (decodeKind k j path).outcome = .ok v) ↔ Typed k j := by
  have bytes (s : String) : (∃ v, (decodeBytes path s).outcome = .ok v) ↔
      ∃ data, Base64.decode s.toList = .ok data := by
    simp only [decodeBytes_eq_ok]
    constructor
    · rintro ⟨_, data, read, rfl⟩
      exact ⟨data, read⟩
    · rintro ⟨data, read⟩
      exact ⟨_, data, read, rfl⟩
  cases k with
  | bytes least most =>
    cases j with
    | str s => exact bytes s
    | _ => simp [decodeKind, malformed, Traced.error, Typed]
  | _ => cases j <;> simp [decodeKind, malformed, Traced.error, Typed]

theorem decodeShape_ok_iff {s : Shape} {j : Json} :
    (∃ v, (decodeShape s j path).outcome = .ok v) ↔ ∃ k, s = .one k ∧ Typed k j := by
  cases s with
  | one k => simpa [decodeShape] using decodeKind_ok_iff
  | list | set => simp [decodeShape, malformed, Traced.error]

theorem decodeItems_ok_iff {k : Kind} {js : List Json} :
    (∃ v, (decodeItems k path (items strict js)).outcome = .ok v) ↔
      ∀ i (h : i < js.length), ∃ v,
        (decode strict js[i] (.one k) (path ++ [.index i])).outcome = .ok v := by
  have rows : (∃ v, (decodeItems k path (items strict js)).outcome = .ok v) ↔
      ∃ vs : List Value, (((items strict js).mapIdx fun i read =>
        read k (path ++ [.index i])).map (·.outcome)) = vs.map .ok := by
    simp only [decodeItems_eq_ok]
    constructor
    · rintro ⟨_, vs, h, rfl⟩
      exact ⟨vs, h⟩
    · rintro ⟨vs, h⟩
      exact ⟨_, vs, h, rfl⟩
  rw [rows, exists_map_ok_iff, List.forall_mem_map, items_eq]
  constructor
  · intro all i h
    exact all _ (List.mem_mapIdx.mpr ⟨i, by simpa using h, by simp⟩)
  · intro all t ht
    obtain ⟨i, h, rfl⟩ := List.mem_mapIdx.mp ht
    simpa using all i (by simpa using h)

theorem readable_of_typed_iff {s : Shape} {j : Json}
    (array : s.isCollection = true → ∀ js, j ≠ .arr js)
    (object : ∀ e ms, s = .one (.element e) → j ≠ .obj ms) :
    Readable strict s j ↔ ∃ k, s = .one k ∧ Typed k j := by
  constructor
  · intro h
    cases h with
    | scalar typed => exact ⟨_, rfl, typed⟩
    | items collection => exact absurd rfl (array collection _)
    | element valid =>
      cases valid with
      | scalar accepts => exact accepts.elim
      | object => exact absurd rfl (object _ _ rfl)
  · rintro ⟨k, rfl, typed⟩
    exact .scalar typed

theorem readable_array_iff {s : Shape} (collection : s.isCollection = true) {js : List Json} :
    Readable strict s (.arr js) ↔ ∀ j ∈ js, Readable strict (.one s.kind) j := by
  constructor
  · intro h
    cases h with
    | scalar => cases collection
    | items _ items => exact items
    | element => cases collection
  · exact .items collection

/-- Reading succeeds on the readable documents, wherever they stand. -/
theorem decode_ok_iff (j : Json) (s : Shape) (path : Path) :
    (∃ v, (decode strict j s path).outcome = .ok v) ↔ Readable strict s j := by
  induction j using Json.induction generalizing s path with
  | arr js ih =>
    have items (k : Kind) : (∃ v, (decodeItems k path (items strict js)).outcome = .ok v) ↔
        ∀ j ∈ js, Readable strict (.one k) j := by
      rw [decodeItems_ok_iff, List.forall_mem_iff_forall_getElem]
      exact forall₂_congr fun i h => ih _ (List.getElem_mem h) _ _
    cases s with
    | one k =>
      exact decodeShape_ok_iff.trans
        (readable_of_typed_iff (s := .one k) (j := .arr js) nofun nofun).symm
    | list k least most | set k least most =>
      rw [readable_array_iff rfl]
      exact items k
  | obj ms ih =>
    by_cases element : ∃ e, s = .one (.element e)
    · obtain ⟨e, rfl⟩ := element
      simp only [decode_eq_ok, exists_and_left, exists_eq, and_true]
      constructor
      · exact .element
      · intro h
        cases h with
        | scalar typed => exact typed.elim
        | element valid => exact valid
    · rw [decode_obj_of_ne element, decodeShape_ok_iff]
      exact (readable_of_typed_iff (by simp) fun e _ h => absurd ⟨e, h⟩ element).symm
  | _ => exact decodeShape_ok_iff.trans (readable_of_typed_iff (by simp) (by simp)).symm

/-! ### The first thing wrong -/

theorem outcome_decodeItems (strict : Bool) (k : Kind) (path : Path) (js : List Json) :
    (decodeItems k path (items strict js)).outcome =
      ((js.mapIdx fun i j => decode strict j (.one k) (path ++ [.index i])).mapM
        Traced.outcome).map .tuple := by
  have reads : ((items strict js).mapIdx fun i read => read k (path ++ [.index i])) =
      js.mapIdx fun i j => decode strict j (.one k) (path ++ [.index i]) := by
    refine List.ext_getElem (by simp [items_eq]) fun i h h' => ?_
    simp [items_eq]
  rw [decodeItems, reads, Traced.outcome_bind, Traced.outcome_mapM]
  rfl

theorem decodeItems_eq_error {k : Kind} {js : List Json} :
    (decodeItems k path (items strict js)).outcome = .error failure ↔
      ∃ before j after, js = before ++ j :: after ∧ (∀ x ∈ before, Readable strict (.one k) x) ∧
        (decode strict j (.one k) (path ++ [.index before.length])).outcome = .error failure := by
  let read (i : Nat) (j : Json) : Traced Value := decode strict j (.one k) (path ++ [.index i])
  rw [outcome_decodeItems, Except.map_eq_error, Except.mapM_eq_error]
  constructor
  · rintro ⟨_, _, _, split, ok, fails⟩
    obtain ⟨before, rest, rfl, rfl, tail⟩ := List.mapIdx_eq_append_iff.mp split
    obtain ⟨j, after, rfl, rfl, -⟩ := List.mapIdx_eq_cons_iff.mp tail
    refine ⟨before, j, after, rfl, fun x hx => ?_, ?_⟩
    · obtain ⟨i, h, rfl⟩ := List.mem_iff_getElem.mp hx
      exact (decode_ok_iff _ _ _).mp (ok _ (List.mem_mapIdx.mpr ⟨i, h, rfl⟩))
    · simpa [read] using fails
  · rintro ⟨before, j, after, rfl, ok, fails⟩
    refine ⟨before.mapIdx read, _, _, by rw [List.mapIdx_append, List.mapIdx_cons], ?_, ?_⟩
    · intro t ht
      obtain ⟨i, h, rfl⟩ := List.mem_mapIdx.mp ht
      exact (decode_ok_iff _ _ _).mpr (ok _ (List.getElem_mem h))
    · simpa [read] using fails

variable [reader]

/-- An object may be read on after a key: what stands there is read, and if the key is mandatory
something does. -/
def Passes (strict : Bool) (ms : Keyed Json) (f : Field) : Prop :=
  (f.required = true → member? ms f.key ≠ none) ∧
    ∀ j, member? ms f.key = some j → Readable strict f.shape j

variable {reader}

theorem outcome_decodeMember (o : Object) (path : Path) (m : Member) :
    (decodeMember o path m).outcome =
      (decodeField o path (.optional m.name m.key m.kind)).outcome := by
  unfold decodeMember decodeField
  cases h : o.entry? m.key with
  | none => simp [Field.optional, h]
  | some entry => simp [Field.optional, h, Traced.outcome_bind]

theorem outcome_decodeObject (strict : Bool) (e : Element) (o : Object) (path : Path) :
    (decodeObject strict e o path).outcome =
      (e.inspected.mapM fun f => (decodeField o path f).outcome) >>= fun args =>
        (checkKeys strict e o path).outcome >>= fun _ =>
          (e.build args.flatten).mapError (ofRefusal e path) := by
  -- Events apart, a member is read as an optional field of its own.
  have members : (e.members.mapM fun m => (decodeMember o path m).outcome) =
      (e.members.map fun m => Field.optional m.name m.key m.kind).mapM fun f =>
        (decodeField o path f).outcome := by
    rw [List.mapM_map]
    exact congrArg (List.mapM · e.members) (funext fun m => outcome_decodeMember o path m)
  rw [Element.inspected, List.mapM_append, List.mapM_append, ← members]
  simp only [decodeObject, Traced.outcome_bind, Traced.outcome_mapM]
  cases e.mandatoryFields.mapM fun f => (decodeField o path f).outcome with
  | error r => rfl
  | ok mandatory =>
    cases e.optionalFields.mapM fun f => (decodeField o path f).outcome with
    | error r => rfl
    | ok optional =>
      cases e.members.mapM fun m => (decodeMember o path m).outcome with
      | error r => rfl
      | ok selected => rfl

theorem decodeField_ok_iff {ms : Keyed Json} {f : Field} :
    (∃ args, (decodeField (object strict ms) path f).outcome = .ok args) ↔ Passes strict ms f := by
  simp only [decodeField_eq_ok, exists_and_left, exists_eq, and_true, ready_object,
    entry_object, Passes]
  refine and_congr ?_ (forall₂_congr fun j _ => decode_ok_iff j _ _)
  simp

theorem decodeField_eq_error {ms : Keyed Json} {f : Field} :
    (decodeField (object strict ms) path f).outcome = .error failure ↔
      (member? ms f.key = none ∧ f.required = true ∧
        failure = .error (.missingMandatory (path ++ [.key f.key]))) ∨
      ∃ j, member? ms f.key = some j ∧
        (decode strict j f.shape (path ++ [.key f.key])).outcome = .error failure := by
  unfold decodeField
  rw [entry_object]
  cases h : member? ms f.key with
  | none => cases f.required <;> simp [Traced.error, eq_comm]
  | some j =>
    simp only [Option.map_some, Option.some.injEq, exists_eq_left', reduceCtorEq, false_and,
      false_or]
    rw [Traced.outcome_bind, Traced.outcome_emit]
    show (decode strict j f.shape _ >>= _).outcome = _ ↔ _
    rw [Traced.outcome_bind]
    cases (decode strict j f.shape (path ++ [.key f.key])).outcome <;> simp [Except.bind]

/-- What was read of an object stands in the order of the declaration. -/
theorem inOrder_of_inspected {e : Element} {o : Object} {args : List (Keyed Value)}
    (h : (e.inspected.mapM fun f => (decodeField o path f).outcome) = .ok args) :
    args.flatten = e.inOrder (fun f => found o path f.key f.shape)
      fun m => found o path m.key (.one m.kind) := by
  have each := (map_eq_ok_iff fun f args => decodeField_eq_ok).mp
    ((Traced.outcome_mapM_eq_ok (f := decodeField o path)).mp
      ((Traced.outcome_mapM _ _).trans h))
  rw [each.2]
  simp only [Element.inspected, Element.inOrder, List.filterMap_eq_flatMap_toList,
    List.flatMap_def, List.map_append, List.flatten_append, List.map_map]
  rfl

theorem decodeInspected_ok_iff (path : Path) {e : Element} {ms : Keyed Json} :
    (∃ args, (e.inspected.mapM fun f => (decodeField (object strict ms) path f).outcome) =
      .ok args) ↔ ∀ f ∈ e.inspected, Passes strict ms f := by
  rw [← exists_congr fun args => Iff.of_eq (congrArg (· = .ok args) (Traced.outcome_mapM _ _))]
  simp only [Traced.outcome_mapM_eq_ok, exists_map_ok_iff, List.forall_mem_map, decodeField_ok_iff]

/-- An object is refused for the first key that cannot be read, or a key that is unknown, or by the
building of its element. -/
theorem decodeObject_eq_error {e : Element} {ms : Keyed Json} :
    (decodeObject strict e (object strict ms) path).outcome = .error failure ↔
      (∃ before f after, e.inspected = before ++ f :: after ∧ (∀ g ∈ before, Passes strict ms g) ∧
        (decodeField (object strict ms) path f).outcome = .error failure) ∨
      (∀ f ∈ e.inspected, Passes strict ms f) ∧
        ((checkKeys strict e (object strict ms) path).outcome = .error failure ∨
          (checkKeys strict e (object strict ms) path).outcome = .ok () ∧
            ∃ r, e.build (e.inOrder (fun f => found (object strict ms) path f.key f.shape)
              fun m => found (object strict ms) path m.key (.one m.kind)) = .error r ∧
              ofRefusal e path r = failure) := by
  rw [outcome_decodeObject, Except.bind_eq_error, Except.mapM_eq_error]
  simp only [decodeField_ok_iff]
  refine or_congr_right ?_
  rw [← decodeInspected_ok_iff path]
  simp only [Except.bind_eq_error, Except.mapError_eq_error]
  constructor
  · rintro ⟨args, read, rest⟩
    rw [inOrder_of_inspected read] at rest
    exact ⟨⟨args, read⟩, rest.imp_right fun ⟨_, keys, build⟩ => ⟨keys, build⟩⟩
  · rintro ⟨⟨args, read⟩, rest⟩
    refine ⟨args, read, ?_⟩
    rw [inOrder_of_inspected read]
    exact rest.imp_right fun ⟨keys, build⟩ => ⟨(), keys, build⟩

/-! ### Characters beyond ASCII -/

variable [reader]

/-- The first thing wrong is a text with characters beyond ASCII where bytes are expected. -/
inductive Foreign (strict : Bool) : Shape → Json → Prop where
  | text {least : Nat} {most : Option Nat} {s : String} {c : Char} : c ∈ s.toList →
      0x80 ≤ c.toNat → Foreign strict (.one (.bytes least most)) (.str s)
  | item {s : Shape} {before : List Json} {j : Json} {after : List Json} : s.isCollection = true →
      (∀ x ∈ before, Readable strict (.one s.kind) x) → Foreign strict (.one s.kind) j →
      Foreign strict s (.arr (before ++ j :: after))
  | entry {e : Element} {ms : Keyed Json} {before : List Field} {f : Field} {after : List Field}
      {j : Json} : e.inspected = before ++ f :: after → (∀ g ∈ before, Passes strict ms g) →
      member? ms f.key = some j → Foreign strict f.shape j →
      Foreign strict (.one (.element e)) (.obj ms)

variable {reader}

theorem decodeBytes_of_foreign {s : String} {c : Char} (hc : c ∈ s.toList)
    (beyond : 0x80 ≤ c.toNat) :
    (decodeBytes path s).outcome = .error (.misuse .foreignCharacters) := by
  have any : s.toList.any (0x80 ≤ ·.toNat) = true :=
    List.any_eq_true.mpr ⟨c, hc, decide_eq_true beyond⟩
  rw [decodeBytes, if_pos any]
  rfl

theorem decode_array {s : Shape} (collection : s.isCollection = true) (js : List Json) :
    decode strict (.arr js) s path = decodeItems s.kind path (items strict js) := by
  cases s with
  | one k => cases collection
  | list k least most | set k least most => rfl

/-- Such a text ends the reading without a diagnostic. -/
theorem decode_of_foreign {s : Shape} {j : Json} (h : Foreign strict s j) (path : Path) :
    (decode strict j s path).outcome = .error (.misuse .foreignCharacters) := by
  induction h generalizing path with
  | text hc beyond => exact decodeBytes_of_foreign hc beyond
  | item collection before _ ih =>
    rw [decode_array collection]
    exact decodeItems_eq_error.mpr ⟨_, _, _, rfl, before, ih _⟩
  | entry split before there _ ih =>
    refine decodeObject_eq_error.mpr (.inl ⟨_, _, _, split, before, ?_⟩)
    exact decodeField_eq_error.mpr (.inr ⟨_, there, ih _⟩)

/-! ### Diagnostics -/

/-- What becomes of a document for a kind: bytes are decoded, other data is taken as it is, and
whatever has the wrong type is malformed. -/
theorem decodeKind_cases (k : Kind) (j : Json) (path : Path) :
    (∃ least most s, k = .bytes least most ∧ j = .str s ∧
        decodeKind k j path = decodeBytes path s) ∨
      (∃ v : Value, decodeKind k j path = pure v ∧ (∀ x, ¬ Value.Child x v) ∧ ∀ es, v ≠ .dict es) ∨
      ∃ place detail, decodeKind k j path = malformed place detail := by
  cases k <;> cases j <;> first
    | exact .inr (.inr ⟨_, _, rfl⟩)
    | exact .inr (.inl ⟨_, rfl, nofun, nofun⟩)
    | exact .inl ⟨_, _, _, rfl, rfl, rfl⟩

/-- What is read for a kind has no parts, and is no dictionary. -/
theorem decodeKind_flat {k : Kind} {j : Json} {r : Value}
    (h : (decodeKind k j path).outcome = .ok r) :
    (∀ x, ¬ Value.Child x r) ∧ ∀ es, r ≠ .dict es := by
  rcases decodeKind_cases k j path with ⟨_, _, s, -, -, read⟩ | ⟨v, read, flat⟩ | ⟨_, _, read⟩
  · rw [read, decodeBytes_eq_ok] at h
    obtain ⟨data, -, rfl⟩ := h
    exact ⟨nofun, nofun⟩
  · rw [read] at h
    cases h
    exact flat
  · rw [read] at h
    cases h

theorem no_dict_of_decodeShape {j : Json} {s : Shape} {r : Value}
    (h : (decodeShape s j path).outcome = .ok r) (es : List (String × Value)) :
    ¬ Value.Part (.dict es) r := by
  cases s with
  | one k =>
    intro p
    cases p with
    | self => exact (decodeKind_flat h).2 es rfl
    | inside c _ => exact (decodeKind_flat h).1 _ c
  | _ => cases h

/-- No dictionary is ever read. -/
theorem no_dict_of_decode {j : Json} {s : Shape} {r : Value}
    (h : (decode strict j s path).outcome = .ok r) (es : List (String × Value)) :
    ¬ Value.Part (.dict es) r := by
  induction j using Json.induction generalizing s path r with
  | arr js ih =>
    cases collection : s.isCollection with
    | false =>
      cases s with
      | one k => exact no_dict_of_decodeShape (s := .one k) h es
      | _ => cases collection
    | true =>
      rw [decode_array collection] at h
      obtain ⟨rs, all, rfl⟩ := decodeItems_eq_ok.mp h
      intro p
      cases p with
      | inside c p =>
        cases c with
        | tuple hr =>
          obtain ⟨_, ht, read⟩ := mem_of_ok all hr
          rw [items_eq] at ht
          obtain ⟨i, hi, rfl⟩ := List.mem_mapIdx.mp ht
          rw [List.getElem_map] at read
          exact ih _ (List.getElem_mem (by simpa using hi)) read p
  | obj ms =>
    by_cases element : ∃ e, s = .one (.element e)
    · obtain ⟨e, rfl⟩ := element
      obtain ⟨valid, rfl⟩ := decode_eq_ok.mp h
      exact (conforms_denote valid nofun).no_dict es
    · rw [decode_obj_of_ne element] at h
      exact no_dict_of_decodeShape h es
  | _ => exact no_dict_of_decodeShape h es

theorem diagnostic_of_malformed {α : Type} {detail : Detail}
    (h : (malformed path detail : Traced α).outcome = .error failure) :
    failure.IsDiagnostic := by
  cases h
  exact ⟨_, rfl, trivial⟩

theorem decodeBytes_eq_error {s : String}
    (h : (decodeBytes path s).outcome = .error failure) :
    failure.IsDiagnostic ∨
      failure = .misuse .foreignCharacters ∧ ∃ c ∈ s.toList, 0x80 ≤ c.toNat := by
  unfold decodeBytes at h
  split at h
  · next any =>
    obtain ⟨c, hc, beyond⟩ := List.any_eq_true.mp any
    cases h
    exact .inr ⟨rfl, c, hc, of_decide_eq_true beyond⟩
  · cases hd : Base64.decode s.toList with
    | ok data =>
      rw [hd] at h
      cases h
    | error f =>
      rw [hd] at h
      exact .inl (diagnostic_of_malformed h)

theorem decodeShape_eq_error {s : Shape} {j : Json}
    (h : (decodeShape s j path).outcome = .error failure) :
    failure.IsDiagnostic ∨
      failure = .misuse .foreignCharacters ∧ Foreign strict s j := by
  cases s with
  | one k =>
    rw [decodeShape] at h
    rcases decodeKind_cases k j path with ⟨_, _, s, rfl, rfl, read⟩ | ⟨v, read, -⟩ | ⟨_, _, read⟩
    · rw [read] at h
      refine (decodeBytes_eq_error h).imp_right ?_
      rintro ⟨misuse, c, hc, beyond⟩
      exact ⟨misuse, .text hc beyond⟩
    · rw [read] at h
      cases h
    · rw [read] at h
      exact .inl (diagnostic_of_malformed h)
  | _ => exact .inl (diagnostic_of_malformed h)

theorem diagnostic_of_checkKeys {e : Element} {o : Object}
    (h : (checkKeys strict e o path).outcome = .error failure) :
    failure.IsDiagnostic := by
  unfold checkKeys at h
  split at h
  · cases h
  · split at h
    · exact diagnostic_of_malformed h
    · cases h

theorem diagnostic_of_refusal {e : Element} {r : Refusal}
    (h : (∃ is, r = .issues is) ∨ ∃ m, r = .message m ∧ m.IsDiagnostic) :
    (ofRefusal e path r).IsDiagnostic := by
  rcases h with ⟨is, rfl⟩ | ⟨m, rfl, diagnostic⟩
  · cases is <;> exact ⟨_, rfl, trivial⟩
  · exact ⟨m, rfl, diagnostic⟩

theorem diagnostic_or_foreign {j : Json} {s : Shape}
    (h : (decode strict j s path).outcome = .error failure) :
    failure.IsDiagnostic ∨
      failure = .misuse .foreignCharacters ∧ Foreign strict s j := by
  induction j using Json.induction generalizing s path with
  | arr js ih =>
    cases collection : s.isCollection with
    | false =>
      cases s with
      | one k => exact decodeShape_eq_error (s := .one k) h
      | _ => cases collection
    | true =>
      rw [decode_array collection] at h
      obtain ⟨before, j, after, rfl, readable, fails⟩ := decodeItems_eq_error.mp h
      have item := ih j (List.mem_append_right _ List.mem_cons_self) fails
      exact item.imp_right fun ⟨misuse, foreign⟩ => ⟨misuse, .item collection readable foreign⟩
  | obj ms ih =>
    by_cases element : ∃ e, s = .one (.element e)
    · obtain ⟨e, rfl⟩ := element
      rcases decodeObject_eq_error.mp h with ⟨before, f, after, split, passes, fails⟩ | ⟨-, fails⟩
      · rcases decodeField_eq_error.mp fails with ⟨-, -, rfl⟩ | ⟨j, there, fails⟩
        · exact .inl ⟨_, rfl, trivial⟩
        · have entry := ih f.key j (Keyed.mem_of_get? (Option.filter_eq_some_iff.mp there).1) fails
          exact entry.imp_right fun ⟨misuse, foreign⟩ =>
            ⟨misuse, .entry split passes there foreign⟩
      · rcases fails with unknown | ⟨-, r, build, rfl⟩
        · exact .inl (diagnostic_of_checkKeys unknown)
        · have plain {key : String} {s : Shape} {v : Value}
              (h : found (object strict ms) path key s = some v) (es : List (String × Value)) :
              ¬ Value.Part (.dict es) v := by
            obtain ⟨j, -, read⟩ := exists_of_found h
            exact no_dict_of_decode read es
          have there : Build.There (fun f => found (object strict ms) path f.key f.shape)
              fun m => found (object strict ms) path m.key (.one m.kind) :=
            ⟨fun _ _ => found_there, fun _ _ => found_there⟩
          exact .inl (diagnostic_of_refusal (Build.refusal_of_build there
            (fun _ _ => plain) (fun _ _ => plain) build))
    · rw [decode_obj_of_ne element] at h
      exact decodeShape_eq_error h
  | _ => exact decodeShape_eq_error h

/-- A document is parsed, or refused with a diagnostic, with two exceptions that are no answer to
the document but an error of the call: a text with characters beyond ASCII, where bytes are
expected, is the first thing wrong; or nothing is wrong, but the document is recorded and cannot
be. -/
theorem parsed_or_refused (s : Settings) (e : Element) (j : Json) (limit : Option Nat) :
    (Foreign s.rejectUnknown (.one (.element e)) j ∧
        (Codec.plain.parse s e j limit).outcome = .error (.misuse .foreignCharacters)) ∨
      (Valid s.rejectUnknown (.one (.element e)) j ∧ ¬ Recordable s limit j ∧
        ∃ failure, failure.IsUnrecorded limit ∧
          (Codec.plain.parse s e j limit).outcome = .error failure) ∨
      ¬ Foreign s.rejectUnknown (.one (.element e)) j ∧
        (Valid s.rejectUnknown (.one (.element e)) j → Recordable s limit j) ∧
        ((∃ m, (Codec.plain.parse s e j limit).outcome = .ok m) ∨
          ∃ error, (Codec.plain.parse s e j limit).outcome = .error (.error error) ∧
            error.IsDiagnostic) := by
  rw [Codec.outcome_parse_record]
  by_cases foreign : Foreign s.rejectUnknown (.one (.element e)) j
  · rw [decode_of_foreign foreign]
    exact .inl ⟨foreign, rfl⟩
  · refine .inr ?_
    cases read : (decode s.rejectUnknown j (.one (.element e)) []).outcome with
    | ok m =>
      have valid := (decode_eq_ok.mp read).1
      by_cases recordable : Recordable s limit j
      · rw [Codec.outcome_record recordable]
        exact .inr ⟨foreign, fun _ => recordable, .inl ⟨m, rfl⟩⟩
      · obtain ⟨failure, unrecorded, fails⟩ := Codec.record_eq_error recordable (.parsed e j)
        rw [fails]
        exact .inl ⟨valid, recordable, failure, unrecorded, rfl⟩
    | error failure =>
      have invalid (valid : Valid s.rejectUnknown (.one (.element e)) j) : False := by
        cases read.symm.trans (decode_eq_ok.mpr ⟨valid, rfl⟩)
      rcases diagnostic_or_foreign read with ⟨error, rfl, diagnostic⟩ | ⟨-, foreign'⟩
      · exact .inr ⟨foreign, fun valid => (invalid valid).elim, .inr ⟨error, rfl, diagnostic⟩⟩
      · exact absurd foreign' foreign

end

example : (Codec.plain.parse {} .pncAuthSetupResParams
    (.obj [("genChallenge", .str "é")])).outcome = .error (.misuse .foreignCharacters) :=
  rfl

end Wire

end V2G
