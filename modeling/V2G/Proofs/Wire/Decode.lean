import V2G.Proofs.Build.ByKey
import V2G.Proofs.Codec
import V2G.Proofs.Wire.Grammar

/-!
# Reading accepts the grammar

A document is read for a shape, and what was read is accepted in its place, exactly if the
document is valid for the shape; the value is then the one that the document stands for
(`reads_iff`). Reading an element is the same with the building of the element at its end, which
is where limits, selections and rules are looked at.
-/

namespace V2G.Wire

/-! ### Objects by their places -/

variable {o : Object} {path : Path}

/-- What is read for a shape under a key, if anything stands there. -/
def found (o : Object) (path : Path) (key : String) (s : Shape) : Option Value :=
  o.entry? key |>.bind fun entry => (entry.decode s (path ++ [.key key])).outcome.toOption

/-- Whatever stands under a key is read. -/
def Ready (o : Object) (path : Path) (key : String) (s : Shape) : Prop :=
  ∀ entry, o.entry? key = some entry →
    ∃ v, (entry.decode s (path ++ [.key key])).outcome = .ok v

theorem outcome_entry_eq_ok {event : Event} {t : Traced Value} {k : String} {args : Keyed Value} :
    (do Traced.emit event; return [(k, ← t)] : Traced (Keyed Value)).outcome = .ok args ↔
      ∃ v, t.outcome = .ok v ∧ args = [(k, v)] := by
  rw [Traced.outcome_bind_eq_ok]
  constructor
  · rintro ⟨_, -, h⟩
    obtain ⟨v, hv, e⟩ := Traced.outcome_bind_eq_ok.mp h
    cases e
    exact ⟨v, hv, rfl⟩
  · rintro ⟨v, hv, rfl⟩
    exact ⟨(), rfl, Traced.outcome_bind_eq_ok.mpr ⟨v, hv, rfl⟩⟩

theorem entry_eq_ok {k : String} {entry : Entry} (h : o.entry? k = some entry) (s : Shape)
    {args : Keyed Value} :
    (∃ v, (entry.decode s (path ++ [.key k])).outcome = .ok v ∧ args = [(k, v)]) ↔
      Ready o path k s ∧ args = ((found o path k s).map (k, ·)).toList := by
  simp only [Ready, found, h, Option.some.injEq, forall_eq', Option.bind_some]
  cases (entry.decode s (path ++ [.key k])).outcome <;> simp [Except.toOption]

theorem entry_of_none {k : String} (h : o.entry? k = none) (s : Shape) :
    Ready o path k s ∧ found o path k s = none := by
  simp [Ready, found, h]

theorem decodeField_eq_ok {f : Field} {args : Keyed Value} :
    (decodeField o path f).outcome = .ok args ↔
      ((f.required = true → o.entry? f.key ≠ none) ∧ Ready o path f.key f.shape) ∧
        args = ((found o path f.key f.shape).map (f.key, ·)).toList := by
  unfold decodeField
  split
  · next entry h =>
    rw [outcome_entry_eq_ok, entry_eq_ok h f.shape]
    simp [h]
  · next h =>
    obtain ⟨ready, none⟩ : Ready o path f.key f.shape ∧ found o path f.key f.shape = none :=
      entry_of_none h f.shape
    simp only [ready, none, h]
    cases f.required <;> simp [Traced.error, eq_comm]

theorem decodeMember_eq_ok {m : Member} {args : Keyed Value} :
    (decodeMember o path m).outcome = .ok args ↔ Ready o path m.key (.one m.kind) ∧
      args = ((found o path m.key (.one m.kind)).map (m.key, ·)).toList := by
  unfold decodeMember
  split
  · next entry h =>
    exact outcome_entry_eq_ok.trans (entry_eq_ok h (.one m.kind))
  · next h =>
    obtain ⟨ready, none⟩ : Ready o path m.key (.one m.kind) ∧
        found o path m.key (.one m.kind) = none :=
      entry_of_none h (.one m.kind)
    simp [ready, none, eq_comm]

theorem checkKeys_eq_ok {strict : Bool} {e : Element} :
    (checkKeys strict e o path).outcome = .ok () ↔ (strict = true → ∀ k ∈ o.keys, k ∈ e.keys) := by
  unfold checkKeys
  split
  · next none =>
    have known : ∀ k ∈ o.keys, k ∈ e.keys := by simpa using List.filter_eq_nil_iff.mp none
    exact ⟨fun _ _ => known, fun _ => rfl⟩
  · next k ks unknown =>
    have : ∃ k ∈ o.keys, k ∉ e.keys := by
      have := List.mem_filter.mp (unknown ▸ List.mem_cons_self : k ∈ List.filter _ _)
      exact ⟨k, this.1, by simpa using this.2⟩
    cases strict <;> simp [malformed, Traced.error, this]

section

variable {reader : Url.Reader}

theorem decodeObject_eq_ok {strict : Bool} {e : Element} {v : Value} :
    (decodeObject strict e o path).outcome = .ok v ↔
      (∀ f ∈ e.fields, f.required = true → o.entry? f.key ≠ none) ∧
      (∀ f ∈ e.fields, Ready o path f.key f.shape) ∧
      (∀ m ∈ e.members, Ready o path m.key (.one m.kind)) ∧
      (strict = true → ∀ k ∈ o.keys, k ∈ e.keys) ∧
      e.build (e.inOrder (fun f => found o path f.key f.shape)
        fun m => found o path m.key (.one m.kind)) = .ok v := by
  have fields (fs : List Field) (args : List (Keyed Value)) :
      (fs.mapM (decodeField o path)).outcome = .ok args ↔
        (∀ f ∈ fs, (f.required = true → o.entry? f.key ≠ none) ∧ Ready o path f.key f.shape) ∧
          args = fs.map fun f => ((found o path f.key f.shape).map (f.key, ·)).toList := by
    rw [Traced.outcome_mapM_eq_ok]
    exact map_eq_ok_iff fun f args => decodeField_eq_ok
  have members (args : List (Keyed Value)) :
      (e.members.mapM (decodeMember o path)).outcome = .ok args ↔
        (∀ m ∈ e.members, Ready o path m.key (.one m.kind)) ∧
          args = e.members.map fun m =>
            ((found o path m.key (.one m.kind)).map (m.key, ·)).toList := by
    rw [Traced.outcome_mapM_eq_ok]
    exact map_eq_ok_iff fun m args => decodeMember_eq_ok
  have args : e.inOrder (fun f => found o path f.key f.shape)
      (fun m => found o path m.key (.one m.kind)) =
      (e.mandatoryFields.map (fun f => ((found o path f.key f.shape).map (f.key, ·)).toList) ++
        e.optionalFields.map (fun f => ((found o path f.key f.shape).map (f.key, ·)).toList) ++
        e.members.map fun m =>
          ((found o path m.key (.one m.kind)).map (m.key, ·)).toList).flatten := by
    simp only [Element.inOrder, List.filterMap_eq_flatMap_toList, List.flatMap_def,
      List.map_append, List.flatten_append]
  simp only [decodeObject, Traced.outcome_bind_eq_ok, fields, members, Traced.outcome_ofExcept,
    Except.mapError_eq_ok]
  rw [args]
  constructor
  · rintro ⟨_, ⟨mandatory, rfl⟩, _, ⟨optional, rfl⟩, _, ⟨chosen, rfl⟩, _, keys, build⟩
    have all : ∀ f ∈ e.fields,
        (f.required = true → o.entry? f.key ≠ none) ∧ Ready o path f.key f.shape := by
      intro f hf
      rcases List.mem_append.mp (Element.mem_orderedFields.mpr hf) with hf | hf
      · exact mandatory f hf
      · exact optional f hf
    exact ⟨fun f hf => (all f hf).1, fun f hf => (all f hf).2, chosen,
      checkKeys_eq_ok.mp keys, build⟩
  · rintro ⟨mandatory, ready, chosen, keys, build⟩
    have all : ∀ f ∈ e.mandatoryFields ++ e.optionalFields,
        (f.required = true → o.entry? f.key ≠ none) ∧ Ready o path f.key f.shape := by
      intro f hf
      have hf := Element.mem_orderedFields.mp hf
      exact ⟨mandatory f hf, ready f hf⟩
    exact ⟨_, ⟨fun f hf => all f (List.mem_append_left _ hf), rfl⟩, _,
      ⟨fun f hf => all f (List.mem_append_right _ hf), rfl⟩, _, ⟨chosen, rfl⟩, (),
      checkKeys_eq_ok.mpr keys, build⟩

/-! ### What is read before it is accepted -/

/-- What is read for a kind is data of the kind, and no element. -/
theorem decodeKind_raw {k : Kind} {j : Json} {r : Value}
    (h : (decodeKind k j path).outcome = .ok r) :
    r.isNone = false ∧ ∀ e fs, r ≠ .element e fs := by
  have bytes (s : String) (h : (decodeBytes path s).outcome = .ok r) :
      r.isNone = false ∧ ∀ e fs, r ≠ .element e fs := by
    unfold decodeBytes at h
    split at h
    · cases h
    · split at h
      · cases h; exact ⟨rfl, nofun⟩
      · cases h
  cases k <;> cases j <;> first
    | cases h <;> exact ⟨rfl, nofun⟩
    | exact bytes _ h

theorem misfit?_of_ne {k : Kind} {r : Value} (h : ∀ e fs, r ≠ .element e fs) :
    Group.misfit? k r = none := by
  cases r <;> first | rfl | exact absurd rfl (h _ _)

theorem decodeItems_eq_ok {k : Kind} {items : List (Kind → Path → Traced Value)} {r : Value} :
    (decodeItems k path items).outcome = .ok r ↔ ∃ rs : List Value,
      ((items.mapIdx fun i read => read k (path ++ [.index i])).map (·.outcome)) = rs.map .ok ∧
        r = .tuple rs := by
  rw [decodeItems, Traced.outcome_bind_eq_ok]
  refine exists_congr fun rs => and_congr Traced.outcome_mapM_eq_ok ?_
  rw [Traced.outcome_pure, Except.ok.injEq, eq_comm]

theorem decode_obj_of_ne {s : Shape} (h : ¬ ∃ e, s = .one (.element e)) (strict : Bool)
    (ms : Keyed Json) (path : Path) :
    decode strict (.obj ms) s path = decodeShape s (.obj ms) path := by
  rcases s with (_ | _ | _ | _ | _ | _ | _ | e) | _ | _ <;> first | rfl | exact absurd ⟨e, rfl⟩ h

/-- Nothing is read as absent, arrays are read as tuples of as many items, and elements as
elements of the class asked for. -/
theorem decode_raw {strict : Bool} {j : Json} {s : Shape} {r : Value}
    (h : (decode strict j s path).outcome = .ok r) :
    r.isNone = false ∧ Group.misfit? s.kind r = none ∧
      (s.isCollection = true → ∃ js rs, j = .arr js ∧ r = .tuple rs ∧ rs.length = js.length) := by
  have one {k : Kind} (h : (decodeKind k j path).outcome = .ok r) :
      r.isNone = false ∧ Group.misfit? k r = none :=
    ⟨(decodeKind_raw h).1, misfit?_of_ne (decodeKind_raw h).2⟩
  have shape (h : (decodeShape s j path).outcome = .ok r) : r.isNone = false ∧
      Group.misfit? s.kind r = none ∧
        (s.isCollection = true → ∃ js rs, j = .arr js ∧ r = .tuple rs ∧ rs.length = js.length) := by
    cases s with
    | one k => exact ⟨(one h).1, (one h).2, nofun⟩
    | _ => cases h
  cases j with
  | arr js =>
    have array {k : Kind} (h : (decodeItems k path (items strict js)).outcome = .ok r) :
        r.isNone = false ∧ Group.misfit? k r = none ∧
          ∃ js' rs, Json.arr js = .arr js' ∧ r = .tuple rs ∧ rs.length = js'.length := by
      obtain ⟨rs, all, rfl⟩ := decodeItems_eq_ok.mp h
      refine ⟨rfl, rfl, js, rs, rfl, rfl, ?_⟩
      simpa [items_eq] using (congrArg List.length all).symm
    cases s with
    | one k => exact ⟨(one h).1, (one h).2, nofun⟩
    | list k least most | set k least most =>
      exact ⟨(array h).1, (array h).2.1, fun _ => (array h).2.2⟩
  | obj ms =>
    by_cases element : ∃ e, s = .one (.element e)
    · obtain ⟨e, rfl⟩ := element
      obtain ⟨-, -, -, -, build⟩ := decodeObject_eq_ok.mp h
      obtain ⟨fs, rfl, -⟩ := (Build.assemble_eq_ok (Build.grounded_arguments _)).mp build
      exact ⟨rfl, by simp [Shape.kind, Group.misfit?], nofun⟩
    · exact shape (decode_obj_of_ne element strict ms path ▸ h)
  | _ => exact shape h

/-! ### Scalars -/

variable [reader]

/-- A document is read for a shape, and what was read becomes `v` in its place. -/
def Reads (strict : Bool) (j : Json) (s : Shape) (path : Path) (v : Value) : Prop :=
  ∃ r, (decode strict j s path).outcome = .ok r ∧ Build.read r s = .ok v

variable {reader}

theorem decodeBytes_eq_ok {s : String} {r : Value} :
    (decodeBytes path s).outcome = .ok r ↔ ∃ data, Base64.decode s.toList = .ok data ∧
      r = .bytes data := by
  unfold decodeBytes
  split
  · next foreign =>
    obtain ⟨c, hc, beyond⟩ := List.any_eq_true.mp foreign
    simp only [Traced.misuse, Traced.outcome_fail, reduceCtorEq, false_iff]
    rintro ⟨data, h, -⟩
    have := Base64.toNat_lt_of_decode h c hc
    simp only [decide_eq_true_eq] at beyond
    omega
  · cases Base64.decode s.toList <;> simp [malformed, Traced.error, eq_comm]

section Scalars

variable {v : Value}

theorem readScalar_int {low high : Option Int} {n : Int} :
    Build.readScalar (.int low high) (.int n) = .ok v ↔
      Accepts (.int low high) (.int n) ∧ v = .int n := by
  simp only [Build.readScalar, Except.bind_eq_ok, Build.readInt, Except.ok.injEq,
    exists_eq_left', Build.inRange_eq_ok]
  constructor
  · rintro ⟨_, ⟨rfl, bounds⟩, e⟩
    cases e
    exact ⟨bounds, rfl⟩
  · rintro ⟨bounds, rfl⟩
    exact ⟨n, ⟨rfl, bounds⟩, rfl⟩

theorem readScalar_url {s : String} :
    Build.readScalar .url (.text s) = .ok v ↔
      Accepts .url (.str s) ∧ v = denoteScalar .url (.str s) := by
  refine Build.urlOfText_eq_ok.trans ⟨?_, ?_⟩
  · rintro ⟨u, short, read, web, rfl⟩
    refine ⟨⟨u, short, read, web⟩, ?_⟩
    rw [denoteScalar, Build.urlOfText_eq_ok.mpr ⟨u, short, read, web, rfl⟩]
    rfl
  · rintro ⟨⟨u, short, read, web⟩, rfl⟩
    refine ⟨u, short, read, web, ?_⟩
    rw [denoteScalar, Build.urlOfText_eq_ok.mpr ⟨u, short, read, web, rfl⟩]
    rfl

theorem readScalar_token {t : TokenType} {s : String} :
    Build.readScalar (.token t) (.text s) = .ok v ↔
      Accepts (.token t) (.str s) ∧ v = denoteScalar (.token t) (.str s) := by
  by_cases h : t.tokens.contains s = true
  · simp [Build.readScalar, Build.readToken, Build.spelled?, Value.text?, Accepts, denoteScalar,
      List.contains_iff_mem.mp h, eq_comm]
  · have : s ∉ t.tokens := fun hs => h (List.contains_iff_mem.mpr hs)
    simp [Build.readScalar, Build.readToken, Build.spelled?, Value.text?, Accepts, this]

theorem decodeBytes_reads {least : Nat} {most : Option Nat} {s : String} :
    (∃ r, (decodeBytes path s).outcome = .ok r ∧ Build.read r (.one (.bytes least most)) = .ok v) ↔
      Accepts (.bytes least most) (.str s) ∧ v = denoteScalar (.bytes least most) (.str s) := by
  simp only [decodeBytes_eq_ok, Accepts, denoteScalar]
  constructor
  · rintro ⟨_, ⟨data, read, rfl⟩, h⟩
    obtain ⟨rfl, within⟩ := Build.boundedBytes_eq_ok.mp (Except.mapError_eq_ok.mp h)
    exact ⟨⟨data, read, within⟩, by rw [read]; rfl⟩
  · rintro ⟨⟨data, read, within⟩, rfl⟩
    refine ⟨_, ⟨data, read, rfl⟩, Except.mapError_eq_ok.mpr ?_⟩
    exact Build.boundedBytes_eq_ok.mpr ⟨by rw [read]; rfl, within⟩

theorem decodeKind_reads {k : Kind} {j : Json} :
    (∃ r, (decodeKind k j path).outcome = .ok r ∧ Build.read r (.one k) = .ok v) ↔
      Accepts k j ∧ v = denoteScalar k j := by
  have refused (h : ∀ r, (decodeKind k j path).outcome ≠ .ok r) (h' : ¬ Accepts k j) :
      (∃ r, (decodeKind k j path).outcome = .ok r ∧ Build.read r (.one k) = .ok v) ↔
        Accepts k j ∧ v = denoteScalar k j :=
    ⟨fun ⟨r, hr, _⟩ => absurd hr (h r), fun h => absurd h.1 h'⟩
  have accepted {r : Value}
      (plain : Build.read r (.one k) = (Build.readScalar k r).mapError Refusal.fault)
      (h : Build.readScalar k r = .ok v ↔ Accepts k j ∧ v = denoteScalar k j) :
      (∃ x, (pure r : Traced Value).outcome = .ok x ∧ Build.read x (.one k) = .ok v) ↔
        Accepts k j ∧ v = denoteScalar k j := by
    simpa [plain, Except.mapError_eq_ok] using h
  -- Each kind is read from one kind of document, and from no other.
  cases k with
  | int low high =>
    cases j with
    | int n => exact accepted rfl readScalar_int
    | _ => exact refused (by rintro _ ⟨⟩) id
  | bool =>
    cases j with
    | bool b =>
      refine accepted rfl ?_
      simp [Build.readScalar, Build.readBool, Except.map, Accepts, denoteScalar, eq_comm]
    | _ => exact refused (by rintro _ ⟨⟩) id
  | text least most =>
    cases j with
    | str s => exact accepted rfl (Build.boundedText_eq_ok.trans and_comm)
    | _ => exact refused (by rintro _ ⟨⟩) id
  | bytes least most =>
    cases j with
    | str s => exact decodeBytes_reads
    | _ => exact refused (by rintro _ ⟨⟩) id
  | url =>
    cases j with
    | str s => exact accepted rfl readScalar_url
    | _ => exact refused (by rintro _ ⟨⟩) id
  | token t =>
    cases j with
    | str s => exact accepted rfl readScalar_token
    | _ => exact refused (by rintro _ ⟨⟩) id
  | identifier t =>
    cases j with
    | str s =>
      refine accepted rfl (Except.mapError_eq_ok.trans ?_)
      simp only [IdentifierType.read_eq_ok, Value.text?, Option.some.injEq, exists_eq_left']
      exact and_assoc.symm
    | _ => exact refused (by rintro _ ⟨⟩) id
  | element e => exact refused (fun r h => by cases j <;> cases h) (by cases j <;> exact id)

end Scalars

/-! ### Arrays -/

variable [reader]

/-- Reading a document for a shape is told by the grammar. -/
def Told (strict : Bool) (j : Json) (s : Shape) : Prop :=
  ∀ path v, Reads strict j s path v ↔ Valid strict s j ∧ v = denote j s

variable {reader}

theorem items_read {strict : Bool} {js : List Json} {k : Kind}
    (ih : ∀ j ∈ js, Told strict j (.one k)) (place : Nat → Path) (vs : List Value) :
    (∃ rs : List Value,
        (((items strict js).mapIdx fun i read => read k (place i)).map (·.outcome)) = rs.map .ok ∧
          (rs.map fun r => Build.read r (.one k)) = vs.map .ok) ↔
      (∀ j ∈ js, Valid strict (.one k) j) ∧ vs = js.map (denote · (.one k)) := by
  induction js generalizing place vs with
  | nil =>
    simp only [items, List.mapIdx_nil, List.map_nil, List.not_mem_nil, false_implies, implies_true,
      true_and]
    constructor
    · rintro ⟨rs, none, all⟩
      rw [List.map_eq_nil_iff.mp none.symm] at all
      exact List.map_eq_nil_iff.mp all.symm
    · rintro rfl
      exact ⟨[], rfl, rfl⟩
  | cons j js ihs =>
    have rest := ihs (fun x hx => ih x (List.mem_cons_of_mem _ hx)) fun i => place (i + 1)
    have first := ih j List.mem_cons_self (place 0)
    simp only [items, List.mapIdx_cons, List.map_cons, List.forall_mem_cons]
    constructor
    · rintro ⟨rs, read, accepted⟩
      cases rs with
      | nil => cases read
      | cons r rs =>
        cases vs with
        | nil => cases accepted
        | cons v vs =>
          obtain ⟨hr, hrs⟩ := List.cons.inj read
          obtain ⟨hv, hvs⟩ := List.cons.inj accepted
          obtain ⟨valid, rfl⟩ := (first v).mp ⟨r, hr, hv⟩
          obtain ⟨valids, rfl⟩ := (rest vs).mp ⟨rs, hrs, hvs⟩
          exact ⟨⟨valid, valids⟩, rfl⟩
    · rintro ⟨⟨valid, valids⟩, rfl⟩
      obtain ⟨r, hr, hv⟩ := (first _).mpr ⟨valid, rfl⟩
      obtain ⟨rs, hrs, hvs⟩ := (rest _).mpr ⟨valids, rfl⟩
      exact ⟨r :: rs, by rw [List.map_cons, hrs, hr], by rw [List.map_cons, List.map_cons, hv, hvs]⟩

theorem told_of_shape {strict : Bool} {j : Json} {s : Shape}
    (read : ∀ path, decode strict j s path = decodeShape s j path)
    (value : denote j s = denoteShape s j)
    (plain : Valid strict s j → ∃ k, s = .one k ∧ Accepts k j) : Told strict j s := by
  intro path v
  rw [Reads, read, value]
  cases s with
  | one k =>
    refine decodeKind_reads.trans (and_congr_left fun _ => ⟨.scalar, fun valid => ?_⟩)
    obtain ⟨_, e, accepts⟩ := plain valid
    cases e
    exact accepts
  | list k least most | set k least most =>
    constructor
    · rintro ⟨r, h, -⟩
      cases h
    · rintro ⟨valid, -⟩
      obtain ⟨_, e, -⟩ := plain valid
      cases e

theorem told_array {strict : Bool} {js : List Json} {s : Shape}
    (ih : ∀ j ∈ js, Told strict j (.one s.kind)) : Told strict (.arr js) s := by
  cases s with
  | one k =>
    refine told_of_shape (fun _ => rfl) rfl fun valid => ?_
    cases valid with
    | scalar accepts => exact ⟨k, rfl, accepts⟩
  | list k least most =>
    intro path v
    have both := items_read ih fun i => path ++ [.index i]
    rw [denote_list]
    constructor
    · rintro ⟨r, h, hv⟩
      obtain ⟨rs, hrs, rfl⟩ := decodeItems_eq_ok.mp h
      obtain ⟨vs, hvs, least, most, rfl⟩ := (Build.read_items_list rfl).mp hv
      obtain ⟨valid, rfl⟩ := (both vs).mp ⟨rs, hrs, hvs⟩
      rw [List.length_map] at least most
      exact ⟨.list valid least most, rfl⟩
    · rintro ⟨valid, rfl⟩
      cases valid with
      | list valid least most =>
        obtain ⟨rs, hrs, hvs⟩ := (both _).mpr ⟨valid, rfl⟩
        refine ⟨_, decodeItems_eq_ok.mpr ⟨rs, hrs, rfl⟩, ?_⟩
        exact (Build.read_items_list rfl).mpr
          ⟨_, hvs, by rwa [List.length_map], by rwa [List.length_map], rfl⟩
  | set k least most =>
    intro path v
    have both := items_read ih fun i => path ++ [.index i]
    rw [denote_set]
    constructor
    · rintro ⟨r, h, hv⟩
      obtain ⟨rs, hrs, rfl⟩ := decodeItems_eq_ok.mp h
      obtain ⟨vs, hvs, least, most, rfl⟩ := (Build.read_items_set rfl).mp hv
      obtain ⟨valid, rfl⟩ := (both vs).mp ⟨rs, hrs, hvs⟩
      rw [List.length_map] at least
      exact ⟨.set valid least most, rfl⟩
    · rintro ⟨valid, rfl⟩
      cases valid with
      | set valid least most =>
        obtain ⟨rs, hrs, hvs⟩ := (both _).mpr ⟨valid, rfl⟩
        refine ⟨_, decodeItems_eq_ok.mpr ⟨rs, hrs, rfl⟩, ?_⟩
        exact (Build.read_items_set rfl).mpr ⟨_, hvs, by rwa [List.length_map], most, rfl⟩

/-! ### Objects -/

variable {strict : Bool} {ms : Keyed Json}

theorem entry_object (key : String) :
    Object.entry? (object strict ms) key =
      (member? ms key).map fun j => ⟨j.isNull, decode strict j⟩ := by
  unfold Object.entry?
  rw [object_eq, Keyed.get?_map fun j => (⟨j.isNull, decode strict j⟩ : Entry), member?]
  cases Keyed.get? ms key with
  | none => rfl
  | some j => cases hj : j.isNull <;> simp [Option.filter, hj]

theorem keys_object : Keyed.keys (object strict ms) = ms.keys := by
  rw [object_eq, Keyed.keys, List.map_map]
  rfl

theorem ready_object {key : String} {s : Shape} : Ready (object strict ms) path key s ↔
    ∀ j, member? ms key = some j →
      ∃ r, (decode strict j s (path ++ [.key key])).outcome = .ok r := by
  simp only [Ready, entry_object, Option.map_eq_some_iff]
  constructor
  · exact fun h j hj => h _ ⟨j, hj, rfl⟩
  · rintro h _ ⟨j, hj, rfl⟩
    exact h j hj

theorem found_object {key : String} {s : Shape} {j : Json} {r : Value}
    (hj : member? ms key = some j) (hr : (decode strict j s (path ++ [.key key])).outcome = .ok r) :
    found (object strict ms) path key s = some r := by
  simp [found, entry_object, hj, hr, Except.toOption]

theorem found_eq_none {key : String} (h : member? ms key = none) (s : Shape) :
    found (object strict ms) path key s = none := by
  simp [found, entry_object, h]

theorem exists_of_found {key : String} {s : Shape} {r : Value}
    (h : found (object strict ms) path key s = some r) :
    ∃ j, member? ms key = some j ∧ (decode strict j s (path ++ [.key key])).outcome = .ok r := by
  simp only [found, entry_object, Option.bind_eq_some_iff, Option.map_eq_some_iff] at h
  obtain ⟨_, ⟨j, hj, rfl⟩, hr⟩ := h
  refine ⟨j, hj, ?_⟩
  cases ho : (decode strict j s (path ++ [.key key])).outcome <;> simp_all [Except.toOption]

/-- What was read leaves a field absent exactly if the document does. -/
theorem leavesAbsent_iff {f : Field} {j : Json} {r : Value}
    (h : (decode strict j f.shape path).outcome = .ok r) :
    Build.leavesAbsent f r = isDropped f j := by
  obtain ⟨there, -, array⟩ := decode_raw h
  cases hc : f.shape.isCollection with
  | false => simp [Build.leavesAbsent, isDropped, hc, there]
  | true =>
    obtain ⟨js, rs, rfl, rfl, length⟩ := array hc
    cases js <;> cases rs <;>
      simp_all [Build.leavesAbsent, isDropped, Value.isEmptyCollection, Value.isNone]

theorem valid_of_dropped {e : Element} {f : Field} (hf : f ∈ e.fields) {j : Json}
    (h : isDropped f j = true) : Valid strict f.shape j := by
  simp only [isDropped, Bool.and_eq_true, Bool.not_eq_true'] at h
  obtain ⟨⟨optional, hc⟩, empty⟩ := h
  have least := Element.least_of_optional hf optional hc
  split at empty
  · cases hs : f.shape with
    | one k => rw [hs] at hc; cases hc
    | list k l most =>
      rw [hs] at least
      exact .list (by simp) (by simp [show l = 0 from least]) (Nat.zero_le _)
    | set k l most =>
      rw [hs] at least
      exact .set (by simp) (by simp [show l = 0 from least]) (Nat.zero_le _)
  · cases empty

variable (path strict) in
theorem field_reads {e : Element} {f : Field} (hf : f ∈ e.fields)
    (ih : ∀ j, member? ms f.key = some j → Told strict j f.shape) (v : Value) :
    (f.required = true → Object.entry? (object strict ms) f.key ≠ none) ∧
        Ready (object strict ms) path f.key f.shape ∧
        Build.Takes f ((found (object strict ms) path f.key f.shape).map Build.argOf) v ↔
      (f.required = true → member? ms f.key ≠ none) ∧
        (∀ j, member? ms f.key = some j → Valid strict f.shape j) ∧ v = fieldOf ms f := by
  rw [entry_object, ready_object, fieldOf]
  cases hj : member? ms f.key with
  | none =>
    rw [found_eq_none hj]
    cases hr : f.required <;> simp [Build.Takes, hr]
  | some j =>
    simp only [Option.map_some, ne_eq, reduceCtorEq, not_false_eq_true, implies_true, true_and,
      Option.some.injEq, forall_eq']
    constructor
    · rintro ⟨⟨r, hr⟩, takes⟩
      rw [found_object hj hr] at takes
      simp only [Option.map_some, Build.Takes, leavesAbsent_iff hr] at takes
      split at takes
      · next dropped => exact ⟨valid_of_dropped hf dropped, by rw [if_pos dropped]; exact takes⟩
      · next kept =>
        rw [if_neg kept]
        exact (ih j hj _ v).mp ⟨r, hr, takes⟩
    · rintro ⟨valid, value⟩
      obtain ⟨r, hr, read⟩ := (ih j hj (path ++ [.key f.key]) _).mpr ⟨valid, rfl⟩
      refine ⟨⟨r, hr⟩, ?_⟩
      rw [found_object hj hr]
      simp only [Option.map_some, Build.Takes, leavesAbsent_iff hr]
      split
      · next dropped => rwa [if_pos dropped] at value
      · next kept =>
        rw [if_neg kept] at value
        exact value ▸ read

/-- The members that are read are those that are there. -/
theorem filter_found {g : Group}
    (ready : ∀ m ∈ g.members, Ready (object strict ms) path m.key (.one m.kind)) :
    (g.members.filter fun m =>
      (found (object strict ms) path m.key (.one m.kind)).isSome) = chosen g ms := by
  refine List.filter_congr fun m hm => ?_
  cases hj : member? ms m.key with
  | none => rw [found_eq_none hj]; rfl
  | some j =>
    obtain ⟨r, hr⟩ := ready_object.mp (ready m hm) j hj
    rw [found_object hj hr]
    rfl

variable (path strict) in
theorem choice_reads (g : Group)
    (ih : ∀ m ∈ g.members, ∀ j, member? ms m.key = some j → Told strict j (.one m.kind))
    (v : Value) :
    (∀ m ∈ g.members, Ready (object strict ms) path m.key (.one m.kind)) ∧
        Build.Chosen g (fun m => found (object strict ms) path m.key (.one m.kind)) v ↔
      ((chosen g ms).length ≤ 1 ∧ (g.required = true → chosen g ms ≠ [])) ∧
        (∀ m ∈ g.members, ∀ j, member? ms m.key = some j → Valid strict (.one m.kind) j) ∧
        v = choiceOf g ms := by
  constructor
  · rintro ⟨ready, count, h⟩
    rw [filter_found ready] at count h
    refine ⟨count, ?_⟩
    rcases h with ⟨none, rfl⟩ | ⟨m, rest, r, w, one, hr, fit, read, rfl⟩
    · refine ⟨fun m hm j hj => ?_, ?_⟩
      · have there := mem_chosen hm hj
        rw [none] at there
        cases there
      · rcases choiceOf_cases g ms with ⟨-, value⟩ | ⟨m, rest, j, one, -⟩
        · exact value.symm
        · rw [none] at one; cases one
    · obtain ⟨j, hj, hd⟩ := exists_of_found hr
      obtain ⟨valid, rfl⟩ := (ih m (mem_of_chosen one) j hj _ w).mp ⟨r, hd, read⟩
      refine ⟨fun m' hm' j' hj' => ?_, ?_⟩
      · obtain rfl := eq_of_chosen one count.1 hm' hj'
        cases hj.symm.trans hj'
        exact valid
      · rcases choiceOf_cases g ms with ⟨none, -⟩ | ⟨m', rest', j', one', hj', value⟩
        · rw [one] at none; cases none
        · cases one.symm.trans one'
          cases hj.symm.trans hj'
          exact value.symm
  · rintro ⟨count, valid, rfl⟩
    have reads : ∀ m ∈ g.members, ∀ j, member? ms m.key = some j →
        Reads strict j (.one m.kind) (path ++ [.key m.key]) (denote j (.one m.kind)) :=
      fun m hm j hj => (ih m hm j hj _ _).mpr ⟨valid m hm j hj, rfl⟩
    have ready : ∀ m ∈ g.members, Ready (object strict ms) path m.key (.one m.kind) := by
      refine fun m hm => ready_object.mpr fun j hj => ?_
      obtain ⟨r, hr, -⟩ := reads m hm j hj
      exact ⟨r, hr⟩
    refine ⟨ready, ?_⟩
    rw [Build.Chosen, filter_found ready]
    refine ⟨count, ?_⟩
    rcases choiceOf_cases g ms with ⟨none, value⟩ | ⟨m, rest, j, one, hj, value⟩
    · exact .inl ⟨none, value⟩
    · obtain ⟨r, hr, read⟩ := reads m (mem_of_chosen one) j hj
      exact .inr ⟨m, rest, r, _, one, found_object hj hr,
        (decode_raw hr).2.1, read, value⟩

theorem found_there {key : String} {s : Shape} {v : Value}
    (h : found (object strict ms) path key s = some v) : v.isNone = false := by
  obtain ⟨j, -, hr⟩ := exists_of_found h
  exact (decode_raw hr).1

theorem reads_object {e : Element} {v : Value} :
    Reads strict (.obj ms) (.one (.element e)) path v ↔
      (decodeObject strict e (object strict ms) path).outcome = .ok v := by
  have kept (fs : List (String × Value)) :
      Build.read (.element e fs) (.one (.element e)) = .ok (.element e fs) := by
    have : Build.readScalar (.element e) (.element e fs) = .ok (.element e fs) :=
      if_pos e.isA_self
    exact Except.mapError_eq_ok.mpr this
  constructor
  · rintro ⟨r, hr, read⟩
    obtain ⟨-, -, -, -, build⟩ := decodeObject_eq_ok.mp hr
    obtain ⟨fs, rfl, -⟩ := (Build.assemble_eq_ok (Build.grounded_arguments _)).mp build
    rw [kept] at read
    cases read
    exact hr
  · intro h
    obtain ⟨-, -, -, -, build⟩ := decodeObject_eq_ok.mp h
    obtain ⟨fs, rfl, -⟩ := (Build.assemble_eq_ok (Build.grounded_arguments _)).mp build
    exact ⟨_, h, kept fs⟩

theorem told_object {e : Element}
    (ih : ∀ key j, member? ms key = some j → ∀ s, Told strict j s) :
    Told strict (.obj ms) (.one (.element e)) := by
  intro path v
  have field {f : Field} (hf : f ∈ e.fields) :=
    field_reads path strict hf fun j hj => ih f.key j hj f.shape
  have choice (g : Group) :=
    choice_reads path strict g fun m _ j hj => ih m.key j hj (.one m.kind)
  rw [reads_object, decodeObject_eq_ok,
    Build.build_inOrder ⟨fun _ _ => found_there, fun _ _ => found_there⟩, keys_object, denote_obj]
  constructor
  · rintro ⟨mandatory, ready, readyMembers, keys, fs, rfl, names, fields, selected, rule⟩
    have fieldsTold := fun f hf => (field hf _).mp ⟨mandatory f hf, ready f hf, fields f hf⟩
    have choiceTold := fun c hc =>
      (choice c.group _).mp ⟨fun m hm => readyMembers m (Element.members_eq hc ▸ hm), selected c hc⟩
    have same : Value.element e fs = .element e (entriesOf e ms) := by
      rw [← denote_obj]
      exact eq_denote_obj names (fun f hf => (fieldsTold f hf).2.2) fun c hc => (choiceTold c hc).2.2
    refine ⟨.object (fun f hf => (fieldsTold f hf).1) (fun f hf => (fieldsTold f hf).2.1)
      (fun c hc => (choiceTold c hc).1) (fun c m j hc hm => (choiceTold c hc).2.1 m hm j) keys ?_,
      same⟩
    rw [denote_obj, ← same]
    exact rule
  · rintro ⟨valid, rfl⟩
    cases valid with
    | scalar accepts => exact accepts.elim
    | object mandatory fields count chosen keys rule =>
      have fieldsRead := fun f hf =>
        (field hf ((Value.element e (entriesOf e ms)).field f.name)).mpr
          ⟨mandatory f hf, fields f hf, field_entriesOf hf⟩
      have choiceRead := fun c hc =>
        (choice c.group ((Value.element e (entriesOf e ms)).field c.name)).mpr
          ⟨count c hc, fun m hm j hj => chosen c m j hc hm hj, choice_entriesOf hc⟩
      rw [denote_obj] at rule
      refine ⟨fun f hf => (fieldsRead f hf).1, fun f hf => (fieldsRead f hf).2.1, fun m hm => ?_,
        keys, _, rfl, keys_entriesOf e, fun f hf => (fieldsRead f hf).2.2,
        fun c hc => (choiceRead c hc).2, rule⟩
      cases hc : e.choice with
      | none => simp [Element.members, hc] at hm
      | some c => exact (choiceRead c hc).1 m (Element.members_eq hc ▸ hm)

/-- Reading a document for a shape is told by the grammar: it succeeds on the valid documents, and
its result is what they stand for. -/
theorem told (strict : Bool) (j : Json) (s : Shape) : Told strict j s := by
  induction j using Json.induction generalizing s with
  | arr js ih => exact told_array fun j hj => ih j hj _
  | obj ms ih =>
    by_cases element : ∃ e, s = .one (.element e)
    · obtain ⟨e, rfl⟩ := element
      exact told_object fun key j hj s =>
        ih key j (Keyed.mem_of_get? (Option.filter_eq_some_iff.mp hj).1) s
    · refine told_of_shape (decode_obj_of_ne element strict ms) (denote_obj_of_ne element ms)
        fun valid => ?_
      cases valid with
      | scalar accepts => exact ⟨_, rfl, accepts⟩
      | object => exact absurd ⟨_, rfl⟩ element
  | _ =>
    refine told_of_shape (fun _ => rfl) rfl fun valid => ?_
    cases valid with
    | scalar accepts => exact ⟨_, rfl, accepts⟩

/-! ### Parsing -/

theorem decode_eq_ok {strict : Bool} {e : Element} {j : Json} {v : Value} :
    (decode strict j (.one (.element e)) path).outcome = .ok v ↔
      Valid strict (.one (.element e)) j ∧ v = denote j (.one (.element e)) := by
  rw [← told strict j (.one (.element e)) path v]
  cases j with
  | obj ms => exact reads_object.symm
  | _ =>
    constructor
    · intro h
      cases h
    · rintro ⟨r, h, -⟩
      cases h

theorem parse_eq_ok {s : Settings} {e : Element} {j : Json} {v : Value} :
    (Codec.plain.parse s e j).outcome = .ok v ↔
      Valid s.rejectUnknown (.one (.element e)) j ∧ v = denote j (.one (.element e)) := by
  rw [Codec.outcome_parse, decode_eq_ok]

/-- A document parses exactly if it is one of the grammar, provided that it can be recorded if it
is. -/
theorem parses_iff_valid {s : Settings} {e : Element} {j : Json} {limit : Option Nat}
    (recordable : Valid s.rejectUnknown (.one (.element e)) j → Recordable s limit j) :
    (∃ m, (Codec.plain.parse s e j limit).outcome = .ok m) ↔
      Valid s.rejectUnknown (.one (.element e)) j := by
  constructor
  · rintro ⟨m, parsed⟩
    exact (parse_eq_ok.mp (Codec.parse_eq_ok_iff.mp parsed).1).1
  · intro valid
    exact ⟨_, Codec.parse_eq_ok_iff.mpr ⟨parse_eq_ok.mpr ⟨valid, rfl⟩, recordable valid⟩⟩

end

def issuer (serial : Int) : Json :=
  .obj [("x509IssuerName", .str "CN"), ("x509SerialNumber", .int serial)]

/-- Serial numbers with recorded documents, one that is valid and one that is not. -/
theorem issuers_recorded :
    Valid true (.one (.element .x509IssuerSerial)) (issuer 5) ∧
      ¬ ∃ m, (Codec.plain.parse { recordDocuments := true } .x509IssuerSerial (issuer (-5))
        Json.digitLimit).outcome = .ok m := by
  have recordable {j : Json} (within : j.isWithin 4300 = true) :
      Recordable { recordDocuments := true } Json.digitLimit j := by
    rintro - _ ⟨⟩
    exact within
  constructor
  · exact (parses_iff_valid fun _ => recordable (by decide)).mp ⟨_, rfl⟩
  · rw [parses_iff_valid fun _ => recordable (by decide)]
    intro valid
    cases valid with
    | scalar accepts => exact accepts
    | object _ fields =>
      have serial : ⟨"x509_serial_number", "x509SerialNumber", true, .one (.int (some 0) none)⟩ ∈
          Element.fields .x509IssuerSerial := by decide
      cases fields _ serial (.int (-5)) rfl with
      | scalar accepts => exact absurd (accepts.1 0 rfl) (by decide)

section

variable [reader : Url.Reader]

/-- The grammar without the least sizes of arrays and the rules of elements. -/
inductive Formed (strict : Bool) : Shape → Json → Prop where
  | scalar {k : Kind} {j : Json} : Accepts k j → Formed strict (.one k) j
  | list {k : Kind} {least most : Nat} {js : List Json} :
      (∀ j ∈ js, Formed strict (.one k) j) → js.length ≤ most →
      Formed strict (.list k least most) (.arr js)
  | set {k : Kind} {least most : Nat} {js : List Json} :
      (∀ j ∈ js, Formed strict (.one k) j) →
      (Value.distinct .structural (js.map (denote · (.one k)))).length ≤ most →
      Formed strict (.set k least most) (.arr js)
  | object {e : Element} {ms : Keyed Json} :
      (∀ f ∈ e.fields, f.required = true → member? ms f.key ≠ none) →
      (∀ f ∈ e.fields, ∀ j, member? ms f.key = some j → Formed strict f.shape j) →
      (∀ c, e.choice = some c → (chosen c.group ms).length ≤ 1 ∧
        (c.group.required = true → chosen c.group ms ≠ [])) →
      (∀ c m j, e.choice = some c → m ∈ c.group.members → member? ms m.key = some j →
        Formed strict (.one m.kind) j) →
      (strict = true → ∀ k ∈ ms.keys, k ∈ e.keys) →
      Formed strict (.one (.element e)) (.obj ms)

def noSchedules : Json := .obj [("scheduleTuples", .arr [])]

def socsOutOfOrder : Json := .obj [("minimumSoc", .int 80), ("targetSoc", .int 20)]

variable {reader}

theorem formed_issuer {serial : Int} (h : 0 ≤ serial) :
    Formed true (.one (.element .x509IssuerSerial)) (issuer serial) := by
  have issuers : Element.fields .x509IssuerSerial =
      [⟨"x509_issuer_name", "x509IssuerName", true, .one .anyText⟩,
        ⟨"x509_serial_number", "x509SerialNumber", true, .one (.int (some 0) none)⟩] := by
    decide
  have keys : ∀ k ∈ ["x509IssuerName", "x509SerialNumber"],
      k ∈ Element.keys .x509IssuerSerial := by
    decide
  refine .object ?_ ?_ (by rintro _ ⟨⟩) (by rintro _ _ _ ⟨⟩) fun _ => keys
  · simp only [issuers, List.mem_cons, List.not_mem_nil, or_false, forall_eq_or_imp, forall_eq]
    exact ⟨fun _ => nofun, fun _ => nofun⟩
  · simp only [issuers, List.mem_cons, List.not_mem_nil, or_false, forall_eq_or_imp, forall_eq]
    refine ⟨?_, ?_⟩ <;> rintro _ ⟨⟩
    · exact .scalar ⟨Nat.zero_le _, nofun⟩
    · exact .scalar ⟨fun _ low => Option.some.inj low ▸ h, nofun⟩

end

theorem not_recordable_issuer {s : Settings} {most : Nat} {serial : Int}
    (recorded : s.recordDocuments = true) (long : (Json.int serial).isWithin most = false) :
    ¬ Recordable s (some most) (issuer serial) := by
  intro recordable
  have within := Json.membersWithin_iff.mp (recordable recorded most rfl) _ _
    (List.mem_cons_of_mem _ List.mem_cons_self)
  cases long.symm.trans within

def longSerial : Json := issuer (tenTo 4300)

/-- The form alone does not make a document parse: an array may be too short, and the limits for
the state of charge may contradict each other. Where documents are recorded, an integer may be too
long. -/
theorem formed_but_refused :
    (Formed true (.one (.element .scheduledScheduleExchangeResParams)) noSchedules ∧
      ∀ m, (Codec.plain.parse ⟨"INFO", false, true⟩ .scheduledScheduleExchangeResParams
        noSchedules).outcome ≠ .ok m) ∧
    Formed true (.one (.element .dynamicScheduleExchangeResParams)) socsOutOfOrder ∧
      (∀ m, (Codec.plain.parse ⟨"INFO", false, true⟩ .dynamicScheduleExchangeResParams
        socsOutOfOrder).outcome ≠ .ok m) ∧
    Formed true (.one (.element .x509IssuerSerial)) longSerial ∧
      ∀ m, (Codec.plain.parse ⟨"INFO", true, true⟩ .x509IssuerSerial longSerial
        Json.digitLimit).outcome ≠ .ok m := by
  have tuples : Element.fields .scheduledScheduleExchangeResParams =
      [⟨"schedule_tuples", "scheduleTuples", true, .set (.element .scheduleTuple) 1 3⟩] := by
    decide
  have socs : Element.fields .dynamicScheduleExchangeResParams =
      [⟨"departure_time", "departureTime", false, .one .uint32⟩,
        ⟨"min_soc", "minimumSoc", false, .one .percentage⟩,
        ⟨"target_soc", "targetSoc", false, .one .percentage⟩] := by
    decide
  have percentage (n : Int) (low : 0 ≤ n) (high : n ≤ 100) :
      Formed true (.one .percentage) (.int n) :=
    .scalar ⟨by simpa using low, by simpa using high⟩
  have unpriced : ∀ m ∈ Group.priceSchedule.members,
      (member? [("minimumSoc", .int 80), ("targetSoc", .int 20)] m.key).isNone = true := by
    decide
  refine ⟨⟨?_, fun m h => ?_⟩, ?_, fun m h => ?_, ?_, fun m h => ?_⟩
  · refine .object ?_ ?_ (by rintro _ ⟨⟩) (by rintro _ _ _ ⟨⟩) (by decide)
    · simp [tuples, member?, Keyed.get?, Json.isNull]
    · simp only [tuples, List.mem_singleton, forall_eq]
      rintro _ ⟨⟩
      exact .set (by simp) (by simp [Value.distinct])
  · cases (parse_eq_ok.mp h).1 with
    | scalar accepts => exact accepts
    | object _ fields =>
      cases fields _ (tuples ▸ List.mem_singleton_self _) (.arr []) rfl with
      | set _ least => exact absurd least (by decide)
  · refine .object ?_ ?_ (fun c hc => ?_) (fun c m j hc => ?_) (by decide)
    · simp [socs]
    · simp only [socs, List.mem_cons, List.not_mem_nil, or_false, forall_eq_or_imp, forall_eq]
      refine ⟨by rintro _ ⟨⟩, ?_, ?_⟩ <;> rintro _ ⟨⟩
      · exact percentage 80 (by decide) (by decide)
      · exact percentage 20 (by decide) (by decide)
    · cases hc
      decide
    · cases hc
      intro hm hj
      have := unpriced m hm
      rw [hj] at this
      cases this
  · cases (parse_eq_ok.mp h).1 with
    | scalar accepts => exact accepts
    | object _ _ _ _ _ rule =>
      have broken : (Rule.broken? .dynamicScheduleExchangeResParams
          (denote socsOutOfOrder (.one (.element .dynamicScheduleExchangeResParams)))).isSome =
            true := by
        decide
      rw [show denote socsOutOfOrder _ = denote (.obj _) _ from rfl, rule] at broken
      cases broken
  · exact formed_issuer (Int.natCast_nonneg _)
  · exact not_recordable_issuer rfl (Json.not_isWithin_tenTo 4300 (Nat.succ_pos _))
      (Codec.parse_eq_ok_iff.mp h).2

end V2G.Wire
