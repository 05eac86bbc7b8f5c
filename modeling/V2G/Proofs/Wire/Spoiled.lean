import V2G.Proofs.Wire.Refusal
import V2G.Proofs.Wire.Repetition

/-!
# A single faulty value

What becomes of a valid document one scalar of which is replaced by a value that its kind does not
accept (`spoiled_value`). It is reported at its own path, with two exceptions. A text with
characters beyond ASCII where bytes are expected is not reported at all. The value of a member of a
choice group that has the right type but exceeds a limit is reported at the path of the element
that the group belongs to.
-/

namespace V2G.Wire

variable {strict strict' : Bool} {e : Element} {s t : Shape} {j w x y : Json} {p q path : Path}
  {k : Kind} {ms : Keyed Json} {f : Field}

section

variable {reader : Url.Reader}

/-- What is valid where unknown keys are refused is valid where they are not. -/
theorem Valid.looser (h : Valid strict s j) (looser : strict' = true → strict = true) :
    Valid strict' s j := by
  induction h with
  | scalar accepts => exact .scalar accepts
  | list _ least most ih => exact .list ih least most
  | set _ least most ih => exact .set ih least most
  | object mandatory _ count _ known rule ihf ihm =>
    exact .object mandatory ihf count ihm (fun on => known (looser on)) rule

/-! ### Scalars -/

/-- A text with characters beyond ASCII where bytes are expected. -/
def ForeignText (k : Kind) (j : Json) : Prop :=
  ∃ least most text c, k = .bytes least most ∧ j = .str text ∧ c ∈ text.toList ∧
    0x80 ≤ c.toNat

theorem decode_scalar (scalar : ∀ e, k ≠ .element e) (w : Json) (path : Path) :
    decode strict w (.one k) path = decodeShape (.one k) w path := by
  cases w with
  | obj ms => exact decode_obj_of_ne (by rintro ⟨e, ⟨⟩⟩; exact scalar e rfl) strict ms path
  | _ => rfl

/-- A value of another type than its kind is malformed. -/
theorem decode_of_not_typed (scalar : ∀ e, k ≠ .element e) (other : ¬ Typed k w)
    (plain : ¬ ForeignText k w) (path : Path) :
    ∃ detail, (decode strict w (.one k) path).outcome =
      .error (.error (.malformed path detail)) := by
  rw [decode_scalar scalar]
  cases h : (decodeShape (.one k) w path).outcome with
  | ok v => exact absurd (decodeKind_ok_iff.mp ⟨v, h⟩) other
  | error failure =>
    have told : failure.IsDiagnostic ∨
        failure = .misuse .foreignCharacters ∧ Foreign strict (.one k) w := decodeShape_eq_error h
    rcases told with ⟨error, rfl, -⟩ | ⟨-, foreign⟩
    · obtain ⟨detail, rfl | ⟨e, one, -⟩⟩ := malformed_of_decodeShape h
      · exact ⟨detail, rfl⟩
      · cases one
        exact absurd rfl (scalar e)
    · cases foreign with
      | text hc beyond => exact absurd ⟨_, _, _, _, rfl, rfl, hc, beyond⟩ plain
      | item collection => cases collection
      | entry => exact absurd rfl (scalar _)

theorem valid_scalar_iff (scalar : ∀ e, k ≠ .element e) :
    Valid strict (.one k) w ↔ Accepts k w := by
  constructor
  · intro valid
    cases valid with
    | scalar accepts => exact accepts
    | object => exact absurd rfl (scalar _)
  · exact .scalar

/-! ### The key above a scalar -/

/-- A scalar stands for a shape as the value itself, or as an item. -/
inductive Slot (k : Kind) (x : Json) : Shape → Json → Path → Prop where
  | value : Slot k x (.one k) x []
  | item {s : Shape} {js : List Json} {i : Nat} : s.isCollection = true → s.kind = k →
      js[i]? = some x → Slot k x s (.arr js) [.index i]

theorem Slot.at {y : Json} (h : Slot k x s y p) : At s y p (.one k) x := by
  cases h with
  | value => exact .here
  | item collection kind there => exact kind ▸ .item collection there .here

/-- What is read for a kind stands under a key of some object, if not at the root. -/
theorem slot_of_at (h : At s j p (.one k) x) :
    Slot k x s j p ∨ ∃ q e ms f y place, At s j q (.one (.element e)) (.obj ms) ∧
      f ∈ e.inspected ∧ member? ms f.key = some y ∧ Slot k x f.shape y place ∧
      p = q ++ .key f.key :: place := by
  generalize slot : Shape.one k = t at h
  induction h with
  | here =>
    subst slot
    exact .inl .value
  | item collection there below ih =>
    rcases ih slot with direct | ⟨q, e, ms, f, y, place, holder, hf, hy, slot, rfl⟩
    · refine .inl ?_
      generalize kind : Shape.one _ = s at direct
      cases direct with
      | value => exact .item collection (Shape.one.inj kind) there
      | item collection' => exact absurd collection' (by rw [← kind]; exact nofun)
    · exact .inr ⟨_, e, ms, f, y, place, .item collection there holder, hf, hy, slot, rfl⟩
  | @entry e t ms f y w p inspected there below ih =>
    rcases ih slot with direct | ⟨q, e, ms, f, y, place, holder, hf, hy, slot, rfl⟩
    · exact .inr ⟨[], e, ms, f, y, p, .here, inspected, there, direct, rfl⟩
    · exact .inr ⟨_, e, ms, f, y, place, .entry inspected there holder, hf, hy, slot, rfl⟩

namespace Slot

variable {place : Path}

theorem modify_eq {js : List Json} {i : Nat} (there : js[i]? = some x) (w : Json) :
    js.modify i (fun _ => w) = js.take i ++ w :: js.drop (i + 1) ∧ (js.take i).length = i := by
  obtain ⟨hi, -⟩ := List.getElem?_eq_some_iff.mp there
  refine ⟨by rw [List.modify_eq_take_cons_drop hi], ?_⟩
  rw [List.length_take]
  omega

/-- What has a slot of the right type filled anew can still be read. -/
theorem readable (slot : Slot k x s y place) (valid : Valid strict s y) (typed : Typed k w) :
    Readable strict s (y.edit (fun _ => w) place) := by
  cases slot with
  | value => exact .scalar typed
  | @item _ js i collection kind there =>
    obtain ⟨split, -⟩ := modify_eq there w
    have items := valid.item collection
    subst kind
    rw [Json.edit, show Json.edit (fun _ => w) [] = fun _ => w from rfl, split]
    refine .items collection fun z hz => ?_
    rcases List.mem_append.mp hz with hz | hz
    · exact (items z (List.mem_of_mem_take hz)).readable
    · rcases List.mem_cons.mp hz with rfl | hz
      · exact .scalar typed
      · exact (items z (List.mem_of_mem_drop hz)).readable

theorem not_valid (slot : Slot k x s y place) (refused : ¬ Valid strict (.one k) w) :
    ¬ Valid strict s (y.edit (fun _ => w) place) := by
  cases slot with
  | value => exact refused
  | @item _ js i collection kind there =>
    obtain ⟨split, -⟩ := modify_eq there w
    subst kind
    rw [Json.edit, show Json.edit (fun _ => w) [] = fun _ => w from rfl, split]
    intro valid
    exact refused (valid.item collection w (by simp))

/-- The fault of a value with a single faulty slot is in the slot. -/
theorem faultAt (slot : Slot k x s y place) (valid : Valid strict s y)
    (refused : ¬ Valid strict (.one k) w)
    (fault : FaultAt strict s (y.edit (fun _ => w) place) q) : q = place := by
  cases slot with
  | value =>
    cases fault with
    | whole => rfl
    | item collection => cases collection
  | @item _ js i collection kind there =>
    obtain ⟨split, length⟩ := modify_eq there w
    subst kind
    have items := valid.item collection
    rw [Json.edit, show Json.edit (fun _ => w) [] = fun _ => w from rfl] at fault
    generalize whole : js.modify i (fun _ => w) = js' at fault
    cases fault with
    | whole size =>
      rcases size js' collection rfl with all | ⟨k', least, most, rfl, long⟩
      · exact absurd (all w (by rw [← whole, split]; simp)) refused
      · rw [← whole, List.length_modify] at long
        cases valid with
        | list _ _ few => exact absurd few (Nat.not_le.mpr long)
    | item _ before invalid =>
      rw [split] at whole
      have valid : ∀ z ∈ js.take i, Valid strict (.one s.kind) z :=
        fun z hz => items z (List.mem_of_mem_take hz)
      obtain ⟨same, -⟩ := first_unique whole valid refused before invalid
      rw [← same, length]

end Slot

/-! ### Objects with a value replaced -/

section Objects

variable {g : Json → Json}

/-- What is inspected under other keys than the one whose value is replaced is as it was. -/
theorem member?_update_other (hf : f ∈ e.inspected) {f' : Field} (hf' : f' ∈ e.inspected)
    (other : f' ≠ f) : member? (Keyed.update ms f.key g) f'.key = member? ms f'.key :=
  member?_update_of_ne fun same => other (Element.eq_of_inspectedKey hf hf' same).symm

theorem passes_update (valid : Valid strict (.one (.element e)) (.obj ms)) (hf : f ∈ e.inspected)
    (there : member? (Keyed.update ms f.key g) f.key = some y)
    (readable : Readable strict f.shape y) :
    ∀ f' ∈ e.inspected, Passes strict (Keyed.update ms f.key g) f' := by
  intro f' hf'
  by_cases same : f' = f
  · subst same
    refine ⟨fun _ => Option.ne_none_iff_exists'.mpr ⟨y, there⟩, fun z hz => ?_⟩
    cases there.symm.trans hz
    exact readable
  · exact passes_congr (member?_update_other hf hf' same) (valid.passes hf')

/-- A field that alone is not valid is reported where its fault is. -/
theorem decode_of_spoiled_field (valid : Valid strict (.one (.element e)) (.obj ms))
    (hf : f ∈ e.fields) (there : member? (Keyed.update ms f.key g) f.key = some y)
    (readable : Readable strict f.shape y) (invalid : ¬ Valid strict f.shape y) (path : Path) :
    ∃ place fault, FaultAt strict f.shape y place ∧
      (decode strict (.obj (Keyed.update ms f.key g)) (.one (.element e)) path).outcome =
        .error (.error (.malformed (path ++ .key f.key :: place) (.refused fault))) := by
  have inspected := Element.mem_inspected.mpr (.inl hf)
  obtain ⟨before, after, split⟩ := List.append_of_mem hf
  have selection : SelectionValid strict e (Keyed.update ms f.key g) := by
    intro c hc
    have same : ∀ m ∈ c.group.members,
        member? (Keyed.update ms f.key g) m.key = member? ms m.key :=
      fun m hm => member?_update_of_ne (Element.key_ne_memberKey hf (Element.members_eq hc ▸ hm))
    obtain ⟨count, members⟩ := valid.selection c hc
    rw [chosen_congr fun m hm => congrArg Option.isSome (same m hm)]
    exact ⟨count, fun m hm z hz => members m hm z (same m hm ▸ hz)⟩
  have first : ∀ f' ∈ before, FieldValid strict (Keyed.update ms f.key g) f' := by
    intro f' hf'
    have mem : f' ∈ e.fields := split ▸ List.mem_append_left _ hf'
    have other : f.key ≠ f'.key := by
      have nodup := (List.nodup_append.mp e.keys_nodup).1
      rw [split, List.map_append] at nodup
      exact ((List.nodup_append.mp nodup).2.2 _ (List.mem_map_of_mem hf') _
        List.mem_cons_self).symm
    rw [FieldValid, member?_update_of_ne other]
    exact (valid.entry (Element.mem_inspected.mpr (.inl mem))).2
  have known : strict = true → ∀ k ∈ (Keyed.update ms f.key g).keys, k ∈ e.keys :=
    (Keyed.keys_update ms f.key g).symm ▸ valid.known
  exact decode_of_invalid_field (passes_update valid inspected there readable) known selection
    split first there invalid path

/-- A member that alone is not valid is reported at the place of its element. -/
theorem decode_of_spoiled_member (valid : Valid strict (.one (.element e)) (.obj ms)) {m : Member}
    (hm : m ∈ e.members) (given : member? ms m.key = some x)
    (there : member? (Keyed.update ms m.key g) m.key = some y)
    (readable : Readable strict (.one m.kind) y) (invalid : ¬ Valid strict (.one m.kind) y)
    (path : Path) :
    ∃ faults, (decode strict (.obj (Keyed.update ms m.key g)) (.one (.element e)) path).outcome =
      .error (.error (.malformed (orClass e path) (.refused (.badMember m.key faults)))) := by
  have inspected : Field.optional m.name m.key m.kind ∈ e.inspected :=
    Element.mem_inspected.mpr (.inr ⟨m, hm, rfl⟩)
  cases hc : e.choice with
  | none => simp [Element.members, hc] at hm
  | some c =>
    rw [Element.members_eq hc] at hm
    have same : ∀ m' ∈ c.group.members, (member? (Keyed.update ms m.key g) m'.key).isSome =
        (member? ms m'.key).isSome := by
      intro m' _
      by_cases same : m.key = m'.key
      · rw [← same, there, given]
        rfl
      · rw [member?_update_of_ne same]
    have one : chosen c.group (Keyed.update ms m.key g) = [m] := by
      rw [chosen_congr same]
      have count := (valid.selection c hc).1.1
      have mem := mem_chosen hm given
      cases chosen : chosen c.group ms with
      | nil =>
        rw [chosen] at mem
        cases mem
      | cons m' rest =>
        obtain rfl := eq_of_chosen chosen count hm given
        rw [chosen] at count
        simpa using count
    have known : strict = true → ∀ k ∈ (Keyed.update ms m.key g).keys, k ∈ e.keys :=
      (Keyed.keys_update ms m.key g).symm ▸ valid.known
    exact decode_of_invalid_member (passes_update valid inspected there readable) known hc one
      there invalid path

end Objects

/-! ### Documents with a value replaced -/

/-- A member of the choice group of an element stands at a place. -/
def AtMember (e : Element) (j : Json) (p q : Path) (e' : Element) (m : Member) : Prop :=
  ∃ ms, At (.one (.element e)) j q (.one (.element e')) (.obj ms) ∧ m ∈ e'.members ∧
    p = q ++ [.key m.key]

theorem At.eq_of_member {m : Member} (hm : m ∈ e.members)
    (h : At (.one (.element e)) (.obj ms) [.key m.key] (.one k) x) :
    m.kind = k ∧ member? ms m.key = some x := by
  generalize key : Step.key m.key = step at h
  cases h with
  | entry inspected there below =>
    have member : Field.optional m.name m.key m.kind ∈ e.inspected :=
      Element.mem_inspected.mpr (.inr ⟨m, hm, rfl⟩)
    obtain rfl := Element.eq_of_inspectedKey member inspected (Step.key.inj key)
    generalize shape : Field.shape _ = s at below
    generalize here : Shape.one k = t at below
    cases below with
    | here => exact ⟨Shape.one.inj (shape.trans here.symm), there⟩

/-- What is read at a place of a document ends the parsing of the document, if what stands there
now could be replaced in a valid one. -/
theorem decode_of_edit (valid : Valid strict s j) (h : At s j p t w) {g : Json → Json}
    (full : (g w).isNull = false) {failure : Failure}
    (fails : (decode strict (g w) t p).outcome = .error failure) :
    (decode strict (j.edit g p) s []).outcome = .error failure :=
  decode_of_reached (reached_edit h valid full) fails

theorem decode_of_typed_slot (valid : Valid strict (.one (.element e)) j)
    (full : w.isNull = false) (typed : Typed k w) (refused : ¬ Valid strict (.one k) w)
    {e' : Element} {place : Path}
    (holder : At (.one (.element e)) j q (.one (.element e')) (.obj ms)) (hf : f ∈ e'.fields)
    (there : member? ms f.key = some y) (slot : Slot k x f.shape y place) :
    ∃ fault, (decode strict (j.edit (fun _ => w) (q ++ .key f.key :: place))
      (.one (.element e)) []).outcome =
        .error (.error (.malformed (q ++ .key f.key :: place) (.refused fault))) := by
  have inspected := Element.mem_inspected.mpr (.inl hf)
  have object := holder.valid valid
  have value := (object.entry inspected).2 y there
  obtain ⟨found, present⟩ := get?_of_member? there
  obtain ⟨place', fault, faultAt, outcome⟩ := decode_of_spoiled_field object hf
    (member?_update_self found (isNull_edit slot.at present full))
    (slot.readable value typed) (slot.not_valid refused) q
  obtain rfl := slot.faultAt value refused faultAt
  refine ⟨fault, ?_⟩
  rw [Json.edit_append]
  exact decode_of_edit valid holder rfl outcome

/-- What becomes of a document that parses, one scalar of which is replaced by a value that its
kind does not accept. It is reported at its own path, unless it is a text with characters beyond
ASCII where bytes are expected, or the value of a member of a choice group that only exceeds the
limits of its kind. -/
theorem spoiled_value {s s' : Settings} {e : Element} {j : Json} {v : Value}
    (parsed : (Codec.plain.parse s e j).outcome = .ok v)
    (looser : s'.rejectUnknown = true → s.rejectUnknown = true) {p : Path} {k : Kind} {x w : Json}
    (h : At (.one (.element e)) j p (.one k) x) (scalar : ∀ e, k ≠ .element e)
    (full : w.isNull = false) (refused : ¬ Accepts k w) :
    (ForeignText k w → (Codec.plain.parse s' e (j.edit (fun _ => w) p)).outcome =
        .error (.misuse .foreignCharacters)) ∧
      (¬ ForeignText k w → (Typed k w → ∀ q e' m, ¬ AtMember e j p q e' m) →
        ∃ detail, (Codec.plain.parse s' e (j.edit (fun _ => w) p)).outcome =
          .error (.error (.malformed p detail))) ∧
      ∀ q e' m, Typed k w → AtMember e j p q e' m →
        ∃ faults, (Codec.plain.parse s' e (j.edit (fun _ => w) p)).outcome =
          .error (.error (.malformed (orClass e' q) (.refused (.badMember m.key faults)))) := by
  have valid := (parse_eq_ok.mp parsed).1.looser looser
  have invalid : ¬ Valid s'.rejectUnknown (.one k) w := mt (valid_scalar_iff scalar).mp refused
  rw [Codec.outcome_parse]
  refine ⟨?_, fun plain apart => ?_, ?_⟩
  · rintro ⟨least, most, text, c, rfl, rfl, hc, beyond⟩
    exact decode_of_edit valid h full (decode_of_foreign (.text hc beyond) p)
  · by_cases typed : Typed k w
    · rcases slot_of_at h with root | ⟨q, e', ms, f, y, place, holder, hf, there, slot, rfl⟩
      · generalize shape : Shape.one (.element e) = s at root
        cases root with
        | value => exact absurd (Shape.one.inj shape).symm (scalar e)
        | item collection => exact absurd collection (by rw [← shape]; exact nofun)
      · rcases Element.mem_inspected.mp hf with hf | ⟨m, hm, rfl⟩
        · obtain ⟨fault, outcome⟩ :=
            decode_of_typed_slot valid full typed invalid holder hf there slot
          exact ⟨_, outcome⟩
        · have single : place = [] := by
            generalize shape : Field.shape _ = s at slot
            cases slot with
            | value => rfl
            | item collection => exact absurd collection (by rw [← shape]; exact nofun)
          subst single
          exact absurd ⟨ms, holder, hm, rfl⟩ (apart typed q e' m)
    · obtain ⟨detail, outcome⟩ := decode_of_not_typed scalar typed plain p
      exact ⟨detail, decode_of_edit valid h full outcome⟩
  · rintro q e' m typed ⟨ms, holder, hm, rfl⟩
    obtain ⟨rfl, given⟩ := (holder.rest h).eq_of_member hm
    obtain ⟨found, -⟩ := get?_of_member? given
    obtain ⟨faults, outcome⟩ := decode_of_spoiled_member (g := fun _ => w) (holder.valid valid) hm
      given (member?_update_self found full) (.scalar typed) invalid q
    refine ⟨faults, ?_⟩
    rw [Json.edit_append]
    exact decode_of_edit valid holder rfl outcome

end

def byteParameter (name value : Json) : Json := .obj [("name", name), ("byteValue", value)]

/-- A byte that is too large is reported at the class, a name that is no text at its key. -/
theorem byteParameter_spoiled :
    (∃ faults, (Codec.plain.parse {} .parameter (byteParameter (.str "x") (.int 1000))).outcome =
        .error (.error (.malformed [.key "Parameter"]
          (.refused (.badMember "byteValue" faults))))) ∧
      ∃ detail, (Codec.plain.parse {} .parameter (byteParameter (.int 7) (.int 5))).outcome =
        .error (.error (.malformed [.key "name"] detail)) := by
  have byte : ⟨"byte_value", "byteValue", .int8⟩ ∈ Element.members .parameter := by decide
  have value : Field.optional "byte_value" "byteValue" .int8 ∈ Element.inspected .parameter := by
    decide
  have name : Field.mandatory "name" "name" .nameType ∈ Element.inspected .parameter := by decide
  have parsed : (Codec.plain.parse {} .parameter (byteParameter (.str "x") (.int 5))).outcome =
      .ok (.element .parameter [("name", .text "x"), ("value", .choice "byte_value" (.int 5))]) :=
    rfl
  have large : ¬ Accepts .int8 (.int 1000) := by
    rintro ⟨-, few⟩
    exact absurd (few 127 rfl) (by decide)
  refine ⟨?_, ?_⟩
  · exact (spoiled_value parsed id (.entry value rfl .here) nofun rfl large).2.2 [] _ _ trivial
      ⟨_, .here, byte, rfl⟩
  · exact (spoiled_value (w := .int 7) parsed id (.entry name rfl .here) nofun rfl id).2.1
      (by rintro ⟨_, _, _, _, _, ⟨⟩, _⟩) fun typed => typed.elim

end V2G.Wire
