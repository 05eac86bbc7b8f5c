import V2G.Build.Sift
import V2G.Proofs.Build.Restored
import V2G.Proofs.Value.Classes
import V2G.Proofs.Value.Hashing

/-!
# Sets of items

The items of a collection are all read as one kind (`Item`). All comparisons of such values come to
the same, and hashes agree with them. So duplicates are told by a table of hashes as they are by
comparing all values (`sift_eq_dedupe`), and what is kept is the first of each class of equal values
(`dedupe_items`). A set that is accepted has distinct entries, and not too many of them, but it may
have fewer than the minimum asks for (`accepted_set`).
-/

namespace V2G

section

variable [reader : Url.Reader]

/-- A value that is read as a kind. An element may be of a class that extends the one asked for. -/
inductive Item : Kind → Value → Prop where
  | scalar {k : Kind} {v : Value} : k.Holds v → Item k v
  | element {e e' : Element} {fs : List (String × Value)} : e'.isA e = true →
      Conforms (.one (.element e')) (.element e' fs) → Item (.element e) (.element e' fs)

namespace Item

variable {k : Kind} {v w x : Value}

variable {reader}

theorem of_conforms (h : Conforms (.one k) v) : Item k v := by
  cases h with
  | scalar h => exact .scalar h
  | element names required fields selection chosen rule =>
    exact .element (Element.isA_self _) (.element names required fields selection chosen rule)

theorem of_read (sound : Sound x) (h : Build.read x (.one k) = .ok v) : Item k v := by
  rcases Build.read_cases x (.one k) with ⟨es, e, rfl, asked⟩ | scalar
  · cases asked
    exact .of_conforms (Build.readsWell (.dict es) sound _ _ (.one (.inr rfl)) h)
  · rw [scalar] at h
    have single : Build.readScalar k x = .ok v := Except.mapError_eq_ok.mp h
    cases k with
    | element e =>
      simp only [Build.readScalar, Build.readElement] at single
      split at single
      · split at single
        · next isA =>
          cases single
          exact .element isA (sound.element _ _ .self)
        · cases single
      · cases single
    | _ => exact .of_conforms (Build.conforms_of_readScalar sound (.inl rfl) single)

theorem conforms (h : Item k v) : ∃ k', Conforms (.one k') v := by
  cases h with
  | scalar holds => exact ⟨_, .scalar holds⟩
  | element _ conforms => exact ⟨_, conforms⟩

/-- It is read again as it is. -/
theorem read (h : Item k v) : Build.read v (.one k) = .ok v := by
  cases h with
  | scalar holds => exact Build.read_of_conforms (.scalar holds)
  | element isA _ => exact congrArg (Except.mapError _) (if_pos isA)

theorem proper (h : Item k v) : v.Proper := by
  obtain ⟨k', conforms⟩ := h.conforms
  exact ⟨conforms.same_self, conforms.no_dict⟩

/-- All comparisons of two values of one kind come to the same. -/
theorem equal_eq_same (hv : Item k v) (hw : Item k w) (mode : Comparison) :
    v.equal mode w = v.same w := by
  cases hv with
  | scalar hv =>
    cases hw with
    | scalar hw =>
      cases k <;> cases v <;> first | exact hv.elim | skip
      all_goals cases w <;> first | exact hw.elim | skip
      all_goals cases mode <;> first | rfl | skip
      next t s t' s' =>
        obtain ⟨rfl, -⟩ := hv
        obtain ⟨rfl, -⟩ := hw
        simp [Value.same, Value.equal, Value.text?, @eq_comm _ s s']
    | element => exact hv.elim
  | element =>
    cases hw with
    | scalar hw => exact hw.elim
    | element => rw [Value.same, Value.equal_element, Value.equal_element]

/-- No two of the first values of each class are equal, in whatever way they are compared. -/
theorem firsts_apart {vs : List Value} (items : ∀ v ∈ vs, Item k v) :
    (Value.firsts vs).Pairwise fun v w =>
      ∀ mode, v.equal mode w = false ∧ w.equal mode v = false := by
  have first := Value.distinct_eq_firsts fun v hv => (items v hv).proper
  rw [← first]
  have unlike := Build.unlike_distinct fun v hv => (items v hv).proper.no_dict
  refine unlike.imp_of_mem fun {v w} hv hw different mode => ?_
  have hv := items v (Value.mem_of_mem_distinct hv)
  have hw := items w (Value.mem_of_mem_distinct hw)
  rw [hv.equal_eq_same hw, hw.equal_eq_same hv]
  exact different

theorem unhashable?_eq_none (h : Item k v) : v.unhashable? = none := by
  cases h with
  | scalar holds => cases k <;> cases v <;> first | rfl | exact holds.elim
  | element => rfl

/-- Equal values of one kind have one hash. -/
theorem sameHash {H : Type} {d : Digest H} (lawful : d.Lawful) (hv : Item k v) (hw : Item k w)
    (same : v.same w = true) : SameHash d false v w := by
  cases hv with
  | scalar hv =>
    cases hw with
    | scalar hw => exact Conforms.hash_alike lawful (.scalar hv) (.scalar hw) same
    | element => exact hv.elim
  | @element e e' fs _ conforms =>
    cases hw with
    | scalar hw => exact hw.elim
    | @element _ e'' fs' _ conforms' =>
      have class_eq : e' = e'' := by
        rw [Value.same, Value.equal_element, Bool.and_eq_true, beq_iff_eq] at same
        exact same.1
      subst class_eq
      exact conforms.hash_alike lawful conforms' same

theorem exists_hash {H : Type} {d : Digest H} (lawful : d.Lawful) (h : Item k v) :
    ∃ hash, v.hash d false = .ok hash :=
  (h.sameHash lawful h h.proper.self).imp fun _ both => both.1

end Item

end

namespace Build

open Value

variable {H : Type} [DecidableEq H] {d : Digest H} {k : Kind} {v : Value} {vs : List Value}
  {s : Sieve H}

/-! ### The table -/

/-- The table has what is kept, each value under its hash. -/
def Sieve.Consistent (d : Digest H) (s : Sieve H) : Prop :=
  ∀ h w, (h, w) ∈ s.seen ↔ w ∈ s.kept ∧ w.hash d false = .ok h

section

variable {reader : Url.Reader}

theorem Sieve.holds_eq (lawful : d.Lawful) (consistent : s.Consistent d)
    (items : ∀ w ∈ s.kept, Item k w) (hv : Item k v) {h : H} (hash : v.hash d false = .ok h) :
    s.holds h v = s.kept.any fun w => v.equal .structural w := by
  have comm {w : Value} (hw : Item k w) : w.equal .plain v = v.equal .structural w := by
    exact (hw.equal_eq_same hv _).trans (same_comm w v hw.proper.no_dict)
  rw [Bool.eq_iff_iff, Sieve.holds, List.any_eq_true, List.any_eq_true]
  constructor
  · rintro ⟨⟨h', w⟩, there, found⟩
    obtain ⟨kept, -⟩ := (consistent h' w).mp there
    exact ⟨w, kept, comm (items w kept) ▸ (Bool.and_eq_true_iff.mp found).2⟩
  · rintro ⟨w, kept, same⟩
    -- The value stands in the table under its own hash, and that is the hash of what equals it.
    obtain ⟨h', own, other⟩ := hv.sameHash lawful (items w kept) same
    obtain rfl := Except.ok.inj (hash.symm.trans own)
    refine ⟨(h, w), (consistent h w).mpr ⟨kept, other⟩, ?_⟩
    simpa [comm (items w kept)] using same

theorem Sieve.add_item (lawful : d.Lawful) (consistent : s.Consistent d)
    (items : ∀ w ∈ s.kept, Item k w) (hv : Item k v) :
    ∃ s', s.add d v = .ok s' ∧ s'.Consistent d ∧ s'.kept = keep .structural s.kept v := by
  obtain ⟨h, hash⟩ := hv.exists_hash lawful
  have added : s.add d v = .ok (if s.holds h v then s else ⟨(h, v) :: s.seen, s.kept ++ [v]⟩) := by
    rw [Sieve.add, hv.unhashable?_eq_none, hash]
    rfl
  refine ⟨_, added, ?_⟩
  rw [Sieve.holds_eq lawful consistent items hv hash, keep]
  split
  · exact ⟨consistent, rfl⟩
  · refine ⟨fun h' w => ?_, rfl⟩
    simp only [List.mem_cons, Prod.mk.injEq, List.mem_append, List.not_mem_nil, or_false,
      consistent h' w, or_and_right]
    rw [or_comm, and_comm (a := h' = h)]
    refine or_congr_right (and_congr_right ?_)
    rintro rfl
    rw [hash, Except.ok.injEq, eq_comm]

theorem Sieve.foldlM_items (lawful : d.Lawful) (consistent : s.Consistent d)
    (items : ∀ w ∈ s.kept, Item k w) (rest : ∀ v ∈ vs, Item k v) :
    ∃ s', vs.foldlM (Sieve.add d) s = .ok s' ∧ s'.kept = vs.foldl (keep .structural) s.kept := by
  induction vs generalizing s with
  | nil => exact ⟨s, rfl, rfl⟩
  | cons v vs ih =>
    obtain ⟨hv, rest⟩ := List.forall_mem_cons.mp rest
    obtain ⟨s', added, consistent', kept⟩ := Sieve.add_item lawful consistent items hv
    have items' : ∀ w ∈ s'.kept, Item k w := by
      rw [kept, keep]
      split
      · exact items
      · exact List.forall_mem_append.mpr ⟨items, List.forall_mem_singleton.mpr hv⟩
    obtain ⟨s'', run, kept'⟩ := ih consistent' items' rest
    refine ⟨s'', ?_, ?_⟩
    · rw [List.foldlM_cons, added]
      exact run
    · rw [kept', kept, List.foldl_cons]

/-- By way of the table as without it. -/
theorem sift_eq_dedupe (lawful : d.Lawful) (items : ∀ v ∈ vs, Item k v) (most : Nat) :
    sift d most vs = (dedupe most vs).mapError .fault := by
  have none : (Sieve.empty : Sieve H).Consistent d := by simp [Sieve.Consistent, Sieve.empty]
  obtain ⟨s, run, kept⟩ := Sieve.foldlM_items lawful none (k := k) (by simp [Sieve.empty]) items
  have distinct : s.kept = distinct .structural vs := kept
  rw [sift, run, dedupe, ← distinct]
  change (if most < s.kept.length then _ else _) = _
  split <;> rfl

/-! ### What is kept -/

/-- Of the values read as one kind the first of each class of equal ones are kept, in order. They
are refused if and only if there are too many classes, and the refusal names their number. What is
kept is left as it is when duplicates are dropped again, also if it is given twice over. A table of
hashes does the same. -/
theorem dedupe_items (lawful : d.Lawful) (most : Nat)
    (read : ∀ v ∈ vs, ∃ x, Obtainable (fun _ _ => True) x ∧ read x (.one k) = .ok v) :
    (∀ us ⊆ vs, sift d most us = (dedupe most us).mapError .fault) ∧
    (most < classes vs → ∃ f, dedupe most vs = .error f ∧
      f.sentence = s!"At most {most} distinct entries allowed, got {classes vs}") ∧
    (classes vs ≤ most → dedupe most vs = .ok (firsts vs) ∧
      dedupe most (firsts vs) = .ok (firsts vs) ∧
      dedupe most (firsts vs ++ firsts vs) = .ok (firsts vs)) ∧
    (firsts vs).Sublist vs ∧ (firsts vs).length = classes vs ∧
    (∀ v ∈ vs, ∃ w ∈ firsts vs, ∀ mode, v.equal mode w = true) ∧
    (firsts vs).Pairwise fun v w => ∀ mode, v.equal mode w = false ∧ w.equal mode v = false := by
  have items : ∀ v ∈ vs, Item k v := by
    intro v hv
    obtain ⟨x, obtained, one⟩ := read v hv
    exact .of_read obtained.sound one
  have proper : ∀ v ∈ vs, Proper v := fun v hv => (items v hv).proper
  have first : distinct .structural vs = firsts vs := distinct_eq_firsts proper
  have sub : (firsts vs).Sublist vs := first ▸ distinct_sublist _ vs
  have count : (firsts vs).length = classes vs := first ▸ length_distinct proper
  have apart : Apart .structural (firsts vs) := first ▸ apart_distinct _ vs
  have again : distinct .structural (firsts vs) = firsts vs := distinct_of_apart apart
  have twice : distinct .structural (firsts vs ++ firsts vs) = firsts vs := by
    refine (distinct_append fun v hv => ⟨v, again.symm ▸ hv, ?_⟩).trans again
    exact (proper v (sub.subset hv)).self
  refine ⟨fun us within => ?_, fun many => ?_, fun within => ?_, sub, count, fun v hv => ?_,
    Item.firsts_apart items⟩
  · exact sift_eq_dedupe lawful (fun v hv => items v (within hv)) most
  · refine ⟨.tooManyDistinct most (classes vs), ?_, rfl⟩
    rw [dedupe, first, count]
    exact if_pos many
  · have enough : (firsts vs).length ≤ most := count.trans_le within
    exact ⟨dedupe_eq_ok.mpr ⟨first.symm, enough⟩, dedupe_eq_ok.mpr ⟨again.symm, enough⟩,
      dedupe_eq_ok.mpr ⟨twice.symm, enough⟩⟩
  · obtain ⟨w, hw, same⟩ := exists_mem_distinct (fun v hv => (proper v hv).self) hv
    refine ⟨w, first ▸ hw, fun mode => ?_⟩
    exact ((items v hv).equal_eq_same (items w (mem_of_mem_distinct hw)) mode).trans same

/-- Two messages that are equal but for the order of a set in them. -/
theorem services_deduped :
    dedupe 1 [.element .serviceDiscoveryReq (services [1, 2]),
        .element .serviceDiscoveryReq (services [2, 1])] =
      .ok [.element .serviceDiscoveryReq (services [1, 2])] ∧
    sift Digest.bits64 1 [.element .serviceDiscoveryReq (services [1, 2]),
        .element .serviceDiscoveryReq (services [2, 1])] =
      .ok [.element .serviceDiscoveryReq (services [1, 2])] := by
  have parsed : (Codec.plain.parse {} .serviceDiscoveryReq (servicesDocument [1, 2])).outcome =
      .ok (.element .serviceDiscoveryReq (services [1, 2])) := rfl
  have parsed' : (Codec.plain.parse {} .serviceDiscoveryReq (servicesDocument [2, 1])).outcome =
      .ok (.element .serviceDiscoveryReq (services [2, 1])) := rfl
  have read : ∀ v ∈ [.element .serviceDiscoveryReq (services [1, 2]),
      .element .serviceDiscoveryReq (services [2, 1])],
      ∃ x, Obtainable (fun _ _ => True) x ∧
        Build.read x (.one (.element .serviceDiscoveryReq)) = .ok v := by
    simp only [List.forall_mem_cons]
    exact ⟨⟨_, .parsed parsed, rfl⟩, ⟨_, .parsed parsed', rfl⟩, by simp⟩
  obtain ⟨table, -, accepted, -, count, -⟩ := dedupe_items Digest.lawful_bits64 1 read
  obtain ⟨once, -⟩ := accepted (Nat.le_of_eq count.symm)
  refine ⟨once, ?_⟩
  rw [table _ (List.Subset.refl _), once]
  rfl

/-! ### Accepted sets -/

/-- Values that are read as they are make a set. -/
theorem read_set_of_items {least most : Nat} {ws : List Value} (items : ∀ v ∈ ws, Item k v) :
    Build.read (.tuple ws) (.set k least most) =
      if ws.length < least then .error (.fault (.tooFew least ws.length))
      else ((dedupe most ws).mapError Refusal.fault).map .tuple := by
  have all : readItems k (readings ws) = ws.map .ok := by
    rw [readItems_eq_ok, readings_eq, List.map_map]
    exact List.map_congr_left fun v hv => (items v hv).read
  change (gatherAtLeast least (readItems k (readings ws)) >>= _) = _
  rw [all, gatherAtLeast_map_ok]
  split
  · rfl
  · change ((dedupe most ws).mapError Refusal.fault >>= _) = _
    cases dedupe most ws <;> rfl

/-- A tuple or list is accepted as a set if all its items are, if they are not too few and if there
are not too many classes of equal ones among them. The set has the first item of each class, so that
it may have fewer entries than the minimum asks for, if that is more than one. Then, and only then,
it is not accepted again. -/
theorem accepted_set {least most : Nat} {v w : Value} {xs : List Value}
    (obtained : Obtainable (fun _ _ => True) v) (hxs : v.items? = some xs)
    (accepted : Build.read v (.set k least most) = .ok w) :
    ∃ vs, (xs.map fun x => Build.read x (.one k)) = vs.map .ok ∧ w = .tuple (firsts vs) ∧
      ((firsts vs).Pairwise fun v w => ∀ mode, v.equal mode w = false ∧ w.equal mode v = false) ∧
      (firsts vs).length ≤ most ∧ least ≤ vs.length ∧
      (least ≤ 1 ∨ firsts vs = vs → least ≤ (firsts vs).length) ∧
      Build.read w (.set k least most) =
        if least ≤ (firsts vs).length then .ok w
        else .error (.fault (.tooFew least (firsts vs).length)) := by
  obtain ⟨vs, all, enough, within, rfl⟩ := (read_items_set hxs).mp accepted
  have items : ∀ y ∈ vs, Item k y := by
    intro y hy
    obtain ⟨x, hx, read⟩ := mem_of_ok all hy
    exact .of_read (obtained.part (child_of_items hxs hx).part).sound read
  have first : distinct .structural vs = firsts vs :=
    distinct_eq_firsts fun y hy => (items y hy).proper
  have apart : Apart .structural (firsts vs) := first ▸ apart_distinct _ vs
  rw [first] at within ⊢
  have kept : ∀ y ∈ firsts vs, Item k y := fun y hy => items y (mem_of_mem_distinct (first ▸ hy))
  refine ⟨vs, all, rfl, Item.firsts_apart items, within, enough, ?_, ?_⟩
  · rintro (one | same)
    · exact first ▸ le_length_distinct enough one
    · rwa [same]
  · rw [read_set_of_items kept, dedupe_eq_ok.mpr ⟨(distinct_of_apart apart).symm, within⟩]
    by_cases few : (firsts vs).length < least
    · rw [if_pos few, if_neg (Nat.not_le.mpr few)]
    · rw [if_neg few, if_pos (Nat.not_lt.mp few)]
      rfl

end

/-- Two equal entries where there must be two: one is left, which is too few. -/
theorem repeated_accepted :
    Build.read (.list [.int 1, .int 1]) (.set (.int none none) 2 5) = .ok (.tuple [.int 1]) ∧
    Build.read (.tuple [.int 1]) (.set (.int none none) 2 5) = .error (.fault (.tooFew 2 1)) := by
  have obtained : Obtainable (fun _ _ => True) (.list [.int 1, .int 1]) := by
    refine .list fun x hx => ?_
    obtain rfl : x = .int 1 := by simpa using hx
    exact .int 1
  have accepted : Build.read (.list [.int 1, .int 1]) (.set (.int none none) 2 5) =
      .ok (.tuple [.int 1]) := rfl
  obtain ⟨vs, -, entries, -, -, -, -, again⟩ := accepted_set obtained rfl accepted
  rw [← Value.tuple.inj entries] at again
  exact ⟨accepted, again⟩

end Build

end V2G
