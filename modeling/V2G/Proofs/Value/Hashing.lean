import V2G.Proofs.Alike
import V2G.Proofs.Obtainable
import V2G.Value.Hashing

/-!
# Hashes agree with equality

Equal values of a declaration have the same hash, for every digest that takes sets as sets. So
messages may be keys and entries of sets, whatever the order of their collections and whatever
requests they answer (`same_lawful`).
-/

namespace V2G

namespace Value

variable {H : Type} {d : Digest H}

theorem hashAll_eq (d : Digest H) (vs : List Value) :
    hashAll d vs = vs.mapM fun v => hash d v false := by
  induction vs with
  | nil => rfl
  | cons v vs ih => rw [hashAll, ih, List.mapM_cons]

theorem hash_tuple (d : Digest H) (xs : List Value) (isSet : Bool) :
    (Value.tuple xs).hash d isSet =
      (xs.mapM fun x => hash d x false).map (if isSet then d.set else d.tuple) := by
  rw [hash, hashAll_eq]

theorem get?_fieldHashes (d : Digest H) (fs : List (String × Value)) (name : String) :
    Keyed.get? (fieldHashes d fs) name = (Keyed.get? fs name).map fun v => v.hash d := by
  induction fs with
  | nil => rfl
  | cons entry fs ih =>
    obtain ⟨k, v⟩ := entry
    rw [fieldHashes]
    by_cases same : k = name <;> simp_all [Keyed.get?]

theorem hash_element (d : Digest H) (e : Element) (fs : List (String × Value)) (isSet : Bool) :
    (Value.element e fs).hash d isSet =
      (e.slots.mapM fun (name, isSet) => ((Value.element e fs).field name).hash d isSet).map
        fun hs => d.tuple (d.text e.name :: hs) := by
  have slot (name : String) (isSet : Bool) : fieldHash d (fieldHashes d fs) name isSet =
      ((Value.element e fs).field name).hash d isSet := by
    rw [fieldHash, get?_fieldHashes, field]
    cases Keyed.get? fs name <;> rfl
  simp only [hash, slot]

end Value

theorem exists_mapM_ok {ε α β γ : Type} {f : α → Except ε γ} {g : β → Except ε γ} {xs : List α}
    {ys : List β} (h : List.Forall₂ (fun x y => ∃ c, f x = .ok c ∧ g y = .ok c) xs ys) :
    ∃ cs, xs.mapM f = .ok cs ∧ ys.mapM g = .ok cs := by
  induction h with
  | nil => exact ⟨[], rfl, rfl⟩
  | cons first _ ih =>
    obtain ⟨c, hx, hy⟩ := first
    obtain ⟨cs, hxs, hys⟩ := ih
    exact ⟨c :: cs, by rw [List.mapM_cons, hx, hxs]; rfl, by rw [List.mapM_cons, hy, hys]; rfl⟩

/-- What a sequence of computations gives in another order. -/
theorem exists_mapM_of_perm {ε α β : Type} {f : α → Except ε β} {xs ys : List α} (h : xs.Perm ys)
    {vs : List β} (hv : xs.mapM f = .ok vs) :
    ∃ ws, ys.mapM f = .ok ws ∧ ∀ v, v ∈ vs ↔ v ∈ ws := by
  have all := Except.mapM_eq_ok.mp hv
  have each : ∀ o ∈ ys.map f, ∃ v, o = .ok v := by
    refine List.forall_mem_map.mpr fun y hy => ?_
    obtain ⟨v, -, hv⟩ := ok_of_mem all (h.mem_iff.mpr hy)
    exact ⟨v, hv⟩
  obtain ⟨ws, hw⟩ := exists_map_ok_iff.mpr each
  refine ⟨ws, Except.mapM_eq_ok.mpr hw, fun v => ?_⟩
  rw [mem_iff_of_ok all, mem_iff_of_ok hw]
  exact exists_congr fun x => and_congr_left fun _ => h.mem_iff

/-! ### Values with the same hash -/

theorem Element.mem_slots {e : Element} {slot : String × Bool} (h : slot ∈ e.slots) :
    (∃ f ∈ e.fields, slot = (f.name, f.shape.isUnordered)) ∨
      ∃ c, e.choice = some c ∧ slot = (c.name, false) := by
  rcases List.mem_append.mp h with h | h
  · obtain ⟨f, hf, rfl⟩ := List.mem_map.mp h
    exact .inl ⟨f, hf, rfl⟩
  · simp only [Option.mem_toList, Option.map_eq_some_iff] at h
    obtain ⟨c, hc, rfl⟩ := h
    exact .inr ⟨c, hc, rfl⟩

/-- Two values have a hash, and the same one. -/
def SameHash {H : Type} (d : Digest H) (isSet : Bool) (v w : Value) : Prop :=
  ∃ h, v.hash d isSet = .ok h ∧ w.hash d isSet = .ok h

variable {reader : Url.Reader}

namespace SameHash

variable {H : Type} {d : Digest H}

theorem none (isSet : Bool) : SameHash d isSet .none .none := ⟨d.none, rfl, rfl⟩

theorem scalar {k : Kind} {v : Value} (holds : k.Holds v) : SameHash d false v v := by
  have hashed : ∃ h, v.hash d false = .ok h := by
    cases k <;> cases v <;> first | exact holds.elim | exact ⟨_, rfl⟩
  obtain ⟨h, hv⟩ := hashed
  exact ⟨h, hv, hv⟩

theorem tuple {xs ys : List Value} (all : List.Forall₂ (SameHash d false) xs ys) :
    SameHash d false (.tuple xs) (.tuple ys) := by
  obtain ⟨hs, hx, hy⟩ := exists_mapM_ok all
  exact ⟨d.tuple hs, by rw [Value.hash_tuple, hx]; rfl, by rw [Value.hash_tuple, hy]; rfl⟩

theorem set (lawful : d.Lawful) {xs ys zs : List Value}
    (all : List.Forall₂ (SameHash d false) xs zs) (perm : zs.Perm ys) :
    SameHash d true (.tuple xs) (.tuple ys) := by
  obtain ⟨hs, hx, hz⟩ := exists_mapM_ok all
  obtain ⟨hs', hy, same⟩ := exists_mapM_of_perm perm hz
  refine ⟨d.set hs, by rw [Value.hash_tuple, hx]; rfl, ?_⟩
  rw [Value.hash_tuple, hy, lawful hs hs' same]
  rfl

theorem choice {m : String} {v w : Value} (same : SameHash d false v w) :
    SameHash d false (.choice m v) (.choice m w) := by
  obtain ⟨h, hv, hw⟩ := same
  exact ⟨_, congrArg (Except.map _) hv, congrArg (Except.map _) hw⟩

theorem element {e : Element} {fs fs' : List (String × Value)}
    (slots : ∀ slot ∈ e.slots, SameHash d slot.2 ((Value.element e fs).field slot.1)
      ((Value.element e fs').field slot.1)) :
    SameHash d false (.element e fs) (.element e fs') := by
  obtain ⟨hs, hx, hy⟩ := exists_mapM_ok (List.forall₂_same.mpr slots)
  exact ⟨_, by rw [Value.hash_element, hx]; rfl, by rw [Value.hash_element, hy]; rfl⟩

end SameHash

/-- Equal values of a shape have a hash, and the same one. -/
theorem Conforms.hash_alike {H : Type} {d : Digest H} (lawful : d.Lawful) {s : Shape} {v w : Value}
    (h : Conforms s v) (h' : Conforms s w) (alike : v.equal s.comparison w = true) :
    SameHash d s.isUnordered v w := by
  refine alike_induction (P := fun s => SameHash d s.isUnordered) (fun k v => .scalar)
    (fun k least most xs ys _ _ => .tuple) (fun k least most xs ys zs _ _ => .set lawful)
    (fun e fs fs' _ _ fields choice => .element fun slot hs => ?_) h h' alike
  rcases Element.mem_slots hs with ⟨f, hf, rfl⟩ | ⟨c, hc, rfl⟩
  · rcases fields f hf with ⟨none, none'⟩ | same
    · rw [none, none']
      exact .none _
    · exact same
  · rcases choice c hc with ⟨none, none'⟩ | ⟨m, w, w', -, value, value', same⟩
    · rw [none, none']
      exact .none _
    · rw [value, value']
      exact .choice same

/-! ### Sets of hashes in 64 bits -/

theorem nodup_eraseDups {α : Type} [BEq α] [LawfulBEq α] (xs : List α) : xs.eraseDups.Nodup := by
  induction h : xs.length using Nat.strongRecOn generalizing xs with
  | ind n ih =>
    cases xs with
    | nil => simp
    | cons x xs =>
      have shorter : (xs.filter fun y => !y == x).length < n :=
        h ▸ Nat.lt_succ_of_le (List.length_filter_le _ _)
      rw [List.eraseDups_cons, List.nodup_cons]
      refine ⟨fun there => ?_, ih _ shorter _ rfl⟩
      simpa using List.mem_eraseDups.mp there

theorem Digest.lawful_bits64 : bits64.Lawful := by
  intro xs ys same
  have perm : xs.eraseDups.Perm ys.eraseDups := by
    rw [List.perm_ext_iff_of_nodup (nodup_eraseDups xs) (nodup_eraseDups ys)]
    intro h
    rw [List.mem_eraseDups, List.mem_eraseDups]
    exact same h
  have sum := (perm.map fun h => (mix h 8).toNat).foldl_eq 0 (f := (· + ·))
  simp only [bits64, sum]

/-! ### Messages as keys -/

/-- Equality of values is reflexive where no part is not a number, symmetric and transitive.
Elements that are equal have the same hash, also once they are bound to requests. -/
theorem same_lawful {H : Type} {d : Digest H} (lawful : d.Lawful) :
    (∀ v : Value, (∀ x, Value.Part (.float x) v → x.isNaN = false) →
      (∀ es, ¬ Value.Part (.dict es) v) → v.same v = true) ∧
    (∀ v w : Value, (∀ es, ¬ Value.Part (.dict es) v) → v.same w = true → w.same v = true) ∧
    (∀ u v w : Value, (∀ es, ¬ Value.Part (.dict es) u) → u.same v = true → v.same w = true →
      u.same w = true) ∧
    ∀ e e' fs fs', Obtainable (fun _ _ => True) (.element e fs) →
      Obtainable (fun _ _ => True) (.element e' fs') →
      (Value.element e fs).same (.element e' fs') = true →
      ∃ h, (Value.element e fs).hash d false = .ok h ∧
        (Value.element e' fs').hash d false = .ok h ∧
        ∀ q q' a b, Exchange.correlate (.element e fs) q = .ok a →
          Exchange.correlate (.element e' fs') q' = .ok b →
          a.same b = true ∧ a.hash d false = .ok h ∧ b.hash d false = .ok h := by
  refine ⟨fun v numbers plain => Value.equal_self v numbers plain .structural,
    fun v w plain same => ?_, fun u v w plain => Value.equal_trans plain,
    fun e e' fs fs' obtained obtained' same => ?_⟩
  · rw [Value.same, Value.equal_comm v w plain] at same
    exact same
  · have conforms := obtained.sound.element e fs .self
    have conforms' := obtained'.sound.element e' fs' .self
    have class_eq : e = e' := by
      rw [Value.same, Value.equal_element] at same
      simp only [Bool.and_eq_true, beq_iff_eq] at same
      exact same.1
    subst class_eq
    obtain ⟨h, hash, hash'⟩ := conforms.hash_alike lawful conforms' same
    refine ⟨h, hash, hash', fun q q' a b bound bound' => ?_⟩
    rw [Exchange.correlate_eq_ok bound, Exchange.correlate_eq_ok bound']
    exact ⟨same, hash, hash'⟩

/-- A request for the services with some ids. -/
def servicesDocument (ids : List Int) : Json := .obj
  [("messageHeader", .obj [("sessionId", .str "AB"), ("timestamp", .int 1)]),
    ("supportedServiceIds", .arr (ids.map .int))]

def services (ids : List Int) : List (String × Value) :=
  [("header", .element .messageHeader
      [("session_id", .identifier .sessionId "AB"), ("timestamp", .int 1), ("signature", .none)]),
    ("supported_service_ids", .tuple (ids.map .int))]

theorem services_hashed : ∃ h,
    (Value.element .serviceDiscoveryReq (services [1, 2])).hash Digest.bits64 false = .ok h ∧
      (Value.element .serviceDiscoveryReq (services [2, 1])).hash Digest.bits64 false = .ok h := by
  have parsed : (Codec.plain.parse {} .serviceDiscoveryReq (servicesDocument [1, 2])).outcome =
      .ok (.element .serviceDiscoveryReq (services [1, 2])) := rfl
  have parsed' : (Codec.plain.parse {} .serviceDiscoveryReq (servicesDocument [2, 1])).outcome =
      .ok (.element .serviceDiscoveryReq (services [2, 1])) := rfl
  obtain ⟨-, -, -, hashed⟩ := same_lawful Digest.lawful_bits64
  obtain ⟨h, hash, hash', -⟩ := hashed _ _ _ _ (.parsed parsed) (.parsed parsed') rfl
  exact ⟨h, hash, hash'⟩

end V2G
