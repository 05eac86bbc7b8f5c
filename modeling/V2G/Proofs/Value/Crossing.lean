import V2G.Proofs.Value.Hashing

/-!
# Hashes of plain values

A selection equals the pair of its member and its value, but it is digested with a word of its own.
So equal values without elements have one hash if and only if no selection in one of them stands
against a pair in the other (`Crossed`). Main statement: `hash_of_same`.
-/

namespace V2G

namespace Value

/-- Values without elements and dictionaries. -/
inductive Plain : Value → Prop where
  | none : Plain .none
  | bool (b : Bool) : Plain (.bool b)
  | int (n : Int) : Plain (.int n)
  | float (x : Double) : Plain (.float x)
  | text (s : String) : Plain (.text s)
  | bytes (data : List UInt8) : Plain (.bytes data)
  | token (t : TokenType) (s : String) : Plain (.token t s)
  | identifier (t : IdentifierType) (s : String) : Plain (.identifier t s)
  | url (s : String) : Plain (.url s)
  | tuple {xs : List Value} : (∀ x ∈ xs, Plain x) → Plain (.tuple xs)
  | list {xs : List Value} : (∀ x ∈ xs, Plain x) → Plain (.list xs)
  | choice {m : String} {x : Value} : Plain x → Plain (.choice m x)

attribute [simp] Plain.none Plain.bool Plain.int Plain.float Plain.text Plain.bytes Plain.token
  Plain.identifier Plain.url

theorem Plain.inner {m : String} {x : Value} : Plain (.choice m x) → Plain x
  | .choice h => h

theorem Plain.item {v x : Value} {xs : List Value} (plain : Plain v) (h : v.items? = some xs)
    (hx : x ∈ xs) : Plain x := by
  cases plain <;> cases h <;> rename_i all <;> exact all x hx

theorem Plain.no_dict {v : Value} (plain : Plain v) (es : List (String × Value)) :
    ¬ Part (.dict es) v := by
  intro p
  induction plain with
  | tuple _ ih =>
    cases p with
    | inside child p =>
      cases child with
      | tuple hx => exact ih _ hx p
  | list _ ih =>
    cases p with
    | inside child p =>
      cases child with
      | list hx => exact ih _ hx p
  | choice _ ih =>
    cases p with
    | inside child p =>
      cases child
      exact ih p
  | _ =>
    cases p with
    | inside child _ => cases child

/-- Somewhere in two values of one form a selection stands against something else. -/
inductive Crossed : Value → Value → Prop where
  | left {m : String} {x w : Value} : (∀ m' y, w ≠ .choice m' y) → Crossed (.choice m x) w
  | right {m : String} {y v : Value} : (∀ m' x, v ≠ .choice m' x) → Crossed v (.choice m y)
  | item {v w x y : Value} {xs ys : List Value} : v.items? = some xs → w.items? = some ys →
      (x, y) ∈ xs.zip ys → Crossed x y → Crossed v w
  | value {m m' : String} {x y : Value} : Crossed x y → Crossed (.choice m x) (.choice m' y)

variable {H : Type} {d : Digest H} {v w : Value} {xs ys : List Value}

theorem sequence_of_items (h : v.items? = some xs) : v.sequence? = some xs := by
  cases v <;> first | exact h | cases h

theorem straight_of_atoms (hv : v.sequence? = Option.none) (hw : w.sequence? = Option.none) :
    ¬ Crossed v w := by
  rintro (_ | _ | ⟨items, -, -, -⟩ | _)
  · cases hv
  · cases hw
  · rw [sequence_of_items items] at hv
    cases hv
  · cases hv

theorem straight_of_items (hv : v.items? = some xs) (hw : w.items? = some ys)
    (all : ∀ p ∈ xs.zip ys, ¬ Crossed p.1 p.2) : ¬ Crossed v w := by
  rintro (_ | _ | ⟨hv', hw', there, crossed⟩ | _)
  · cases hv
  · cases hw
  · obtain rfl := Option.some.inj (hv'.symm.trans hv)
    obtain rfl := Option.some.inj (hw'.symm.trans hw)
    exact all _ there crossed
  · cases hv

theorem straight_of_choices {m m' : String} {x y : Value} (h : ¬ Crossed x y) :
    ¬ Crossed (.choice m x) (.choice m' y) := by
  rintro (other | other | ⟨⟨⟩, -, -, -⟩ | inner)
  · exact other m' y rfl
  · exact other m x rfl
  · exact h inner

/-! ### Collections and selections -/

theorem hash_items (d : Digest H) (h : v.items? = some xs) :
    v.hash d false = (xs.mapM fun x => hash d x false).map d.tuple := by
  cases v <;> cases h <;> rw [hash, hashAll_eq] <;> rfl

theorem hash_choice (d : Digest H) (m : String) (x : Value) : (Value.choice m x).hash d false =
    (x.hash d false).map fun h => d.tuple [d.text "Choice", d.text m, h] := rfl

theorem same_items_iff (hv : v.items? = some xs) (hw : w.items? = some ys) :
    v.same w = true ↔ List.Forall₂ (fun x y => x.same y = true) xs ys := by
  rw [same, equal_sequence (sequence_of_items hv), sameSequence, sequence_of_items hw]
  exact pairwise_iff

/-- What equals a collection is one, if it is no selection. -/
theorem items_of_same (hv : v.items? = some xs) (same : v.same w = true)
    (other : ∀ m y, w ≠ .choice m y) : ∃ ys, w.items? = some ys := by
  rw [Value.same, equal_sequence (sequence_of_items hv), sameSequence] at same
  cases w with
  | tuple ys | list ys => exact ⟨ys, rfl⟩
  | choice m y => exact absurd rfl (other m y)
  | _ => cases same

/-- What equals a selection is one, or it is a pair. -/
theorem pair_of_same {m : String} {x : Value} (same : (Value.choice m x).same w = true)
    (other : ∀ m' y, w ≠ .choice m' y) : ∃ name y, w.items? = some [name, y] := by
  have parts : (Value.choice m x).sequence? = some [.text m, x] := rfl
  rw [Value.same, equal_sequence parts, sameSequence] at same
  cases w with
  | tuple ys | list ys =>
    cases pairwise_iff.mp same with
    | cons _ rest =>
      cases rest with
      | cons _ rest =>
        cases rest
        exact ⟨_, _, rfl⟩
  | choice m y => exact absurd rfl (other m y)
  | _ => cases same

/-! ### Values without parts -/

theorem hash_number (d : Digest H) (h : v.isNumber = true) :
    v.hash d false = .ok (hashNumber d v) := by
  cases v <;> first | rfl | cases h

theorem hashNumber_of_same (same : sameNumber v w = true) : hashNumber d v = hashNumber d w := by
  unfold sameNumber at same
  unfold hashNumber
  cases hv : v.integer? <;> cases hw : w.integer? <;> simp only [hv, hw] at same ⊢
  · split at same
    · simp only [Bool.and_eq_true, beq_iff_eq] at same
      simp only [same.1]
    · cases same
  · cases same
  · cases same
  · rw [eq_of_beq same]

theorem hash_of_atom (flat : v.sequence? = Option.none) (plain : Plain v)
    (same : v.same w = true) : v.hash d false = w.hash d false := by
  cases number : v.isNumber with
  | true =>
    have number' := isNumber_of_equal same
    rw [hash_number d number, hash_number d (number' ▸ number)]
    rw [Value.same, equal_number number] at same
    rw [hashNumber_of_same same]
  | false =>
    cases plain <;> cases w <;> simp_all [isNumber, Value.same, equal, sameText, text?, isToken,
      isNone, sequence?, hash]

/-! ### Values of one form -/

theorem mapM_congr_pairs {ε α β : Type} {f : α → Except ε β} {xs ys : List α}
    (h : List.Forall₂ (fun x y => f x = f y) xs ys) : xs.mapM f = ys.mapM f := by
  induction h with
  | nil => rfl
  | cons first _ ih => rw [List.mapM_cons, List.mapM_cons, first, ih]

/-- Items that have hashes, and the same ones in order, have the same one at each place. -/
theorem pairs_of_mapM {ε α β : Type} {f : α → Except ε β} {xs ys : List α} {hs : List β}
    (hx : xs.mapM f = .ok hs) (hy : ys.mapM f = .ok hs) {x y : α} (h : (x, y) ∈ xs.zip ys) :
    f x = f y := by
  have images : xs.map f = ys.map f :=
    (Except.mapM_eq_ok.mp hx).trans (Except.mapM_eq_ok.mp hy).symm
  have pairs : List.Forall₂ (fun x y => f x = f y) xs ys := by
    rw [← List.forall₂_eq_eq_eq, List.forall₂_map_left_iff, List.forall₂_map_right_iff] at images
    exact images
  exact (List.forall₂_iff_zip.mp pairs).2 h

theorem exists_hash (d : Digest H) (plain : Plain v) : ∃ h, v.hash d false = .ok h := by
  have items {v : Value} {xs : List Value} (hv : v.items? = some xs)
      (each : ∀ x ∈ xs, ∃ h, x.hash d false = .ok h) : ∃ h, v.hash d false = .ok h := by
    have all : ∀ o ∈ xs.map fun x => x.hash d false, ∃ h, o = .ok h := List.forall_mem_map.mpr each
    obtain ⟨hs, ok⟩ := exists_map_ok_iff.mpr all
    exact ⟨d.tuple hs, by rw [hash_items d hv, Except.mapM_eq_ok.mpr ok]; rfl⟩
  induction plain with
  | tuple _ ih | list _ ih => exact items rfl ih
  | choice _ ih =>
    obtain ⟨h, hash⟩ := ih
    exact ⟨_, by rw [hash_choice, hash]; rfl⟩
  | _ => exact ⟨_, rfl⟩

/-- Equal values have one hash if selections stand against selections only. -/
theorem hash_of_straight (d : Digest H) (plain : Plain v) (same : v.same w = true)
    (straight : ¬ Crossed v w) : v.hash d false = w.hash d false := by
  have items {v w : Value} {xs : List Value} (hv : v.items? = some xs)
      (ih : ∀ x ∈ xs, ∀ y, x.same y = true → ¬ Crossed x y → x.hash d false = y.hash d false)
      (single : ∀ m x, v ≠ .choice m x) (same : v.same w = true) (straight : ¬ Crossed v w) :
      v.hash d false = w.hash d false := by
    obtain ⟨ys, hw⟩ := items_of_same hv same fun m y h => straight (h ▸ .right single)
    obtain ⟨length, each⟩ := List.forall₂_iff_zip.mp ((same_items_iff hv hw).mp same)
    rw [hash_items d hv, hash_items d hw]
    refine congrArg _ (mapM_congr_pairs (List.forall₂_iff_zip.mpr ⟨length, fun {x y} h => ?_⟩))
    exact ih x (List.of_mem_zip h).1 y (each h) fun crossed => straight (.item hv hw h crossed)
  induction plain generalizing w with
  | tuple _ ih | list _ ih =>
    exact items rfl (fun x hx y same straight => ih x hx same straight) nofun same straight
  | @choice m x _ ih =>
    by_cases other : ∀ m' y, w ≠ .choice m' y
    · exact absurd (.left other) straight
    · simp only [not_forall, not_not] at other
      obtain ⟨m', y, rfl⟩ := other
      obtain ⟨rfl, alike⟩ := same_choice_iff.mp same
      rw [hash_choice, hash_choice, ih alike fun crossed => straight (.value crossed)]
  | _ => exact hash_of_atom rfl (by simp) same

/-- A pair is digested as two parts and a selection as three. -/
theorem hash_ne_of_pair (faithful : Function.Injective d.tuple) {m : String} {x y name : Value}
    (plain : Plain (.choice m x)) (plain' : Plain w) (hw : w.items? = some [name, y]) :
    (Value.choice m x).hash d false ≠ w.hash d false := by
  obtain ⟨h, hash⟩ := exists_hash d plain.inner
  obtain ⟨h₁, hash₁⟩ := exists_hash d (plain'.item hw (x := name) (by simp))
  obtain ⟨h₂, hash₂⟩ := exists_hash d (plain'.item hw (x := y) (by simp))
  have pair : w.hash d false = .ok (d.tuple [h₁, h₂]) := by
    rw [hash_items d hw, List.mapM_cons, hash₁, List.mapM_cons, hash₂]
    rfl
  rw [hash_choice, hash, pair]
  intro alike
  have parts := faithful (Except.ok.inj alike)
  cases parts

/-- A selection that stands against a pair keeps the hashes of equal values apart, unless the digest
of sequences loses something. -/
theorem hash_of_crossed (faithful : Function.Injective d.tuple) (plain : Plain v)
    (plain' : Plain w) (same : v.same w = true) (crossed : Crossed v w) :
    v.hash d false ≠ w.hash d false := by
  induction crossed with
  | left other =>
    obtain ⟨_, _, hw⟩ := pair_of_same same other
    exact hash_ne_of_pair faithful plain plain' hw
  | right other =>
    rw [same_comm _ _ plain.no_dict] at same
    obtain ⟨_, _, hv⟩ := pair_of_same same other
    exact (hash_ne_of_pair faithful plain' plain hv).symm
  | @item v w x y xs ys hv hw pair _ ih =>
    obtain ⟨-, each⟩ := List.forall₂_iff_zip.mp ((same_items_iff hv hw).mp same)
    obtain ⟨inside, inside'⟩ := List.of_mem_zip pair
    obtain ⟨_, hash⟩ := exists_hash d plain
    intro alike
    have hash' := alike ▸ hash
    rw [hash_items d hv] at hash
    rw [hash_items d hw] at hash'
    obtain ⟨hs, all, rfl⟩ := Except.map_eq_ok.mp hash
    obtain ⟨hs', all', tuple⟩ := Except.map_eq_ok.mp hash'
    rw [faithful tuple] at all'
    refine ih (plain.item hv inside) (plain'.item hw inside') (each pair) ?_
    exact pairs_of_mapM all all' pair
  | value _ ih =>
    obtain ⟨rfl, alike⟩ := same_choice_iff.mp same
    refine fun hashes => ih plain.inner plain'.inner alike ?_
    obtain ⟨h, hash⟩ := exists_hash d plain.inner
    obtain ⟨h', hash'⟩ := exists_hash d plain'.inner
    rw [hash_choice, hash_choice, hash, hash'] at hashes
    have parts := faithful (Except.ok.inj hashes)
    rw [hash, hash', (List.cons.inj (List.cons.inj (List.cons.inj parts).2).2).1]

/-! ### Equal values and their hashes -/

/-- Plain values have hashes. Those of equal values are the same where selections stand against
selections only, and where one stands against a pair they are the same only if the digest takes
two sequences of hashes for one. -/
theorem hash_of_same {H : Type} (d : Digest H) {v w : Value} (plain : Plain v) (plain' : Plain w)
    (same : v.same w = true) :
    ∃ h h', v.hash d false = .ok h ∧ w.hash d false = .ok h' ∧ (¬ Crossed v w → h = h') ∧
      (Function.Injective d.tuple → Crossed v w → h ≠ h') := by
  obtain ⟨h, hash⟩ := exists_hash d plain
  obtain ⟨h', hash'⟩ := exists_hash d plain'
  refine ⟨h, h', hash, hash', fun straight => ?_, fun faithful crossed alike => ?_⟩
  · have one := hash_of_straight d plain same straight
    rw [hash, hash'] at one
    exact Except.ok.inj one
  · have apart := hash_of_crossed faithful plain plain' same crossed
    rw [hash, hash', alike] at apart
    exact apart rfl

end Value

/-- What a value is digested from, with nothing lost. -/
inductive Imprint where
  | none
  | integer (n : Int)
  | fraction (x : Double)
  | text (s : String)
  | bytes (data : List UInt8)
  | url (s : String)
  | tuple (parts : List Imprint)
  | set (parts : List Imprint)

def Digest.imprint : Digest Imprint where
  none := .none
  integer := .integer
  fraction := .fraction
  text := .text
  bytes := .bytes
  url := .url
  tuple := .tuple
  set := .set

namespace Value

/-- A selection inside of a tuple and of a list, and one next to the pair it is. -/
theorem selections_hashed :
    (∃ h, (tuple [.text "a", .choice "m" (.list [.int 1])]).hash .bits64 false = .ok h ∧
      (list [.identifier .sessionId "a", .choice "m" (.tuple [.bool true])]).hash .bits64 false =
        .ok h) ∧
    (choice "a" (.int 1)).same (tuple [.text "a", .int 1]) = true ∧
    ∃ h h', (choice "a" (.int 1)).hash .imprint false = .ok h ∧
      (tuple [.text "a", .int 1]).hash .imprint false = .ok h' ∧ h ≠ h' := by
  have single {x : Value} (hx : Plain x) : ∀ y ∈ [x], Plain y := by simp [hx]
  have pair {name x : Value} (hn : Plain name) (hx : Plain x) : ∀ y ∈ [name, x], Plain y := by
    simp [hn, hx]
  have straight : ¬ Crossed (tuple [.text "a", .choice "m" (.list [.int 1])])
      (list [.identifier .sessionId "a", .choice "m" (.tuple [.bool true])]) := by
    have number : ¬ Crossed (.int 1) (.bool true) := straight_of_atoms rfl rfl
    have selected : ¬ Crossed (.choice "m" (.list [.int 1])) (.choice "m" (.tuple [.bool true])) :=
      straight_of_choices (straight_of_items rfl rfl (by simpa using number))
    have word : ¬ Crossed (.text "a") (.identifier .sessionId "a") := straight_of_atoms rfl rfl
    exact straight_of_items rfl rfl (by simpa using ⟨word, selected⟩)
  obtain ⟨h, h', hash, hash', alike, -⟩ := hash_of_same .bits64
    (.tuple (pair (.text "a") (.choice (m := "m") (.list (single (.int 1))))))
    (.list (pair (.identifier .sessionId "a") (.choice (m := "m") (.tuple (single (.bool true))))))
    (by rfl)
  obtain ⟨k, k', hash₂, hash₂', -, apart⟩ := hash_of_same .imprint (.choice (m := "a") (.int 1))
    (.tuple (pair (.text "a") (.int 1))) (by rfl)
  refine ⟨⟨h, hash, (alike straight) ▸ hash'⟩, by rfl, k, k', hash₂, hash₂', apart ?_ (.left nofun)⟩
  exact fun _ _ => Imprint.tuple.inj

end Value

end V2G
