import V2G.Build.Selection
import V2G.Proofs.Conforms
import V2G.Proofs.Outcome

/-!
# Single values from arguments

What arguments become as scalars: one equation for each reader, and from these that a scalar
that was read lies within the limits of its kind (`conforms_of_readScalar`). An argument may
hold tokens, URLs and elements only as these are handed out (`Sound`).
-/

namespace V2G

variable [reader : Url.Reader]

/-- What a program can hold: tokens of their type, normal URLs, conforming elements. -/
structure Sound (v : Value) : Prop where
  token : ∀ t s, Value.Part (.token t s) v → s ∈ t.tokens
  url : ∀ s, Value.Part (.url s) v → IsWebUrl s
  element : ∀ e fs, Value.Part (.element e fs) v → Conforms (.one (.element e)) (.element e fs)

variable {reader}

theorem Sound.part {v w : Value} (h : Sound v) (hw : w.Part v) : Sound w where
  token t s p := h.token t s (p.trans hw)
  url s p := h.url s (p.trans hw)
  element e fs p := h.element e fs (p.trans hw)

theorem Sound.child {v w : Value} (h : Sound v) (hw : w.Child v) : Sound w := h.part hw.part

theorem Conforms.sound {s : Shape} {v : Value} (h : Conforms s v) : Sound v where
  token t s p := by
    cases h.piece_of_part p with
    | scalar h => cases ‹Kind› <;> first | exact h.1 ▸ h.2 | exact h.elim
  url s p := by
    cases h.piece_of_part p with
    | scalar h => cases ‹Kind› <;> first | exact h | exact h.elim
  element _ _ p := h.of_part p

namespace Build

/-! ### Readers -/

theorem inRange_eq_ok {low high : Option Int} {n m : Int} :
    inRange low high n = .ok m ↔ m = n ∧ (∀ l ∈ low, l ≤ n) ∧ ∀ h ∈ high, n ≤ h := by
  unfold inRange
  split
  · next l h =>
    obtain ⟨hl, below⟩ := Option.filter_eq_some_iff.mp h
    simp only [reduceCtorEq, false_iff]
    rintro ⟨-, least, -⟩
    have := least l hl
    simp only [decide_eq_true_eq] at below
    omega
  · next h _ hh =>
    obtain ⟨hh, above⟩ := Option.filter_eq_some_iff.mp hh
    simp only [reduceCtorEq, false_iff]
    rintro ⟨-, -, most⟩
    have := most _ hh
    simp only [decide_eq_true_eq] at above
    omega
  · next hl hh =>
    have least : ∀ l ∈ low, l ≤ n := by simpa using Option.filter_eq_none_iff.mp hl
    have most : ∀ h ∈ high, n ≤ h := by simpa using Option.filter_eq_none_iff.mp hh
    simp only [Except.ok.injEq, eq_comm (a := n)]
    exact ⟨fun e => ⟨e, least, most⟩, fun h => h.1⟩

/-- The bounds on texts and on bytes are tested the same way. -/
theorem bounded_eq_ok {ε α : Type} {least n : Nat} {most : Option Nat} {v w : α} {long : Nat → ε}
    {short : ε} :
    (match most.filter (· < n) with
      | some most => Except.error (long most)
      | none => if n < least then .error short else .ok v) = .ok w ↔
        w = v ∧ Within least most n := by
  split
  · next m h =>
    obtain ⟨hm, above⟩ := Option.filter_eq_some_iff.mp h
    simp only [reduceCtorEq, false_iff]
    rintro ⟨-, -, within⟩
    have := within m hm
    simp only [decide_eq_true_eq] at above
    omega
  · next h =>
    have within : ∀ m ∈ most, n ≤ m := by simpa using Option.filter_eq_none_iff.mp h
    split
    · next below => simp [Within, Nat.not_le.mpr below]
    · next above =>
      simp only [Except.ok.injEq, eq_comm (a := v)]
      exact ⟨fun e => ⟨e, Nat.not_lt.mp above, within⟩, fun h => h.1⟩

theorem boundedText_eq_ok {least : Nat} {most : Option Nat} {s : String} {w : Value} :
    boundedText least most s = .ok w ↔ w = .text s ∧ Within least most s.length := bounded_eq_ok

theorem boundedBytes_eq_ok {least : Nat} {most : Option Nat} {data : List UInt8} {w : Value} :
    boundedBytes least most data = .ok w ↔ w = .bytes data ∧ Within least most data.length :=
  bounded_eq_ok

theorem urlOfText_eq_ok {s : String} {w : Value} :
    urlOfText s = .ok w ↔ ∃ u, s.utf8ByteSize ≤ maxUrlBytes ∧ Url.read s = .ok (some u) ∧
      u.isWeb = true ∧ w = .url u.text := by
  unfold urlOfText
  by_cases long : maxUrlBytes < s.utf8ByteSize
  · simp [long, Nat.not_le.mpr long]
  · rcases h : Url.read s with f | _ | u
    · simp [long]
    · simp [long]
    · by_cases web : u.isWeb = true
      · simp only [long, web, ↓reduceIte, Except.ok.injEq]
        constructor
        · exact fun e => ⟨u, Nat.not_lt.mp long, rfl, web, e.symm⟩
        · rintro ⟨_, -, e, -, rfl⟩
          cases e; rfl
      · simp [long, web]

theorem isWebUrl_of_urlOfText {s t : String} (h : urlOfText s = .ok (.url t)) : IsWebUrl t := by
  obtain ⟨u, short, read, web, e⟩ := urlOfText_eq_ok.mp h
  exact ⟨s, u, short, read, web, Value.url.inj e⟩

theorem urlOfText_url {s : String} {w : Value} (h : urlOfText s = .ok w) : ∃ t, w = .url t := by
  obtain ⟨u, -, -, -, e⟩ := urlOfText_eq_ok.mp h
  exact ⟨_, e⟩

end Build

/-! ### Identifiers -/

namespace IdentifierType

variable {t : IdentifierType}

theorem read_eq_ok {v w : Value} :
    t.read v = .ok w ↔ ∃ s, v.text? = some s ∧ Within t.least (some t.most) s.length ∧
      (∀ c ∈ s.toList, t.allows c = true) ∧ w = .identifier t v.shown := by
  unfold IdentifierType.read
  cases v.text? with
  | none => simp
  | some s =>
    by_cases length : s.length < t.least ∨ t.most < s.length
    · simp only [Bool.or_eq_true, decide_eq_true_eq, length, ↓reduceIte, reduceCtorEq, false_iff]
      rintro ⟨_, e, ⟨least, most⟩, -⟩
      cases e
      have := most _ rfl
      omega
    · have within : Within t.least (some t.most) s.length :=
        ⟨by omega, fun m hm => by cases hm; omega⟩
      simp only [Bool.or_eq_true, decide_eq_true_eq, length, ↓reduceIte]
      by_cases allowed : s.toList.all t.allows = true
      · simp only [allowed, Bool.not_true, Bool.false_eq_true, ↓reduceIte, Except.ok.injEq]
        constructor
        · exact fun e => ⟨s, rfl, within, List.all_eq_true.mp allowed, e.symm⟩
        · rintro ⟨_, -, -, -, rfl⟩
          rfl
      · simp only [allowed, Bool.not_false, ↓reduceIte, reduceCtorEq, false_iff]
        rintro ⟨_, e, -, all, -⟩
        cases e
        exact allowed (List.all_eq_true.mpr all)

theorem length_le_utf8ByteSize (s : String) : s.length ≤ s.utf8ByteSize := by
  suffices h : ∀ cs : List Char, cs.length ≤ (String.ofList cs).utf8ByteSize by
    rw [← String.length_toList]
    simpa using h s.toList
  intro cs
  induction cs with
  | nil => simp
  | cons c cs ih =>
    rw [String.ofList_cons, String.utf8ByteSize_append, String.utf8ByteSize_singleton]
    have := c.utf8Size_pos
    simp only [List.length_cons]
    omega

theorem size_member : ∀ t ∈ TokenType.all, ∀ m ∈ t.members,
    t.name.utf8ByteSize + 1 + m.1.utf8ByteSize ≤ 80 ∧
      t.name.utf8ByteSize + 1 + m.2.utf8ByteSize ≤ 80 := by
  decide

theorem some_not_hex : ∀ t ∈ TokenType.all, ∀ s ∈ t.tokens, s.toList.all isHexDigit = false := by
  decide

theorem length_tokenSymbol {u : TokenType} {s : String} (h : s ∈ u.tokens) :
    1 ≤ (Value.tokenSymbol u s).length ∧ (Value.tokenSymbol u s).length ≤ 80 := by
  have hu : u ∈ TokenType.all := by cases u <;> decide
  have size := length_le_utf8ByteSize (Value.tokenSymbol u s)
  have one : ".".utf8ByteSize = 1 := rfl
  constructor
  · have : ".".length = 1 := rfl
    simp only [Value.tokenSymbol, String.length_append]
    omega
  refine Nat.le_trans size ?_
  simp only [Value.tokenSymbol, String.utf8ByteSize_append, TokenType.symbol?]
  cases hf : u.members.find? (·.2 == s) with
  | some m =>
    have := (size_member u hu m (List.mem_of_find?_eq_some hf)).1
    simp only [Option.map_some, Option.getD_some]
    omega
  | none =>
    obtain ⟨m, hm, rfl⟩ := List.mem_map.mp h
    have := (size_member u hu m hm).2
    simp only [Option.map_none, Option.getD_none]
    omega

/-- The symbol of a token is within the limits that the token itself is in. -/
theorem holds_tokenSymbol {u : TokenType} {s : String} (h : s ∈ u.tokens)
    (hs : ∀ c ∈ s.toList, t.allows c = true) :
    Within t.least (some t.most) (Value.tokenSymbol u s).length ∧
      ∀ c ∈ (Value.tokenSymbol u s).toList, t.allows c = true := by
  have ⟨least, most⟩ := length_tokenSymbol h
  have hu : u ∈ TokenType.all := by cases u <;> decide
  cases t with
  | sessionId =>
    have hex : s.toList.all isHexDigit = true := List.all_eq_true.mpr hs
    rw [some_not_hex u hu s h] at hex
    cases hex
  | _ =>
    refine ⟨⟨least, fun m hm => ?_⟩, fun _ _ => rfl⟩
    cases hm
    exact Nat.le_trans most (by decide)

/-- An identifier holds what its type allows, whatever text it was made from. -/
theorem holds_of_read {v w : Value} (sound : Sound v) (h : t.read v = .ok w) :
    (Kind.identifier t).Holds w := by
  obtain ⟨s, text, within, allowed, rfl⟩ := read_eq_ok.mp h
  cases v with
  | token u s' =>
    cases text
    exact ⟨rfl, holds_tokenSymbol (sound.token u s .self) allowed⟩
  | text s' | identifier u s' =>
    cases text
    exact ⟨rfl, within, allowed⟩
  | _ => cases text

end IdentifierType

/-! ### All kinds -/

namespace Build

theorem holds_of_readText {least : Nat} {most : Option Nat} {v w : Value}
    (h : readText least most v = .ok w) : (Kind.text least most).Holds w := by
  unfold readText at h
  split at h
  · obtain ⟨rfl, within⟩ := boundedText_eq_ok.mp h
    exact within
  · cases h
  · cases h

theorem holds_of_readBytes {least : Nat} {most : Option Nat} {v w : Value}
    (h : readBytes least most v = .ok w) : (Kind.bytes least most).Holds w := by
  unfold readBytes at h
  split at h
  · obtain ⟨rfl, within⟩ := boundedBytes_eq_ok.mp h
    exact within
  · split at h
    · obtain ⟨rfl, within⟩ := boundedBytes_eq_ok.mp h
      exact within
    · cases h

theorem holds_of_readToken {t : TokenType} {v w : Value} (h : readToken t v = .ok w) :
    (Kind.token t).Holds w := by
  unfold readToken at h
  split at h
  · split at h
    · next member => cases h; exact ⟨rfl, List.contains_iff_mem.mp member⟩
    · cases h
  · cases h

theorem holds_of_readUrl {v w : Value} (sound : Sound v) (h : readUrl v = .ok w) :
    Kind.url.Holds w := by
  unfold readUrl at h
  split at h
  · cases h; exact sound.url _ .self
  · split at h
    · obtain ⟨t, rfl⟩ := urlOfText_url h
      exact isWebUrl_of_urlOfText h
    · cases h

/-- Whether a value of another class than a kind asks for is kept from a place: either no
class extends the one asked for, or the value has been looked at. -/
def Fits (k : Kind) (v : Value) : Prop :=
  Element.isBaseKind k = false ∨ Group.misfit? k v = none

theorem eq_of_fits {e e' : Element} {fs : List (String × Value)}
    (h : Fits (.element e) (.element e' fs)) (isA : e'.isA e = true) : e' = e := by
  rcases h with base | fit
  · refine (Element.eq_or_mem_bases isA).resolve_right fun hb => ?_
    rw [Element.isBaseKind, List.contains_iff_mem.mpr hb] at base
    cases base
  · by_cases same : e = e'
    · exact same.symm
    · simp [Group.misfit?, Kind.isBare, same] at fit

theorem conforms_of_readScalar {k : Kind} {v w : Value} (sound : Sound v) (fits : Fits k v)
    (h : readScalar k v = .ok w) : Conforms (.one k) w := by
  cases k with
  | int low high =>
    obtain ⟨n, -, h⟩ := Except.bind_eq_ok.mp h
    obtain ⟨m, hm, e⟩ := Except.bind_eq_ok.mp h
    cases e
    obtain ⟨rfl, bounds⟩ := inRange_eq_ok.mp hm
    exact .scalar bounds
  | bool =>
    obtain ⟨b, -, rfl⟩ := Except.map_eq_ok.mp h
    exact .scalar trivial
  | text least most => exact .scalar (holds_of_readText h)
  | bytes least most => exact .scalar (holds_of_readBytes h)
  | url => exact .scalar (holds_of_readUrl sound h)
  | token t => exact .scalar (holds_of_readToken h)
  | identifier t => exact .scalar (t.holds_of_read sound (Except.mapError_eq_ok.mp h))
  | element e =>
    simp only [readScalar, readElement] at h
    split at h
    · split at h
      · next isA =>
        cases h
        cases eq_of_fits fits isA
        exact sound.element _ _ .self
      · cases h
    · cases h

end Build

end V2G
