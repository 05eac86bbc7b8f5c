import Mathlib.Data.List.Induction
import V2G.Proofs.Text
import V2G.Url.Host

/-!
# Texts that stand for themselves

Escapes change nothing in a text that was escaped before, and resolving escapes changes nothing
in an ASCII text without percent signs. Numbers are read back from their digits, and the parts
of a text from what is put between them.
-/

namespace V2G.Url

/-! ### Escapes -/

/-- Nothing in the text is escaped. -/
def Plain (more cs : List Char) : Prop := ∀ c ∈ cs, mustEscape more c = false

/-- The characters that escapes are made of. -/
def escapeChars : List Char := "%0123456789ABCDEF".toList

theorem mem_escapeByte {b : UInt8} {c : Char} (h : c ∈ escapeByte b) : c ∈ escapeChars := by
  have digit : ∀ n < 16, upperHex n ∈ escapeChars := by decide
  have := b.toNat_lt
  simp only [escapeByte, List.mem_cons, List.not_mem_nil, or_false] at h
  rcases h with rfl | rfl | rfl
  · decide
  · exact digit _ (by omega)
  · exact digit _ (by omega)

/-- A character of an escaped text belongs to an escape, or to the text itself. -/
theorem mem_escape {more cs : List Char} {c : Char} (h : c ∈ escape more cs) :
    c ∈ escapeChars ∨ c ∈ cs ∧ mustEscape more c = false := by
  obtain ⟨d, hd, hc⟩ := List.mem_flatMap.mp h
  unfold escapeChar at hc
  split at hc
  · obtain ⟨b, -, hb⟩ := List.mem_flatMap.mp hc
    exact .inl (mem_escapeByte hb)
  · next plain =>
    obtain rfl := List.mem_singleton.mp hc
    exact .inr ⟨hd, Bool.eq_false_iff.mpr plain⟩

theorem plain_escape {more : List Char} (mild : Plain more escapeChars) (cs : List Char) :
    Plain more (escape more cs) := fun c hc => (mem_escape hc).elim (mild c) And.right

theorem escape_of_plain {more cs : List Char} (h : Plain more cs) : escape more cs = cs := by
  induction cs with
  | nil => rfl
  | cons c cs ih =>
    have first : escapeChar more c = [c] := by simp [escapeChar, h c List.mem_cons_self]
    have rest := ih fun d hd => h d (List.mem_cons_of_mem _ hd)
    rw [escape, List.flatMap_cons, first, ← escape, rest]
    rfl

theorem plain_of_all {more cs : List Char} (h : cs.all (fun c => !mustEscape more c) = true) :
    Plain more cs := fun c hc => by simpa using List.all_eq_true.mp h c hc

theorem mild_fragment : Plain inFragment escapeChars := plain_of_all (by decide)
theorem mild_query : Plain inQuery escapeChars := plain_of_all (by decide)
theorem mild_path : Plain inPath escapeChars := plain_of_all (by decide)
theorem mild_userInfo : Plain inUserInfo escapeChars := plain_of_all (by decide)

theorem Plain.not_mem {more cs : List Char} (h : Plain more cs) {c : Char} (hc : c ∈ more) :
    c ∉ cs := by
  intro mem
  have := h c mem
  simp [mustEscape, hc] at this

/-! ### ASCII -/

/-- What resolving escapes makes of characters that belong to none. -/
theorem unescape_of_ascii {cs : List Char} (h : ∀ c ∈ cs, c.toNat < 0x80 ∧ c ≠ '%') :
    unescape cs = cs.map Char.toUInt8 := by
  induction cs with
  | nil => rfl
  | cons c cs ih =>
    obtain ⟨ascii, percent⟩ := h c List.mem_cons_self
    have rest := ih fun d hd => h d (List.mem_cons_of_mem _ hd)
    rw [unescape, Text.utf8Bytes_ascii (fun d hd => List.mem_singleton.mp hd ▸ ascii), rest]
    · rfl
    · rintro _ _ _ rfl
      exact fun _ => percent rfl

/-! ### Digits -/

theorem hexDigit?_digitChar {d : Nat} (h : d < 16) : hexDigit? d.digitChar = some d :=
  (show ∀ d < 16, hexDigit? (Nat.digitChar d) = some d by decide) d h

theorem digitsValue?_append (b : Nat) (cs : List Char) (c : Char) :
    digitsValue? b (cs ++ [c]) = (hexDigit? c).bind fun d =>
      if d < b then (digitsValue? b cs).bind fun n => some (b * n + d) else none := by
  rw [digitsValue?, List.foldl_append]
  rfl

/-- A number is read back from its digits. -/
theorem digitsValue?_toDigits {b : Nat} (hb : 1 < b) (hex : b ≤ 16) (n : Nat) :
    digitsValue? b (Nat.toDigits b n) = some n := by
  induction n using Nat.strongRecOn with
  | _ n ih =>
    rw [Nat.toDigits_eq_if hb]
    split
    · next small =>
      rw [← List.nil_append [_], digitsValue?_append, hexDigit?_digitChar (by omega)]
      simp [small, digitsValue?]
    · next large =>
      have last : n % b < b := Nat.mod_lt _ (by omega)
      rw [digitsValue?_append, hexDigit?_digitChar (by omega),
        ih _ (Nat.div_lt_self (by omega) hb)]
      simp [last, Nat.div_add_mod]

theorem digitsValue?_lt {b : Nat} {cs : List Char} {n : Nat} (h : digitsValue? b cs = some n) :
    n < b ^ cs.length := by
  induction cs using List.reverseRecOn generalizing n with
  | nil =>
    cases h
    exact Nat.one_pos
  | append_singleton cs c ih =>
    rw [digitsValue?_append] at h
    obtain ⟨d, -, h⟩ := Option.bind_eq_some_iff.mp h
    split at h
    · next small =>
      obtain ⟨m, hm, h⟩ := Option.bind_eq_some_iff.mp h
      cases h
      rw [List.length_append, List.length_singleton, Nat.pow_succ]
      calc b * m + d < b * (m + 1) := by rw [Nat.mul_add]; omega
        _ ≤ b * b ^ cs.length := Nat.mul_le_mul_left b (ih hm)
        _ = b ^ cs.length * b := Nat.mul_comm _ _
    · cases h

/-! ### Parts -/

theorem splitAt_of_none {p : Char → Bool} {cs : List Char} (h : ∀ c ∈ cs, p c = false) :
    splitAt p cs = [cs] := by
  induction cs with
  | nil => rfl
  | cons c cs ih =>
    have rest := ih fun d hd => h d (List.mem_cons_of_mem _ hd)
    simp [splitAt, h c List.mem_cons_self, rest]

theorem splitAt_append {p : Char → Bool} {cs : List Char} (h : ∀ c ∈ cs, p c = false) {c : Char}
    (hc : p c = true) (rest : List Char) : splitAt p (cs ++ c :: rest) = cs :: splitAt p rest := by
  induction cs with
  | nil => simp [splitAt, hc]
  | cons d cs ih =>
    have tail := ih fun d hd => h d (List.mem_cons_of_mem _ hd)
    simp [splitAt, h d List.mem_cons_self, tail]

/-- A text is cut where its parts were put together. -/
theorem splitAt_flatMap {p : Char → Bool} {c : Char} (hc : p c = true) {part : List Char}
    {parts : List (List Char)} (h : ∀ cs ∈ part :: parts, ∀ d ∈ cs, p d = false) :
    splitAt p (part ++ parts.flatMap (c :: ·)) = part :: parts := by
  induction parts generalizing part with
  | nil => simpa using splitAt_of_none (h part List.mem_cons_self)
  | cons next parts ih =>
    have rest := ih fun cs hcs => h cs (List.mem_cons_of_mem _ hcs)
    rw [List.flatMap_cons, List.cons_append,
      splitAt_append (h part List.mem_cons_self) hc, rest]

theorem splitAt_mem {p : Char → Bool} {cs part : List Char} (h : part ∈ splitAt p cs) :
    ∀ c ∈ part, c ∈ cs ∧ p c = false := by
  induction cs generalizing part with
  | nil => simp_all [splitAt]
  | cons d cs ih =>
    have grow {part : List Char} (h : part ∈ splitAt p cs) :
        ∀ c ∈ part, c ∈ d :: cs ∧ p c = false :=
      fun c hc => ⟨List.mem_cons_of_mem _ (ih h c hc).1, (ih h c hc).2⟩
    unfold splitAt at h
    split at h
    · rcases List.mem_cons.mp h with rfl | h
      · simp
      · exact grow h
    · next other =>
      split at h
      · next first parts hs =>
        rcases List.mem_cons.mp h with rfl | h
        · intro c hc
          rcases List.mem_cons.mp hc with rfl | hc
          · exact ⟨List.mem_cons_self, Bool.eq_false_iff.mpr other⟩
          · exact grow (hs ▸ List.mem_cons_self) c hc
        · exact grow (hs ▸ List.mem_cons_of_mem _ h)
      · next hs => exact absurd hs (splitAt_ne_nil p cs)

end V2G.Url
