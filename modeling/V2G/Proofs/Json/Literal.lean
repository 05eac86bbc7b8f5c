import Mathlib.Data.List.Induction
import V2G.Json.Token
import V2G.Json.Writer
import V2G.Proofs.Text

/-!
# Literals read back

What is written of a text, an integer or a word is cut from whatever follows as the one token it
was. A text may be followed by anything; the digits of an integer end where a value ends
(`Stops`).
-/

namespace V2G.Json

/-- The characters are a token, wherever they stand, if the rest comes after them. -/
def Cuts (cs rest : List Char) (t : Token) : Prop :=
  ∃ c more, cs = c :: more ∧ isSpace c = false ∧
    ∀ pos, ∃ after, next pos c (more ++ rest) = (t, after, rest)

/-- No value goes on with the first of these characters. -/
def Stops (rest : List Char) : Prop := ∀ c ∈ rest.head?, c = ',' ∨ c = ']' ∨ c = '}'

theorem Stops.cons {c : Char} {rest : List Char} (h : c = ',' ∨ c = ']' ∨ c = '}') :
    Stops (c :: rest) := by
  rintro _ ⟨⟩
  exact h

/-! ### Code units -/

theorem hexValue?_append (cs : List Char) {d : Nat} (h : d < 16) :
    hexValue? (cs ++ [d.digitChar]) = (hexValue? cs).map (· * 16 + d) := by
  have digit : ∀ d < 16, ('0' ≤ d.digitChar ∧ d.digitChar ≤ '9' ∧ d.digitChar.toNat - 48 = d) ∨
      (¬ d.digitChar ≤ '9' ∧ 'a' ≤ d.digitChar ∧ d.digitChar ≤ 'f' ∧
        d.digitChar.toNat - 87 = d) := by
    decide
  rw [hexValue?, List.foldl_append, ← hexValue?]
  cases hexValue? cs with
  | none => rfl
  | some n =>
    rcases digit d h with ⟨low, high, value⟩ | ⟨letter, low, high, value⟩
    · simp [low, high, value]
    · simp [letter, low, high, value]

theorem hexValue?_toDigits (n : Nat) : hexValue? (Nat.toDigits 16 n) = some n := by
  induction n using Nat.strongRecOn with
  | _ n ih =>
    rw [Nat.toDigits_eq_if (by decide)]
    split
    · next small =>
      rw [← List.nil_append [_], hexValue?_append [] small]
      simp [hexValue?]
    · next large =>
      rw [hexValue?_append _ (Nat.mod_lt n (by decide)), ih (n / 16) (by omega), Option.map_some]
      exact congrArg some (by omega)

theorem hexValue?_zeros (k : Nat) (cs : List Char) :
    hexValue? (List.replicate k '0' ++ cs) = hexValue? cs := by
  induction k with
  | zero => rfl
  | succ k ih => exact ih

/-- A code unit is written in four digits. -/
theorem hex_unit {n : Nat} (h : n < 0x10000) :
    ∃ a b c d, Text.hex 4 n = [a, b, c, d] ∧ hexValue? [a, b, c, d] = some n := by
  have short : (Nat.toDigits 16 n).length ≤ 4 :=
    (Nat.length_toDigits_le_iff (by decide) (by decide)).mpr h
  have four : (Text.hex 4 n).length = 4 := by
    simp only [Text.hex, List.length_append, List.length_replicate]
    omega
  have value : hexValue? (Text.hex 4 n) = some n := by
    rw [Text.hex, hexValue?_zeros, hexValue?_toDigits]
  match h : Text.hex 4 n, four, value with
  | [a, b, c, d], _, value => exact ⟨a, b, c, d, rfl, value⟩

/-! ### Texts -/

section Text

variable {a b c d e f g h : Char} {tail : List Char}

/-- A code unit that is no half of a pair stands for its character, also before another unit. -/
theorem cutText_unit {n : Nat} (value : hexValue? [a, b, c, d] = some n)
    (whole : isHighUnit n = false) (full : tail ≠ []) (start pos : Nat) :
    cutText start pos ('\\' :: 'u' :: a :: b :: c :: d :: tail) =
      (cutText start (pos + 6) tail).map (ofUnit n :: ·) := by
  obtain ⟨x, tail, rfl⟩ := List.exists_cons_of_ne_nil full
  by_cases unit : ∃ e f g h y more, x :: tail = '\\' :: 'u' :: e :: f :: g :: h :: y :: more
  · obtain ⟨e, f, g, h, y, more, same⟩ := unit
    simp only [same, cutText, value, whole, Bool.false_eq_true, ↓reduceIte]
  · rw [cutText]
    · simp only [value]
    · rintro e f g h y more rfl rfl
      exact unit ⟨e, f, g, h, y, more, rfl⟩

theorem cutText_pair {high low : Nat} (first : hexValue? [a, b, c, d] = some high)
    (second : hexValue? [e, f, g, h] = some low) (isHigh : isHighUnit high = true)
    (isLow : isLowUnit low = true) (full : tail ≠ []) (start pos : Nat) :
    cutText start pos
        ('\\' :: 'u' :: a :: b :: c :: d :: '\\' :: 'u' :: e :: f :: g :: h :: tail) =
      (cutText start (pos + 12) tail).map (ofPair high low :: ·) := by
  obtain ⟨x, tail, rfl⟩ := List.exists_cons_of_ne_nil full
  rw [cutText.eq_def]
  simp [first, second, isHigh, isLow]

theorem cutText_escape (letter : escaped? c = some e) (start pos : Nat) :
    cutText start pos ('\\' :: c :: tail) = (cutText start (pos + 2) tail).map (e :: ·) := by
  have other : c ≠ 'u' := by
    rintro rfl
    cases letter
  rw [cutText.eq_def]
  simp [other, letter]

theorem cutText_plain (quote : c ≠ '"') (backslash : c ≠ '\\') (visible : 0x20 ≤ c.toNat)
    (start pos : Nat) :
    cutText start pos (c :: tail) = (cutText start (pos + 1) tail).map (c :: ·) := by
  rw [cutText.eq_def]
  split
  case h_8 c' rest _ _ _ _ _ _ same =>
    obtain ⟨rfl, rfl⟩ := List.cons.inj same
    exact if_neg (Nat.not_lt.mpr visible)
  all_goals simp_all

/-- The characters that a character is written with are read as that character. -/
theorem cutText_writeChar (c : Char) (full : tail ≠ []) (start pos : Nat) :
    ∃ after, cutText start pos (writeChar c ++ tail) =
      (cutText start after tail).map (c :: ·) := by
  unfold writeChar
  split
  · next special =>
    rw [Bool.or_eq_true, decide_eq_true_eq, decide_eq_true_eq] at special
    refine ⟨pos + 2, cutText_escape ?_ start pos⟩
    rcases special with rfl | rfl <;> rfl
  next ordinary =>
  rw [Bool.or_eq_true, decide_eq_true_eq, decide_eq_true_eq, not_or] at ordinary
  split
  · next same => exact ⟨pos + 2, same ▸ cutText_escape rfl start pos⟩
  split
  · next same => exact ⟨pos + 2, same ▸ cutText_escape rfl start pos⟩
  split
  · next same => exact ⟨pos + 2, same ▸ cutText_escape rfl start pos⟩
  split
  · next same => exact ⟨pos + 2, same ▸ cutText_escape rfl start pos⟩
  split
  · next same => exact ⟨pos + 2, same ▸ cutText_escape rfl start pos⟩
  split
  · next visible =>
    rw [Bool.and_eq_true, decide_eq_true_eq] at visible
    exact ⟨pos + 1, cutText_plain ordinary.1 ordinary.2 visible.1 start pos⟩
  have valid : c.toNat.isValidChar := c.valid
  split
  · next narrow =>
    obtain ⟨a, b, c', d, digits, value⟩ := hex_unit narrow
    have whole : isHighUnit c.toNat = false ∧ isLowUnit c.toNat = false := by
      simp only [isHighUnit, isLowUnit, Bool.and_eq_false_iff, decide_eq_false_iff_not]
      rcases valid with below | ⟨above, -⟩ <;> omega
    have character : ofUnit c.toNat = c := by simp [ofUnit, whole]
    rw [digits]
    exact ⟨pos + 6, character ▸ cutText_unit value whole.1 full start pos⟩
  · next wide =>
    have bound : c.toNat - 0x10000 < 0x100000 := by
      rcases valid with below | ⟨-, above⟩ <;> omega
    dsimp only
    generalize hn : c.toNat - 0x10000 = n at bound
    obtain ⟨a, b, c', d, digits, first⟩ := hex_unit (n := 0xd800 + n / 0x400) (by omega)
    obtain ⟨e, f, g, h, digits', second⟩ := hex_unit (n := 0xdc00 + n % 0x400) (by omega)
    have isHigh : isHighUnit (0xd800 + n / 0x400) = true := by
      simp only [isHighUnit, Bool.and_eq_true, decide_eq_true_eq]
      omega
    have isLow : isLowUnit (0xdc00 + n % 0x400) = true := by
      simp only [isLowUnit, Bool.and_eq_true, decide_eq_true_eq]
      omega
    have character : ofPair (0xd800 + n / 0x400) (0xdc00 + n % 0x400) = c := by
      have code : 0x10000 + (0xd800 + n / 0x400 - 0xd800) * 0x400 +
          (0xdc00 + n % 0x400 - 0xdc00) = c.toNat := by omega
      rw [ofPair, code, Char.ofNat_toNat]
    rw [digits, digits']
    exact ⟨pos + 12, character ▸ cutText_pair first second isHigh isLow full start pos⟩

theorem cutText_write (cs rest : List Char) (start pos : Nat) :
    ∃ after, cutText start pos (cs.flatMap writeChar ++ '"' :: rest) = .done cs after rest := by
  induction cs generalizing pos with
  | nil => exact ⟨pos + 1, by rw [List.flatMap_nil, List.nil_append, cutText]⟩
  | cons c cs ih =>
    rw [List.flatMap_cons, List.append_assoc]
    have full : cs.flatMap writeChar ++ '"' :: rest ≠ [] := by simp
    obtain ⟨next, first⟩ := cutText_writeChar c full start pos
    obtain ⟨after, more⟩ := ih next
    exact ⟨after, by rw [first, more, Cut.map]⟩

end Text

theorem cuts_text (s : String) (rest : List Char) : Cuts (writeText s) rest (.text s) := by
  refine ⟨'"', _, rfl, rfl, fun pos => ?_⟩
  obtain ⟨after, cut⟩ := cutText_write s.toList rest pos (pos + 1)
  refine ⟨after, ?_⟩
  rw [List.append_assoc, List.singleton_append]
  simp only [next, cut, String.ofList_toList]

/-! ### Integers -/

theorem isDigit_toDigits {n : Nat} {c : Char} (h : c ∈ Nat.toDigits 10 n) : isDigit c = true := by
  have digit : ∀ d < 10, isDigit (Nat.digitChar d) = true := by decide
  obtain ⟨d, hd, rfl⟩ := Text.mem_toDigits (by decide) h
  exact digit d hd

theorem digitsValue_toDigits (n : Nat) : digitsValue (Nat.toDigits 10 n) = n := by
  have digit : ∀ d < 10, (Nat.digitChar d).toNat - 48 = d := by decide
  induction n using Nat.strongRecOn with
  | _ n ih =>
    rw [Nat.toDigits_eq_if (by decide)]
    split
    · next small => simp [digitsValue, digit n small]
    · next large =>
      have front := ih (n / 10) (by omega)
      have last := digit (n % 10) (Nat.mod_lt n (by decide))
      rw [digitsValue] at front ⊢
      rw [List.foldl_append, front, List.foldl_cons, List.foldl_nil, last]
      omega

theorem cutWhole_toDigits (n : Nat) {rest : List Char} (stops : Stops rest) :
    cutWhole (Nat.toDigits 10 n ++ rest) = (Nat.toDigits 10 n, rest) := by
  have after : rest.takeWhile isDigit = [] ∧ rest.dropWhile isDigit = rest := by
    cases rest with
    | nil => exact ⟨rfl, rfl⟩
    | cons c rest =>
      have other : isDigit c = false := by
        rcases stops c rfl with rfl | rfl | rfl <;> rfl
      simp [other]
  rcases Nat.eq_zero_or_pos n with rfl | positive
  · rfl
  · obtain ⟨c, cs, front, nonzero⟩ := Text.head_toDigits positive
    have digits : ∀ d ∈ c :: cs, isDigit d = true := fun d hd => isDigit_toDigits (front ▸ hd)
    rw [front, cutWhole.eq_def]
    split
    · next e => exact absurd (List.cons.inj e).1 nonzero
    · rw [List.takeWhile_append_of_pos digits, List.dropWhile_append_of_pos digits, after.1,
        after.2, List.append_nil]

/-- Digits are read as the number they were written for. -/
theorem cutNumber?_toDigits (negative : Bool) (n : Nat) {rest : List Char} (stops : Stops rest) :
    cutNumber? negative (Nat.toDigits 10 n ++ rest) =
      some (.integer (Nat.toDigits 10 n).length (if negative then -n else n),
        (Nat.toDigits 10 n).length, rest) := by
  have full : (Nat.toDigits 10 n).isEmpty = false := by
    rw [List.isEmpty_eq_false_iff]
    exact Nat.toDigits_ne_nil
  have fraction : cutFraction rest = ([], rest) := by
    unfold cutFraction
    split
    · rcases stops '.' rfl with e | e | e <;> cases e
    · rfl
  have exponent : cutExponent rest = ([], rest) := by
    unfold cutExponent
    split
    · next e rest =>
      rcases stops e rfl with rfl | rfl | rfl <;> rfl
    · rfl
  simp [cutNumber?, cutWhole_toDigits n stops, full, fraction, exponent, numberValue,
    digitsValue_toDigits]

/-- What begins neither a text nor a word and is no punctuation begins a number. -/
theorem next_number {c : Char} {rest : List Char}
    (other : c ∉ ['{', '}', '[', ']', ':', ',', '"']) (word : word? (c :: rest) = none) (pos : Nat) :
    next pos c rest =
      match (if c = '-' then (cutNumber? true rest).map fun (t, n, r) => (t, n + 1, r)
        else cutNumber? false (c :: rest)) with
      | some (t, n, r) => (t, pos + n, r)
      | none => (.stray, pos + 1, rest) := by
  simp only [List.mem_cons, List.not_mem_nil, or_false, not_or] at other
  unfold next
  split
  case h_8 =>
    generalize word? (c :: rest) = found at word
    subst word
    rfl
  all_goals simp at other

/-- An integer is a token of its own: no word begins with a digit, also after a minus sign. -/
theorem cuts_int (n : Int) {rest : List Char} (stops : Stops rest) :
    Cuts (writeInt n) rest (.integer (Nat.toDigits 10 n.natAbs).length n) := by
  have digit : ∀ d < 10, isSpace (Nat.digitChar d) = false ∧
      Nat.digitChar d ∉ ['{', '}', '[', ']', ':', ',', '"'] ∧ '-' ≠ Nat.digitChar d ∧
      'n' ≠ Nat.digitChar d ∧ 't' ≠ Nat.digitChar d ∧ 'f' ≠ Nat.digitChar d ∧
      'N' ≠ Nat.digitChar d ∧ 'I' ≠ Nat.digitChar d := by
    decide
  obtain ⟨c, cs, front⟩ := List.exists_cons_of_ne_nil (Nat.toDigits_ne_nil (b := 10) (n := n.natAbs))
  obtain ⟨d, hd, rfl⟩ := Text.mem_toDigits (by decide) (front ▸ List.mem_cons_self : c ∈ _)
  obtain ⟨space, other, minus, null, true', false', nan, infinity⟩ := digit d hd
  have number (negative : Bool) := cutNumber?_toDigits negative n.natAbs stops
  rw [front, List.cons_append] at number
  unfold writeInt
  split
  · next below =>
    refine ⟨'-', _, rfl, rfl, fun pos => ?_⟩
    have word : word? ('-' :: d.digitChar :: (cs ++ rest)) = none := by
      simp [word?, words, infinity]
    have value : (if true then -(n.natAbs : Int) else n.natAbs) = n := by
      rw [if_pos rfl]
      omega
    rw [front, List.cons_append, next_number (by decide) word, number true, value]
    exact ⟨_, rfl⟩
  · next above =>
    refine ⟨_, cs, front, space, fun pos => ?_⟩
    have word : word? (d.digitChar :: (cs ++ rest)) = none := by
      simp [word?, words, minus, null, true', false', nan, infinity]
    have value : (if false then -(n.natAbs : Int) else n.natAbs) = n := by
      rw [if_neg Bool.false_ne_true]
      omega
    rw [next_number other word, if_neg minus.symm, number false, front, value]
    exact ⟨_, rfl⟩

/-! ### Words and punctuation -/

theorem cuts_word {cs : List Char} {v : Json} (rest : List Char)
    (h : (cs, v) ∈ [("null".toList, Json.null), ("true".toList, .bool true),
      ("false".toList, .bool false)]) : Cuts cs rest (.scalar v) := by
  simp only [List.mem_cons, Prod.mk.injEq, List.not_mem_nil, or_false] at h
  rcases h with ⟨rfl, rfl⟩ | ⟨rfl, rfl⟩ | ⟨rfl, rfl⟩ <;>
    exact ⟨_, _, rfl, rfl, fun pos => ⟨_, rfl⟩⟩

end V2G.Json
