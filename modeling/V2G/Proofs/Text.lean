import Mathlib.Algebra.Group.Nat.Defs
import V2G.Text.Encoding

/-!
# Digits and ASCII bytes

The digits that a number is written with, and the bytes that ASCII characters are encoded in. Each
of those is one byte, and decoding the bytes gives the characters back (`decode_ascii`).
-/

namespace V2G.Text

/-! ### Digits -/

theorem mem_toDigits {b n : Nat} (hb : 1 < b) {c : Char} (h : c ∈ Nat.toDigits b n) :
    ∃ d < b, c = d.digitChar := by
  induction n using Nat.strongRecOn with
  | _ n ih =>
    rw [Nat.toDigits_eq_if hb] at h
    split at h
    · next small => exact ⟨n, small, List.mem_singleton.mp h⟩
    · next large =>
      rcases List.mem_append.mp h with h | h
      · exact ih _ (Nat.div_lt_self (by omega) hb) h
      · exact ⟨n % b, Nat.mod_lt _ (by omega), List.mem_singleton.mp h⟩

/-- Only the number zero is written with a zero in front. -/
theorem head_toDigits {n : Nat} (h : 0 < n) :
    ∃ c cs, Nat.toDigits 10 n = c :: cs ∧ c ≠ '0' := by
  have nonzero : ∀ d < 10, 0 < d → Nat.digitChar d ≠ '0' := by decide
  induction n using Nat.strongRecOn with
  | _ n ih =>
    rw [Nat.toDigits_eq_if (by decide)]
    split
    · next small => exact ⟨_, _, rfl, nonzero n small h⟩
    · next large =>
      obtain ⟨c, cs, front, other⟩ := ih (n / 10) (by omega) (by omega)
      exact ⟨c, cs ++ [(n % 10).digitChar], by rw [front]; rfl, other⟩

/-! ### Bytes of ASCII characters -/

theorem toNat_toUInt8 {c : Char} (h : c.toNat < 0x80) : c.toUInt8.toNat = c.toNat := by
  rw [Char.toUInt8, UInt32.toNat_toUInt8]
  exact Nat.mod_eq_of_lt (by show c.toNat < 256; omega)

theorem toList_loop (bytes : ByteArray) (i : Nat) (before : List UInt8) :
    ByteArray.toList.loop bytes i before = before.reverse ++ bytes.data.toList.drop i := by
  induction h : bytes.size - i generalizing i before with
  | zero =>
    rw [ByteArray.toList.loop, if_neg (by omega), List.drop_eq_nil_of_le, List.append_nil]
    simp only [Array.length_toList]
    have : bytes.data.size = bytes.size := rfl
    omega
  | succ n ih =>
    have bound : i < bytes.data.toList.length := by
      simp only [Array.length_toList]
      have : bytes.data.size = bytes.size := rfl
      omega
    rw [ByteArray.toList.loop, if_pos (by omega), ih _ _ (by omega), List.reverse_cons,
      List.append_assoc, List.drop_eq_getElem_cons bound, Array.getElem_toList, ByteArray.get!,
      getElem!_pos bytes.data i (Array.length_toList ▸ bound)]
    rfl

theorem toList_toByteArray (bytes : List UInt8) : bytes.toByteArray.toList = bytes := by
  rw [ByteArray.toList, toList_loop]
  simp [List.data_toByteArray]

theorem utf8EncodeChar_ascii {c : Char} (h : c.toNat < 0x80) :
    String.utf8EncodeChar c = [c.toUInt8] := by
  have small : c.utf8Size = 1 := by
    rw [Char.utf8Size_eq_one_iff, UInt32.le_iff_toNat_le]
    exact Nat.le_of_lt_succ h
  rw [String.utf8EncodeChar_eq_singleton small]
  rfl

/-- ASCII characters are encoded in one byte each. -/
theorem utf8Bytes_ascii {cs : List Char} (h : ∀ c ∈ cs, c.toNat < 0x80) :
    utf8Bytes (String.ofList cs) = cs.map Char.toUInt8 := by
  rw [utf8Bytes, String.toUTF8, String.toByteArray_ofList, List.utf8Encode, toList_toByteArray]
  induction cs with
  | nil => rfl
  | cons c cs ih =>
    rw [List.flatMap_cons, utf8EncodeChar_ascii (h c List.mem_cons_self),
      ih fun d hd => h d (List.mem_cons_of_mem _ hd)]
    rfl

theorem ofUtf8_ascii {cs : List Char} (h : ∀ c ∈ cs, c.toNat < 0x80) (pos : Nat) :
    ofUtf8 pos (cs.map Char.toUInt8) = .ok cs := by
  induction cs generalizing pos with
  | nil => rw [List.map_nil, ofUtf8]
  | cons c cs ih =>
    have small := h c List.mem_cons_self
    have byte : c.toUInt8.toNat = c.toNat := toNat_toUInt8 small
    have below : c.toUInt8 < 0x80 := by
      rw [UInt8.lt_iff_toNat_lt, byte]
      exact small
    rw [List.map_cons, ofUtf8.eq_def]
    dsimp only
    rw [if_pos below, ih (fun d hd => h d (List.mem_cons_of_mem _ hd)), byte, Char.ofNat_toNat]
    rfl

/-- Bytes without zeros that begin with an ASCII character are taken for UTF-8. -/
theorem ofZeros_ascii {a : UInt8} {bytes : List UInt8} (zero : a ≠ 0) (rest : ∀ b ∈ bytes, b ≠ 0) :
    ofZeros (a :: bytes) = .utf8 := by
  match bytes, rest with
  | [], _ => rfl
  | [b], rest => rw [ofZeros, if_neg zero, if_neg (rest b List.mem_cons_self)]
  | [_, _], _ => rfl
  | b :: _ :: _ :: _, rest => rw [ofZeros, if_neg zero, if_neg (rest b List.mem_cons_self)]

/-- No mark begins as a text of ASCII does. -/
theorem marks_head : ∀ m ∈ marks, ∀ c ∈ m.1.head?, ¬ (0 < c ∧ c < 0x80) := by
  decide +kernel

theorem detect_ascii {a : UInt8} {bytes : List UInt8} (first : 0 < a ∧ a < 0x80)
    (rest : ∀ b ∈ bytes, b ≠ 0) : detect (a :: bytes) = (.utf8, 0) := by
  have unmarked : marks.find? (fun m => m.1.isPrefixOf (a :: bytes)) = none := by
    rw [List.find?_eq_none]
    intro m hm begins
    have full : m.1 ≠ [] := (by decide : ∀ m ∈ marks, m.1 ≠ []) m hm
    obtain ⟨c, cs, mark⟩ := List.exists_cons_of_ne_nil full
    rw [mark, List.isPrefixOf_cons_cons, Bool.and_eq_true, beq_iff_eq] at begins
    exact marks_head m hm c (by rw [mark]; rfl) (begins.1 ▸ first)
  rw [detect, unmarked, ofZeros_ascii (UInt8.ne_of_lt first.1).symm rest]

theorem decode_ascii {c : Char} {cs : List Char} (h : ∀ d ∈ c :: cs, 0 < d.toNat ∧ d.toNat < 0x80) :
    decode ((c :: cs).map Char.toUInt8) = .ok (c :: cs) := by
  have nonzero : ∀ d ∈ c :: cs, 0 < d.toUInt8 ∧ d.toUInt8 < 0x80 := by
    intro d hd
    obtain ⟨positive, small⟩ := h d hd
    rw [UInt8.lt_iff_toNat_lt, UInt8.lt_iff_toNat_lt, toNat_toUInt8 small]
    exact ⟨positive, small⟩
  have detected : detect ((c :: cs).map Char.toUInt8) = (.utf8, 0) := by
    refine detect_ascii (nonzero c List.mem_cons_self) fun b hb => ?_
    obtain ⟨d, hd, rfl⟩ := List.mem_map.mp hb
    exact (UInt8.ne_of_lt (nonzero d (List.mem_cons_of_mem _ hd)).1).symm
  rw [decode, detected]
  exact ofUtf8_ascii (fun d hd => (h d hd).2) 0

end V2G.Text
