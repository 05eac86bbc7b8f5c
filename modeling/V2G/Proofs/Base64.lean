import V2G.Base64

/-!
# Base64 of bytes

What is written for bytes reads back as those bytes (`decode_encode`), and only ASCII text
reads as bytes.
-/

namespace V2G.Base64

theorem digit_ne_pad {n : Nat} (h : n < 64) : digit n ≠ '=' := by
  revert n; decide

section Steps

variable {n read pads : Nat} {rest : List Char}

theorem decodeFrom_closed (h : n < 64) :
    decodeFrom read .closed pads false (digit n :: rest) =
      decodeFrom read (.one n) 0 false rest := by
  simp [decodeFrom, digit_ne_pad h, value?_digit h]

theorem decodeFrom_one (h : n < 64) (b : Nat) :
    decodeFrom read (.one b) pads false (digit n :: rest) =
      (decodeFrom (read + 1) (.two (n % 16)) 0 false rest).map (.ofNat (b * 4 + n / 16) :: ·) := by
  simp [decodeFrom, digit_ne_pad h, value?_digit h]

theorem decodeFrom_two (h : n < 64) (b : Nat) :
    decodeFrom read (.two b) pads false (digit n :: rest) =
      (decodeFrom (read + 1) (.three (n % 4)) 0 false rest).map (.ofNat (b * 16 + n / 4) :: ·) := by
  simp [decodeFrom, digit_ne_pad h, value?_digit h]

theorem decodeFrom_three (h : n < 64) (b : Nat) :
    decodeFrom read (.three b) pads false (digit n :: rest) =
      (decodeFrom (read + 1) .closed 0 false rest).map (.ofNat (b * 64 + n) :: ·) := by
  simp [decodeFrom, digit_ne_pad h, value?_digit h]

end Steps

theorem ofNat_eq {a : UInt8} {n : Nat} (h : n = a.toNat) : UInt8.ofNat n = a := by
  rw [h, UInt8.ofNat_toNat]

theorem decodeFrom_encode (data : List UInt8) (read : Nat) :
    decodeFrom read .closed 0 false (encode data) = .ok data := by
  fun_induction encode data generalizing read with
  | case1 => rfl
  | case2 a =>
    have ha := a.toNat_lt
    rw [decodeFrom_closed (by omega), decodeFrom_one (by omega), ofNat_eq (a := a) (by omega)]
    rfl
  | case3 a b =>
    have ha := a.toNat_lt
    have hb := b.toNat_lt
    rw [decodeFrom_closed (by omega), decodeFrom_one (by omega), decodeFrom_two (by omega),
      ofNat_eq (a := a) (by omega), ofNat_eq (a := b) (by omega)]
    rfl
  | case4 a b c rest ih =>
    have ha := a.toNat_lt
    have hb := b.toNat_lt
    have hc := c.toNat_lt
    rw [decodeFrom_closed (by omega), decodeFrom_one (by omega), decodeFrom_two (by omega),
      decodeFrom_three (by omega), ih, ofNat_eq (a := a) (by omega), ofNat_eq (a := b) (by omega),
      ofNat_eq (a := c) (by omega)]
    rfl

theorem decode_encode (data : List UInt8) : decode (encode data) = .ok data := by
  have first : ∀ rest, encode data ≠ '=' :: rest := by
    intro rest h
    match data with
    | [] => cases h
    | [a] | [a, b] | a :: b :: c :: rest =>
      have ha := a.toNat_lt
      exact digit_ne_pad (n := a.toNat / 4) (by omega) (List.cons.inj h).1
  unfold decode
  split
  · exact absurd ‹_› (first _)
  · exact decodeFrom_encode data 0

/-! ### Texts that read as bytes -/

theorem toNat_lt_of_value? {c : Char} {v : Nat} (h : value? c = some v) : c.toNat < 0x80 := by
  have below (d : Char) (hd : d.toNat < 0x80) (hc : c ≤ d) : c.toNat < 0x80 :=
    Nat.lt_of_le_of_lt (UInt32.le_iff_toNat_le.mp hc) hd
  unfold value? at h
  split at h
  · next hc => exact below 'Z' (by decide) (by simpa using (Bool.and_eq_true_iff.mp hc).2)
  split at h
  · next hc => exact below 'z' (by decide) (by simpa using (Bool.and_eq_true_iff.mp hc).2)
  split at h
  · next hc => exact below '9' (by decide) (by simpa using (Bool.and_eq_true_iff.mp hc).2)
  split at h
  · next hc => subst hc; decide
  split at h
  · next hc => subst hc; decide
  · cases h

theorem ok_of_map {f : List UInt8 → List UInt8} {t : Except Fault (List UInt8)}
    {data : List UInt8} (h : t.map f = .ok data) : ∃ more, t = .ok more := by
  cases t with
  | error e => cases h
  | ok more => exact ⟨more, rfl⟩

theorem toNat_lt_of_decodeFrom {read pads : Nat} {group : Group} {filling : Bool} {cs : List Char}
    {data : List UInt8} (h : decodeFrom read group pads filling cs = .ok data) :
    ∀ c ∈ cs, c.toNat < 0x80 := by
  induction cs generalizing read group pads filling data with
  | nil => simp
  | cons c rest ih =>
    rw [List.forall_mem_cons]
    by_cases hc : c = '='
    · subst hc
      refine ⟨by decide, ?_⟩
      simp only [decodeFrom, ↓reduceIte] at h
      split at h
      · split at h
        · split at h
          · next hr => rw [List.isEmpty_iff.mp hr]; simp
          · cases h
        · exact ih h
      · exact ih h
    · simp only [decodeFrom, hc, ↓reduceIte] at h
      split at h
      · cases h
      · next v hv =>
        refine ⟨toNat_lt_of_value? hv, ?_⟩
        cases filling with
        | true => cases h
        | false =>
          simp only [Bool.false_eq_true, ↓reduceIte] at h
          cases group with
          | closed => exact ih h
          | one b | two b | three b =>
            obtain ⟨more, hm⟩ := ok_of_map h
            exact ih hm

theorem toNat_lt_of_decode {cs : List Char} {data : List UInt8} (h : decode cs = .ok data) :
    ∀ c ∈ cs, c.toNat < 0x80 := by
  unfold decode at h
  split at h
  · cases h
  · exact toNat_lt_of_decodeFrom h

end V2G.Base64
