import V2G.Proofs.Url.Escape

/-!
# Hosts read back

The text of a host that was read is a text of the same host: a domain is in lower case already,
and addresses are written with each part in the one form that stands for it. Main statement:
`read_text`.
-/

namespace V2G.Url.Host

/-! ### Addresses of 32 bits -/

/-- A part of an address as it is written. -/
def ipv4Byte (address i : Nat) : List Char := Nat.toDigits 10 (address / Nat.pow 256 i % 256)

theorem ipv4Text_eq (address : Nat) : ipv4Text address = ipv4Byte address 3 ++
    [ipv4Byte address 2, ipv4Byte address 1, ipv4Byte address 0].flatMap ('.' :: ·) := by
  simp [ipv4Text, ipv4Byte]

/-- A decimal digit stands for nothing else in a host. -/
theorem digit_facts {n : Nat} {c : Char} (h : c ∈ Nat.toDigits 10 n) :
    c ≠ '.' ∧ c ≠ 'x' ∧ (digitsValue? 10 [c]).isSome = true ∧ isForbidden c = false ∧
      c.toLower = c := by
  have facts : ∀ d < 10, Nat.digitChar d ≠ '.' ∧ Nat.digitChar d ≠ 'x' ∧
      (digitsValue? 10 [Nat.digitChar d]).isSome = true ∧
      isForbidden (Nat.digitChar d) = false ∧ (Nat.digitChar d).toLower = Nat.digitChar d := by
    decide
  obtain ⟨d, hd, rfl⟩ := Text.mem_toDigits (by decide) h
  exact facts d hd

/-- Decimal digits are not taken for octal or hexadecimal ones. -/
theorem ipv4Part?_toDigits (n : Nat) : ipv4Part? (Nat.toDigits 10 n) = some n := by
  rcases Nat.eq_zero_or_pos n with rfl | positive
  · rfl
  · have value := digitsValue?_toDigits (by decide) (by decide) n (b := 10)
    obtain ⟨c, cs, front, other⟩ := Text.head_toDigits positive
    rw [front] at value ⊢
    unfold ipv4Part?
    split
    · next e => cases e
    · next e => exact absurd (List.cons.inj e).1 other
    · next e => exact absurd (List.cons.inj e).1 other
    · next e => exact absurd (List.cons.inj e).1 other
    · exact value

theorem isHonest_toDigits (n : Nat) : isHonest (Nat.toDigits 10 n) = true := by
  unfold isHonest
  split
  · next e => exact absurd rfl (digit_facts (e ▸ List.mem_cons_self)).2.1
  · rfl

theorem byte_lt (address i : Nat) : address / Nat.pow 256 i % 256 < 256 := Nat.mod_lt _ (by decide)

theorem ipv4?_bytes {address : Nat} (h : address < 2 ^ 32) :
    ipv4? [ipv4Byte address 3, ipv4Byte address 2, ipv4Byte address 1, ipv4Byte address 0] =
      some address := by
  have part (i : Nat) := ipv4Part?_toDigits (address / Nat.pow 256 i % 256)
  have full : ipv4Byte address 0 ≠ [] := Nat.toDigits_ne_nil
  have small (i : Nat) := byte_lt address i
  simp only [ipv4?, ipv4Byte, List.getLast?_cons_cons, List.getLast?_singleton] at full ⊢
  simp only [Option.some.injEq, full, ↓reduceIte, List.mapM_cons, List.mapM_nil, part,
    Option.pure_def, Option.bind_eq_bind, Option.bind_some, List.dropLast_cons_cons,
    List.dropLast_singleton, List.getLast?_cons_cons, List.getLast?_singleton]
  have h0 := small 0
  have h1 := small 1
  have h2 := small 2
  have h3 := small 3
  rw [if_neg]
  · simp only [List.foldl_cons, List.foldl_nil, List.length_cons, List.length_nil, Nat.pow_eq,
      Option.some.injEq] at *
    omega
  · simp only [List.length_cons, List.length_nil, List.any_cons, List.any_nil, Nat.pow_eq,
      Bool.or_eq_true, decide_eq_true_eq, Bool.or_false] at *
    omega

theorem foldl_bytes_lt {parts : List Nat} (h : ∀ part ∈ parts, part < 256) (n : Nat) :
    parts.foldl (fun n part => 256 * n + part) n < (n + 1) * 256 ^ parts.length := by
  induction parts generalizing n with
  | nil => simp
  | cons part parts ih =>
    have first := h part List.mem_cons_self
    have rest := ih (fun p hp => h p (List.mem_cons_of_mem _ hp)) (256 * n + part)
    rw [List.foldl_cons, List.length_cons, Nat.pow_succ']
    calc _ < (256 * n + part + 1) * 256 ^ parts.length := rest
      _ ≤ (256 * (n + 1)) * 256 ^ parts.length := Nat.mul_le_mul_right _ (by omega)
      _ = (n + 1) * (256 * 256 ^ parts.length) := by
        rw [Nat.mul_comm 256, Nat.mul_assoc]

theorem ipv4?_lt {labels : List (List Char)} {address : Nat} (h : ipv4? labels = some address) :
    address < 2 ^ 32 := by
  simp only [ipv4?, Option.bind_eq_bind, Option.bind_eq_some_iff] at h
  obtain ⟨parts, -, last, hlast, h⟩ := h
  split at h
  · cases h
  · next ok =>
    simp only [Bool.or_eq_true, decide_eq_true_eq, not_or, Nat.not_lt, Nat.not_le,
      Nat.pow_eq, List.any_eq_true, not_exists, not_and] at ok
    obtain ⟨⟨count, fits⟩, small⟩ := ok
    have before := foldl_bytes_lt (fun part hp => small part hp) 0
    have length : parts.dropLast.length ≤ 4 := by
      rw [List.length_dropLast]
      omega
    cases h
    simp only [Nat.zero_add, Nat.one_mul] at before
    calc _ < _ * 256 ^ (4 - parts.dropLast.length) + 256 ^ (4 - parts.dropLast.length) :=
          Nat.add_lt_add_left fits _
      _ = (_ + 1) * 256 ^ (4 - parts.dropLast.length) := (Nat.succ_mul _ _).symm
      _ ≤ 256 ^ parts.dropLast.length * 256 ^ (4 - parts.dropLast.length) :=
          Nat.mul_le_mul_right _ before
      _ = 256 ^ 4 := by rw [← Nat.pow_add, Nat.add_sub_cancel' length]
      _ = 2 ^ 32 := rfl

/-! ### Addresses of 128 bits -/

/-- A piece of an address as it is written. -/
abbrev hex (piece : Nat) : List Char := Nat.toDigits 16 piece

/-- A digit of a piece stands for nothing else in a host. -/
theorem hex_facts {piece : Nat} {c : Char} (h : c ∈ hex piece) :
    c ≠ ':' ∧ c ≠ '.' ∧ c ≠ ']' ∧ (c == ':') = false ∧ isForbidden c = false := by
  have facts : ∀ d < 16, Nat.digitChar d ≠ ':' ∧ Nat.digitChar d ≠ '.' ∧ Nat.digitChar d ≠ ']' ∧
      (Nat.digitChar d == ':') = false ∧ isForbidden (Nat.digitChar d) = false := by
    decide
  obtain ⟨d, hd, rfl⟩ := Text.mem_toDigits (by decide) h
  exact facts d hd

theorem piecesText_cons (p : Nat) (ps : List Nat) :
    piecesText (p :: ps) = hex p ++ ps.flatMap (':' :: hex ·) := by
  induction ps generalizing p with
  | nil => simp [piecesText]
  | cons q ps ih =>
    have rest := ih q
    simp only [piecesText, List.map_cons, List.intercalate_cons_cons] at rest ⊢
    rw [rest]
    simp

theorem pieces?_hex {tail : Bool} {ps : List Nat} (h : ∀ p ∈ ps, p < 65536) :
    pieces? tail (ps.map hex) = some ps := by
  have piece {p : Nat} (hp : p < 65536) : (hex p).isEmpty = false ∧ ¬ 4 < (hex p).length ∧
      digitsValue? 16 (hex p) = some p := by
    refine ⟨by simp, ?_, digitsValue?_toDigits (by decide) (by decide) p⟩
    exact Nat.not_lt.mpr ((Nat.length_toDigits_le_iff (by decide) (by decide)).mpr (by omega))
  induction ps with
  | nil => rfl
  | cons p ps ih =>
    obtain ⟨full, short, value⟩ := piece (h p List.mem_cons_self)
    cases ps with
    | nil =>
      have dotless : '.' ∉ hex p := fun dot => (hex_facts dot).2.1 rfl
      simp [pieces?, full, short, value, dotless]
    | cons q ps =>
      have rest := ih fun p hp => h p (List.mem_cons_of_mem _ hp)
      simp only [List.map_cons] at rest ⊢
      simp [pieces?, full, short, value, rest]

theorem piecesOf?_text {tail : Bool} {ps : List Nat} (h : ∀ p ∈ ps, p < 65536) :
    piecesOf? tail (piecesText ps) = some ps := by
  cases ps with
  | nil => rfl
  | cons p ps =>
    have full : (piecesText (p :: ps)).isEmpty = false := by simp [piecesText_cons]
    have parts : splitAt (· == ':') (piecesText (p :: ps)) = (p :: ps).map hex := by
      rw [piecesText_cons, List.map_cons, ← List.flatMap_map hex (':' :: ·)]
      refine splitAt_flatMap rfl fun cs hcs c hc => ?_
      obtain ⟨q, -, rfl⟩ := List.mem_map.mp (List.map_cons ▸ hcs : cs ∈ (p :: ps).map hex)
      exact (hex_facts hc).2.2.2.1
    rw [piecesOf?, full, parts, pieces?_hex h]
    rfl

theorem atDoubleColon_append {cs : List Char} (h : ∀ c ∈ cs, c ≠ ':') (rest : List Char) :
    atDoubleColon (cs ++ rest) = (atDoubleColon rest).map fun (l, r) => (cs ++ l, r) := by
  induction cs with
  | nil => simp
  | cons c cs ih =>
    have tail := ih fun d hd => h d (List.mem_cons_of_mem _ hd)
    rw [List.cons_append, atDoubleColon, tail, Option.map_map]
    · rfl
    · rintro _ rfl
      exact fun _ => h ':' List.mem_cons_self rfl

theorem atDoubleColon_colon {c : Char} (h : c ≠ ':') (rest : List Char) :
    atDoubleColon (':' :: c :: rest) =
      (atDoubleColon (c :: rest)).map fun (l, r) => (':' :: l, r) := by
  rw [atDoubleColon]
  rintro _ - e
  exact h (List.cons.inj e).1

/-- There is no double colon in pieces. -/
theorem atDoubleColon_pieces (p : Nat) (ps : List Nat) (rest : List Char) :
    atDoubleColon (piecesText (p :: ps) ++ rest) =
      (atDoubleColon rest).map fun (l, r) => (piecesText (p :: ps) ++ l, r) := by
  have colonless {p : Nat} : ∀ c ∈ hex p, c ≠ ':' := fun c hc => (hex_facts hc).1
  induction ps generalizing p with
  | nil =>
    simp only [piecesText_cons, List.flatMap_nil, List.append_nil]
    exact atDoubleColon_append colonless rest
  | cons q ps ih =>
    have tail := ih q
    have first : atDoubleColon (':' :: piecesText (q :: ps) ++ rest) =
        (atDoubleColon (piecesText (q :: ps) ++ rest)).map fun (l, r) => (':' :: l, r) := by
      rw [piecesText_cons]
      cases hq : hex q with
      | nil => exact absurd hq Nat.toDigits_ne_nil
      | cons c cs => exact atDoubleColon_colon (colonless c (hq ▸ List.mem_cons_self)) _
    have text : piecesText (p :: q :: ps) = hex p ++ ':' :: piecesText (q :: ps) := by
      simp [piecesText_cons]
    rw [text, List.append_assoc, atDoubleColon_append colonless, first, tail, Option.map_map,
      Option.map_map]
    congr 1
    funext lr
    simp

theorem zeros_append (ps : List Nat) :
    List.replicate (zeros ps) 0 ++ ps.drop (zeros ps) = ps := by
  induction ps with
  | nil => rfl
  | cons p ps ih =>
    cases p with
    | zero =>
      have count : zeros (0 :: ps) = zeros ps + 1 := by simp [zeros]
      rw [count, List.replicate_succ, List.cons_append, List.drop_succ_cons, ih]
    | succ p => simp [zeros]

/-- What is found is a run of zeros. -/
theorem longestZeros_run (ps : List Nat) :
    (longestZeros ps).2 = 0 ∨ (longestZeros ps).2 = zeros (ps.drop (longestZeros ps).1) := by
  unfold longestZeros
  generalize hb : ((0, 0) : Nat × Nat) = best
  have h : best.2 = 0 ∨ best.2 = zeros (ps.drop best.1) := .inl (hb ▸ rfl)
  clear hb
  -- What holds of the best run so far is kept by each step of the fold.
  induction List.range ps.length generalizing best with
  | nil => exact h
  | cons i is ih =>
    refine ih _ ?_
    simp only
    split
    · exact .inr rfl
    · exact h

theorem ipv6?_pieces {ps : List Nat} (count : ps.length = 8) (h : ∀ p ∈ ps, p < 65536) :
    ∃ text, ipv6Text ps = '[' :: text ++ [']'] ∧ ipv6? text = some ps ∧
      ∀ c ∈ text, c = ':' ∨ c ≠ ']' ∧ isForbidden c = false := by
  have chars (qs : List Nat) : ∀ c ∈ piecesText qs, c = ':' ∨ c ≠ ']' ∧ isForbidden c = false := by
    cases qs with
    | nil => exact nofun
    | cons q qs =>
      intro c hc
      have digit {q : Nat} (hc : c ∈ hex q) : c = ':' ∨ c ≠ ']' ∧ isForbidden c = false :=
        .inr ⟨(hex_facts hc).2.2.1, (hex_facts hc).2.2.2.2⟩
      rw [piecesText_cons] at hc
      rcases List.mem_append.mp hc with hc | hc
      · exact digit hc
      · obtain ⟨r, -, hc⟩ := List.mem_flatMap.mp hc
        exact (List.mem_cons.mp hc).imp id fun hc => (digit hc).resolve_left (hex_facts hc).1
  unfold ipv6Text
  split
  · refine ⟨_, rfl, ?_, chars ps⟩
    have single : atDoubleColon (piecesText ps) = none := by
      cases ps with
      | nil => rfl
      | cons p ps => simpa [atDoubleColon] using atDoubleColon_pieces p ps []
    rw [ipv6?, single]
    simp [piecesOf?_text h, count]
  · next start length ne hl =>
    have run := longestZeros_run ps
    rw [hl] at run
    have run : length = zeros (ps.drop start) := run.resolve_left ne
    have parts : ps.take start ++ List.replicate length 0 ++ ps.drop (start + length) = ps := by
      rw [← List.drop_drop, List.append_assoc, run, zeros_append, List.take_append_drop]
    refine ⟨piecesText (ps.take start) ++ ':' :: ':' :: piecesText (ps.drop (start + length)),
      by simp, ?_, fun c hc => ?_⟩
    · have cut : atDoubleColon
          (piecesText (ps.take start) ++ ':' :: ':' :: piecesText (ps.drop (start + length))) =
            some (piecesText (ps.take start), piecesText (ps.drop (start + length))) := by
        cases ps.take start with
        | nil => rfl
        | cons p left => simp [atDoubleColon_pieces, atDoubleColon]
      have missing := congrArg List.length parts
      rw [List.length_append, List.length_append, List.length_replicate, count] at missing
      have some_missing : length ≠ 0 := ne
      have missing : 8 - (ps.take start).length - (ps.drop (start + length)).length = length := by
        omega
      rw [ipv6?, cut]
      simp only [piecesOf?_text fun p hp => h p (List.mem_of_mem_take hp),
        piecesOf?_text fun p hp => h p (List.mem_of_mem_drop hp), Option.bind_eq_bind,
        Option.bind_some, missing, some_missing, ↓reduceIte, parts]
    · simp only [List.mem_append, List.mem_cons] at hc
      rcases hc with hc | rfl | rfl | hc
      · exact chars _ c hc
      · exact .inl rfl
      · exact .inl rfl
      · exact chars _ c hc

theorem octet?_lt {cs : List Char} {n : Nat} (h : octet? cs = some n) : n < 256 := by
  unfold octet? at h
  split at h
  · cases h
  · cases h
  · simpa using (Option.filter_eq_some_iff.mp h).2

theorem mapM_octet?_lt {parts : List (List Char)} {ns : List Nat}
    (h : parts.mapM octet? = some ns) : ∀ n ∈ ns, n < 256 := by
  induction parts generalizing ns with
  | nil =>
    cases h
    exact nofun
  | cons part parts ih =>
    simp only [List.mapM_cons, Option.bind_eq_bind, Option.bind_eq_some_iff, Option.pure_def] at h
    obtain ⟨n, hn, rest, hrest, h⟩ := h
    cases h
    exact List.forall_mem_cons.mpr ⟨octet?_lt hn, ih hrest⟩

theorem pieces?_lt {tail : Bool} {parts : List (List Char)} {ps : List Nat}
    (h : pieces? tail parts = some ps) : ∀ p ∈ ps, p < 65536 := by
  have piece {part : List Char} {p : Nat} (short : ¬ (part.isEmpty || 4 < part.length) = true)
      (h : digitsValue? 16 part = some p) : p < 65536 := by
    simp only [Bool.or_eq_true, decide_eq_true_eq, not_or, Nat.not_lt] at short
    exact Nat.lt_of_lt_of_le (digitsValue?_lt h) (Nat.pow_le_pow_right (by decide) short.2)
  induction parts generalizing ps with
  | nil =>
    cases h
    exact nofun
  | cons part parts ih =>
    cases parts with
    | nil =>
      rw [pieces?] at h
      split at h
      · simp only [Option.bind_eq_bind, Option.bind_eq_some_iff] at h
        obtain ⟨ns, hns, h⟩ := h
        have octet := mapM_octet?_lt hns
        split at h
        · cases h
          simp only [List.mem_cons, List.not_mem_nil, or_false, forall_eq_or_imp,
            forall_eq] at octet ⊢
          omega
        · cases h
      · split at h
        · cases h
        · next short =>
          obtain ⟨p, hp, rfl⟩ := Option.map_eq_some_iff.mp h
          simpa using piece short hp
    | cons next parts =>
      rw [pieces?] at h
      · split at h
        · cases h
        · next short =>
          simp only [Option.bind_eq_bind, Option.bind_eq_some_iff] at h
          obtain ⟨p, hp, rest, hrest, h⟩ := h
          cases h
          exact List.forall_mem_cons.mpr ⟨piece short hp, ih hrest⟩
      · exact nofun

theorem piecesOf?_lt {tail : Bool} {cs : List Char} {ps : List Nat}
    (h : piecesOf? tail cs = some ps) : ∀ p ∈ ps, p < 65536 := by
  unfold piecesOf? at h
  split at h
  · cases h
    exact nofun
  · exact pieces?_lt h

theorem of_ipv6? {cs : List Char} {ps : List Nat} (h : ipv6? cs = some ps) :
    ps.length = 8 ∧ ∀ p ∈ ps, p < 65536 := by
  unfold ipv6? at h
  split at h
  · simp only [Option.bind_eq_bind, Option.bind_eq_some_iff] at h
    obtain ⟨left, hl, right, hr, h⟩ := h
    split at h
    · cases h
    · next missing =>
      cases h
      refine ⟨by simp only [List.length_append, List.length_replicate]; omega, fun p hp => ?_⟩
      simp only [List.mem_append, List.mem_replicate] at hp
      rcases hp with (hp | ⟨-, rfl⟩) | hp
      · exact piecesOf?_lt hl p hp
      · decide
      · exact piecesOf?_lt hr p hp
  · obtain ⟨h, count⟩ := Option.filter_eq_some_iff.mp h
    exact ⟨by simpa using count, piecesOf?_lt h⟩

/-! ### Every host -/

/-- The hosts that are read. -/
inductive Normal : Host → Prop where
  | domain {name : List Char} : name ≠ [] →
      (∀ c ∈ name, isForbidden c = false ∧ c.toLower = c) →
      (splitAt (· == '.') name).all isHonest = true →
      endsInNumber (splitAt (· == '.') name) = false → Normal (.domain name)
  | ipv4 {address : Nat} : address < 2 ^ 32 → Normal (.ipv4 address)
  | ipv6 {ps : List Nat} : ps.length = 8 → (∀ p ∈ ps, p < 65536) → Normal (.ipv6 ps)

theorem toNat_lt_of_not_forbidden {c : Char} (h : isForbidden c = false) :
    0x20 < c.toNat ∧ c.toNat < 0x7f := by
  simp only [isForbidden, Bool.or_eq_false_iff, decide_eq_false_iff_not, Nat.not_le] at h
  exact h.1

theorem ne_of_not_forbidden {c d : Char} (hd : isForbidden d = true) (h : isForbidden c = false) :
    c ≠ d := by
  rintro rfl
  rw [hd] at h
  cases h

/-- Without escapes and in lower case, a domain is as it was written. -/
theorem name_of_plain {cs : List Char} (h : ∀ c ∈ cs, isForbidden c = false ∧ c.toLower = c) :
    ((unescape cs).map fun b => (Char.ofNat b.toNat).toLower) = cs := by
  have ascii : ∀ c ∈ cs, c.toNat < 0x80 ∧ c ≠ '%' := fun c hc =>
    ⟨Nat.lt_succ_of_lt (toNat_lt_of_not_forbidden (h c hc).1).2,
      ne_of_not_forbidden (by decide) (h c hc).1⟩
  rw [unescape_of_ascii ascii, List.map_map]
  refine (List.map_congr_left fun c hc => ?_).trans (List.map_id cs)
  rw [Function.comp_apply, Text.toNat_toUInt8 (ascii c hc).1, Char.ofNat_toNat, (h c hc).2, id]

theorem toLower_toLower (c : Char) : c.toLower.toLower = c.toLower := by
  have upper : ∀ i < 26, (Char.ofNat (65 + i)).toLower.toLower = (Char.ofNat (65 + i)).toLower := by
    decide
  by_cases h : c.val ≥ 'A'.val ∧ c.val ≤ 'Z'.val
  · have first : 65 ≤ c.toNat := UInt32.le_iff_toNat_le.mp h.1
    have last : c.toNat ≤ 90 := UInt32.le_iff_toNat_le.mp h.2
    have letter := upper (c.toNat - 65) (by omega)
    rwa [Nat.add_sub_cancel' first, Char.ofNat_toNat] at letter
  · have same : c.toLower = c := dif_neg h
    rw [same, same]

theorem normal_of_read {cs : List Char} {host : Host} (h : read cs = .ok host) : Normal host := by
  have brackets {cs : List Char} (h : ofBrackets cs = .ok host) : Normal host := by
    unfold ofBrackets at h
    split at h
    · next h6 =>
      cases h
      obtain ⟨count, small⟩ := of_ipv6? h6
      exact .ipv6 count small
    · cases h
  have domain (h : ofDomain cs = .ok host) : Normal host := by
    simp only [ofDomain] at h
    split at h
    · cases h
    · next sane =>
      simp only [Bool.or_eq_true, List.any_eq_true, not_or, not_exists, not_and,
        Bool.not_eq_true', Bool.not_eq_false] at sane
      split at h
      · cases h
      · next full =>
        split at h
        · split at h
          · next h4 =>
            cases h
            exact .ipv4 (ipv4?_lt h4)
          · cases h
        · next last =>
          cases h
          refine .domain (by simpa using full) (fun c hc => ?_) sane.2
            (Bool.eq_false_iff.mpr last)
          obtain ⟨b, -, rfl⟩ := List.mem_map.mp hc
          exact ⟨Bool.eq_false_iff.mpr (sane.1 _ hc), toLower_toLower _⟩
  unfold read at h
  split at h
  · exact brackets h
  · exact domain h

/-- An address of 32 bits is a text in lower case that a domain could be. -/
theorem ipv4Text_facts (address : Nat) :
    ∀ c ∈ ipv4Text address, isForbidden c = false ∧ c.toLower = c := by
  have byte {c : Char} {i : Nat} (h : c ∈ ipv4Byte address i) :=
    (digit_facts h).2.2.2
  have dot : isForbidden '.' = false ∧ '.'.toLower = '.' := by decide
  intro c hc
  rw [ipv4Text_eq] at hc
  simp only [List.flatMap_cons, List.flatMap_nil, List.cons_append, List.append_nil,
    List.mem_append, List.mem_cons] at hc
  rcases hc with hc | rfl | hc | rfl | hc | rfl | hc
  all_goals first | exact byte hc | exact dot

theorem read_ipv4Text {address : Nat} (h : address < 2 ^ 32) :
    ofDomain (ipv4Text address) = .ok (.ipv4 address) := by
  have labels : splitAt (· == '.') (ipv4Text address) =
      [ipv4Byte address 3, ipv4Byte address 2, ipv4Byte address 1, ipv4Byte address 0] := by
    have digits (i : Nat) : ∀ c ∈ ipv4Byte address i, (c == '.') = false := by
      intro c hc
      refine Bool.eq_false_iff.mpr fun dot => ?_
      rw [beq_iff_eq] at dot
      subst dot
      exact (digit_facts hc).1 rfl
    rw [ipv4Text_eq]
    refine splitAt_flatMap rfl ?_
    simp only [List.forall_mem_cons, List.not_mem_nil, false_implies, implies_true, and_true]
    exact ⟨digits 3, digits 2, digits 1, digits 0⟩
  have honest : (splitAt (· == '.') (ipv4Text address)).all isHonest = true := by
    have part (i : Nat) : isHonest (ipv4Byte address i) = true := isHonest_toDigits _
    simp [labels, part]
  have number : endsInNumber (splitAt (· == '.') (ipv4Text address)) = true := by
    have full : ipv4Byte address 0 ≠ [] := Nat.toDigits_ne_nil
    have digits : (ipv4Byte address 0).all (fun c => (digitsValue? 10 [c]).isSome) = true :=
      List.all_eq_true.mpr fun c hc => (digit_facts hc).2.2.1
    simp only [labels, endsInNumber, List.reverse_cons, List.reverse_nil, List.nil_append,
      List.cons_append]
    split
    · next e => exact absurd (List.cons.inj e).1 full
    · next e =>
      obtain ⟨rfl, -⟩ := List.cons.inj e
      simp [digits, full]
    · next e => cases e
  have sane : (ipv4Text address).any isForbidden = false :=
    List.any_eq_false.mpr fun c hc => Bool.eq_false_iff.mp (ipv4Text_facts address c hc).1
  have full : (ipv4Text address).isEmpty = false := by simp [ipv4Text_eq, ipv4Byte]
  simp only [ofDomain, name_of_plain (ipv4Text_facts address), honest, sane, full, number,
    labels ▸ ipv4?_bytes h, Bool.not_true, Bool.or_self, Bool.false_eq_true, ↓reduceIte]

/-- The text of a host that was read is read as the host. -/
theorem read_text {host : Host} (h : Normal host) : read host.text = .ok host := by
  have domain {cs : List Char} (h : ∀ c ∈ cs, isForbidden c = false) :
      read cs = ofDomain cs := by
    unfold read
    split
    · exact absurd (h '[' List.mem_cons_self) (by decide)
    · rfl
  cases h with
  | @domain name full lower honest last =>
    have sane : name.any isForbidden = false :=
      List.any_eq_false.mpr fun c hc => Bool.eq_false_iff.mp (lower c hc).1
    have full : name.isEmpty = false := by simpa using full
    rw [text, domain fun c hc => (lower c hc).1]
    simp only [ofDomain, name_of_plain lower, honest, sane, full, last, Bool.not_true,
      Bool.or_self, Bool.false_eq_true, ↓reduceIte]
  | @ipv4 address small =>
    rw [text, domain fun c hc => (ipv4Text_facts address c hc).1, read_ipv4Text small]
  | @ipv6 ps count small =>
    obtain ⟨inner, text_eq, read_eq, -⟩ := ipv6?_pieces count small
    rw [text, text_eq, List.cons_append, read, ofBrackets, List.getLast?_concat,
      List.dropLast_concat, read_eq]
    rfl

end V2G.Url.Host
