import V2G.Json.Value

/-!
# JSON tokens

A text is cut into tokens, each with the position where it starts. Cutting never fails:
where no token starts there is a `stray` character, and a literal that breaks off is a
token too, which holds its fault. Whether a fault matters is up to the reader, who may
find another before it.
-/

namespace V2G.Json

/-- What can be wrong with a text. The position counts characters. -/
inductive TextFault where
  | byteOrderMark
  | expectedValue (pos : Nat)
  | expectedKey (pos : Nat)
  | expectedColon (pos : Nat)
  | expectedComma (pos : Nat)
  | extraData (pos : Nat)
  | unterminated (pos : Nat)
  | controlCharacter (pos : Nat)
  | unknownEscape (pos : Nat)
  | badCodeUnit (pos : Nat)
  | tooManyDigits (limit count : Nat)
  deriving DecidableEq

/-- An integer comes with the number of its digits, which a reader may limit. -/
inductive Token where
  | openBrace | closeBrace | openBracket | closeBracket | colon | comma
  | text (s : String)
  | integer (digits : Nat) (value : Int)
  | scalar (value : Json)
  | brokenText (fault : TextFault)
  | stray

structure Placed where
  pos : Nat
  token : Token

def isSpace (c : Char) : Bool := c = ' ' || c = '\t' || c = '\n' || c = '\r'

/-! ## Texts -/

/-- The value of a run of hexadecimal digits. -/
def hexValue? (cs : List Char) : Option Nat :=
  cs.foldl (fun acc c => do
    let n ← acc
    if '0' ≤ c && c ≤ '9' then some (n * 16 + (c.toNat - 48))
    else if 'a' ≤ c && c ≤ 'f' then some (n * 16 + (c.toNat - 87))
    else if 'A' ≤ c && c ≤ 'F' then some (n * 16 + (c.toNat - 55))
    else none) (some 0)

/-- The character of an escape letter. -/
def escaped? : Char → Option Char
  | '"' => some '"'
  | '\\' => some '\\'
  | '/' => some '/'
  | 'b' => some '\x08'
  | 'f' => some '\x0c'
  | 'n' => some '\n'
  | 'r' => some '\r'
  | 't' => some '\t'
  | _ => none

def isHighUnit (n : Nat) : Bool := 0xd800 ≤ n && n < 0xdc00
def isLowUnit (n : Nat) : Bool := 0xdc00 ≤ n && n < 0xe000

/-- The character of a code unit that stands alone. Half a pair is no character, and is read as the
replacement character: texts here hold characters only, where a reader of code units would keep it. -/
def ofUnit (n : Nat) : Char :=
  if isHighUnit n || isLowUnit n then '\ufffd' else Char.ofNat n

def ofPair (high low : Nat) : Char := Char.ofNat (0x10000 + (high - 0xd800) * 0x400 + (low - 0xdc00))

/-- The result of reading a literal: what it says and what follows, or its fault. -/
inductive Cut (α : Type) where
  | done (value : α) (next : Nat) (rest : List Char)
  | fault (fault : TextFault)

namespace Cut

def map {α β : Type} (f : α → β) : Cut α → Cut β
  | .done v next rest => .done (f v) next rest
  | .fault e => .fault e

end Cut

/-- Reads the inside of a text up to its closing quote. `start` is the position of the
opening quote and `pos` that of the next character. -/
def cutText (start pos : Nat) : List Char → Cut (List Char)
  | [] => .fault (.unterminated start)
  | '"' :: rest => .done [] (pos + 1) rest
  | '\\' :: 'u' :: a :: b :: c :: d :: '\\' :: 'u' :: e :: f :: g :: h :: next :: rest =>
    match hexValue? [a, b, c, d] with
    | none => .fault (.badCodeUnit (pos + 1))
    | some high =>
      if isHighUnit high then
        match hexValue? [e, f, g, h] with
        | none => .fault (.badCodeUnit (pos + 7))
        | some low =>
          if isLowUnit low then
            (cutText start (pos + 12) (next :: rest)).map (ofPair high low :: ·)
          else (cutText start (pos + 6) ('\\' :: 'u' :: e :: f :: g :: h :: next :: rest)).map
            (ofUnit high :: ·)
      else (cutText start (pos + 6) ('\\' :: 'u' :: e :: f :: g :: h :: next :: rest)).map
        (ofUnit high :: ·)
  | '\\' :: 'u' :: a :: b :: c :: d :: next :: rest =>
    match hexValue? [a, b, c, d] with
    | none => .fault (.badCodeUnit (pos + 1))
    | some unit => (cutText start (pos + 6) (next :: rest)).map (ofUnit unit :: ·)
  | '\\' :: 'u' :: _ => .fault (.badCodeUnit (pos + 1))
  | ['\\'] => .fault (.unterminated start)
  | '\\' :: c :: rest =>
    match escaped? c with
    | none => .fault (.unknownEscape pos)
    | some e => (cutText start (pos + 2) rest).map (e :: ·)
  | c :: rest =>
    if c.toNat < 0x20 then .fault (.controlCharacter pos)
    else (cutText start (pos + 1) rest).map (c :: ·)
termination_by cs => cs.length

/-! ## Numbers -/

def isDigit (c : Char) : Bool := '0' ≤ c && c ≤ '9'

def digitsValue (cs : List Char) : Nat := cs.foldl (fun n c => n * 10 + (c.toNat - 48)) 0

/-- The whole part of a number: a lone zero, or digits without leading zeros. -/
def cutWhole : List Char → List Char × List Char
  | '0' :: rest => (['0'], rest)
  | cs => (cs.takeWhile isDigit, cs.dropWhile isDigit)

/-- A point with digits after it. -/
def cutFraction : List Char → List Char × List Char
  | '.' :: rest =>
    if (rest.takeWhile isDigit).isEmpty then ([], '.' :: rest)
    else ('.' :: rest.takeWhile isDigit, rest.dropWhile isDigit)
  | cs => ([], cs)

def cutSign : List Char → List Char × List Char
  | '+' :: rest => (['+'], rest)
  | '-' :: rest => (['-'], rest)
  | cs => ([], cs)

/-- An exponent: the letter, an optional sign, digits. -/
def cutExponent : List Char → List Char × List Char
  | e :: rest =>
    let (sign, digits) := cutSign rest
    if (e = 'e' || e = 'E') && !(digits.takeWhile isDigit).isEmpty then
      (e :: (sign ++ digits.takeWhile isDigit), digits.dropWhile isDigit)
    else ([], e :: rest)
  | [] => ([], [])

/-- The value of a number from its parts. It is an integer if it has neither fraction
nor exponent. -/
def numberValue (negative : Bool) (whole fraction exponent : List Char) : Token :=
  if fraction.isEmpty && exponent.isEmpty then
    .integer whole.length (if negative then -(digitsValue whole : Int) else digitsValue whole)
  else
    let places := fraction.drop 1
    let shift : Int := match exponent.drop 1 with
      | '-' :: ds => -(digitsValue ds : Int)
      | '+' :: ds => digitsValue ds
      | ds => digitsValue ds
    .scalar (.float (.ofDecimal negative (digitsValue (whole ++ places)) (shift - places.length)))

/-- Reads a number without its sign; no digit, no number. -/
def cutNumber? (negative : Bool) (cs : List Char) : Option (Token × Nat × List Char) :=
  let (whole, afterWhole) := cutWhole cs
  if whole.isEmpty then none else
  let (fraction, afterFraction) := cutFraction afterWhole
  let (exponent, rest) := cutExponent afterFraction
  some (numberValue negative whole fraction exponent,
    whole.length + fraction.length + exponent.length, rest)

/-! ## Words -/

/-- The words that are values, the longer ones of a common start first. -/
def words : List (List Char × Json) :=
  [ ("null".toList, .null), ("true".toList, .bool true), ("false".toList, .bool false),
    ("NaN".toList, .float .nan), ("Infinity".toList, .float (.infinity false)),
    ("-Infinity".toList, .float (.infinity true)) ]

def word? (cs : List Char) : Option (List Char × Json) := words.find? fun (w, _) => w.isPrefixOf cs

/-! ## The token list -/

/-- The token at the head of a text, with what is left after it. A text that breaks off
leaves nothing. -/
def next (pos : Nat) (c : Char) (rest : List Char) : Token × Nat × List Char :=
  match c with
  | '{' => (.openBrace, pos + 1, rest)
  | '}' => (.closeBrace, pos + 1, rest)
  | '[' => (.openBracket, pos + 1, rest)
  | ']' => (.closeBracket, pos + 1, rest)
  | ':' => (.colon, pos + 1, rest)
  | ',' => (.comma, pos + 1, rest)
  | '"' =>
    match cutText pos (pos + 1) rest with
    | .done cs after left => (.text (String.ofList cs), after, left)
    | .fault e => (.brokenText e, pos + 1, [])
  | c =>
    match word? (c :: rest) with
    | some (w, v) => (.scalar v, pos + w.length, rest.drop (w.length - 1))
    | none =>
      let number := if c = '-' then (cutNumber? true rest).map fun (t, n, r) => (t, n + 1, r)
        else cutNumber? false (c :: rest)
      match number with
      | some (t, n, r) => (t, pos + n, r)
      | none => (.stray, pos + 1, rest)

theorem length_dropWhile_le {α : Type} (p : α → Bool) (l : List α) :
    (l.dropWhile p).length ≤ l.length :=
  (List.dropWhile_sublist p).length_le

theorem Cut.map_eq_done {α β : Type} {f : α → β} {c : Cut α} {v : β} {n : Nat} {r : List Char} :
    c.map f = .done v n r ↔ ∃ u, c = .done u n r ∧ f u = v := by
  cases c <;> simp [Cut.map]
  grind

theorem cutText_length {start pos n : Nat} {cs v r : List Char}
    (h : cutText start pos cs = .done v n r) : r.length < cs.length := by
  fun_induction cutText start pos cs generalizing v n r <;>
    simp_all [Cut.map_eq_done] <;> grind

theorem cutWhole_length_lt {cs : List Char} (h : (cutWhole cs).1.isEmpty = false) :
    (cutWhole cs).2.length < cs.length := by
  unfold cutWhole at h ⊢
  split at h
  · simp
  · have := congrArg List.length (List.takeWhile_append_dropWhile (p := isDigit) (l := cs))
    cases e : cs.takeWhile isDigit <;> simp_all
    omega

theorem cutFraction_length (cs : List Char) : (cutFraction cs).2.length ≤ cs.length := by
  unfold cutFraction
  split
  · split
    · simp
    · exact Nat.le_succ_of_le (length_dropWhile_le _ _)
  · simp

theorem cutSign_length (cs : List Char) : (cutSign cs).2.length ≤ cs.length := by
  unfold cutSign
  split <;> simp

theorem cutExponent_length (cs : List Char) : (cutExponent cs).2.length ≤ cs.length := by
  unfold cutExponent
  split
  · dsimp only
    split
    · exact Nat.le_succ_of_le (Nat.le_trans (length_dropWhile_le _ _) (cutSign_length _))
    · exact Nat.le_refl _
  · simp

theorem cutNumber?_length {negative : Bool} {cs r : List Char} {t : Token} {n : Nat}
    (h : cutNumber? negative cs = some (t, n, r)) : r.length < cs.length := by
  simp only [cutNumber?] at h
  split at h
  · simp at h
  · rename_i hw
    simp only [Option.some.injEq, Prod.mk.injEq] at h
    obtain ⟨-, -, rfl⟩ := h
    exact Nat.lt_of_le_of_lt (cutExponent_length _)
      (Nat.lt_of_le_of_lt (cutFraction_length _) (cutWhole_length_lt (by simpa using hw)))

theorem next_length (pos : Nat) (c : Char) (rest : List Char) :
    (next pos c rest).2.2.length ≤ rest.length := by
  unfold next
  split <;> try simp
  · split
    · exact Nat.le_of_lt (cutText_length ‹_›)
    · simp
  · split
    · simp
    · split
      · rename_i h
        split at h
        · simp only [Option.map_eq_some_iff, Prod.mk.injEq, Prod.exists] at h
          obtain ⟨_, _, _, hn, rfl, rfl, rfl⟩ := h
          exact Nat.le_of_lt (cutNumber?_length hn)
        · exact Nat.le_of_lt_succ (by simpa using cutNumber?_length h)
      · simp

/-- The tokens of a text, with the position of its end. -/
def tokens (pos : Nat) : List Char → List Placed × Nat
  | [] => ([], pos)
  | c :: rest =>
    if isSpace c then tokens (pos + 1) rest
    else
      match h : next pos c rest with
      | (token, after, left) =>
        have : left.length ≤ rest.length := by simpa [h] using next_length pos c rest
        let (more, last) := tokens after left
        (⟨pos, token⟩ :: more, last)
termination_by cs => cs.length

end V2G.Json
