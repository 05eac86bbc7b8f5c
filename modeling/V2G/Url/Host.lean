import V2G.Url.Fault
import V2G.Url.Punycode

/-!
# Hosts

The host of a URL: a domain in lower case, or an address of 32 or of 128 bits. A domain
whose last label is a number is an address of 32 bits, in any of the forms that ever
were in use: fewer than four parts, parts in octal or hexadecimal digits. Domains are read in ASCII
only: one that holds another character, by itself or by its escapes, is refused.
-/

namespace V2G.Url

inductive Host where
  | domain (name : List Char)
  | ipv4 (address : Nat)
  /-- Eight pieces of 16 bits. -/
  | ipv6 (pieces : List Nat)
  deriving DecidableEq

/-- A text cut at each character of a kind. There is always at least one part. -/
def splitAt (p : Char → Bool) : List Char → List (List Char)
  | [] => [[]]
  | c :: rest =>
    if p c then [] :: splitAt p rest
    else
      match splitAt p rest with
      | part :: parts => (c :: part) :: parts
      | [] => [[c]]

theorem splitAt_ne_nil (p : Char → Bool) (cs : List Char) : splitAt p cs ≠ [] := by
  cases cs with
  | nil => simp [splitAt]
  | cons c rest =>
    unfold splitAt
    split
    · simp
    · split <;> simp

/-- The number that digits to a base stand for. -/
def digitsValue? (base : Nat) (cs : List Char) : Option Nat :=
  cs.foldl (fun n c => do
    let d ← hexDigit? c
    if d < base then some (base * (← n) + d) else none) (some 0)

namespace Host

/-! ### 32-bit addresses -/

/-- A part of an address: hexadecimal after `0x`, octal after `0`, else decimal. -/
def ipv4Part? : List Char → Option Nat
  | [] => none
  | '0' :: 'x' :: cs => digitsValue? 16 cs
  | ['0'] => some 0
  | '0' :: cs => digitsValue? 8 cs
  | cs => digitsValue? 10 cs

/-- Whether the last label of a domain has the form of a number. A point at the end is
passed over. -/
def endsInNumber (labels : List (List Char)) : Bool :=
  let label :=
    match labels.reverse with
    | [] :: label :: _ => label
    | label :: _ => label
    | [] => []
  (!label.isEmpty && label.all fun c => (digitsValue? 10 [c]).isSome) || (ipv4Part? label).isSome

/-- The last part fills what the parts before it leave. -/
def ipv4? (labels : List (List Char)) : Option Nat := do
  let labels := if labels.getLast? = some [] then labels.dropLast else labels
  let parts ← labels.mapM ipv4Part?
  let before := parts.dropLast
  let last ← parts.getLast?
  if 4 < parts.length || Nat.pow 256 (4 - before.length) ≤ last || before.any (256 ≤ ·) then none
  else some (before.foldl (fun n part => 256 * n + part) 0 * Nat.pow 256 (4 - before.length) + last)

def ipv4Text (address : Nat) : List Char :=
  let byte (i : Nat) := Nat.toDigits 10 (address / Nat.pow 256 i % 256)
  byte 3 ++ '.' :: byte 2 ++ '.' :: byte 1 ++ '.' :: byte 0

/-! ### 128-bit addresses -/

/-- A decimal number below 256 without leading zeros. -/
def octet? : List Char → Option Nat
  | [] => none
  | '0' :: _ :: _ => none
  | cs => (digitsValue? 10 cs).filter (· < 256)

/-- Pieces between colons. The last may be a dotted address of 32 bits, if `tail`. -/
def pieces? (tail : Bool) : List (List Char) → Option (List Nat)
  | [] => some []
  | [part] =>
    if tail && part.contains '.' then do
      match ← (splitAt (· == '.') part).mapM octet? with
      | [a, b, c, d] => some [256 * a + b, 256 * c + d]
      | _ => none
    else if part.isEmpty || 4 < part.length then none
    else (digitsValue? 16 part).map ([·])
  | part :: parts => do
    if part.isEmpty || 4 < part.length then none
    else some ((← digitsValue? 16 part) :: (← pieces? tail parts))

/-- The text before and after the first double colon. -/
def atDoubleColon : List Char → Option (List Char × List Char)
  | ':' :: ':' :: rest => some ([], rest)
  | c :: rest => (atDoubleColon rest).map fun (l, r) => (c :: l, r)
  | [] => none

def piecesOf? (tail : Bool) (cs : List Char) : Option (List Nat) :=
  if cs.isEmpty then some [] else pieces? tail (splitAt (· == ':') cs)

/-- A double colon stands for as many zero pieces as are missing, at least one. -/
def ipv6? (cs : List Char) : Option (List Nat) :=
  match atDoubleColon cs with
  | some (l, r) => do
    let left ← piecesOf? false l
    let right ← piecesOf? true r
    let missing := 8 - left.length - right.length
    if missing = 0 then none else some (left ++ List.replicate missing 0 ++ right)
  | none => (piecesOf? true cs).filter (·.length = 8)

/-- The length of the run of zeros at the front. -/
def zeros (pieces : List Nat) : Nat := (pieces.takeWhile (· == 0)).length

/-- Where the longest run of at least two zeros starts, and its length. -/
def longestZeros (pieces : List Nat) : Nat × Nat :=
  (List.range pieces.length).foldl (fun (start, length) i =>
    let n := zeros (pieces.drop i)
    if 1 < n && length < n then (i, n) else (start, length)) (0, 0)

def piecesText (pieces : List Nat) : List Char :=
  List.intercalate [':'] (pieces.map (Nat.toDigits 16))

def ipv6Text (pieces : List Nat) : List Char :=
  match longestZeros pieces with
  | (_, 0) => '[' :: piecesText pieces ++ [']']
  | (start, length) =>
    '[' :: piecesText (pieces.take start) ++ ':' :: ':' ::
      piecesText (pieces.drop (start + length)) ++ [']']

/-! ### Domains -/

/-- The characters that no domain may hold. -/
def isForbidden (c : Char) : Bool :=
  c.toNat ≤ 0x20 || 0x7f ≤ c.toNat ||
    ['%', '#', '/', ':', '<', '>', '?', '@', '[', '\\', ']', '^', '|'].contains c

/-- Whether a label that claims to stand for other characters does so. -/
def isHonest (label : List Char) : Bool :=
  match label with
  | 'x' :: 'n' :: '-' :: '-' :: rest =>
    ((Punycode.decode? rest).map fun points => points.any (0xa0 ≤ ·)).getD false
  | _ => true

def ofDomain (cs : List Char) : Except Fault Host :=
  let name := (unescape cs).map fun b => (Char.ofNat b.toNat).toLower
  let labels := splitAt (· == '.') name
  if name.any isForbidden || !labels.all isHonest then .error .badDomainName
  else if name.isEmpty then .error .emptyHost
  else if endsInNumber labels then
    match ipv4? labels with
    | some address => .ok (.ipv4 address)
    | none => .error .badIpv4
  else .ok (.domain name)

/-- An address in brackets. -/
def ofBrackets (cs : List Char) : Except Fault Host :=
  match cs.getLast?, ipv6? cs.dropLast with
  | some ']', some pieces => .ok (.ipv6 pieces)
  | _, _ => .error .badIpv6

/-- The host of a network scheme. -/
def read : List Char → Except Fault Host
  | '[' :: cs => ofBrackets cs
  | cs => ofDomain cs

/-- Whether a text may be the host of a scheme that this library does not know. -/
def readOpaque : List Char → Except Fault Unit
  | '[' :: cs => (ofBrackets cs).map fun _ => ()
  | cs =>
    if cs.any fun c => c.toNat = 0 ||
        ['\t', '\n', '\r', ' ', '#', '/', ':', '<', '>', '?', '@', '[', '\\', ']', '^', '|'].contains c
    then .error .badHostCharacter
    else .ok ()

def text : Host → List Char
  | .domain name => name
  | .ipv4 address => ipv4Text address
  | .ipv6 pieces => ipv6Text pieces

end Host

end V2G.Url
