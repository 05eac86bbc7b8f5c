/-!
# Base64

Bytes as text over the alphabet of sixty-four characters, three bytes to four characters,
with `=` filling up the last group. Reading is strict: no other character, no data after
the filling, and no filling in front. Filling where no group is open is passed over.
-/

namespace V2G.Base64

inductive Fault where
  | leadingPadding
  | excessData
  | discontinuousPadding
  | foreignCharacter
  | loneCharacter (count : Nat)
  | incorrectPadding
  deriving DecidableEq

def Fault.message : Fault → String
  | .leadingPadding => "Leading padding not allowed"
  | .excessData => "Excess data after padding"
  | .discontinuousPadding => "Discontinuous padding not allowed"
  | .foreignCharacter => "Only base64 data is allowed"
  | .loneCharacter n =>
    s!"Invalid base64-encoded string: number of data characters ({n}) " ++
      "cannot be 1 more than a multiple of 4"
  | .incorrectPadding => "Incorrect padding"

/-- The character of a six-bit number. -/
def digit (n : Nat) : Char :=
  if n < 26 then Char.ofNat (65 + n)
  else if n < 52 then Char.ofNat (71 + n)
  else if n < 62 then Char.ofNat (n - 4)
  else if n = 62 then '+' else '/'

def value? (c : Char) : Option Nat :=
  if 'A' ≤ c && c ≤ 'Z' then some (c.toNat - 65)
  else if 'a' ≤ c && c ≤ 'z' then some (c.toNat - 71)
  else if '0' ≤ c && c ≤ '9' then some (c.toNat + 4)
  else if c = '+' then some 62
  else if c = '/' then some 63
  else none

theorem value?_digit {n : Nat} (h : n < 64) : value? (digit n) = some n := by
  revert n; decide

def encode : List UInt8 → List Char
  | [] => []
  | [a] => [digit (a.toNat / 4), digit (a.toNat % 4 * 16), '=', '=']
  | [a, b] =>
    [digit (a.toNat / 4), digit (a.toNat % 4 * 16 + b.toNat / 16), digit (b.toNat % 16 * 4), '=']
  | a :: b :: c :: rest =>
    digit (a.toNat / 4) :: digit (a.toNat % 4 * 16 + b.toNat / 16) ::
      digit (b.toNat % 16 * 4 + c.toNat / 64) :: digit (c.toNat % 64) :: encode rest

/-- How far the current group has been read, with the bits that are left over. -/
inductive Group where
  | closed
  | one (bits : Nat)
  | two (bits : Nat)
  | three (bits : Nat)
  deriving DecidableEq

/-- The number of characters that fill up a group, if it may be filled up. -/
def Group.missing? : Group → Option Nat
  | .two _ => some 2
  | .three _ => some 1
  | _ => none

/-- The bytes of the characters from within a group: `read` bytes came before, `pads`
filling characters stand since the last data character, and `filling` tells whether there
were any at all. -/
def decodeFrom (read : Nat) (group : Group) (pads : Nat) (filling : Bool) :
    List Char → Except Fault (List UInt8)
  | [] =>
    match group with
    | .closed => .ok []
    | .one _ => .error (.loneCharacter (read / 3 * 4 + 1))
    | _ => .error .incorrectPadding
  | c :: rest =>
    if c = '=' then
      match group.missing? with
      | some missing =>
        if missing ≤ pads + 1 then (if rest.isEmpty then .ok [] else .error .excessData)
        else decodeFrom read group (pads + 1) true rest
      | none => decodeFrom read group pads true rest
    else
      match value? c with
      | none => .error .foreignCharacter
      | some v =>
        if filling then .error .discontinuousPadding
        else
          match group with
          | .closed => decodeFrom read (.one v) 0 false rest
          | .one b =>
            (decodeFrom (read + 1) (.two (v % 16)) 0 false rest).map (.ofNat (b * 4 + v / 16) :: ·)
          | .two b =>
            (decodeFrom (read + 1) (.three (v % 4)) 0 false rest).map (.ofNat (b * 16 + v / 4) :: ·)
          | .three b => (decodeFrom (read + 1) .closed 0 false rest).map (.ofNat (b * 64 + v) :: ·)

def decode : List Char → Except Fault (List UInt8)
  | '=' :: _ => .error .leadingPadding
  | cs => decodeFrom 0 .closed 0 false cs

end V2G.Base64
