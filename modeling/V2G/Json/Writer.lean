import V2G.Json.Value
import V2G.Number.Shortest
import V2G.Text.Quoted

/-!
# Writing JSON

The text of a value, in ASCII. Members and items are separated by a comma and a blank, a
key and its value by a colon and a blank. All characters outside the printable ASCII range
are written as escapes, those beyond the sixteenth bit as a surrogate pair.
-/

namespace V2G.Json

def writeChar (c : Char) : List Char :=
  if c = '"' || c = '\\' then ['\\', c]
  else if c = '\n' then ['\\', 'n']
  else if c = '\r' then ['\\', 'r']
  else if c = '\t' then ['\\', 't']
  else if c = '\x08' then ['\\', 'b']
  else if c = '\x0c' then ['\\', 'f']
  else if 0x20 ≤ c.toNat && c.toNat < 0x7f then [c]
  else if c.toNat < 0x10000 then '\\' :: 'u' :: Text.hex 4 c.toNat
  else
    let n := c.toNat - 0x10000
    '\\' :: 'u' :: (Text.hex 4 (0xd800 + n / 0x400) ++
      '\\' :: 'u' :: Text.hex 4 (0xdc00 + n % 0x400))

def writeText (s : String) : List Char := '"' :: (s.toList.flatMap writeChar ++ ['"'])

def writeInt (n : Int) : List Char :=
  if n < 0 then '-' :: Nat.toDigits 10 n.natAbs else Nat.toDigits 10 n.natAbs

def writeFloat (x : Double) : List Char :=
  if x.isNaN then "NaN".toList
  else if x.isFinite then x.decimalText.toList
  else if x.isNegative then "-Infinity".toList
  else "Infinity".toList

mutual

def write : Json → List Char
  | .null => "null".toList
  | .bool b => if b then "true".toList else "false".toList
  | .int n => writeInt n
  | .float x => writeFloat x
  | .str s => writeText s
  | .arr items => '[' :: (writeItems items ++ [']'])
  | .obj members => '{' :: (writeMembers members ++ ['}'])
termination_by structural j => j

def writeItems : List Json → List Char
  | [] => []
  | [v] => write v
  | v :: w :: rest => write v ++ ',' :: ' ' :: writeItems (w :: rest)
termination_by structural l => l

def writeMembers : List (String × Json) → List Char
  | [] => []
  | [(k, v)] => writeText k ++ ':' :: ' ' :: write v
  | (k, v) :: m :: rest =>
    writeText k ++ ':' :: ' ' :: (write v ++ ',' :: ' ' :: writeMembers (m :: rest))
termination_by structural l => l

end

def text (j : Json) : String := String.ofList (write j)

/-! ### Long integers -/

mutual

/-- Whether no integer in a value has more than `most` digits. -/
def isWithin (most : Nat) : Json → Bool
  | .int n => (Nat.toDigits 10 n.natAbs).length ≤ most
  | .arr items => itemsWithin most items
  | .obj members => membersWithin most members
  | _ => true
termination_by structural j => j

def itemsWithin (most : Nat) : List Json → Bool
  | [] => true
  | v :: rest => v.isWithin most && itemsWithin most rest
termination_by structural l => l

def membersWithin (most : Nat) : List (String × Json) → Bool
  | [] => true
  | (_, v) :: rest => v.isWithin most && membersWithin most rest
termination_by structural l => l

end

/-- The text of a value, or the limit that an integer in it exceeds. -/
def dump (limit : Option Nat) (j : Json) : Except Nat String :=
  match limit.filter (!j.isWithin ·) with
  | some most => .error most
  | none => .ok j.text

end V2G.Json
