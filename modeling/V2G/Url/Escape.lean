import V2G.Text.Encoding

/-!
# Percent escapes

A character that may not stand in a part of a URL is written as its UTF-8 bytes, each as a
percent sign and two digits. Control characters and characters beyond ASCII are escaped
everywhere; the sets below are what each part escapes besides.
-/

namespace V2G.Url

def upperHex (n : Nat) : Char := (Nat.digitChar n).toUpper

def escapeByte (b : UInt8) : List Char :=
  ['%', upperHex (b.toNat / 16), upperHex (b.toNat % 16)]

def mustEscape (more : List Char) (c : Char) : Bool :=
  c.toNat < 0x20 || 0x7f ≤ c.toNat || more.contains c

def escapeChar (more : List Char) (c : Char) : List Char :=
  if mustEscape more c then (Text.utf8Bytes (String.ofList [c])).flatMap escapeByte else [c]

def escape (more : List Char) (cs : List Char) : List Char := cs.flatMap (escapeChar more)

def graveAccent : Char := Char.ofNat 0x60

def inFragment : List Char := [' ', '"', '<', '>', graveAccent]
def inQuery : List Char := [' ', '"', '#', '<', '>', '\'']
def inPath : List Char := inFragment ++ ['#', '?', '\x7b', '\x7d']
def inUserInfo : List Char := inPath ++ ['/', ':', ';', '=', '@', '[', '\\', ']', '^', '|']

def hexDigit? (c : Char) : Option Nat :=
  if '0' ≤ c && c ≤ '9' then some (c.toNat - 48)
  else if 'a' ≤ c && c ≤ 'f' then some (c.toNat - 87)
  else if 'A' ≤ c && c ≤ 'F' then some (c.toNat - 55)
  else none

/-- The bytes of a text with its escapes resolved. A percent sign that starts no escape
stands for itself. -/
def unescape : List Char → List UInt8
  | [] => []
  | '%' :: a :: b :: rest =>
    match hexDigit? a, hexDigit? b with
    | some m, some n => (16 * m + n).toUInt8 :: unescape rest
    | _, _ => 0x25 :: unescape (a :: b :: rest)
  | c :: rest => Text.utf8Bytes (String.ofList [c]) ++ unescape rest

end V2G.Url
