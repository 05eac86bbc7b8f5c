import V2G.Text.Printable

/-!
# Quoted texts

A text in quotes, as diagnostics show it. The quotes are single ones unless the text
holds single quotes and no double ones. Backslashes and the chosen quote are escaped, tab,
line feed and carriage return have short escapes, and other characters that are not
printable are written by their code point in two, four or eight hexadecimal digits.
-/

namespace V2G.Text

/-- A number in lower-case hexadecimal digits, filled up with zeros. -/
def hex (width n : Nat) : List Char :=
  let digits := Nat.toDigits 16 n
  List.replicate (width - digits.length) '0' ++ digits

def quoteChar (mark c : Char) : List Char :=
  if c = mark || c = '\\' then ['\\', c]
  else if c = '\t' then ['\\', 't']
  else if c = '\n' then ['\\', 'n']
  else if c = '\r' then ['\\', 'r']
  else if isPrintable c then [c]
  else if c.toNat < 0x100 then '\\' :: 'x' :: hex 2 c.toNat
  else if c.toNat < 0x10000 then '\\' :: 'u' :: hex 4 c.toNat
  else '\\' :: 'U' :: hex 8 c.toNat

/-- The quotation mark that a text is put in. -/
def quoteMark (cs : List Char) : Char :=
  if cs.contains '\'' && !cs.contains '"' then '"' else '\''

def quoted (s : String) : String :=
  let mark := quoteMark s.toList
  String.ofList (mark :: (s.toList.flatMap (quoteChar mark) ++ [mark]))

/-- Bytes in quotes, after the letter `b`. -/
def quotedBytes (bytes : List UInt8) : String :=
  let cs := bytes.map fun b => Char.ofNat b.toNat
  let mark := quoteMark cs
  let byte (c : Char) : List Char :=
    if 0x7f ≤ c.toNat then '\\' :: 'x' :: hex 2 c.toNat else quoteChar mark c
  String.ofList ('b' :: mark :: (cs.flatMap byte ++ [mark]))

/-- A list of texts, each quoted, in brackets. -/
def quotedList (items : List String) : String :=
  "[" ++ ", ".intercalate (items.map quoted) ++ "]"

end V2G.Text
