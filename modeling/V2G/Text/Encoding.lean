/-!
# Unicode encodings

Bytes read as characters. The encoding of a JSON text is told by its byte order mark, or by
where the zero bytes of its first characters lie. Reading stops at the first bytes that
encode no character and says which they are. Half a surrogate pair reads as the
replacement character.
-/

namespace V2G.Text

inductive Encoding where
  | utf8
  | utf16 (bigEndian : Bool)
  | utf32 (bigEndian : Bool)
  deriving DecidableEq

def Encoding.name : Encoding → String
  | .utf8 => "utf-8"
  | .utf16 true => "utf-16-be"
  | .utf16 false => "utf-16-le"
  | .utf32 true => "utf-32-be"
  | .utf32 false => "utf-32-le"

inductive DecodeReason where
  | invalidStart
  | invalidContinuation
  | endOfData
  | truncated
  | outOfRange
  deriving DecidableEq

def DecodeReason.text : DecodeReason → String
  | .invalidStart => "invalid start byte"
  | .invalidContinuation => "invalid continuation byte"
  | .endOfData => "unexpected end of data"
  | .truncated => "truncated data"
  | .outOfRange => "code point not in range(0x110000)"

/-- The `count` bytes from `first` at position `pos` encode no character. -/
structure DecodeFault where
  encoding : Encoding
  pos : Nat
  count : Nat
  first : UInt8
  reason : DecodeReason

def hexByte (b : UInt8) : String :=
  let digits := Nat.toDigits 16 b.toNat
  String.ofList (if digits.length < 2 then '0' :: digits else digits)

def DecodeFault.message (e : DecodeFault) : String :=
  let place := if e.count = 1 then s!"byte 0x{hexByte e.first} in position {e.pos}"
    else s!"bytes in position {e.pos}-{e.pos + e.count - 1}"
  s!"'{e.encoding.name}' codec can't decode {place}: {e.reason.text}"

def isContinuation (b : UInt8) : Bool := 0x80 ≤ b && b < 0xc0

/-- Whether a byte may follow the first byte of a sequence of three or four. It may not
spell a code point that has a shorter form, or one beyond the last; a surrogate may pass. -/
def maySecond (first second : UInt8) : Bool :=
  isContinuation second && !(first = 0xe0 && second < 0xa0) &&
    !(first = 0xf0 && second < 0x90) && !(first = 0xf4 && 0x90 ≤ second)

def ofCodePoint (n : Nat) : Char :=
  if 0xd800 ≤ n && n < 0xe000 then '\ufffd' else Char.ofNat n

def low6 (b : UInt8) : Nat := b.toNat % 64

/-- Reads UTF-8 bytes; `pos` counts the bytes before them. -/
def ofUtf8 (pos : Nat) : List UInt8 → Except DecodeFault (List Char)
  | [] => .ok []
  | a :: rest =>
    let fault (count : Nat) (reason : DecodeReason) : Except DecodeFault (List Char) :=
      .error ⟨.utf8, pos, count, a, reason⟩
    if a < 0x80 then (ofUtf8 (pos + 1) rest).map (Char.ofNat a.toNat :: ·)
    else if a < 0xc2 || 0xf5 ≤ a then fault 1 .invalidStart
    else
      match rest with
      | [] => fault 1 .endOfData
      | b :: rest =>
        if a < 0xe0 then
          if isContinuation b then
            (ofUtf8 (pos + 2) rest).map (Char.ofNat (a.toNat % 32 * 64 + low6 b) :: ·)
          else fault 1 .invalidContinuation
        else if !maySecond a b then fault 1 .invalidContinuation
        else
          match rest with
          | [] => if a = 0xed && 0xa0 ≤ b then fault 1 .invalidContinuation else fault 2 .endOfData
          | c :: rest =>
            if !isContinuation c then
              if a = 0xed && 0xa0 ≤ b then fault 1 .invalidContinuation
              else fault 2 .invalidContinuation
            else if a < 0xf0 then
              (ofUtf8 (pos + 3) rest).map
                (ofCodePoint ((a.toNat % 16 * 64 + low6 b) * 64 + low6 c) :: ·)
            else
              match rest with
              | [] => fault 3 .endOfData
              | d :: rest =>
                if !isContinuation d then fault 3 .invalidContinuation
                else (ofUtf8 (pos + 4) rest).map
                  (ofCodePoint (((a.toNat % 8 * 64 + low6 b) * 64 + low6 c) * 64 + low6 d) :: ·)

def unit16 (bigEndian : Bool) (a b : UInt8) : Nat :=
  if bigEndian then a.toNat * 256 + b.toNat else b.toNat * 256 + a.toNat

def ofUtf16 (bigEndian : Bool) (pos : Nat) : List UInt8 → Except DecodeFault (List Char)
  | [] => .ok []
  | [a] => .error ⟨.utf16 bigEndian, pos, 1, a, .truncated⟩
  | a :: b :: c :: d :: rest =>
    let high := unit16 bigEndian a b
    let low := unit16 bigEndian c d
    if 0xd800 ≤ high && high < 0xdc00 && 0xdc00 ≤ low && low < 0xe000 then
      (ofUtf16 bigEndian (pos + 4) rest).map
        (Char.ofNat (0x10000 + (high - 0xd800) * 0x400 + (low - 0xdc00)) :: ·)
    else (ofUtf16 bigEndian (pos + 2) (c :: d :: rest)).map (ofCodePoint high :: ·)
  | a :: b :: rest =>
    (ofUtf16 bigEndian (pos + 2) rest).map (ofCodePoint (unit16 bigEndian a b) :: ·)

def ofUtf32 (bigEndian : Bool) (pos : Nat) : List UInt8 → Except DecodeFault (List Char)
  | [] => .ok []
  | a :: b :: c :: d :: rest =>
    let n := if bigEndian then unit16 true a b * 65536 + unit16 true c d
      else unit16 false c d * 65536 + unit16 false a b
    if 0x110000 ≤ n then .error ⟨.utf32 bigEndian, pos, 4, a, .outOfRange⟩
    else (ofUtf32 bigEndian (pos + 4) rest).map (ofCodePoint n :: ·)
  | a :: rest => .error ⟨.utf32 bigEndian, pos, rest.length + 1, a, .truncated⟩

/-- The byte order marks in the order they are tried: one of UTF-32 begins with one of UTF-16. -/
def marks : List (List UInt8 × Encoding) :=
  [([0x00, 0x00, 0xfe, 0xff], .utf32 true), ([0xff, 0xfe, 0x00, 0x00], .utf32 false),
    ([0xfe, 0xff], .utf16 true), ([0xff, 0xfe], .utf16 false), ([0xef, 0xbb, 0xbf], .utf8)]

/-- Without a mark, the zero bytes in front tell the encoding: a JSON text begins with ASCII. -/
def ofZeros : List UInt8 → Encoding
  | a :: b :: c :: d :: _ =>
    if a = 0 then (if b = 0 then .utf32 true else .utf16 true)
    else if b = 0 then (if c = 0 && d = 0 then .utf32 false else .utf16 false)
    else .utf8
  | [a, b] => if a = 0 then .utf16 true else if b = 0 then .utf16 false else .utf8
  | _ => .utf8

/-- The encoding of a text by its first bytes, and the length of its byte order mark. -/
def detect (bytes : List UInt8) : Encoding × Nat :=
  match marks.find? fun m => m.1.isPrefixOf bytes with
  | some (mark, encoding) => (encoding, mark.length)
  | none => (ofZeros bytes, 0)

/-- The characters of a JSON text. Positions in a UTF-8 text count from after the mark. -/
def decode (bytes : List UInt8) : Except DecodeFault (List Char) :=
  let (encoding, mark) := detect bytes
  let body := bytes.drop mark
  match encoding with
  | .utf8 => ofUtf8 0 body
  | .utf16 bigEndian => ofUtf16 bigEndian mark body
  | .utf32 bigEndian => ofUtf32 bigEndian mark body

/-- The text that bytes encode in UTF-8. Surrogates have no place in it. -/
def utf8Text? (bytes : List UInt8) : Option String :=
  String.fromUTF8? ⟨bytes.toArray⟩

def utf8Bytes (s : String) : List UInt8 := s.toUTF8.toList

end V2G.Text
