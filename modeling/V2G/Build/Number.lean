import V2G.Build.Refusal
import V2G.Text.Blank
import V2G.Text.Encoding

/-!
# Numbers and truth values from arguments

Arguments need not have the type of their field: an integer may be given as a truth value,
as a floating-point number without a fraction, or as decimal text with blanks around it, a
sign, leading zeros, underscores between digits and a fraction of zeros. A truth value
may be given as 0 or 1 or as one of a dozen words.
-/

namespace V2G.Build

/-- The text of an argument that is one, or that is the UTF-8 form of one. -/
def spelled? : Value → Option (Option String)
  | .bytes data => some (Text.utf8Text? data)
  | v => v.text?.map some

/-! ### Integers -/

/-- The most digits of a number. -/
def maxDigits : Nat := 4300

def isDigit (c : Char) : Bool := '0' ≤ c && c ≤ '9'

def decimalValue (cs : List Char) : Nat := cs.foldl (fun n c => 10 * n + (c.toNat - 48)) 0

/-- A decimal number as it is written: a minus sign perhaps, digits, no leading zeros. One of
too many digits is refused as such, whatever follows them. -/
def plainInt (cs : List Char) : Except Fault Int :=
  let (negative, digits) := match cs with
    | '-' :: rest => (true, rest)
    | _ => (false, cs)
  match digits with
  | [] => .error .unreadableInt
  | '0' :: _ :: _ => .error .unreadableInt
  | _ =>
    if maxDigits < (digits.takeWhile isDigit).length then .error .overlongInt
    else if !digits.all isDigit then .error .unreadableInt
    else .ok (if negative then -decimalValue digits else decimalValue digits)

/-- What follows leading zeros, with the last zero where no other digit follows. A minus sign
may stand between the zeros and the other digits. -/
def afterZeros (before : Char) : List Char → Option (List Char)
  | [] => some [before]
  | c :: rest =>
    if c = '0' || c = '_' then afterZeros c rest
    else if '1' ≤ c && c ≤ '9' || c = '-' then some (c :: rest)
    else if c = '.' then some (before :: c :: rest)
    else none

def dropZeros : List Char → Option (List Char)
  | [] => none
  | c :: rest =>
    if c = '0' then afterZeros c rest
    else if isDigit c then some (c :: rest)
    else none

/-- A text without a fraction of zeros, of which there is at least one. -/
def dropFraction (cs : List Char) : List Char :=
  let whole := cs.takeWhile (· != '.')
  match cs.drop whole.length with
  | '.' :: '0' :: zeros => if zeros.all (· == '0') then whole else cs
  | _ => cs

def hasDoubleUnderscore : List Char → Bool
  | '_' :: '_' :: _ => true
  | _ :: rest => hasDoubleUnderscore rest
  | [] => false

/-- A text without the underscores between its digits, if they stand singly. -/
def dropUnderscores (cs : List Char) : List Char :=
  if cs.head? != some '_' && cs.getLast? != some '_' && !hasDoubleUnderscore cs
  then cs.filter (· != '_')
  else cs

/-- The plain form of a number without a sign. -/
def cleanSize (cs : List Char) : Option (List Char) :=
  (dropZeros cs).map fun digits => dropUnderscores (dropFraction digits)

/-- The plain form of a number written with more freedom. Its sign, if it has one, is read
before its zeros. -/
def cleanInt (cs : List Char) : Option (List Char) :=
  match Text.trim Text.isWhiteSpace cs with
  | '+' :: '-' :: _ => none
  | '+' :: size => cleanSize size
  | '-' :: size => (cleanSize size).map ('-' :: ·)
  | size => cleanSize size

def intOfText (cs : List Char) : Except Fault Int :=
  match plainInt cs with
  | .error .unreadableInt =>
    match cleanInt cs with
    | some plain => plainInt plain
    | none => .error .unreadableInt
  | outcome => outcome

/-- The integers that a floating-point number may stand for. -/
def isWord (n : Int) : Bool := -0x8000000000000000 < n && n < 0x8000000000000000

def intOfFloat (x : Double) : Except Fault Int :=
  if !x.isFinite then .error .notFinite
  else
    match x.toInt? with
    | none => .error .fractionalInt
    | some n => if isWord n then .ok n else .error .overlongInt

def readInt (v : Value) : Except Fault Int :=
  match v with
  | .int n => .ok n
  | .bool b => .ok (if b then 1 else 0)
  | .float x => intOfFloat x
  | v =>
    match spelled? v with
    | some (some s) => intOfText s.toList
    | some none => .error .unreadableInt
    | none => .error .notInt

def inRange (low high : Option Int) (n : Int) : Except Fault Int :=
  match low.filter (n < ·), high.filter (· < n) with
  | some low, _ => .error (.tooSmall low)
  | none, some high => .error (.tooLarge high)
  | none, none => .ok n

/-! ### Truth values -/

def falseWords : List String := ["0", "f", "n", "no", "off", "false"]
def trueWords : List String := ["1", "t", "y", "on", "yes", "true"]

def boolOfText (s : String) : Except Fault Bool :=
  let word := String.ofList (s.toList.map Char.toLower)
  if falseWords.contains word then .ok false
  else if trueWords.contains word then .ok true
  else .error .unreadableBool

def boolOfInt (n : Int) : Except Fault Bool :=
  if n = 0 then .ok false else if n = 1 then .ok true else .error .unreadableBool

def readBool (v : Value) : Except Fault Bool :=
  match v with
  | .bool b => .ok b
  | .int n => if isWord n || n = -0x8000000000000000 then boolOfInt n else .error .notBool
  | .float x =>
    match x.toInt? with
    | some n => if isWord n then boolOfInt n else .error .notBool
    | none => .error .notBool
  | v =>
    match spelled? v with
    | some (some s) => boolOfText s
    | some none => .error .unreadableBool
    | none => .error .notBool

end V2G.Build
