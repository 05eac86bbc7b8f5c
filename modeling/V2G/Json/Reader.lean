import V2G.Json.Token

/-!
# Reading JSON

A machine with a stack of open arrays and objects takes one token after the other. Each
state names what it expects; a token that does not fit is reported at its position. A key
that is repeated keeps its first place and takes its last value. How many digits an integer
may have is up to the caller.
-/

namespace V2G.Json

/-- The number of decimal digits that an integer may have, where no other limit is set. -/
def digitLimit : Option Nat := some 4300

/-- An array or object that waits for the value of its next item or member. -/
inductive Frame where
  | item (before : List Json)
  | member (before : List (String × Json)) (key : String)

/-- What is expected next. Items are held in reverse. -/
inductive State where
  | value (stack : List Frame)
  | firstItem (stack : List Frame)
  | firstKey (stack : List Frame)
  | nextKey (before : List (String × Json)) (stack : List Frame)
  | colon (before : List (String × Json)) (key : String) (stack : List Frame)
  | afterItem (items : List Json) (stack : List Frame)
  | afterMember (members : List (String × Json)) (stack : List Frame)
  | finished (v : Json)

/-- Hands a value to the array or object that waits for it. -/
def State.complete (v : Json) : List Frame → State
  | [] => .finished v
  | .item items :: stack => .afterItem (v :: items) stack
  | .member members key :: stack => .afterMember (Keyed.put members key v) stack

def stepInteger (limit : Option Nat) (digits : Nat) (n : Int) (stack : List Frame) :
    Except TextFault State :=
  match limit.filter (· < digits) with
  | some most => .error (.tooManyDigits most digits)
  | none => .ok (.complete (.int n) stack)

def stepValue (limit : Option Nat) (t : Placed) (stack : List Frame) : Except TextFault State :=
  match t.token with
  | .integer digits n => stepInteger limit digits n stack
  | .scalar v => .ok (.complete v stack)
  | .text s => .ok (.complete (.str s) stack)
  | .openBracket => .ok (.firstItem stack)
  | .openBrace => .ok (.firstKey stack)
  | .brokenText e => .error e
  | _ => .error (.expectedValue t.pos)

def stepKey (t : Placed) (before : List (String × Json)) (stack : List Frame) :
    Except TextFault State :=
  match t.token with
  | .text s => .ok (.colon before s stack)
  | .brokenText e => .error e
  | _ => .error (.expectedKey t.pos)

def State.step (limit : Option Nat) (t : Placed) : State → Except TextFault State
  | .value stack => stepValue limit t stack
  | .firstItem stack =>
    match t.token with
    | .closeBracket => .ok (.complete (.arr []) stack)
    | _ => stepValue limit t (.item [] :: stack)
  | .firstKey stack =>
    match t.token with
    | .closeBrace => .ok (.complete (.obj []) stack)
    | _ => stepKey t [] stack
  | .nextKey before stack => stepKey t before stack
  | .colon before key stack =>
    match t.token with
    | .colon => .ok (.value (.member before key :: stack))
    | _ => .error (.expectedColon t.pos)
  | .afterItem items stack =>
    match t.token with
    | .comma => .ok (.value (.item items :: stack))
    | .closeBracket => .ok (.complete (.arr items.reverse) stack)
    | _ => .error (.expectedComma t.pos)
  | .afterMember members stack =>
    match t.token with
    | .comma => .ok (.nextKey members stack)
    | .closeBrace => .ok (.complete (.obj members) stack)
    | _ => .error (.expectedComma t.pos)
  | .finished _ => .error (.extraData t.pos)

/-- The verdict where the text ends. -/
def State.close (pos : Nat) : State → Except TextFault Json
  | .value _ | .firstItem _ => .error (.expectedValue pos)
  | .firstKey _ | .nextKey _ _ => .error (.expectedKey pos)
  | .colon _ _ _ => .error (.expectedColon pos)
  | .afterItem _ _ | .afterMember _ _ => .error (.expectedComma pos)
  | .finished v => .ok v

def State.run (limit : Option Nat) : List Placed → State → Except TextFault State
  | [], s => .ok s
  | t :: ts, s => do State.run limit ts (← s.step limit t)

/-- The value of a text without a byte order mark. -/
def readBody (text : List Char) (limit : Option Nat := digitLimit) : Except TextFault Json := do
  let (ts, last) := tokens 0 text
  (← State.run limit ts (.value [])).close last

/-- The value of a text. A byte order mark is refused, as characters need none. -/
def read (text : List Char) (limit : Option Nat := digitLimit) : Except TextFault Json :=
  match text with
  | '\ufeff' :: _ => .error .byteOrderMark
  | text => readBody text limit

namespace TextFault

/-- Where a fault lies: line and column count from one, characters from zero. -/
def place (text : List Char) (pos : Nat) : String :=
  let before := text.take pos
  let column := (before.reverse.takeWhile (· ≠ '\n')).length + 1
  let line := before.count '\n' + 1
  s!": line {line} column {column} (char {pos})"

def message (text : List Char) : TextFault → String
  | .byteOrderMark => "Unexpected UTF-8 BOM (decode using utf-8-sig)" ++ place text 0
  | .expectedValue p => "Expecting value" ++ place text p
  | .expectedKey p => "Expecting property name enclosed in double quotes" ++ place text p
  | .expectedColon p => "Expecting ':' delimiter" ++ place text p
  | .expectedComma p => "Expecting ',' delimiter" ++ place text p
  | .extraData p => "Extra data" ++ place text p
  | .unterminated p => "Unterminated string starting at" ++ place text p
  | .controlCharacter p => "Invalid control character at" ++ place text p
  | .unknownEscape p => "Invalid \\escape" ++ place text p
  | .badCodeUnit p => "Invalid \\uXXXX escape" ++ place text p
  | .tooManyDigits limit n =>
    s!"Exceeds the limit ({limit} digits) for integer string conversion: " ++
      s!"value has {n} digits; use sys.set_int_max_str_digits() to increase the limit"

end TextFault

end V2G.Json
