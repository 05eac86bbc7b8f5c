import V2G.Schema.Registry
import V2G.Value.Basic
import V2G.Number.Shortest
import V2G.Text.Quoted

/-!
# Values in texts

`shown` is a value inside a sentence, where a text stands as it is. `quoted` is a value
inside another one, where a text stands in quotes.
-/

namespace V2G.Value

def intText (n : Int) : String := toString n

def floatText (x : Double) : String :=
  if x.isNaN then "nan"
  else if x.isFinite then x.decimalText
  else if x.isNegative then "-inf"
  else "inf"

def tokenSymbol (t : TokenType) (token : String) : String :=
  t.name ++ "." ++ (t.symbol? token).getD token

mutual

def quoted : Value → String
  | .none => "None"
  | .bool b => if b then "True" else "False"
  | .int n => intText n
  | .float x => floatText x
  | .text s => Text.quoted s
  | .bytes data => Text.quotedBytes data
  | .token t s => "<" ++ tokenSymbol t s ++ ": " ++ Text.quoted s ++ ">"
  | .identifier t s => t.name ++ "(" ++ Text.quoted s ++ ")"
  | .url s => "HttpUrl(" ++ Text.quoted s ++ ")"
  | .tuple [x] => "(" ++ quoted x ++ ",)"
  | .tuple xs => "(" ++ ", ".intercalate (quotedItems xs) ++ ")"
  | .list xs => "[" ++ ", ".intercalate (quotedItems xs) ++ "]"
  | .dict es => "\x7b" ++ ", ".intercalate (quotedEntries es) ++ "\x7d"
  | .choice m v => "Choice(member=" ++ Text.quoted m ++ ", value=" ++ quoted v ++ ")"
  | .element e fs => e.name ++ "(" ++ ", ".intercalate (quotedFields fs) ++ ")"
termination_by structural v => v

def quotedItems : List Value → List String
  | [] => []
  | x :: xs => quoted x :: quotedItems xs
termination_by structural l => l

def quotedEntries : List (String × Value) → List String
  | [] => []
  | (k, v) :: es => (Text.quoted k ++ ": " ++ quoted v) :: quotedEntries es
termination_by structural l => l

def quotedFields : List (String × Value) → List String
  | [] => []
  | (k, v) :: es => (k ++ "=" ++ quoted v) :: quotedFields es
termination_by structural l => l

end

def shown : Value → String
  | .text s | .identifier _ s | .url s => s
  | .token t s => tokenSymbol t s
  | .element e _ => e.title
  | v => v.quoted

end V2G.Value
