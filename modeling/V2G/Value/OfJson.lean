import V2G.Json.Value
import V2G.Value.Basic

/-!
# Plain arguments

A document as arguments: arrays are lists and objects dictionaries.
-/

namespace V2G.Value

mutual

def ofJson : Json → Value
  | .null => .none
  | .bool b => .bool b
  | .int n => .int n
  | .float x => .float x
  | .str s => .text s
  | .arr js => .list (ofItems js)
  | .obj ms => .dict (ofMembers ms)
termination_by structural j => j

def ofItems : List Json → List Value
  | [] => []
  | j :: js => ofJson j :: ofItems js
termination_by structural js => js

def ofMembers : List (String × Json) → Keyed Value
  | [] => []
  | (k, j) :: ms => (k, ofJson j) :: ofMembers ms
termination_by structural ms => ms

end

end V2G.Value
