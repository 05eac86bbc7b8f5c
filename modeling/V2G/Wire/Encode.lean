import V2G.Base64
import V2G.Error.Failure
import V2G.Json.Value
import V2G.Schema.Declaration

/-!
# Writing the wire form

The object of an element holds its mandatory fields, then those of its optional fields that
are present, then the selected member of its choice group under the member's own key. What
is absent or empty is left out. Bytes are written as Base64 text, tokens, identifiers and
URLs as their text. A selection of what is no member of the group cannot be written.
-/

namespace V2G.Wire

/-- The value of a field with its wire form, and the selection with its own. -/
structure Written where
  value : Value
  json : Except Misuse Json
  selected? : Option (String × Except Misuse Json)

def isPresent (v : Value) : Bool := !v.isNone && !v.isEmptyCollection

def encodeField (parts : Keyed Written) (f : Field) : Except Misuse (List (String × Json)) := do
  match Keyed.get? parts f.name with
  | some p => if f.required || isPresent p.value then return [(f.key, ← p.json)] else return []
  | none => return if f.required then [(f.key, .null)] else []

def encodeChoice (parts : Keyed Written) (c : ChoiceField) :
    Except Misuse (List (String × Json)) := do
  match Keyed.get? parts c.name with
  | some ⟨_, _, some (name, json)⟩ =>
    match c.group.member? name with
    | some m => return [(m.key, ← json)]
    | none => throw (.notAMember name c.group)
  | some ⟨v, _, none⟩ => if v.isNone then return [] else throw (.noAttribute v.typeName "member")
  | none => return []

def encodeElement (e : Element) (parts : Keyed Written) :
    Except Misuse (List (String × Json)) := do
  let mandatory ← e.mandatoryFields.mapM (encodeField parts)
  let optional ← e.optionalFields.mapM (encodeField parts)
  let chosen ← e.choice.toList.mapM (encodeChoice parts)
  return (mandatory ++ optional ++ chosen).flatten

mutual

def encode : Value → Except Misuse Json
  | .none => return .null
  | .bool b => return .bool b
  | .int n => return .int n
  | .float x => return .float x
  | .text s => return .str s
  | .token _ s => return .str s
  | .identifier _ s => return .str s
  | .url s => return .str s
  | .bytes data => return .str (String.ofList (Base64.encode data))
  | .tuple xs => return .arr (← encodeItems xs)
  | .list xs => return .arr (← encodeItems xs)
  | .choice m v => return .arr [.str m, ← encode v]
  | .dict es => return .str (Value.dict es).shown
  | .element e fs => return .obj (← encodeElement e (writtenFields fs))
termination_by structural v => v

def encodeItems : List Value → Except Misuse (List Json)
  | [] => return []
  | v :: vs => return (← encode v) :: (← encodeItems vs)
termination_by structural vs => vs

def selected? : Value → Option (String × Except Misuse Json)
  | .choice m v => some (m, encode v)
  | _ => none
termination_by structural v => v

def writtenFields : List (String × Value) → Keyed Written
  | [] => []
  | (k, v) :: fs => (k, ⟨v, encode v, selected? v⟩) :: writtenFields fs
termination_by structural fs => fs

end

theorem encodeItems_eq (vs : List Value) : encodeItems vs = vs.mapM encode := by
  induction vs with
  | nil => rfl
  | cons v vs ih => rw [encodeItems, ih, List.mapM_cons]

theorem encode_tuple (vs : List Value) : encode (.tuple vs) = (vs.mapM encode).map .arr := by
  rw [encode, encodeItems_eq]
  rfl

theorem writtenFields_eq (fs : List (String × Value)) :
    writtenFields fs = fs.map fun (k, v) => (k, ⟨v, encode v, selected? v⟩) := by
  induction fs with
  | nil => rfl
  | cons f fs ih => simp [writtenFields, ih]

end V2G.Wire
